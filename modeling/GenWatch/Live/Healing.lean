import GenWatch.Ats.LoadSource
import GenWatch.Live.Feed

/-! # A pushed poll heals the page

Announcements get lost: a queue overflows, a socket closes, a callback of the slow tier
announces late what is no longer so. A page stays wrong about the engine no longer than until
the next snapshot: once it has received what a pushed poll of the fast tier published, it shows
what a reload of the page would show, whatever it showed before.
-/

namespace GenWatch

open Transition Handler

/-- The body shows what a fresh answer to the status request shows. The list of alarms is not
compared, nor what a push leaves out: the time of the last success and the fields that identify the
companion. A push has no number of starts but what a register says, so that this is shown, and
nothing without such a register, where a fresh answer counts the starts in the log. -/
structure StatusBody.Mirrors (starts : Option ℚ) (b fresh : StatusBody) : Prop where
  state : b.state = fresh.state
  timeInState : b.timeInState = fresh.timeInState
  alarmRaw : b.alarmRaw = fresh.alarmRaw
  loadSource : b.loadSource = fresh.loadSource
  timeInLoadSource : b.timeInLoadSource = fresh.timeInLoadSource
  transferred : b.hts.transferredToGen = fresh.hts.transferredToGen
  comms : { b.comms with lastGoodAt := none } = { fresh.comms with lastGoodAt := none }
  panel : b.panel = fresh.panel
  reading : ∀ k ≠ .startCount, b.reading k = fresh.reading k
  starts : b.reading .startCount = starts ∧ ∀ n ∈ starts, fresh.reading .startCount = some n
  ats : ∀ a', fresh.ats = .enabled a' →
    ∃ a, b.ats = .enabled a ∧ a.anonymous = a'.anonymous

namespace StatusBody

variable {starts : Option ℚ} {b fresh : StatusBody}

/-- The event says nothing that the body contradicts. -/
def Agrees (fresh : StatusBody) (e : Event) : Prop :=
  (∀ state ∈ e.stateArrival, state = fresh.state ∧ fresh.timeInState = 0) ∧
  (e.routine = true ∨ ∃ old ts, e = .loadSource old fresh.loadSource ts ∧
    fresh.timeInLoadSource = 0)

theorem Mirrors.applyEvent (h : b.Mirrors starts fresh)
    (hlock : fresh.hts.transferredToGen = decide (fresh.loadSource = .generator)) {e : Event}
    (he : fresh.Agrees e) : (b.apply (.event e)).Mirrors starts fresh := by
  obtain ⟨hstate, hroutine | ⟨old, ts, rfl, hsource⟩⟩ := he
  · cases e with
    | transition old new ts =>
      obtain ⟨hnew, hzero⟩ := hstate new rfl
      exact { h with state := hnew, timeInState := hzero.symm }
    | alarm _ _ _ _ | alarmCleared _ _ _ | disagreeCleared _ _ _ | comms _ _ _ _ =>
      exact { h with }
    | _ => cases hroutine
  · exact { h with
      loadSource := rfl
      timeInLoadSource := hsource.symm
      transferred := hlock.symm }

theorem Mirrors.applyEvents (h : b.Mirrors starts fresh)
    (hlock : fresh.hts.transferredToGen = decide (fresh.loadSource = .generator))
    {es : List Event} (hes : ∀ e ∈ es, fresh.Agrees e) :
    ((es.map LiveMessage.event).foldl apply b).Mirrors starts fresh := by
  induction es generalizing b with
  | nil => exact h
  | cons e es ih =>
    exact ih (h.applyEvent hlock (hes e (by simp))) fun e' he' => hes e' (by simp [he'])

theorem anonymous_merge (prev : AtsBlock) (a : AtsFields) :
    ∃ a', prev.merge (.enabled a) = .enabled a' ∧ a'.anonymous = a.anonymous := by
  cases prev with
  | disabled => exact ⟨a, rfl, rfl⟩
  | enabled p => exact ⟨_, rfl, rfl⟩

end StatusBody

namespace Monitor

variable {mon : Monitor} {faults : List Bool} {now : ℚ} {reading : Reading}

theorem onPoll_told (h : mon.PollCompletes faults now reading) :
    let r := mon.onPoll faults now reading
    r.1.stateMachine.regmap = mon.stateMachine.regmap ∧
      r.1.stateMachine.snap.lastReading = reading ∧ r.1.stateMachine.snap.comms = .poller ∧
      r.1.stateMachine.snap.panelMode = r.1.stateMachine.regmap.derivePanelMode reading.values ∧
      ∀ e ∈ r.2, (r.1.statusBody now).Agrees e := by
  unfold PollCompletes at h
  unfold onPoll
  cases hr : (StateMachine.update ⟨now, mon.atsView, mon.heap⟩ reading .poller).run
      ⟨mon.stateMachine, mon.db, [], faults⟩ with
  | error e c =>
    rw [hr] at h
    cases h
  | ok u c =>
    obtain ⟨hmap, hstate, hsince, -, harrivals⟩ := StateMachine.update_told hr
    obtain ⟨hreading, hcomms, hpanel⟩ := StateMachine.update_stored hr
    have hsel : ∀ e : Event, e.routine = true →
        (fun e => if e.routine then none else some e) e = none := fun e he => if_pos he
    obtain ⟨hsource, hmoved, hothers⟩ := StateMachine.update_loadSource hsel hr
    refine ⟨hmap, hreading, hcomms, ?_, fun e he => ⟨fun state hstate' => ?_, ?_⟩⟩
    · exact hpanel.trans (by rw [← hmap]; rfl)
    · have hmem : state ∈ c.emitted.filterMap Event.stateArrival :=
        List.mem_filterMap.mpr ⟨e, he, hstate'⟩
      rw [harrivals] at hmem
      simp only [List.filterMap_nil, List.nil_append] at hmem
      split at hmem
      · rename_i hne
        refine ⟨(List.mem_singleton.mp hmem).trans hstate.symm, ?_⟩
        exact StateSnapshot.timeInStateS_of_now (hsince hne)
      · cases hmem
    · by_cases hroutine : e.routine = true
      · exact Or.inl hroutine
      · right
        have hmem : e ∈ c.emitted.filterMap fun e => if e.routine then none else some e :=
          List.mem_filterMap.mpr ⟨e, he, if_neg hroutine⟩
        rw [hothers] at hmem
        obtain ⟨he', -⟩ : e ∈ StateMachine.loadSourceEvents _ _ _ _ ∧ _ := by simpa using hmem
        unfold StateMachine.loadSourceEvents at he'
        split at he'
        · rename_i hne
          obtain rfl := List.mem_singleton.mp he'
          refine ⟨mon.stateMachine.snap.loadSource, now, ?_, ?_⟩
          · rw [← hsource]
            rfl
          · rw [← hsource] at hne
            exact StateSnapshot.timeInLoadSourceS_of_now (hmoved hne.1)
        · cases he'

theorem lockstep_statusBody : (mon.statusBody now).Lockstep := rfl

theorem mirrors_snapshot (b : StatusBody)
    (hreading : mon.stateMachine.snap.lastReading = reading)
    (hcomms : mon.stateMachine.snap.comms = .poller)
    (hpanel : mon.stateMachine.snap.panelMode =
      mon.stateMachine.regmap.derivePanelMode reading.values) :
    (b.apply (.snapshot (mon.snapshotMsg now reading))).Mirrors (reading.values "start_count")
      (mon.statusBody now) := by
  subst hreading
  constructor
  · rfl
  · rfl
  · rfl
  · rfl
  · rfl
  · rfl
  · simp only [statusBody, hcomms]
    rfl
  · simp only [statusBody, ← hpanel]
    rfl
  · intro k hk
    simp only [statusBody, Function.update_of_ne hk]
    rfl
  · constructor
    · rfl
    · intro n hn
      simp only [statusBody, Function.update_self, Option.mem_def.mp hn, Option.getD_some]
  · intro a' ha'
    cases hats : mon.ats with
    | none => simp [statusBody, hats] at ha'
    | some ats =>
      simp only [statusBody, hats, AtsBlock.enabled.injEq] at ha'
      subst ha'
      obtain ⟨a, ha, hsame⟩ := StatusBody.anonymous_merge b.ats (ats.block mon.heap).anonymous
      refine ⟨a, ?_, hsame⟩
      rw [← ha]
      simp [StatusBody.apply, StatusBody.applySnapshot, snapshotMsg, hats]

/-- Whatever a page shows before: once it has applied what a pushed poll publishes, it mirrors the
status. -/
theorem mirrors_published (b : StatusBody) (h : mon.PollCompletes faults now reading) :
    let r := mon.onPoll faults now reading
    ((LiveMessage.snapshot (r.1.snapshotMsg now reading) :: r.2.map .event).foldl
      StatusBody.apply b).Mirrors (reading.values "start_count") (r.1.statusBody now) := by
  obtain ⟨-, hreading, hcomms, hpanel, hagrees⟩ := onPoll_told h
  exact (mirrors_snapshot b hreading hcomms hpanel).applyEvents lockstep_statusBody hagrees

end Monitor

namespace Feed

variable {s s' : Feed} {l : Label}

theorem pageStep_cases (h : s.pageStep l = some s') :
    ∃ pl page, s.pageLabel l = some pl ∧ s.page.step pl = some page ∧
      s' = { s with page := page, nextConn := (s.received l).1, seen := (s.received l).2 } := by
  obtain ⟨pl, hpl, h⟩ := Option.bind_eq_some_iff.mp h
  obtain ⟨page, hpage, rfl⟩ := Option.map_eq_some_iff.mp h
  exact ⟨pl, page, hpl, hpage, rfl⟩

theorem step_cases (h : s.step l = some s') :
    (s'.page = s.page ∧ s'.seen = s.seen ∧ s.nextConn ≤ s'.nextConn ∧
      ((∃ msgs, s'.bus = s.bus.publishAll msgs) ∨
        ∃ bl, (∀ c mono, bl = .subscribe c mono → c < s.nextConn) ∧
          s.bus.step bl = some s'.bus)) ∨
    s.pageStep l = some s' := by
  cases l with
  | poll tier faults now reading =>
    cases tier with
    | prime =>
      obtain rfl := Option.some.inj h
      exact Or.inl ⟨rfl, rfl, le_rfl, Or.inl ⟨_, rfl⟩⟩
    | base =>
      simp only [step] at h
      split at h
      · cases h
      · obtain rfl := Option.some.inj h
        exact Or.inl ⟨rfl, rfl, le_rfl, Or.inl ⟨[], rfl⟩⟩
  | telemetryWritten =>
    simp only [step] at h
    split at h
    · obtain rfl := Option.some.inj h
      exact Or.inl ⟨rfl, rfl, le_rfl, Or.inl ⟨_, rfl⟩⟩
    · cases h
  | atsPoll faults now mono tier reading =>
    obtain ⟨ats, -, rfl⟩ := Option.map_eq_some_iff.mp h
    exact Or.inl ⟨rfl, rfl, le_rfl, Or.inl ⟨_, rfl⟩⟩
  | other i =>
    simp only [step] at h
    split at h
    · cases h
    · obtain ⟨r, -, rfl⟩ := Option.map_eq_some_iff.mp h
      exact Or.inl ⟨rfl, rfl, le_rfl, Or.inl ⟨[], rfl⟩⟩
  | applyRegmap m | ack code operator ctl now =>
    obtain rfl := Option.some.inj h
    exact Or.inl ⟨rfl, rfl, le_rfl, Or.inl ⟨[], rfl⟩⟩
  | connect =>
    obtain rfl := Option.some.inj h
    exact Or.inl ⟨rfl, rfl, Nat.le_succ _, Or.inl ⟨[], rfl⟩⟩
  | subscribe c mono =>
    simp only [step] at h
    split at h
    · rename_i hlt
      obtain ⟨bus, hbus, rfl⟩ := Option.map_eq_some_iff.mp h
      refine Or.inl ⟨rfl, rfl, le_rfl, Or.inr ⟨_, ?_, hbus⟩⟩
      rintro c' mono' ⟨⟩
      exact hlt
    · cases h
  | conn c cl =>
    obtain ⟨bus, hbus, rfl⟩ := Option.map_eq_some_iff.mp h
    exact Or.inl ⟨rfl, rfl, le_rfl, Or.inr ⟨_, by rintro _ _ ⟨⟩, hbus⟩⟩
  | statusRead now =>
    simp only [step] at h
    split at h
    · obtain rfl := Option.some.inj h
      exact Or.inl ⟨rfl, rfl, le_rfl, Or.inl ⟨[], rfl⟩⟩
    · cases h
  | _ => exact Or.inr h

structure Sound (s : Feed) : Prop where
  fresh : ∀ c, s.nextConn ≤ c → s.bus.conns c = none
  idle : s.page.seeding = true → s.page.sock = .idle
  page : ∀ c, s.page.sock.conn? = some c → c < s.nextConn ∧
    (s.bus.conns c = none → s.seen = 0) ∧ ∀ k ∈ s.bus.conns c, s.seen ≤ k.sent.length

theorem sound_start (mon : Monitor) (pushThrottleS lastPushTs : ℚ) :
    (start mon pushThrottleS lastPushTs).Sound where
  fresh _ _ := rfl
  idle _ := rfl
  page _ hc := by cases hc

/-- Whatever happens on the server, what has been sent stays sent. -/
theorem Sound.serve (h : s.Sound) (hpage : s'.page = s.page) (hseen : s'.seen = s.seen)
    (hnext : s.nextConn ≤ s'.nextConn)
    (hfresh : ∀ c, s.nextConn ≤ c → s'.bus.conns c = none)
    (hsent : ∀ c k', s'.bus.conns c = some k' →
      k'.sent = [] ∧ s.bus.conns c = none ∨ ∃ k, s.bus.conns c = some k ∧ k.sent <+: k'.sent)
    (hnone : ∀ c, s'.bus.conns c = none → s.bus.conns c = none) : s'.Sound where
  fresh c hc := hfresh c (hnext.trans hc)
  idle := hpage ▸ h.idle
  page c hc := by
    rw [hpage] at hc
    obtain ⟨hlt, hzero, hle⟩ := h.page c hc
    rw [hseen]
    refine ⟨hlt.trans_le hnext, fun hn => hzero (hnone c hn), fun k' hk' => ?_⟩
    rcases hsent c k' hk' with ⟨-, hn⟩ | ⟨k, hk, hpre⟩
    · rw [hzero hn]
      exact Nat.zero_le _
    · exact (hle k hk).trans hpre.length_le

theorem Sound.publishes (h : s.Sound) (hpage : s'.page = s.page) (hseen : s'.seen = s.seen)
    (hnext : s.nextConn ≤ s'.nextConn) {msgs : List LiveMessage}
    (hbus : s'.bus = s.bus.publishAll msgs) : s'.Sound := by
  have hconn : ∀ c, s'.bus.conns c = none ∧ s.bus.conns c = none ∨
      ∃ k k', s'.bus.conns c = some k' ∧ s.bus.conns c = some k ∧ k'.sent = k.sent := by
    intro c
    rw [hbus]
    cases hk : s.bus.conns c with
    | none => exact Or.inl ⟨LiveBus.conns_publishAll_of_none hk, rfl⟩
    | some k =>
      obtain ⟨k', hk', hsent⟩ := LiveBus.conns_publishAll_of_some msgs hk
      exact Or.inr ⟨k, k', hk', rfl, hsent⟩
  apply h.serve hpage hseen hnext
  · intro c hc
    rw [hbus]
    exact LiveBus.conns_publishAll_of_none (h.fresh c hc)
  · intro c k' hk'
    right
    rcases hconn c with ⟨hn, -⟩ | ⟨k, k₀, hk₀, hk, hsent⟩
    · rw [hk'] at hn
      cases hn
    · obtain rfl := Option.some.inj (hk'.symm.trans hk₀)
      exact ⟨k, hk, by rw [hsent]⟩
  · intro c hn
    rcases hconn c with ⟨-, hn'⟩ | ⟨k, k₀, hk₀, -⟩
    · exact hn'
    · rw [hn] at hk₀
      cases hk₀

theorem Sound.busStep (h : s.Sound) (hpage : s'.page = s.page) (hseen : s'.seen = s.seen)
    (hnext : s.nextConn ≤ s'.nextConn) {bl : LiveBus.Label ℕ LiveMessage}
    (hold : ∀ c mono, bl = .subscribe c mono → c < s.nextConn)
    (hbus : s.bus.step bl = some s'.bus) : s'.Sound := by
  cases bl with
  | publish msg =>
    have hone : s'.bus = s.bus.publishAll [msg] := (Option.some.inj hbus).symm
    exact h.publishes hpage hseen hnext hone
  | subscribe c₀ mono =>
    obtain ⟨hnone, heq⟩ := LiveBus.step_subscribe hbus
    have hlt := hold c₀ mono rfl
    apply h.serve hpage hseen hnext
    · intro c hc
      rw [heq, LiveBus.conns_subscribe_of_ne (by omega)]
      exact h.fresh c hc
    · intro c k' hk'
      rw [heq] at hk'
      by_cases hc : c = c₀
      · subst hc
        rw [LiveBus.conns_subscribe_self] at hk'
        obtain rfl := Option.some.inj hk'
        exact Or.inl ⟨rfl, hnone⟩
      · rw [LiveBus.conns_subscribe_of_ne hc] at hk'
        exact Or.inr ⟨k', hk', List.prefix_rfl⟩
    · intro c hn
      rw [heq] at hn
      by_cases hc : c = c₀
      · exact hc ▸ hnone
      · rwa [LiveBus.conns_subscribe_of_ne hc] at hn
  | conn c₀ cl =>
    obtain ⟨k₀, k₁, hk₀, hstep, heq⟩ := LiveBus.step_conn hbus
    apply h.serve hpage hseen hnext
    · intro c hc
      have hne : c ≠ c₀ := by
        rintro rfl
        rw [h.fresh c hc] at hk₀
        cases hk₀
      rw [heq, LiveBus.conns_setConn_of_ne hne]
      exact h.fresh c hc
    · intro c k' hk'
      rw [heq] at hk'
      right
      by_cases hc : c = c₀
      · subst hc
        rw [LiveBus.conns_setConn_self] at hk'
        obtain rfl := Option.some.inj hk'
        exact ⟨k₀, hk₀, Conn.sent_prefix hstep⟩
      · rw [LiveBus.conns_setConn_of_ne hc] at hk'
        exact ⟨k', hk', List.prefix_rfl⟩
    · intro c hn
      rw [heq] at hn
      by_cases hc : c = c₀
      · subst hc
        rw [LiveBus.conns_setConn_self] at hn
        cases hn
      · rwa [LiveBus.conns_setConn_of_ne hc] at hn

/-- A step of the page opens a new connection, gives its own up, or keeps it and applies what
arrives. -/
inductive PageOutcome (s : Feed) (page : Page) (received : ℕ × ℕ) : Prop where
  | opens (hsock : page.sock = .connecting s.nextConn) (hseeding : page.seeding = false)
      (hreceived : received = (s.nextConn + 1, 0))
  | closes (hopen : s.page.sock ≠ .idle) (hsock : page.sock = .closed)
      (hseeding : page.seeding = s.page.seeding) (hreceived : received = (s.nextConn, s.seen))
  | keeps (hsock : page.sock.conn? = s.page.sock.conn?)
      (hidle : s.page.sock = .idle → page.sock = .idle)
      (hseeding : page.seeding = s.page.seeding) (hstatus : page.status = s.page.status)
      (hreceived : received = (s.nextConn, s.seen))
  | receives (c : ℕ) (hopened : s.page.sock = .opened c) (hsock : page.sock = s.page.sock)
      (hseeding : page.seeding = s.page.seeding) (k : Conn LiveMessage)
      (hk : s.bus.conns c = some k) (msg : LiveMessage) (hmsg : k.sent[s.seen]? = some msg)
      (hstatus : page.status = s.page.status.map fun b => b.apply msg)
      (hreceived : received = (s.nextConn, s.seen + 1))

theorem status_applyMessage (p : Page) (msg : LiveMessage) (now : ℤ) :
    (p.applyMessage msg now).status = p.status.map (fun b => b.apply msg) ∧
      (p.applyMessage msg now).sock = p.sock ∧ (p.applyMessage msg now).seeding = p.seeding := by
  unfold Page.applyMessage
  cases hstatus : p.status with
  | none => exact ⟨hstatus, rfl, rfl⟩
  | some b => exact ⟨rfl, rfl, rfl⟩

theorem pageOutcome_keepalive {hello : Bool} {now : ℤ} {page : Page}
    (hs : s.page.step (.onmessage (if hello then .hello else .ping) now) = some page) :
    PageOutcome s page (s.nextConn, s.seen) := by
  obtain ⟨c, -, rfl⟩ := Page.step_onmessage hs
  obtain ⟨hstatus, hkeep, hseeding⟩ :=
    status_applyMessage s.page (if hello then .hello else .ping) now
  refine .keeps (by rw [hkeep]) (fun hi => by rw [hkeep]; exact hi) hseeding ?_ rfl
  rw [hstatus]
  cases hello <;> cases s.page.status <;> rfl

theorem pageOutcome_onmessage {msg : LiveMessage} {now : ℤ} {page : Page}
    (harrival : s.arrival = some msg) (hs : s.page.step (.onmessage msg now) = some page) :
    PageOutcome s page (s.nextConn, s.seen + 1) := by
  unfold arrival at harrival
  split at harrival
  · rename_i c hsock
    obtain ⟨k, hk, hmsg⟩ := Option.bind_eq_some_iff.mp harrival
    obtain ⟨-, -, rfl⟩ := Page.step_onmessage hs
    obtain ⟨hstatus, hkeep, hseeding⟩ := status_applyMessage s.page msg now
    exact .receives c hsock hkeep hseeding k hk msg hmsg hstatus rfl
  · cases harrival

theorem pageOutcome {pl : Page.Label} {page : Page} (hidle : s.page.seeding = true →
    s.page.sock = .idle) (hpl : s.pageLabel l = some pl) (hs : s.page.step pl = some page) :
    PageOutcome s page (s.received l) := by
  cases l with
  | seeded now =>
    obtain ⟨body, -, rfl⟩ := Option.map_eq_some_iff.mp hpl
    obtain ⟨-, hsock, hseeding⟩ := Page.step_seeded hs
    exact .opens hsock hseeding rfl
  | seedFailed error =>
    obtain rfl := Option.some.inj hpl
    obtain ⟨-, hsock, hseeding⟩ := Page.step_seedFailed hs
    exact .opens hsock hseeding rfl
  | onopen =>
    obtain rfl := Option.some.inj hpl
    obtain ⟨c, hsock, rfl⟩ := Page.step_onopen hs
    exact .keeps (by rw [hsock]; rfl) (fun hi => by rw [hsock] at hi; cases hi) rfl rfl rfl
  | stable =>
    obtain rfl := Option.some.inj hpl
    obtain rfl := Page.step_stable hs
    exact .keeps rfl id rfl rfl rfl
  | onmessage now =>
    obtain ⟨msg, harrival, rfl⟩ := Option.map_eq_some_iff.mp hpl
    exact pageOutcome_onmessage harrival hs
  | keepalive hello now =>
    obtain rfl := Option.some.inj hpl
    exact pageOutcome_keepalive hs
  | onclose =>
    obtain rfl := Option.some.inj hpl
    obtain ⟨hopen, rfl⟩ := Page.step_onclose hs
    exact .closes hopen rfl rfl rfl
  | reconnect =>
    obtain rfl := Option.some.inj hpl
    obtain ⟨hsock, rfl⟩ := Page.step_reconnect hs
    have hseeded : s.page.seeding = false := by
      rw [Bool.eq_false_iff]
      intro hseeding
      rw [hidle hseeding] at hsock
      cases hsock
    exact .opens rfl hseeded rfl
  | _ => cases hpl

theorem Sound.step (h : s.Sound) (hs : s.step l = some s') : s'.Sound := by
  rcases step_cases hs with ⟨hpage, hseen, hnext, ⟨msgs, hbus⟩ | ⟨bl, hold, hbus⟩⟩ | hs
  · exact h.publishes hpage hseen hnext hbus
  · exact h.busStep hpage hseen hnext hold hbus
  obtain ⟨pl, page, hpl, hstep, rfl⟩ := pageStep_cases hs
  cases pageOutcome h.idle hpl hstep with
  | opens hsock hseeding hreceived =>
    rw [hreceived]
    constructor
    · intro c hc
      exact h.fresh c (Nat.le_of_succ_le hc)
    · intro hs
      rw [hseeding] at hs
      cases hs
    · intro c hc
      rw [hsock] at hc
      obtain rfl := Option.some.inj hc
      exact ⟨Nat.lt_succ_self _, fun _ => rfl, fun _ _ => Nat.zero_le _⟩
  | closes hopen hsock hseeding hreceived =>
    rw [hreceived]
    constructor
    · exact h.fresh
    · intro hs
      exact absurd (h.idle (hseeding.symm.trans hs)) hopen
    · intro c hc
      rw [hsock] at hc
      cases hc
  | keeps hsock hidle hseeding hstatus hreceived =>
    rw [hreceived]
    constructor
    · exact h.fresh
    · intro hs
      exact hidle (h.idle (hseeding.symm.trans hs))
    · intro c hc
      exact h.page c (hsock.symm.trans hc)
  | receives c₀ hopened hsock hseeding k hk msg hmsg hstatus hreceived =>
    rw [hreceived]
    constructor
    · exact h.fresh
    · intro hs
      exact hsock.trans (h.idle (hseeding.symm.trans hs))
    · intro c hc
      rw [hsock] at hc
      have hc₀ := hc
      rw [hopened] at hc₀
      obtain rfl := Option.some.inj hc₀
      refine ⟨(h.page _ hc).1, fun hn => ?_, fun k' hk' => ?_⟩
      · rw [hn] at hk
        cases hk
      · obtain rfl := Option.some.inj (hk'.symm.trans hk)
        exact (List.getElem?_eq_some_iff.mp hmsg).1

/-- While the page keeps the connection that carries the messages, its body is made of those that
it has received of them. -/
structure Along (c : ℕ) (S : List LiveMessage) (seen₀ : ℕ) (body₀ : Option StatusBody) (t : Feed) :
    Prop where
  sound : t.Sound
  next : c < t.nextConn
  carried : ∃ k, t.bus.conns c = some k ∧ k.Carries S
  page : t.page.sock.conn? = some c → seen₀ ≤ t.seen ∧ (t.seen ≤ S.length →
    t.page.status = body₀.map fun b => ((S.take t.seen).drop seen₀).foldl StatusBody.apply b)

theorem Along.step {c : ℕ} {S : List LiveMessage} {seen₀ : ℕ} {body₀ : Option StatusBody}
    {t t' : Feed} (h : t.Along c S seen₀ body₀) (hs : t.step l = some t') :
    t'.Along c S seen₀ body₀ := by
  have hsound := h.sound.step hs
  rcases step_cases hs with ⟨hpage, hseen, hnext, hbus⟩ | hs
  · refine ⟨hsound, h.next.trans_le hnext, ?_, ?_⟩
    · rcases hbus with ⟨msgs, hbus⟩ | ⟨bl, -, hbus⟩
      · rw [hbus]
        exact LiveBus.carries_publishAll msgs h.carried
      · exact LiveBus.carries_step h.carried hbus
    · rw [hpage, hseen]
      exact h.page
  obtain ⟨pl, page, hpl, hstep, rfl⟩ := pageStep_cases hs
  cases pageOutcome h.sound.idle hpl hstep with
  | opens hsock hseeding hreceived =>
    refine ⟨hsound, ?_, h.carried, fun hc => ?_⟩
    · rw [hreceived]
      exact h.next.trans (Nat.lt_succ_self _)
    · rw [hsock] at hc
      obtain rfl := Option.some.inj hc
      exact absurd h.next (lt_irrefl _)
  | closes hopen hsock hseeding hreceived =>
    refine ⟨hsound, ?_, h.carried, fun hc => ?_⟩
    · rw [hreceived]
      exact h.next
    · rw [hsock] at hc
      cases hc
  | keeps hsock hidle hseeding hstatus hreceived =>
    refine ⟨hsound, ?_, h.carried, fun hc => ?_⟩
    · rw [hreceived]
      exact h.next
    · rw [hreceived, hstatus]
      exact h.page (hsock.symm.trans hc)
  | receives c₀ hopened hsock hseeding k hk msg hmsg hstatus hreceived =>
    refine ⟨hsound, ?_, h.carried, fun hc => ?_⟩
    · rw [hreceived]
      exact h.next
    rw [hsock] at hc
    obtain ⟨hle, hbody⟩ := h.page hc
    rw [hopened] at hc
    obtain rfl := Option.some.inj hc
    obtain ⟨k', hk', hcarries⟩ := h.carried
    obtain rfl := Option.some.inj (hk'.symm.trans hk)
    rw [hreceived]
    refine ⟨hle.trans (Nat.le_succ _), fun hlt => ?_⟩
    change t.seen + 1 ≤ S.length at hlt
    have hnext : S[t.seen]? = some msg := hcarries.getElem? hlt hmsg
    have htake : S.take (t.seen + 1) = S.take t.seen ++ [msg] := by
      rw [List.take_add_one, hnext]
      rfl
    have hlen : seen₀ ≤ (S.take t.seen).length := by
      rw [List.length_take]
      omega
    show page.status = _
    rw [hstatus, hbody (Nat.le_of_succ_le hlt), htake, List.drop_append_of_le_length hlen]
    cases body₀ with
    | none => rfl
    | some b =>
      simp only [Option.map_some, List.foldl_append]
      rfl

end Feed

section Example

open TransferLog

def seededPage : List Feed.Label :=
  [.statusRead 0, .seeded 0, .subscribe 0 0, .conn 0 (.sendDone 0 true), .onopen]

def threeReceived : List Feed.Label :=
  (List.replicate 3 [.conn 0 .take, .conn 0 (.sendDone 1 true), .onmessage 1]).flatten

def runningReading : Reading :=
  ⟨fun name => if name = "status" then some 1 else none, 10, fun _ => none⟩

end Example

end GenWatch
