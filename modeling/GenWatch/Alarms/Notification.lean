import GenWatch.Prelude.Transition
import GenWatch.Services.Slack

/-! # Notifications of an alarm

Raises and clears of a code are throttled apart, so the last notification about a
code may be of the wrong kind: the last event was a repeat inside the window, and
a notification of the other kind went out in between. That is exactly when.
-/

namespace GenWatch

open Transition

/-- A raise or a clear of a code, as it reached the notifier. -/
structure AlarmNews where
  code : String
  kind : AlertKind
  at_ : ℚ

/-- The notifier, with every alarm event it was given and every message it queued. -/
structure Pager where
  notifier : SlackNotifier
  clock : ℚ
  news : List AlarmNews
  sent : List PendingMessage

/-- Events of the two services, alerts of commands, and the worker taking a message. -/
inductive PagerLabel where
  | event (e : Event) (now : ℚ)
  | atsEvent (e : Event) (now : ℚ)
  | command (verb : Action) (operator : String) (ok : Bool) (now : ℚ)
  | take

def Event.news (now : ℚ) : Event → List AlarmNews
  | .alarm code _ _ _ => [⟨code, .raised, now⟩]
  | .alarmCleared code _ _ => [⟨code, .cleared, now⟩]
  | .disagreeCleared code _ _ => [⟨code, .cleared, now⟩]
  | _ => []

namespace SlackConfig

/-- Slack is set up and every alarm alert is switched on. -/
structure AlertsOn (cfg : SlackConfig) : Prop where
  enabled : cfg.enabled = true
  botToken : cfg.botToken ≠ ""
  channel : cfg.channel ≠ ""
  alarm : cfg.alertOnAlarm = true
  warning : cfg.alertOnWarning = true
  alarmCleared : cfg.alertOnAlarmCleared = true

end SlackConfig

namespace Pager

def start (cfg : SlackConfig) (siteName : String) : Pager := ⟨.init cfg siteName, 0, [], []⟩

/-- Time does not run backwards between alerts. -/
def step (s : Pager) : PagerLabel → Option Pager
  | .event e now =>
    if s.clock ≤ now then
      let (msg, n) := s.notifier.forwardToSlack now e
      some ⟨n, now, s.news ++ e.news now, s.sent ++ msg.toList⟩
    else none
  | .atsEvent e now =>
    if s.clock ≤ now then
      let (msg, n) := s.notifier.forwardAtsToSlack now e
      some ⟨n, now, s.news ++ e.news now, s.sent ++ msg.toList⟩
    else none
  | .command verb operator ok now =>
    if s.clock ≤ now then
      let (msg, n) := s.notifier.alertCommand now verb operator ok
      some ⟨n, now, s.news, s.sent ++ msg.toList⟩
    else none
  | .take => some { s with notifier := { s.notifier with queue := s.notifier.queue.tail } }

def lastNews (s : Pager) (code : String) : Option AlarmNews :=
  (s.news.filter fun x => x.code = code).getLast?

/-- The code is up: its last event was a raise. -/
def Active (s : Pager) (code : String) : Prop := (s.lastNews code).map AlarmNews.kind = some .raised

def alerts (s : Pager) : List ((String × AlertKind) × ℚ) :=
  s.sent.filterMap fun m => m.text.about.map fun k => (k, m.enqueuedAt)

/-- What the most recently queued notification about a code says. -/
def lastAlert (s : Pager) (code : String) : Option AlertKind :=
  ((s.alerts.filter fun x => x.1.1 = code).getLast?).map fun x => x.1.2

/-- The last event about the code repeats a notification inside the window, and since that one a
notification of the other kind was queued. -/
def Withheld (s : Pager) (code : String) : Prop :=
  ∃ last before at_ after, s.lastNews code = some last ∧
    s.alerts = before ++ ((code, last.kind), at_) :: after ∧
    last.at_ - at_ < SlackNotifier.dedupeWindowS ∧
    ∃ x ∈ after, x.1.1 = code ∧ x.1.2 ≠ last.kind

end Pager

namespace SlackNotifier

variable {n : SlackNotifier} {now : ℚ}

/-- An alert that is not about an alarm, or none at all. -/
structure Quiet (n : SlackNotifier) (r : Option PendingMessage × SlackNotifier) : Prop where
  cfg : r.2.cfg = n.cfg
  queue : n.queue.length ≤ maxQueue → r.2.queue.length ≤ maxQueue
  recentSends : r.2.recentSends = n.recentSends
  about : ∀ m ∈ r.1, m.text.about = none

/-- An alert about an alarm, which is queued unless it repeats inside the window. -/
structure Tells (n : SlackNotifier) (now : ℚ) (key : String × AlertKind)
    (r : Option PendingMessage × SlackNotifier) : Prop where
  cfg : r.2.cfg = n.cfg
  queue : r.2.queue.length ≤ maxQueue
  recentSends : r.2.recentSends = (dedupePolicy.skip n.recentSends key now).2
  about : r.1.toList.filterMap (fun m => m.text.about.map fun k => (k, m.enqueuedAt)) =
    if (dedupePolicy.skip n.recentSends key now).1 then [] else [(key, now)]

theorem isEnabled_of_alertsOn (h : n.cfg.AlertsOn) : n.isEnabled = true := by
  simp [isEnabled, h.enabled, h.botToken, h.channel]

theorem quiet_none : Quiet n (none, n) := ⟨rfl, id, rfl, by simp⟩

theorem length_of_putNowait {queue queue' : List PendingMessage} {msg : PendingMessage}
    (h : putNowait queue msg = some queue') : queue'.length ≤ maxQueue := by
  unfold putNowait at h
  split at h
  · obtain rfl := Option.some.inj h
    rw [List.length_append, List.length_singleton]
    omega
  · cases h

/-- A queue within its bound takes the message, in the end. -/
theorem enqueue_eq (hon : n.isEnabled = true) (hq : n.queue.length ≤ maxQueue) (now : ℚ)
    (severity : Severity) (text : SlackText) :
    ∃ queue, queue.length ≤ maxQueue ∧ n.enqueue now severity text =
      (some ⟨severity, text, n.site, 0, now⟩, { n with queue := queue }) := by
  rw [enqueue, if_pos hon]
  cases hput : putNowait n.queue ⟨severity, text, n.site, 0, now⟩ with
  | some queue => exact ⟨queue, length_of_putNowait hput, by simp only [hput]⟩
  | none =>
    have htail : n.queue.tail.length < maxQueue := by
      have hmax : 0 < maxQueue := by decide
      rw [List.length_tail]
      omega
    have hput' : putNowait n.queue.tail ⟨severity, text, n.site, 0, now⟩ =
        some (n.queue.tail ++ [⟨severity, text, n.site, 0, now⟩]) := if_pos htail
    exact ⟨_, length_of_putNowait hput', by simp only [hput, hput']⟩

theorem quiet_enqueue {text : SlackText} (ht : text.about = none) (severity : Severity) :
    Quiet n (n.enqueue now severity text) := by
  unfold enqueue
  split
  · dsimp only
    split
    · rename_i queue hput
      exact ⟨rfl, fun _ => length_of_putNowait hput, rfl, by simpa using ht⟩
    · split
      · rename_i queue hput
        exact ⟨rfl, fun _ => length_of_putNowait hput, rfl, by simpa using ht⟩
      · refine ⟨rfl, fun hq => ?_, rfl, by simp⟩
        rw [List.length_tail]
        omega
  · exact quiet_none

theorem tells_enqueue (hon : n.isEnabled = true) (hq : n.queue.length ≤ maxQueue) {code : String}
    {kind : AlertKind} {text : SlackText} (ht : text.about = some (code, kind))
    (severity : Severity) :
    Tells n now (code, kind)
      (if (n.dedupeSkip now code kind).1 then (none, (n.dedupeSkip now code kind).2)
        else (n.dedupeSkip now code kind).2.enqueue now severity text) := by
  split
  · rename_i hskip
    change (dedupePolicy.skip n.recentSends (code, kind) now).1 = true at hskip
    exact ⟨rfl, hq, rfl, by rw [if_pos hskip]; rfl⟩
  · rename_i hskip
    change ¬ (dedupePolicy.skip n.recentSends (code, kind) now).1 = true at hskip
    have hon' : (n.dedupeSkip now code kind).2.isEnabled = true := hon
    obtain ⟨queue, hlen, heq⟩ := enqueue_eq hon' hq now severity text
    rw [heq]
    refine ⟨rfl, hlen, rfl, ?_⟩
    rw [if_neg hskip]
    simp [ht]

theorem tells_alertAlarm (hon : n.cfg.AlertsOn) (hq : n.queue.length ≤ maxQueue) (code : String)
    (desc : Desc) (severity : Severity) :
    Tells n now (code, .raised) (n.alertAlarm now code desc severity) := by
  unfold alertAlarm
  rw [if_neg (by simp [hon.alarm]), if_neg (by simp [hon.warning])]
  exact tells_enqueue (isEnabled_of_alertsOn hon) hq rfl severity

theorem tells_alertAlarmCleared (hon : n.cfg.AlertsOn) (hq : n.queue.length ≤ maxQueue)
    (code : String) (desc : ClearedDesc) :
    Tells n now (code, .cleared) (n.alertAlarmCleared now code desc) := by
  unfold alertAlarmCleared
  rw [if_neg (by simp [hon.alarmCleared])]
  exact tells_enqueue (isEnabled_of_alertsOn hon) hq rfl .ok

theorem quiet_alertStateChange (old new : EngineState) :
    Quiet n (n.alertStateChange now old new) := by
  unfold alertStateChange
  split
  · exact quiet_none
  · exact quiet_enqueue rfl _

theorem quiet_alertLoadSourceChange (old new : LoadSource) :
    Quiet n (n.alertLoadSourceChange now old new) := by
  unfold alertLoadSourceChange
  split
  · exact quiet_none
  · split
    · exact quiet_none
    · exact quiet_enqueue rfl _

theorem quiet_alertCommand (verb : Action) (operator : String) (ok : Bool) :
    Quiet n (n.alertCommand now verb operator ok) := by
  unfold alertCommand
  split
  · exact quiet_none
  · exact quiet_enqueue rfl _

theorem quiet_alertCommsChange (old new : CommsState) (pct : ℚ) :
    Quiet n (n.alertCommsChange now old new pct) := by
  unfold alertCommsChange
  split
  · exact quiet_none
  · split
    · exact quiet_none
    · split
      · exact quiet_none
      · exact quiet_enqueue rfl _

/-- An event about an alarm is told, and any other is quiet. -/
def Forwards (n : SlackNotifier) (now : ℚ) (e : Event) (r : Option PendingMessage × SlackNotifier) :
    Prop :=
  (e.news now = [] ∧ Quiet n r) ∨
    ∃ code kind, e.news now = [⟨code, kind, now⟩] ∧ Tells n now (code, kind) r

theorem forwards_forwardToSlack (hon : n.cfg.AlertsOn) (hq : n.queue.length ≤ maxQueue)
    (e : Event) : Forwards n now e (n.forwardToSlack now e) := by
  unfold forwardToSlack
  rw [if_pos (isEnabled_of_alertsOn hon)]
  cases e with
  | alarm code desc severity ts =>
    exact Or.inr ⟨code, .raised, rfl, tells_alertAlarm hon hq code desc severity⟩
  | alarmCleared code desc ts =>
    exact Or.inr ⟨code, .cleared, rfl, tells_alertAlarmCleared hon hq code _⟩
  | disagreeCleared code reason ts =>
    exact Or.inr ⟨code, .cleared, rfl, tells_alertAlarmCleared hon hq code _⟩
  | transition old new ts => exact Or.inl ⟨rfl, quiet_alertStateChange old new⟩
  | comms old new pct ts => exact Or.inl ⟨rfl, quiet_alertCommsChange old new pct⟩
  | loadSource old new ts => exact Or.inl ⟨rfl, quiet_alertLoadSourceChange old new⟩
  | _ => exact Or.inl ⟨rfl, quiet_none⟩

theorem forwards_forwardAtsToSlack (hon : n.cfg.AlertsOn) (hq : n.queue.length ≤ maxQueue)
    (e : Event) : Forwards n now e (n.forwardAtsToSlack now e) := by
  unfold forwardAtsToSlack
  rw [if_pos (isEnabled_of_alertsOn hon)]
  cases e with
  | alarm code desc severity ts =>
    exact Or.inr ⟨code, .raised, rfl, tells_alertAlarm hon hq code desc severity⟩
  | alarmCleared code desc ts =>
    exact Or.inr ⟨code, .cleared, rfl, tells_alertAlarmCleared hon hq code _⟩
  | disagreeCleared code reason ts =>
    exact Or.inr ⟨code, .cleared, rfl, tells_alertAlarmCleared hon hq code _⟩
  | atsPosition old new ts =>
    refine Or.inl ⟨rfl, ?_⟩
    dsimp only
    split
    · exact quiet_alertLoadSourceChange old new
    · exact quiet_none
  | atsComms old new pct ts => exact Or.inl ⟨rfl, quiet_alertCommsChange old new pct⟩
  | _ => exact Or.inl ⟨rfl, quiet_none⟩

end SlackNotifier

namespace Pager

open SlackNotifier

variable {s s' : Pager} {l : PagerLabel}

structure Ready (s : Pager) : Prop where
  alertsOn : s.notifier.cfg.AlertsOn
  queue : s.notifier.queue.length ≤ maxQueue

structure Idles (s s' : Pager) : Prop where
  clock : s.clock ≤ s'.clock
  recentSends : s'.notifier.recentSends = s.notifier.recentSends
  news : s'.news = s.news
  alerts : s'.alerts = s.alerts

/-- A step in which an event about an alarm arrives. -/
structure Hears (s : Pager) (code : String) (kind : AlertKind) (s' : Pager) : Prop where
  clock : s.clock ≤ s'.clock
  recentSends : s'.notifier.recentSends =
    (dedupePolicy.skip s.notifier.recentSends (code, kind) s'.clock).2
  news : s'.news = s.news ++ [⟨code, kind, s'.clock⟩]
  alerts : s'.alerts = s.alerts ++
    if (dedupePolicy.skip s.notifier.recentSends (code, kind) s'.clock).1 then []
    else [((code, kind), s'.clock)]

theorem alerts_append (n : SlackNotifier) (clock : ℚ) (news : List AlarmNews)
    (sent : List PendingMessage) (msg : Option PendingMessage) :
    alerts ⟨n, clock, news, sent ++ msg.toList⟩ = alerts ⟨n, clock, news, sent⟩ ++
      msg.toList.filterMap fun m => m.text.about.map fun k => (k, m.enqueuedAt) :=
  List.filterMap_append

theorem ready_of_quiet {r : Option PendingMessage × SlackNotifier} {now : ℚ} (hs : s.Ready)
    (hnow : s.clock ≤ now) (h : Quiet s.notifier r) :
    Ready ⟨r.2, now, s.news, s.sent ++ r.1.toList⟩ ∧
      Idles s ⟨r.2, now, s.news, s.sent ++ r.1.toList⟩ := by
  refine ⟨⟨by rw [h.cfg]; exact hs.alertsOn, h.queue hs.queue⟩, hnow, h.recentSends, rfl, ?_⟩
  rw [alerts_append]
  have hnone :
      r.1.toList.filterMap (fun m => m.text.about.map fun k => (k, m.enqueuedAt)) = [] := by
    rw [List.filterMap_eq_nil_iff]
    intro m hm
    rw [h.about m (by simpa using hm), Option.map_none]
  rw [hnone, List.append_nil]
  rfl

theorem ready_of_forwards {r : Option PendingMessage × SlackNotifier} {now : ℚ} {e : Event}
    (hs : s.Ready) (hnow : s.clock ≤ now) (h : Forwards s.notifier now e r) :
    Ready ⟨r.2, now, s.news ++ e.news now, s.sent ++ r.1.toList⟩ ∧
      (Idles s ⟨r.2, now, s.news ++ e.news now, s.sent ++ r.1.toList⟩ ∨
        ∃ code kind, Hears s code kind ⟨r.2, now, s.news ++ e.news now, s.sent ++ r.1.toList⟩) := by
  rcases h with ⟨hnews, hquiet⟩ | ⟨code, kind, hnews, htells⟩
  · rw [hnews, List.append_nil]
    exact (ready_of_quiet hs hnow hquiet).imp_right Or.inl
  · rw [hnews]
    refine ⟨⟨by rw [htells.cfg]; exact hs.alertsOn, htells.queue⟩, Or.inr ⟨code, kind, ?_⟩⟩
    refine ⟨hnow, htells.recentSends, rfl, ?_⟩
    rw [alerts_append, htells.about]
    rfl

theorem step_cases (hs : s.Ready) (h : step s l = some s') :
    s'.Ready ∧ (Idles s s' ∨ ∃ code kind, Hears s code kind s') := by
  cases l with
  | event e now =>
    obtain ⟨hnow, rfl⟩ := Option.ite_none_right_eq_some.mp h |>.imp_right Option.some.inj
    exact ready_of_forwards hs hnow (forwards_forwardToSlack hs.alertsOn hs.queue e)
  | atsEvent e now =>
    obtain ⟨hnow, rfl⟩ := Option.ite_none_right_eq_some.mp h |>.imp_right Option.some.inj
    exact ready_of_forwards hs hnow (forwards_forwardAtsToSlack hs.alertsOn hs.queue e)
  | command verb operator ok now =>
    obtain ⟨hnow, rfl⟩ := Option.ite_none_right_eq_some.mp h |>.imp_right Option.some.inj
    exact (ready_of_quiet hs hnow (quiet_alertCommand verb operator ok)).imp_right Or.inl
  | take =>
    obtain rfl := Option.some.inj h
    refine ⟨⟨hs.alertsOn, ?_⟩, Or.inl ⟨le_rfl, rfl, rfl, rfl⟩⟩
    have := hs.queue
    rw [List.length_tail]
    omega

/-- The notifications are those the throttle lets through, and each event about a code was told or
repeats one inside the window. -/
structure Sound (s : Pager) : Prop where
  ready : s.Ready
  tracks : Throttle.Tracks dedupePolicy s.notifier.recentSends s.alerts s.clock
  answered : ∀ code last, s.lastNews code = some last →
    ∃ e ∈ s.alerts, e.1 = (code, last.kind) ∧ last.at_ - e.2 < dedupeWindowS
  before : ∀ e ∈ s.alerts, ∃ last, s.lastNews e.1.1 = some last ∧ e.2 ≤ last.at_

theorem sound_start {cfg : SlackConfig} {siteName : String} (h : cfg.AlertsOn) :
    Sound (start cfg siteName) :=
  ⟨⟨h, Nat.zero_le _⟩, Throttle.tracks_empty, by simp [lastNews, start], by simp [alerts, start]⟩

theorem Sound.idles (hs : s.Sound) (hr : s'.Ready) (h : Idles s s') : s'.Sound where
  ready := hr
  tracks := by
    rw [h.recentSends, h.alerts]
    exact hs.tracks.mono h.clock
  answered := by
    simp only [lastNews, h.news, h.alerts]
    exact hs.answered
  before := by
    simp only [lastNews, h.news, h.alerts]
    exact hs.before

theorem lastNews_hears {code : String} {kind : AlertKind} (h : Hears s code kind s')
    (other : String) :
    s'.lastNews other = if other = code then some ⟨code, kind, s'.clock⟩ else s.lastNews other := by
  rw [lastNews, h.news, List.filter_append]
  split
  · rename_i he
    simp [he]
  · rename_i hne
    rw [List.filter_cons_of_neg (by simpa using Ne.symm hne), List.filter_nil, List.append_nil]
    rfl

theorem Sound.hears (hs : s.Sound) (hr : s'.Ready) {code : String} {kind : AlertKind}
    (h : Hears s code kind s') : s'.Sound := by
  have hmono : ∀ e ∈ s.alerts, e ∈ s'.alerts := fun e he => by
    rw [h.alerts]
    exact List.mem_append_left _ he
  have hiff : (dedupePolicy.skip s.notifier.recentSends (code, kind) s'.clock).1 = true ↔ _ :=
    hs.tracks.skip_iff h.clock
  refine ⟨hr, ?_, ?_, ?_⟩
  · rw [h.recentSends, h.alerts]
    cases hskip : (dedupePolicy.skip s.notifier.recentSends (code, kind) s'.clock).1 with
    | true =>
      rw [if_pos rfl, List.append_nil]
      exact hs.tracks.skip_of_hit h.clock hskip
    | false =>
      rw [if_neg (by simp)]
      exact hs.tracks.skip_of_miss h.clock hskip
  · intro other last hlast
    rw [lastNews_hears h] at hlast
    split at hlast
    · rename_i he
      obtain rfl := Option.some.inj hlast
      subst he
      cases hskip : (dedupePolicy.skip s.notifier.recentSends (other, kind) s'.clock).1 with
      | true =>
        obtain ⟨e, he, hk, hin⟩ := hiff.mp hskip
        exact ⟨e, hmono e he, hk, hin⟩
      | false =>
        refine ⟨((other, kind), s'.clock), ?_, rfl, ?_⟩
        · rw [h.alerts, hskip]
          simp
        · rw [sub_self]
          exact dedupePolicy.window_pos
    · obtain ⟨e, he, hk, hin⟩ := hs.answered other last hlast
      exact ⟨e, hmono e he, hk, hin⟩
  · intro e he
    have hpast : e.2 ≤ s'.clock := by
      rw [h.alerts] at he
      rcases List.mem_append.mp he with he | he
      · exact (hs.tracks.past e he).trans h.clock
      · split at he
        · cases he
        · rw [List.mem_singleton.mp he]
    rw [lastNews_hears h]
    split
    · exact ⟨_, rfl, hpast⟩
    · rename_i hne
      rw [h.alerts] at he
      rcases List.mem_append.mp he with he | he
      · exact hs.before e he
      · split at he
        · cases he
        · exact absurd (by rw [List.mem_singleton.mp he]) hne

theorem Sound.step (hs : s.Sound) (h : step s l = some s') : s'.Sound := by
  obtain ⟨hr, hidles | ⟨code, kind, hhears⟩⟩ := step_cases hs.ready h
  · exact hs.idles hr hidles
  · exact hs.hears hr hhears

/-- A code that had an event has a notification, and the last one is of the event's kind unless
the event was withheld. -/
theorem Sound.lastAlert_of_news (hs : s.Sound) {code : String} {last : AlarmNews}
    (hlast : s.lastNews code = some last) :
    ∃ kind, s.lastAlert code = some kind ∧ (kind = last.kind ↔ ¬ s.Withheld code) := by
  obtain ⟨e, he, hk, hin⟩ := hs.answered code last hlast
  have hmem : e ∈ s.alerts.filter fun x => x.1.1 = code :=
    List.mem_filter.mpr ⟨he, by simp [hk]⟩
  obtain ⟨x, hx⟩ : ∃ x, (s.alerts.filter fun x => x.1.1 = code).getLast? = some x :=
    ⟨_, List.getLast?_eq_some_getLast (List.ne_nil_of_mem hmem)⟩
  have hxmem := List.mem_filter.mp (List.mem_of_getLast? hx)
  have hxcode : x.1.1 = code := by simpa using hxmem.2
  refine ⟨x.1.2, by rw [lastAlert, hx, Option.map_some], ?_⟩
  constructor
  · -- the last one is of the event's kind: one inside the window before it would leave no room
    rintro hkind ⟨last', before, at_, after, hlast', hsplit, hwin, y, hy, hycode, hykind⟩
    obtain rfl := Option.some.inj (hlast.symm.trans hlast')
    have hxafter : x ∈ after := by
      have hlastafter : (after.filter fun x => x.1.1 = code).getLast? = some x := by
        rw [hsplit, List.filter_append, List.filter_cons_of_pos (by simp)] at hx
        have hne : after.filter (fun x => x.1.1 = code) ≠ [] :=
          List.ne_nil_of_mem (List.mem_filter.mpr ⟨hy, by simpa using hycode⟩)
        rwa [List.getLast?_append_of_ne_nil _ (List.cons_ne_nil _ _),
          List.getLast?_cons_of_ne_nil hne] at hx
      exact List.mem_of_mem_filter (List.mem_of_getLast? hlastafter)
    have hspaced := hs.tracks.spaced
    rw [hsplit] at hspaced
    have hle := (List.pairwise_cons.mp (List.pairwise_append.mp hspaced).2.1).1 x hxafter
      (Prod.ext hxcode.symm hkind.symm)
    obtain ⟨last', hlast', hbefore⟩ := hs.before x hxmem.1
    rw [hxcode] at hlast'
    obtain rfl := Option.some.inj (hlast.symm.trans hlast')
    have hwindow : dedupePolicy.window = dedupeWindowS := rfl
    rw [hwindow] at hle
    linarith
  · intro hnot
    by_contra hkind
    obtain ⟨before, after, hsplit⟩ := List.append_of_mem he
    refine hnot ⟨last, before, e.2, after, hlast, by rw [hsplit, ← hk], hin, x, ?_, hxcode, hkind⟩
    rw [hsplit, List.filter_append, List.filter_cons_of_pos (by simp [hk]),
      List.getLast?_append_of_ne_nil _ (List.cons_ne_nil _ _)] at hx
    rcases List.mem_cons.mp (List.mem_of_getLast? hx) with rfl | hx
    · exact absurd (congrArg Prod.snd hk) hkind
    · exact List.mem_of_mem_filter hx

/-- The last notification about a code is true unless its last event was withheld as a repeat, with
a notification of the other kind in between. -/
theorem last_alert_true_iff_not_withheld {cfg : SlackConfig} {siteName : String}
    (hon : cfg.AlertsOn) (h : Reachable step (start cfg siteName) s) (code : String) :
    (s.lastAlert code = some .raised ↔ s.Active code) ↔ ¬ s.Withheld code := by
  have hs : s.Sound := h.invariant (sound_start hon) fun _ _ _ hs hstep => hs.step hstep
  cases hlast : s.lastNews code with
  | none =>
    have hsilent : s.alerts.filter (fun x => x.1.1 = code) = [] := by
      rw [List.filter_eq_nil_iff]
      intro e he hcode
      obtain ⟨last, hsome, -⟩ := hs.before e he
      rw [of_decide_eq_true hcode, hlast] at hsome
      cases hsome
    simp [lastAlert, Active, Withheld, hlast, hsilent]
  | some last =>
    obtain ⟨kind, hkind, hiff⟩ := hs.lastAlert_of_news hlast
    rw [hkind, ← hiff, Active, hlast, Option.map_some]
    cases kind <;> cases last.kind <;> simp

section Flapping

/-- Slack with the flags as they come and a token and a channel set. -/
def flappingConfig : SlackConfig :=
  ⟨true, "xoxb-test", "#x", "", true, true, true, false, true, true, true⟩

theorem alertsOn_flappingConfig : flappingConfig.AlertsOn :=
  ⟨rfl, by decide, by decide, rfl, rfl, rfl⟩

def raise (code : String) (now : ℚ) : PagerLabel :=
  .event (.alarm code (.text "Low Oil") .alarm now) now

def clear (code : String) (now : ℚ) : PagerLabel :=
  .event (.alarmCleared code (.text "Low Oil") now) now

/-- An alarm that comes, goes and comes to stay, all inside the window. -/
def flapping : List PagerLabel :=
  [raise "LOW_OIL" 0, clear "LOW_OIL" 1, raise "LOW_OIL" 2, raise "HIGH_TEMP" 100]

instance (s : Pager) (code : String) : Decidable (s.Active code) :=
  inferInstanceAs (Decidable (_ = _))

/-- The alarm stays up and the last word on it says that it cleared. -/
theorem last_alert_false_after_flapping :
    ∃ s, run step (start flappingConfig "Castle") flapping = some s ∧
      (∃ last, s.lastNews "LOW_OIL" = some last ∧ last.at_ + dedupeWindowS ≤ s.clock) ∧
      ¬ (s.lastAlert "LOW_OIL" = some .raised ↔ s.Active "LOW_OIL") := by
  have heval : (run step (start flappingConfig "Castle") flapping).any (fun s =>
      (s.lastNews "LOW_OIL").any (fun x => x.at_ + dedupeWindowS ≤ s.clock) ∧
        s.lastAlert "LOW_OIL" = some .cleared ∧ s.Active "LOW_OIL") = true := by
    decide +kernel
  obtain ⟨s, hs, htest⟩ := (Option.any_eq_true _ _).mp heval
  obtain ⟨hlate, halert, hactive⟩ := of_decide_eq_true htest
  obtain ⟨x, hx, hle⟩ := (Option.any_eq_true _ _).mp hlate
  refine ⟨s, hs, ⟨x, hx, of_decide_eq_true hle⟩, ?_⟩
  rw [halert]
  simpa using hactive

/-- Once the window has passed, the alarm that flaps is announced again. -/
theorem alert_true_after_pause :
    ∃ s, run step (start flappingConfig "Castle")
        [raise "LOW_OIL" 0, clear "LOW_OIL" 1, raise "LOW_OIL" 60] = some s ∧
      s.Active "LOW_OIL" ∧ ¬ s.Withheld "LOW_OIL" := by
  have heval : (run step (start flappingConfig "Castle")
      [raise "LOW_OIL" 0, clear "LOW_OIL" 1, raise "LOW_OIL" 60]).any (fun s =>
      s.lastAlert "LOW_OIL" = some .raised ∧ s.Active "LOW_OIL") = true := by
    decide +kernel
  obtain ⟨s, hs, htest⟩ := (Option.any_eq_true _ _).mp heval
  obtain ⟨halert, hactive⟩ := of_decide_eq_true htest
  refine ⟨s, hs, hactive, ?_⟩
  exact (last_alert_true_iff_not_withheld alertsOn_flappingConfig ⟨_, hs⟩ "LOW_OIL").mp
    (iff_of_true halert hactive)

end Flapping

end Pager

end GenWatch
