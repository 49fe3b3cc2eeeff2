import GenWatch.Live.Bus
import GenWatch.Live.Announced

/-! # The alarm list in the browser

A page reads the active alarms once, over the status request, and then follows the
announcements that its socket brings. It reconnects when the socket closes, but never reads
the status again. So its list is that of the server as long as every change of a row is
announced, and every announcement finds its way: the connection is subscribed when it is
published, the queue has room, and nothing is under way when the connection is lost.
-/

namespace GenWatch

open Transition Handler

/-- What the bus carries: the periodic snapshots, and the events. -/
inductive LiveMsg where
  | snapshot
  | event (e : Event)
  deriving DecidableEq

def eventsOf (msgs : List LiveMsg) : List Event :=
  msgs.filterMap fun
    | .snapshot => none
    | .event e => some e

/-- No message is about an alarm. -/
def AlarmFree (msgs : List LiveMsg) : Prop := ∀ e ∈ eventsOf msgs, e.alarmCode = none

instance : DecidablePred AlarmFree := fun _ => inferInstanceAs (Decidable (∀ _ ∈ _, _))

theorem eventsOf_append (msgs msgs' : List LiveMsg) :
    eventsOf (msgs ++ msgs') = eventsOf msgs ++ eventsOf msgs' :=
  List.filterMap_append

theorem eventsOf_map (es : List Event) : eventsOf (es.map .event) = es := by
  simp [eventsOf, List.filterMap_map]

theorem settles_of_alarmFree {code : String} {msgs : List LiveMsg} (h : AlarmFree msgs)
    (was : Bool) : settles code (eventsOf msgs) was = was :=
  settles_of_flips_nil (flips_of_alarmFree h)

/-- The active alarms in the order in which the status request returns them. -/
def Database.activeAlarms (db : Database) : List AlarmRow :=
  db.alarmsActive.rows.mergeSort fun a b => b.raisedAt ≤ a.raisedAt

inductive Seed where
  | requested
  | answered (rows : List AlarmRow)
  | done

def Seed.isRequested : Seed → Bool
  | .requested => true
  | _ => false

def Seed.isDone : Seed → Bool
  | .done => true
  | _ => false

/-- Where the page stands with its socket, by the number of the connection. -/
inductive Sock where
  | idle
  | connecting (c : ℕ)
  | opened (c : ℕ)
  | closed
  deriving DecidableEq

def Sock.conn? : Sock → Option ℕ
  | .connecting c | .opened c => some c
  | _ => none

/-- The page: `status?.activeAlarms`, and how many messages of its connection it has received. -/
structure Browser where
  seed : Seed
  activeAlarms : Option (List AlarmRow)
  sock : Sock
  seen : ℕ

namespace Browser

def mounted : Browser := ⟨.requested, none, .idle, 0⟩

def applyMessage (alarms : List AlarmRow) : LiveMsg → List AlarmRow
  | .event (.alarm code desc severity ts) =>
    if alarms.any fun a => a.code = code then alarms else ⟨code, desc, severity, ts, 0⟩ :: alarms
  | .event (.alarmCleared code _ _) => alarms.filter fun a => a.code ≠ code
  | .event (.disagreeCleared code _ _) => alarms.filter fun a => a.code ≠ code
  | _ => alarms

def alarms? (b : Browser) : Option (List AlarmRow) :=
  match b.seed with
  | .requested => none
  | .answered rows => some rows
  | .done => b.activeAlarms

/-- Open a socket; its connection has not been used before. -/
def openWs (b : Browser) (c : ℕ) : Browser := { b with sock := .connecting c, seen := 0 }

end Browser

def shows (alarms : List AlarmRow) (code : String) : Bool := alarms.any fun a => a.code = code

theorem shows_filter (alarms : List AlarmRow) (cleared code : String) :
    shows (alarms.filter fun a => a.code ≠ cleared) code =
      if cleared = code then false else shows alarms code := by
  unfold shows
  by_cases hcode : cleared = code
  · subst hcode
    simp
  · rw [if_neg hcode, Bool.eq_iff_iff]
    simp only [List.any_eq_true, List.mem_filter, decide_eq_true_eq]
    constructor
    · rintro ⟨a, ⟨ha, -⟩, he⟩
      exact ⟨a, ha, he⟩
    · rintro ⟨a, ha, rfl⟩
      exact ⟨a, ⟨ha, Ne.symm hcode⟩, rfl⟩

/-- A page that applies a message follows the announcement in it. -/
theorem shows_applyMessage (alarms : List AlarmRow) (msg : LiveMsg) (code : String) :
    shows (Browser.applyMessage alarms msg) code =
      settles code (eventsOf [msg]) (shows alarms code) := by
  cases msg with
  | snapshot => rfl
  | event e =>
    cases e with
    | alarm raised desc severity ts =>
      have hsettles : settles code (eventsOf [.event (.alarm raised desc severity ts)])
          (shows alarms code) = if raised = code then true else shows alarms code := by
        by_cases hcode : raised = code <;>
          simp [settles, flips, eventsOf, Event.flip, Event.raises, Event.clears, hcode]
      rw [hsettles, Browser.applyMessage]
      by_cases hold : alarms.any fun a => a.code = raised
      · rw [if_pos hold]
        split
        · rename_i hcode
          subst hcode
          exact hold
        · rfl
      · rw [if_neg hold]
        by_cases hcode : raised = code <;> simp [shows, hcode]
    | alarmCleared cleared desc ts =>
      rw [Browser.applyMessage, shows_filter]
      by_cases hcode : cleared = code <;>
        simp [settles, flips, eventsOf, Event.flip, Event.raises, Event.clears, hcode]
    | disagreeCleared cleared reason ts =>
      rw [Browser.applyMessage, shows_filter]
      by_cases hcode : cleared = code <;>
        simp [settles, flips, eventsOf, Event.flip, Event.raises, Event.clears, hcode]
    | _ => rfl

theorem shows_activeAlarms (db : Database) (code : String) :
    shows db.activeAlarms code = db.hasRow code := by
  rw [Bool.eq_iff_iff]
  simp [shows, Database.activeAlarms, Database.hasRow, Database.Active, Table.mem_keys]

/-- The server with its connections, and one page. A callback of the slow tier writes a telemetry
row before it publishes; its events are held until then. -/
structure LiveSite where
  mon : Monitor
  held : Option (List Event)
  pushThrottleS : ℚ
  lastPushTs : ℚ
  bus : LiveBus ℕ LiveMsg
  nextConn : ℕ
  page : Browser

namespace LiveSite

inductive Label where
  /-- the generator's poller calls back -/
  | poll (tier : RegTier) (faults : List Bool) (now : ℚ) (reading : Reading)
  /-- the telemetry row has been written, and the callback goes on -/
  | telemetryWritten
  /-- the companion's poller calls back -/
  | atsPoll (faults : List Bool) (now mono : ℚ) (tier : RegTier) (reading : Reading)
  /-- what else happens on the monitoring side -/
  | other (i : Input)
  | applyRegmap (m : RegisterMap)
  /-- an acknowledgement gets to the point where it clears the alarm -/
  | ack (code operator : String) (ctl : Option ControlDef) (now : ℚ)
  /-- another page opens a socket -/
  | connect
  | subscribe (c : ℕ) (mono : ℚ)
  | conn (c : ℕ) (l : Conn.Label)
  | statusRead
  | seeded
  | seedFailed
  | onopen
  | onmessage
  | onclose
  | reconnect

/-- A page is mounted while the server is in some state. -/
def start (mon : Monitor) (pushThrottleS lastPushTs : ℚ) : LiveSite :=
  ⟨mon, none, pushThrottleS, lastPushTs, .init, 0, .mounted⟩

variable (s : LiveSite)

def db : Database := s.mon.db

/-- The events of a slow callback that have not been published yet. -/
def pending : List Event := s.held.getD []

def pushes (reading : Reading) : Bool := s.pushThrottleS ≤ reading.ts - s.lastPushTs

def published : Label → List LiveMsg
  | .poll .prime faults now reading =>
    (if s.pushes reading then [.snapshot] else []) ++
      (s.mon.onPoll faults now reading).2.map .event
  | .telemetryWritten => s.pending.map .event
  | .atsPoll faults now mono tier reading =>
    match s.mon.ats with
    | some ats => (s.mon.onAtsPoll ats faults now mono tier reading).2.map .event
    | none => []
  | _ => []

/-- The next message of the page's connection that has been sent and not received. -/
def arrival : Option LiveMsg :=
  match s.page.sock with
  | .opened c => (s.bus.conns c).bind fun k => k.sent[s.page.seen]?
  | _ => none

/-- Open a socket of the page over a new connection. -/
def openWs (page : Browser) : LiveSite :=
  { s with page := page.openWs s.nextConn, nextConn := s.nextConn + 1 }

def pageStep : Label → Option LiveSite
  | .statusRead =>
    match s.page.seed with
    | .requested => some { s with page := { s.page with seed := .answered s.db.activeAlarms } }
    | _ => none
  | .seeded =>
    match s.page.seed with
    | .answered rows => some (s.openWs { s.page with seed := .done, activeAlarms := some rows })
    | _ => none
  | .seedFailed =>
    match s.page.seed with
    | .done => none
    | _ => some (s.openWs { s.page with seed := .done })
  | .onopen =>
    match s.page.sock with
    | .connecting c => some { s with page := { s.page with sock := .opened c } }
    | _ => none
  | .onmessage =>
    s.arrival.map fun msg =>
      { s with page := { s.page with
        activeAlarms := s.page.activeAlarms.map (Browser.applyMessage · msg)
        seen := s.page.seen + 1 } }
  | .onclose =>
    if s.page.sock.conn?.isSome then some { s with page := { s.page with sock := .closed } }
    else none
  | .reconnect => if s.page.sock = .closed then some (s.openWs s.page) else none
  | _ => none

def step (l : Label) : Option LiveSite :=
  match l with
  | .poll .prime faults now reading =>
    some { s with
      mon := (s.mon.onPoll faults now reading).1
      lastPushTs := if s.pushes reading then reading.ts else s.lastPushTs
      bus := s.bus.publishAll (s.published l) }
  | .poll .base faults now reading =>
    if s.held.isSome then none
    else
      some { s with
        mon := (s.mon.onPoll faults now reading).1
        held := some (s.mon.onPoll faults now reading).2 }
  | .telemetryWritten =>
    if s.held.isSome then some { s with held := none, bus := s.bus.publishAll (s.published l) }
    else none
  | .atsPoll faults now mono tier reading =>
    s.mon.ats.map fun ats =>
      { s with
        mon := (s.mon.onAtsPoll ats faults now mono tier reading).1
        bus := s.bus.publishAll (s.published l) }
  | .other i =>
    if i.callback.isSome then none
    else (s.mon.step [] i).map fun r => { s with mon := r.1 }
  | .applyRegmap m => some { s with mon := s.mon.applyRegmap m }
  | .ack code operator ctl now =>
    some { s with mon := { s.mon with db := s.db.acknowledgeAlarm code operator ctl now } }
  | .connect => some { s with nextConn := s.nextConn + 1 }
  | .subscribe c mono =>
    if c < s.nextConn then (s.bus.step (.subscribe c mono)).map fun bus => { s with bus := bus }
    else none
  | .conn c cl => (s.bus.step (.conn c cl)).map fun bus => { s with bus := bus }
  | _ => s.pageStep l

inductive Outcome : Label → LiveSite → Prop
  | prime {faults : List Bool} {now : ℚ} {reading : Reading} :
      Outcome (.poll .prime faults now reading)
        { s with
          mon := (s.mon.onPoll faults now reading).1
          lastPushTs := if s.pushes reading then reading.ts else s.lastPushTs
          bus := s.bus.publishAll (s.published (.poll .prime faults now reading)) }
  | base {faults : List Bool} {now : ℚ} {reading : Reading} (hnone : s.held = none) :
      Outcome (.poll .base faults now reading)
        { s with
          mon := (s.mon.onPoll faults now reading).1
          held := some (s.mon.onPoll faults now reading).2 }
  | telemetryWritten :
      Outcome .telemetryWritten
        { s with held := none, bus := s.bus.publishAll (s.pending.map .event) }
  | atsPoll {faults : List Bool} {now mono : ℚ} {tier : RegTier} {reading : Reading}
      {ats : AtsService} (hats : s.mon.ats = some ats) :
      Outcome (.atsPoll faults now mono tier reading)
        { s with
          mon := (s.mon.onAtsPoll ats faults now mono tier reading).1
          bus := s.bus.publishAll (s.published (.atsPoll faults now mono tier reading)) }
  | other {i : Input} {mon : Monitor} {es : List Event} (hcallback : i.callback.isSome = false)
      (hstep : s.mon.step [] i = some (mon, es)) : Outcome (.other i) { s with mon := mon }
  | applyRegmap {m : RegisterMap} :
      Outcome (.applyRegmap m) { s with mon := s.mon.applyRegmap m }
  | ack {code operator : String} {ctl : Option ControlDef} {now : ℚ} :
      Outcome (.ack code operator ctl now)
        { s with mon := { s.mon with db := s.db.acknowledgeAlarm code operator ctl now } }
  | connect : Outcome .connect { s with nextConn := s.nextConn + 1 }
  | subscribe {c : ℕ} {mono : ℚ} (hlt : c < s.nextConn) (hnone : s.bus.conns c = none) :
      Outcome (.subscribe c mono) { s with bus := s.bus.subscribe c mono }
  | conn {c : ℕ} {cl : Conn.Label} {k k' : Conn LiveMsg} (hconn : s.bus.conns c = some k)
      (hstep : k.step cl = some k') : Outcome (.conn c cl) { s with bus := s.bus.setConn c k' }
  | statusRead (hseed : s.page.seed = .requested) :
      Outcome .statusRead { s with page := { s.page with seed := .answered s.db.activeAlarms } }
  | seeded {rows : List AlarmRow} (hseed : s.page.seed = .answered rows) :
      Outcome .seeded (s.openWs { s.page with seed := .done, activeAlarms := some rows })
  | seedFailed : Outcome .seedFailed (s.openWs { s.page with seed := .done })
  | onopen {c : ℕ} (hsock : s.page.sock = .connecting c) :
      Outcome .onopen { s with page := { s.page with sock := .opened c } }
  | onmessage {msg : LiveMsg} (harrival : s.arrival = some msg) :
      Outcome .onmessage
        { s with page := { s.page with
          activeAlarms := s.page.activeAlarms.map (Browser.applyMessage · msg)
          seen := s.page.seen + 1 } }
  | onclose (hconn : s.page.sock.conn?.isSome) :
      Outcome .onclose { s with page := { s.page with sock := .closed } }
  | reconnect (hsock : s.page.sock = .closed) : Outcome .reconnect (s.openWs s.page)

theorem pageOutcome {s s' : LiveSite} {l : Label} (h : s.pageStep l = some s') :
    s.Outcome l s' := by
  cases l with
  | statusRead =>
    simp only [pageStep] at h
    split at h
    · rename_i hseed
      cases h
      exact .statusRead hseed
    · cases h
  | seeded =>
    simp only [pageStep] at h
    split at h
    · rename_i rows hseed
      cases h
      exact .seeded hseed
    · cases h
  | seedFailed =>
    simp only [pageStep] at h
    split at h
    · cases h
    · cases h
      exact .seedFailed
  | onopen =>
    simp only [pageStep] at h
    split at h
    · rename_i c hsock
      cases h
      exact .onopen hsock
    · cases h
  | onmessage =>
    obtain ⟨msg, harrival, rfl⟩ := Option.map_eq_some_iff.mp h
    exact .onmessage harrival
  | onclose =>
    simp only [pageStep] at h
    split at h
    · rename_i hconn
      cases h
      exact .onclose hconn
    · cases h
  | reconnect =>
    simp only [pageStep] at h
    split at h
    · rename_i hsock
      cases h
      exact .reconnect hsock
    · cases h
  | _ => cases h

theorem outcome {s s' : LiveSite} {l : Label} (h : s.step l = some s') : s.Outcome l s' := by
  cases l with
  | poll tier faults now reading =>
    cases tier with
    | prime =>
      cases h
      exact .prime
    | base =>
      simp only [step] at h
      split at h
      · cases h
      · rename_i hheld
        cases h
        exact .base (by simpa using hheld)
  | telemetryWritten =>
    simp only [step] at h
    split at h
    · cases h
      exact .telemetryWritten
    · cases h
  | atsPoll faults now mono tier reading =>
    obtain ⟨ats, hats, rfl⟩ := Option.map_eq_some_iff.mp h
    exact .atsPoll hats
  | other i =>
    simp only [step] at h
    split at h
    · cases h
    · rename_i hcallback
      obtain ⟨⟨mon, es⟩, hstep, rfl⟩ := Option.map_eq_some_iff.mp h
      exact .other (Bool.eq_false_of_not_eq_true hcallback) hstep
  | applyRegmap m =>
    cases h
    exact .applyRegmap
  | ack code operator ctl now =>
    cases h
    exact .ack
  | connect =>
    cases h
    exact .connect
  | subscribe c mono =>
    simp only [step] at h
    split at h
    · rename_i hlt
      obtain ⟨bus, hbus, rfl⟩ := Option.map_eq_some_iff.mp h
      obtain ⟨hnone, rfl⟩ := LiveBus.step_subscribe hbus
      exact .subscribe hlt hnone
    · cases h
  | conn c cl =>
    obtain ⟨bus, hbus, rfl⟩ := Option.map_eq_some_iff.mp h
    obtain ⟨k, k', hconn, hstep, rfl⟩ := LiveBus.step_conn hbus
    exact .conn hconn hstep
  | _ => exact pageOutcome h

/-- What is on its way to the page over its connection. -/
def underway : List LiveMsg :=
  match s.page.sock.conn? with
  | some c => ((s.bus.conns c).map fun k => k.stream.drop s.page.seen).getD []
  | none => []

def Linked : Prop := ∃ c ∈ s.page.sock.conn?, c ∈ s.bus.subs

instance : Decidable s.Linked := inferInstanceAs (Decidable (∃ _ ∈ _, _))

/-- All that the step changes in the rows is announced: an update runs to its end and leaves the
unannounced clock-skew alarm alone, and an acknowledgement finds its alarm gone. -/
def Announced : Label → Prop
  | .poll _ faults now reading => s.mon.PollCompletes faults now reading
  | .atsPoll faults now mono tier reading =>
    ∀ ats ∈ s.mon.ats, s.mon.AtsPollAnnounces ats faults now mono tier reading
  | .ack code _ _ _ => ¬s.db.Active code
  | _ => True

/-- The messages reach the queue of the page's connection if it is subscribed; otherwise none of
them is about an alarm. -/
def Carried (msgs : List LiveMsg) : Prop :=
  (∀ c ∈ s.page.sock.conn?, c ∈ s.bus.subs →
    ∀ k ∈ s.bus.conns c, k.queue.length + msgs.length ≤ subscriberQueueSize) ∧
  (¬s.Linked → AlarmFree msgs)

/-- The step loses nothing about an alarm: the status request does not fail, the connection does
not end with such a message unsent, and the socket does not close with one on its way. -/
def Survived : Label → Prop
  | .seedFailed => False
  | .conn c .closeDone | .conn c .interrupt =>
    s.page.sock.conn? = some c → ∀ k ∈ s.bus.conns c, AlarmFree (k.inFlight ++ k.queue)
  | .onclose => AlarmFree s.underway
  | _ => True

/-- The step keeps the page in line with the rows. From the status request on, all changes are
announced and all announcements are carried; and nothing touches a row whose announcement is held
back. -/
structure Keeps (l : Label) (s' : LiveSite) : Prop where
  held : ∀ e ∈ s.pending, ∀ code ∈ e.alarmCode, (s'.db.Active code ↔ s.db.Active code)
  announced : s.page.seed.isRequested = false → s.Announced l
  carried : s.page.seed.isRequested = false → s.Carried (s.published l)
  survived : s.Survived l

instance : DecidablePred s.Announced
  | .poll _ _ _ _ => inferInstanceAs (Decidable (Monitor.PollCompletes _ _ _ _))
  | .atsPoll _ _ _ _ _ => inferInstanceAs (Decidable (∀ _ ∈ _, _))
  | .ack _ _ _ _ => inferInstanceAs (Decidable (¬_))
  | .telemetryWritten | .other _ | .applyRegmap _ | .connect | .subscribe _ _ | .conn _ _
  | .statusRead | .seeded | .seedFailed | .onopen | .onmessage | .onclose | .reconnect =>
    inferInstanceAs (Decidable True)

instance : DecidablePred s.Carried := fun _ => inferInstanceAs (Decidable (_ ∧ _))

instance : DecidablePred s.Survived
  | .seedFailed => inferInstanceAs (Decidable False)
  | .conn _ .closeDone | .conn _ .interrupt =>
    inferInstanceAs (Decidable (_ → ∀ _ ∈ _, AlarmFree _))
  | .onclose => inferInstanceAs (Decidable (AlarmFree _))
  | .conn _ .take | .conn _ .timeout | .conn _ (.sendDone _ _) => inferInstanceAs (Decidable True)
  | .poll _ _ _ _ | .atsPoll _ _ _ _ _ | .ack _ _ _ _ | .telemetryWritten | .other _
  | .applyRegmap _ | .connect | .subscribe _ _ | .statusRead | .seeded | .onopen | .onmessage
  | .reconnect => inferInstanceAs (Decidable True)

instance (l : Label) (s' : LiveSite) : Decidable (s.Keeps l s') :=
  decidable_of_iff
    ((∀ e ∈ s.pending, ∀ code ∈ e.alarmCode, (s'.db.Active code ↔ s.db.Active code)) ∧
      (s.page.seed.isRequested = false → s.Announced l) ∧
      (s.page.seed.isRequested = false → s.Carried (s.published l)) ∧ s.Survived l)
    ⟨fun h => ⟨h.1, h.2.1, h.2.2.1, h.2.2.2⟩, fun h => ⟨h.held, h.announced, h.carried, h.survived⟩⟩

/-- What holds between two steps: what is on its way to the page and what is held back make its list
that of the rows. -/
structure Tracks (s : LiveSite) : Prop where
  settled : ∀ code, settles code s.pending (s.db.hasRow code) = s.db.hasRow code
  registered : s.bus.Registered
  fresh : ∀ c, s.nextConn ≤ c → s.bus.conns c = none
  idle : s.page.seed.isDone = false → s.page.sock = .idle
  seen : ∀ c, s.page.sock.conn? = some c →
    (s.bus.conns c = none → s.page.seen = 0) ∧ ∀ k ∈ s.bus.conns c, s.page.seen ≤ k.sent.length
  list : s.page.seed.isRequested = false → ∃ alarms, s.page.alarms? = some alarms ∧
    ∀ code, settles code (eventsOf s.underway ++ s.pending) (shows alarms code) = s.db.hasRow code

theorem tracks_start (mon : Monitor) (pushThrottleS lastPushTs : ℚ) :
    (start mon pushThrottleS lastPushTs).Tracks where
  settled _ := rfl
  registered _ hc := by simp [start, LiveBus.init] at hc
  fresh _ _ := rfl
  idle _ := rfl
  seen _ hc := by cases hc
  list h := by cases h

section Publishing

variable {s} {s' : LiveSite} {msgs : List LiveMsg}

theorem underway_of_none (h : s.page.sock.conn? = none) : s.underway = [] := by
  rw [underway, h]

theorem underway_of_some {c : ℕ} (h : s.page.sock.conn? = some c) :
    s.underway = ((s.bus.conns c).map fun k => k.stream.drop s.page.seen).getD [] := by
  rw [underway, h]

theorem Tracks.settles_underway (h : s.Tracks) (hcarried : s.Carried msgs)
    (hbus : s'.bus = s.bus.publishAll msgs) (hpage : s'.page = s.page) (code : String)
    (was : Bool) :
    settles code (eventsOf s'.underway) was =
      settles code (eventsOf msgs) (settles code (eventsOf s.underway) was) := by
  obtain ⟨hroom, hfree⟩ := hcarried
  cases hconn : s.page.sock.conn? with
  | none =>
    have hunlinked : ¬s.Linked := by
      rintro ⟨c, hc, -⟩
      rw [hconn] at hc
      cases hc
    rw [underway_of_none (by rw [hpage]; exact hconn), underway_of_none hconn,
      settles_of_alarmFree (hfree hunlinked)]
  | some c =>
    rw [underway_of_some (by rw [hpage]; exact hconn), underway_of_some hconn, hbus, hpage]
    by_cases hsubs : c ∈ s.bus.subs
    · obtain ⟨k, hk⟩ := Option.isSome_iff_exists.mp (h.registered c hsubs)
      obtain ⟨k', hk', hstream, -⟩ :=
        LiveBus.publishAll_of_room hsubs hk (hroom c hconn hsubs k hk)
      have hseen : s.page.seen ≤ k.stream.length := by
        have hle := (h.seen c hconn).2 k hk
        simp only [Conn.stream, List.length_append]
        omega
      rw [hk', hk, Option.map_some, Option.map_some, Option.getD_some, Option.getD_some, hstream,
        List.drop_append_of_le_length hseen, eventsOf_append, settles_append]
    · have hunlinked : ¬s.Linked := by
        rintro ⟨c', hc', hmem⟩
        obtain rfl := Option.some.inj (hconn.symm.trans hc')
        exact hsubs hmem
      rw [settles_of_alarmFree (hfree hunlinked)]
      cases hk : s.bus.conns c with
      | none => rw [LiveBus.conns_publishAll_of_none hk]
      | some k =>
        obtain ⟨k', hk', hstream, -⟩ := LiveBus.publishAll_of_not_mem msgs hsubs hk
        rw [hk', Option.map_some, Option.map_some, hstream]

theorem Tracks.seen_publishAll (h : s.Tracks) (hbus : s'.bus = s.bus.publishAll msgs)
    (hpage : s'.page = s.page) {c : ℕ} (hc : s'.page.sock.conn? = some c) :
    (s'.bus.conns c = none → s'.page.seen = 0) ∧
      ∀ k ∈ s'.bus.conns c, s'.page.seen ≤ k.sent.length := by
  rw [hpage] at hc ⊢
  obtain ⟨hnone, hsome⟩ := h.seen c hc
  rw [hbus]
  cases hk : s.bus.conns c with
  | none =>
    rw [LiveBus.conns_publishAll_of_none hk]
    exact ⟨fun _ => hnone hk, by simp⟩
  | some k =>
    obtain ⟨k', hk', hsent⟩ := LiveBus.conns_publishAll_of_some msgs hk
    rw [hk']
    refine ⟨by simp, fun k₁ hk₁ => ?_⟩
    obtain rfl := Option.some.inj hk₁
    rw [hsent]
    exact hsome k hk

/-- A step that publishes what it changes, and keeps the rows of the announcements that are held
back. -/
theorem Tracks.publishes (h : s.Tracks) (hpage : s'.page = s.page)
    (hbus : s'.bus = s.bus.publishAll msgs) (hnext : s.nextConn ≤ s'.nextConn)
    (hheld : s'.pending = s.pending)
    (hrows : ∀ e ∈ s.pending, ∀ code ∈ e.alarmCode, (s'.db.Active code ↔ s.db.Active code))
    (hannounced : s.page.seed.isRequested = false →
      ∀ code, settles code (eventsOf msgs) (s.db.hasRow code) = s'.db.hasRow code)
    (hcarried : s.page.seed.isRequested = false → s.Carried msgs) : s'.Tracks where
  settled code := by
    rw [hheld]
    by_cases hflips : flips code s.pending = []
    · exact settles_of_flips_nil hflips
    · obtain ⟨e, he, hcode⟩ := exists_of_flips_ne_nil hflips
      rw [← Database.hasRow_congr (hrows e he code hcode)]
      exact h.settled code
  registered := hbus ▸ h.registered.publishAll msgs
  fresh c hc := by
    rw [hbus]
    exact LiveBus.conns_publishAll_of_none (h.fresh c (hnext.trans hc))
  idle := hpage ▸ h.idle
  seen _ hc := h.seen_publishAll hbus hpage hc
  list hseeded := by
    rw [hpage] at hseeded ⊢
    obtain ⟨alarms, halarms, hlist⟩ := h.list hseeded
    refine ⟨alarms, halarms, fun code => ?_⟩
    have hrow := hlist code
    rw [settles_append] at hrow ⊢
    rw [hheld, h.settles_underway (hcarried hseeded) hbus hpage]
    by_cases hflips : flips code s.pending = []
    · rw [settles_of_flips_nil hflips] at hrow ⊢
      rw [hrow, hannounced hseeded]
    · obtain ⟨e, he, hcode⟩ := exists_of_flips_ne_nil hflips
      rw [← Database.hasRow_congr (hrows e he code hcode), ← hrow]
      exact settles_of_flips_ne_nil hflips _

/-- A slow callback holds its announcements back. -/
theorem Tracks.holds (h : s.Tracks) (hnone : s.held = none) {es : List Event} {mon : Monitor}
    (hannounced : ∀ code, flips code es ≠ [] ∨ s.page.seed.isRequested = false →
      settles code es (s.db.hasRow code) = mon.db.hasRow code) :
    Tracks { s with mon := mon, held := some es } := by
  have hpending : s.pending = [] := by simp [pending, hnone]
  refine ⟨fun code => ?_, h.registered, h.fresh, h.idle, h.seen, fun hseeded => ?_⟩
  · by_cases hflips : flips code es = []
    · exact settles_of_flips_nil hflips
    · have hrow := hannounced code (Or.inl hflips)
      rw [settles_of_flips_ne_nil hflips (mon.db.hasRow code)] at hrow
      exact hrow
  · obtain ⟨alarms, halarms, hlist⟩ := h.list hseeded
    refine ⟨alarms, halarms, fun code => ?_⟩
    have hrow := hlist code
    rw [hpending, List.append_nil] at hrow
    rw [settles_append]
    change settles code es (settles code (eventsOf s.underway) (shows alarms code)) = _
    rw [hrow]
    exact hannounced code (Or.inr hseeded)

/-- What was held back is published. -/
theorem Tracks.releases (h : s.Tracks) (hpage : s'.page = s.page)
    (hbus : s'.bus = s.bus.publishAll (s.pending.map .event)) (hnext : s'.nextConn = s.nextConn)
    (hheld : s'.pending = []) (hdb : s'.db = s.db)
    (hcarried : s.page.seed.isRequested = false → s.Carried (s.pending.map .event)) :
    s'.Tracks where
  settled code := by rw [hheld, settles_nil]
  registered := hbus ▸ h.registered.publishAll _
  fresh c hc := by
    rw [hbus]
    exact LiveBus.conns_publishAll_of_none (h.fresh c (hnext ▸ hc))
  idle := hpage ▸ h.idle
  seen _ hc := h.seen_publishAll hbus hpage hc
  list hseeded := by
    rw [hpage] at hseeded ⊢
    obtain ⟨alarms, halarms, hlist⟩ := h.list hseeded
    refine ⟨alarms, halarms, fun code => ?_⟩
    have hrow := hlist code
    rw [settles_append] at hrow
    rw [hheld, hdb, List.append_nil, h.settles_underway (hcarried hseeded) hbus hpage,
      eventsOf_map]
    exact hrow

end Publishing

section Server

variable {s} {s' : LiveSite} {l : Label}

theorem eventsOf_snapshot (due : Bool) (es : List Event) :
    eventsOf ((if due then [.snapshot] else []) ++ es.map .event) = es := by
  rw [eventsOf_append, eventsOf_map]
  cases due <;> rfl

theorem Tracks.unserved (h : s.Tracks) (hpage : s'.page = s.page) (hbus : s'.bus = s.bus)
    (hnext : s.nextConn ≤ s'.nextConn) (hheld : s'.pending = s.pending)
    (hcarried : s.page.seed.isRequested = false → s.Carried [])
    (hrows : ∀ code, (∃ e ∈ s.pending, code ∈ e.alarmCode) ∨ s.page.seed.isRequested = false →
      (s'.db.Active code ↔ s.db.Active code)) : s'.Tracks := by
  have hnothing : s'.bus = s.bus.publishAll [] := hbus
  refine h.publishes hpage hnothing hnext hheld (fun e he code hcode => ?_)
    (fun hseeded code => ?_) hcarried
  · exact hrows code (Or.inl ⟨e, he, hcode⟩)
  · exact Database.hasRow_congr (hrows code (Or.inr hseeded))

theorem Tracks.poll (h : s.Tracks) {tier : RegTier} {faults : List Bool} {now : ℚ}
    {reading : Reading} (hs : s.step (.poll tier faults now reading) = some s')
    (hk : s.Keeps (.poll tier faults now reading) s') : s'.Tracks := by
  cases outcome hs with
  | prime =>
    refine h.publishes rfl rfl le_rfl rfl hk.held (fun hseeded code => ?_) hk.carried
    rw [published, eventsOf_snapshot]
    exact Monitor.follows_onPoll (hk.announced hseeded) code
  | base hnone =>
    refine h.holds hnone fun code hwhy => Monitor.follows_onPoll ?_ code
    rcases hwhy with hflips | hseeded
    · refine Monitor.pollCompletes_of_events fun hnil => hflips ?_
      rw [hnil]
      rfl
    · exact hk.announced hseeded

theorem Tracks.atsPoll (h : s.Tracks) {faults : List Bool} {now mono : ℚ} {tier : RegTier}
    {reading : Reading} (hs : s.step (.atsPoll faults now mono tier reading) = some s')
    (hk : s.Keeps (.atsPoll faults now mono tier reading) s') : s'.Tracks := by
  cases outcome hs with
  | atsPoll hats =>
    refine h.publishes rfl rfl le_rfl rfl hk.held (fun hseeded code => ?_) hk.carried
    simp only [published, hats, eventsOf_map]
    exact Monitor.follows_onAtsPoll (hk.announced hseeded _ hats) code

theorem Tracks.telemetryWritten (h : s.Tracks) (hs : s.step .telemetryWritten = some s')
    (hk : s.Keeps .telemetryWritten s') : s'.Tracks := by
  cases outcome hs with
  | telemetryWritten => exact h.releases rfl rfl rfl rfl rfl hk.carried

theorem Tracks.other (h : s.Tracks) {i : Input} (hs : s.step (.other i) = some s')
    (hk : s.Keeps (.other i) s') : s'.Tracks := by
  cases outcome hs with
  | @other _ mon es hcallback hstep =>
    have hdb : mon.db = s.mon.db := by
      rcases Monitor.step_cases hstep with ⟨_, _, rfl, -⟩ | ⟨_, _, _, _, _, rfl, -⟩ | hhealth
      · simp [Input.callback] at hcallback
      · simp [Input.callback] at hcallback
      · exact hhealth.2.2.2.1
    refine h.unserved rfl rfl le_rfl rfl hk.carried fun code _ => ?_
    change mon.db.Active code ↔ s.mon.db.Active code
    rw [hdb]

theorem Tracks.ack (h : s.Tracks) {code operator : String} {ctl : Option ControlDef} {now : ℚ}
    (hs : s.step (.ack code operator ctl now) = some s')
    (hk : s.Keeps (.ack code operator ctl now) s') : s'.Tracks := by
  cases outcome hs with
  | ack =>
    refine h.unserved rfl rfl le_rfl rfl hk.carried fun other hwhy => ?_
    rcases hwhy with ⟨e, he, hother⟩ | hseeded
    · exact hk.held e he other hother
    · refine (Database.active_acknowledgeAlarm _ _ _ _ _ _).trans (and_iff_left_of_imp ?_)
      rintro hactive rfl
      exact hk.announced hseeded hactive

end Server

section Connection

variable {s} {s' : LiveSite}

theorem Tracks.rewired (h : s.Tracks) {bus : LiveBus ℕ LiveMsg} (hregistered : bus.Registered)
    (hfresh : ∀ c, s.nextConn ≤ c → bus.conns c = none)
    (hseen : ∀ c, s.page.sock.conn? = some c →
      (bus.conns c = none → s.page.seen = 0) ∧ ∀ k ∈ bus.conns c, s.page.seen ≤ k.sent.length)
    (hunderway : s.page.seed.isRequested = false → ∀ code was,
      settles code (eventsOf { s with bus := bus }.underway) was =
        settles code (eventsOf s.underway) was) :
    Tracks { s with bus := bus } := by
  refine ⟨h.settled, hregistered, hfresh, h.idle, hseen, fun hseeded => ?_⟩
  obtain ⟨alarms, halarms, hlist⟩ := h.list hseeded
  refine ⟨alarms, halarms, fun code => ?_⟩
  have hrow := hlist code
  rw [settles_append] at hrow ⊢
  rw [hunderway hseeded]
  exact hrow

theorem Tracks.subscribe (h : s.Tracks) {c : ℕ} {mono : ℚ}
    (hs : s.step (.subscribe c mono) = some s') : s'.Tracks := by
  cases outcome hs with
  | subscribe hlt hnone =>
    refine h.rewired (h.registered.subscribe c mono) (fun c' hc' => ?_) (fun c' hc' => ?_)
      fun _ code was => ?_
    · rw [LiveBus.conns_subscribe_of_ne (by omega)]
      exact h.fresh c' hc'
    · obtain ⟨hzero, hle⟩ := h.seen c' hc'
      by_cases he : c' = c
      · subst he
        rw [LiveBus.conns_subscribe_self, hzero hnone]
        exact ⟨fun _ => rfl, fun _ _ => Nat.zero_le _⟩
      · rw [LiveBus.conns_subscribe_of_ne he]
        exact ⟨hzero, hle⟩
    · -- a new connection has nothing on its way
      suffices { s with bus := s.bus.subscribe c mono }.underway = s.underway by rw [this]
      cases hconn : s.page.sock.conn? with
      | none => simp only [underway, hconn]
      | some c' =>
        simp only [underway, hconn]
        by_cases he : c' = c
        · subst he
          rw [LiveBus.conns_subscribe_self, hnone]
          simp [Conn.subscribed, Conn.stream, Conn.inFlight]
        · rw [LiveBus.conns_subscribe_of_ne he]

theorem settles_drop_stream {k k' : Conn LiveMsg} {cl : Conn.Label} {seen : ℕ}
    (hstep : k.step cl = some k') (hseen : seen ≤ k.sent.length)
    (hsurvived : cl = .closeDone ∨ cl = .interrupt → AlarmFree (k.inFlight ++ k.queue))
    (code : String) (was : Bool) :
    settles code (eventsOf (k'.stream.drop seen)) was =
      settles code (eventsOf (k.stream.drop seen)) was := by
  by_cases hrunning : k'.Running
  · rw [(Conn.step_same hstep hrunning).1]
  · obtain ⟨hends, hsent, hstream⟩ := Conn.step_ended hstep hrunning
    have hfree := hsurvived hends
    have hqueue : AlarmFree k.queue := by
      intro e he
      refine hfree e ?_
      rw [eventsOf_append]
      exact List.mem_append_right _ he
    rw [hstream, Conn.stream, List.append_assoc, List.drop_append_of_le_length hseen,
      List.drop_append_of_le_length hseen, eventsOf_append, eventsOf_append, settles_append,
      settles_append, settles_of_alarmFree hqueue, settles_of_alarmFree hfree]

theorem Tracks.conn (h : s.Tracks) {c : ℕ} {cl : Conn.Label}
    (hs : s.step (.conn c cl) = some s') (hk : s.Keeps (.conn c cl) s') : s'.Tracks := by
  cases outcome hs with
  | @conn _ _ k k' hconn hstep =>
    have hsurvived : s.page.sock.conn? = some c → cl = .closeDone ∨ cl = .interrupt →
        AlarmFree (k.inFlight ++ k.queue) := by
      have hsurvived := hk.survived
      rintro hc (rfl | rfl)
      · exact hsurvived hc k hconn
      · exact hsurvived hc k hconn
    refine h.rewired (h.registered.setConn c k') (fun c' hc' => ?_) (fun c' hc' => ?_)
      fun _ code was => ?_
    · have hnone := h.fresh c' hc'
      have hne : c' ≠ c := by
        rintro rfl
        rw [hnone] at hconn
        cases hconn
      rwa [LiveBus.conns_setConn_of_ne hne]
    · obtain ⟨hzero, hle⟩ := h.seen c' hc'
      by_cases he : c' = c
      · subst he
        rw [LiveBus.conns_setConn_self]
        refine ⟨by simp, fun k₁ hk₁ => ?_⟩
        obtain rfl := Option.some.inj hk₁
        exact (hle k hconn).trans (Conn.sent_prefix hstep).length_le
      · rw [LiveBus.conns_setConn_of_ne he]
        exact ⟨hzero, hle⟩
    · cases hsock : s.page.sock.conn? with
      | none => simp only [underway, hsock]
      | some c' =>
        simp only [underway, hsock]
        by_cases he : c' = c
        · subst he
          rw [LiveBus.conns_setConn_self, hconn]
          exact settles_drop_stream hstep ((h.seen c' hsock).2 k hconn) (hsurvived hsock) code was
        · rw [LiveBus.conns_setConn_of_ne he]

end Connection

section Page

variable {s} {s' : LiveSite}

theorem Tracks.done (h : s.Tracks) (hsock : s.page.sock ≠ .idle) : s.page.seed = .done := by
  cases hseed : s.page.seed with
  | done => rfl
  | _ => exact absurd (h.idle (by rw [hseed]; rfl)) hsock

theorem Tracks.conn_of_waiting (h : s.Tracks) (hseed : s.page.seed.isDone = false) :
    s.page.sock.conn? = none := by
  rw [h.idle hseed]
  rfl

theorem Tracks.statusRead (h : s.Tracks) (hs : s.step .statusRead = some s') : s'.Tracks := by
  cases outcome hs with
  | statusRead hseed =>
    have hwaiting : s.page.seed.isDone = false := by rw [hseed]; rfl
    have hsock := h.conn_of_waiting hwaiting
    refine ⟨h.settled, h.registered, h.fresh, fun _ => h.idle hwaiting, h.seen, fun _ => ?_⟩
    refine ⟨s.db.activeAlarms, rfl, fun code => ?_⟩
    have hempty : { s with page := { s.page with
        seed := .answered s.db.activeAlarms } }.underway = [] := underway_of_none hsock
    rw [hempty, shows_activeAlarms]
    exact h.settled code

theorem Tracks.openWs (h : s.Tracks) {page : Browser} (hdone : page.seed = .done)
    {alarms : List AlarmRow} (halarms : page.activeAlarms = some alarms)
    (hlist : ∀ code, settles code s.pending (shows alarms code) = s.db.hasRow code) :
    (s.openWs page).Tracks := by
  have hnone : s.bus.conns s.nextConn = none := h.fresh s.nextConn le_rfl
  refine ⟨h.settled, h.registered, fun c hc => h.fresh c (Nat.le_of_succ_le hc), fun hnot => ?_,
    fun c hc => ?_, fun _ => ⟨alarms, ?_, fun code => ?_⟩⟩
  · simp [LiveSite.openWs, Browser.openWs, hdone, Seed.isDone] at hnot
  · obtain rfl : s.nextConn = c := Option.some.inj hc
    exact ⟨fun _ => rfl, fun _ _ => Nat.zero_le _⟩
  · simp [LiveSite.openWs, Browser.openWs, Browser.alarms?, hdone, halarms]
  · have hempty : (s.openWs page).underway = [] := by
      simp [underway, LiveSite.openWs, Browser.openWs, Sock.conn?, hnone]
    rw [hempty]
    exact hlist code

theorem Tracks.seeded (h : s.Tracks) (hs : s.step .seeded = some s') : s'.Tracks := by
  cases outcome hs with
  | @seeded rows hseed =>
    have hsock := h.conn_of_waiting (by rw [hseed]; rfl)
    obtain ⟨alarms, halarms, hlist⟩ := h.list (by rw [hseed]; rfl)
    obtain rfl : rows = alarms := by simpa [Browser.alarms?, hseed] using halarms
    refine h.openWs rfl rfl fun code => ?_
    have hrow := hlist code
    rwa [underway_of_none hsock] at hrow

theorem Tracks.onopen (h : s.Tracks) (hs : s.step .onopen = some s') : s'.Tracks := by
  cases outcome hs with
  | @onopen c hsock =>
    have hconn : s.page.sock.conn? = some c := by rw [hsock]; rfl
    refine ⟨h.settled, h.registered, h.fresh, fun hnot => ?_, fun c' hc' => ?_, fun hseeded => ?_⟩
    · rw [h.idle hnot] at hsock
      cases hsock
    · exact h.seen c' (hconn.trans hc')
    · obtain ⟨alarms, halarms, hlist⟩ := h.list hseeded
      refine ⟨alarms, halarms, fun code => ?_⟩
      have hrow := hlist code
      rw [underway_of_some hconn] at hrow
      exact hrow

theorem arrival_eq_some {msg : LiveMsg} (h : s.arrival = some msg) :
    ∃ c k, s.page.sock = .opened c ∧ s.bus.conns c = some k ∧ k.sent[s.page.seen]? = some msg := by
  unfold arrival at h
  split at h
  · rename_i c hsock
    obtain ⟨k, hk, hmsg⟩ := Option.bind_eq_some_iff.mp h
    exact ⟨c, k, hsock, hk, hmsg⟩
  · cases h

theorem Tracks.onmessage (h : s.Tracks) (hs : s.step .onmessage = some s') : s'.Tracks := by
  cases outcome hs with
  | @onmessage msg harrival =>
    obtain ⟨c, k, hsock, hk, hmsg⟩ := arrival_eq_some harrival
    have hconn : s.page.sock.conn? = some c := by rw [hsock]; rfl
    obtain ⟨hlt, hget⟩ := List.getElem?_eq_some_iff.mp hmsg
    have hdone : s.page.seed = .done := h.done (by rw [hsock]; simp)
    refine ⟨h.settled, h.registered, h.fresh, h.idle, fun c' hc' => ?_, fun hseeded => ?_⟩
    · obtain rfl := Option.some.inj (hconn.symm.trans hc')
      rw [hk]
      refine ⟨by simp, fun k₁ hk₁ => ?_⟩
      obtain rfl := Option.some.inj hk₁
      exact hlt
    · obtain ⟨alarms, halarms, hlist⟩ := h.list hseeded
      have hactive : s.page.activeAlarms = some alarms := by
        simpa [Browser.alarms?, hdone] using halarms
      refine ⟨Browser.applyMessage alarms msg, ?_, fun code => ?_⟩
      · simp [Browser.alarms?, hdone, hactive]
      · have hrow := hlist code
        have hstream : k.stream.drop s.page.seen = msg :: k.stream.drop (s.page.seen + 1) := by
          have hlen : s.page.seen < k.stream.length := by
            simp only [Conn.stream, List.length_append]
            omega
          rw [List.drop_eq_getElem_cons hlen]
          congr 1
          simp only [Conn.stream, List.append_assoc]
          rw [List.getElem_append_left hlt, hget]
        rw [underway_of_some hconn, hk, Option.map_some, Option.getD_some, hstream,
          ← List.singleton_append, eventsOf_append, List.append_assoc, settles_append,
          ← shows_applyMessage] at hrow
        have hrest : { s with page := { s.page with
            activeAlarms := s.page.activeAlarms.map (Browser.applyMessage · msg)
            seen := s.page.seen + 1 } }.underway = k.stream.drop (s.page.seen + 1) := by
          simp only [underway, hconn, hk, Option.map_some, Option.getD_some]
        rw [hrest]
        exact hrow

theorem Tracks.onclose (h : s.Tracks) (hs : s.step .onclose = some s')
    (hk : s.Keeps .onclose s') : s'.Tracks := by
  cases outcome hs with
  | onclose hconn =>
    refine ⟨h.settled, h.registered, h.fresh, fun hnot => ?_, fun _ hc => ?_, fun hseeded => ?_⟩
    · rw [h.conn_of_waiting hnot] at hconn
      cases hconn
    · cases hc
    · obtain ⟨alarms, halarms, hlist⟩ := h.list hseeded
      refine ⟨alarms, halarms, fun code => ?_⟩
      have hrow := hlist code
      rw [settles_append, settles_of_alarmFree hk.survived] at hrow
      exact hrow

theorem Tracks.reconnect (h : s.Tracks) (hs : s.step .reconnect = some s') : s'.Tracks := by
  cases outcome hs with
  | reconnect hsock =>
    have hdone : s.page.seed = .done := h.done (by rw [hsock]; simp)
    have hconn : s.page.sock.conn? = none := by rw [hsock]; rfl
    obtain ⟨alarms, halarms, hlist⟩ := h.list (by rw [hdone]; rfl)
    have hactive : s.page.activeAlarms = some alarms := by
      simpa [Browser.alarms?, hdone] using halarms
    refine h.openWs hdone hactive fun code => ?_
    have hrow := hlist code
    rwa [underway_of_none hconn] at hrow

end Page

theorem Tracks.step {s s' : LiveSite} {l : Label} (h : s.Tracks) (hs : s.step l = some s')
    (hk : s.Keeps l s') : s'.Tracks := by
  cases l with
  | poll tier faults now reading => exact h.poll hs hk
  | telemetryWritten => exact h.telemetryWritten hs hk
  | atsPoll faults now mono tier reading => exact h.atsPoll hs hk
  | other i => exact h.other hs hk
  | applyRegmap m =>
    obtain rfl := Option.some.inj hs
    exact h.unserved rfl rfl le_rfl rfl hk.carried fun _ _ => Iff.rfl
  | ack code operator ctl now => exact h.ack hs hk
  | connect =>
    obtain rfl := Option.some.inj hs
    exact h.unserved rfl rfl (Nat.le_succ _) rfl hk.carried fun _ _ => Iff.rfl
  | subscribe c mono => exact h.subscribe hs
  | conn c cl => exact h.conn hs hk
  | statusRead => exact h.statusRead hs
  | seeded => exact h.seeded hs
  | seedFailed => exact hk.survived.elim
  | onopen => exact h.onopen hs
  | onmessage => exact h.onmessage hs
  | onclose => exact h.onclose hs hk
  | reconnect => exact h.reconnect hs

/-- In a run whose steps keep the page in line, whenever the page is connected, nothing is on its
way to it and nothing is held back, its list has exactly the codes that have rows. -/
theorem alarm_list_converges_of_keeps (mon : Monitor) (pushThrottleS lastPushTs : ℚ)
    (ls : List Label)
    (hkeeps : ∀ s l s', Takes step (start mon pushThrottleS lastPushTs) ls s l s' →
      s.Keeps l s') :
    ∀ s, run step (start mon pushThrottleS lastPushTs) ls = some s →
      ∀ c, s.page.sock = .opened c → s.underway = [] → s.pending = [] →
        ∃ alarms, s.page.activeAlarms = some alarms ∧
          ∀ code, code ∈ alarms.map AlarmRow.code ↔ s.db.Active code := by
  intro s hr c hsock hunderway hpending
  have h : s.Tracks := run_invariant_of_takes hr hkeeps (tracks_start mon pushThrottleS lastPushTs)
    fun _ _ _ h hk hs => h.step hs hk
  have hdone : s.page.seed = .done := h.done (by rw [hsock]; simp)
  obtain ⟨alarms, halarms, hlist⟩ := h.list (by rw [hdone]; rfl)
  refine ⟨alarms, by simpa [Browser.alarms?, hdone] using halarms, fun code => ?_⟩
  have hrow := hlist code
  rw [hunderway, hpending] at hrow
  have hshows : shows alarms code = s.db.hasRow code := hrow
  rw [Bool.eq_iff_iff] at hshows
  simpa [shows, Database.hasRow] using hshows

def alarmedMap : RegisterMap :=
  { RegisterMap.bare with
    registers := [.plain "status"]
    alarmBits := [⟨"status", 1, "HIGH_TEMP", "High temperature", .alarm, [], 1⟩] }

/-- A page gets its status and opens its socket. -/
def connected : List Label :=
  [.statusRead, .seeded, .subscribe 0 0, .onopen, .conn 0 (.sendDone 1 true)]

def alarmRaised : List Label :=
  connected ++ [.poll .prime [] 5 ⟨fun _ => some 1, 5, fun _ => none⟩, .conn 0 .take,
    .conn 0 (.sendDone 2 true), .conn 0 .take, .conn 0 (.sendDone 3 true), .onmessage, .onmessage]

/-- An alarm that is raised while the page is connected is on its list. -/
theorem raised_alarm_listed :
    ∃ s alarms, run step (start (.init alarmedMap none .empty 0) 0 0) alarmRaised = some s ∧
      s.page.activeAlarms = some alarms ∧ s.db.Active "HIGH_TEMP" ∧
      ∀ code, code ∈ alarms.map AlarmRow.code ↔ s.db.Active code := by
  have heval : (run step (start (.init alarmedMap none .empty 0) 0 0) alarmRaised).any (fun s =>
      s.page.sock = .opened 0 ∧ s.underway = [] ∧ s.pending = [] ∧ s.db.Active "HIGH_TEMP") =
        true := by
    decide +kernel
  obtain ⟨s, hrun, hs⟩ := (Option.any_eq_true _ _).mp heval
  obtain ⟨hsock, hunderway, hpending, hactive⟩ := of_decide_eq_true hs
  obtain ⟨alarms, halarms, hlist⟩ := alarm_list_converges_of_keeps (.init alarmedMap none .empty 0)
    0 0 alarmRaised (fun s l s' ht => of_decide_eq_true
      (ht.test_of_everyStep (fun s l s' => s.Keeps l s') (by decide +kernel)))
    s hrun 0 hsock hunderway hpending
  exact ⟨s, alarms, hrun, halarms, hactive, hlist⟩

def oneAlarm : Database :=
  (Database.empty.raiseAlarm ⟨"HIGH_TEMP", .text "High temperature", .alarm, 0, 1⟩).2

theorem unlike_of_eval {start : LiveSite} {ls : List Label} (code : String)
    (h : (run step start ls).any (fun s => s.page.sock = .opened 0 ∧ s.underway = [] ∧
      s.pending = [] ∧ ¬∀ alarms ∈ s.page.activeAlarms,
        (code ∈ alarms.map AlarmRow.code ↔ s.db.Active code)) = true) :
    ∃ s, run step start ls = some s ∧ s.page.sock = .opened 0 ∧ s.underway = [] ∧ s.pending = [] ∧
      ¬∃ alarms, s.page.activeAlarms = some alarms ∧
        ∀ code, code ∈ alarms.map AlarmRow.code ↔ s.db.Active code := by
  obtain ⟨s, hrun, hs⟩ := (Option.any_eq_true _ _).mp h
  obtain ⟨hsock, hunderway, hpending, hunlike⟩ := of_decide_eq_true hs
  refine ⟨s, hrun, hsock, hunderway, hpending, ?_⟩
  rintro ⟨alarms, halarms, hlist⟩
  refine hunlike fun alarms' halarms' => ?_
  obtain rfl := Option.some.inj (halarms.symm.trans halarms')
  exact hlist code

/-- An alarm that is acknowledged while the page is connected stays on its list; one that is raised
before the page has subscribed does not get there. -/
theorem missed_changes :
    (∃ s, run step (start (.init alarmedMap none oneAlarm 0) 0 0)
        (connected ++ [.ack "HIGH_TEMP" "op" none 9]) = some s ∧
      s.page.sock = .opened 0 ∧ s.underway = [] ∧ s.pending = [] ∧
      ¬∃ alarms, s.page.activeAlarms = some alarms ∧
        ∀ code, code ∈ alarms.map AlarmRow.code ↔ s.db.Active code) ∧
    ∃ s, run step (start (.init alarmedMap none .empty 0) 0 0)
        (.statusRead :: .poll .prime [] 5 ⟨fun _ => some 1, 5, fun _ => none⟩ ::
          connected.tail) = some s ∧
      s.page.sock = .opened 0 ∧ s.underway = [] ∧ s.pending = [] ∧
      ¬∃ alarms, s.page.activeAlarms = some alarms ∧
        ∀ code, code ∈ alarms.map AlarmRow.code ↔ s.db.Active code :=
  ⟨unlike_of_eval "HIGH_TEMP" (by decide +kernel), unlike_of_eval "HIGH_TEMP" (by decide +kernel)⟩

end LiveSite

end GenWatch
