import GenWatch.Prelude.Mutex
import GenWatch.Prelude.Transition
import GenWatch.Services.AtsControl
import GenWatch.Services.Monitor

/-! # The whole service

Requests run as coroutines on one event loop. A coroutine gives up control only
where it waits for a lock or for a write to return, so what happens between two such
points is one step. The generator's commands keep the control lock across their
write; transfer-switch commands keep a lock of their own and take the control lock
only to consume their token, as acknowledgements do. Polls of both devices come in
between, and every step logs what can be observed of it.
-/

namespace GenWatch

structure AckRequest where
  code : String
  token : String
  operator : String
  deriving DecidableEq

/-- The requests that may end in a write. -/
inductive Request where
  | execute (r : ControlRequest)
  | atsExecute (r : AtsRequest)
  | ack (r : AckRequest)
  deriving DecidableEq

namespace Request

def token : Request → String
  | .execute r => r.token
  | .atsExecute r => r.token
  | .ack r => r.token

def operator : Request → String
  | .execute r => r.operator
  | .atsExecute r => r.operator
  | .ack r => r.operator

def action : Request → Action
  | .execute r => r.verb
  | .atsExecute r => r.command
  | .ack _ => .ack

def writeError : Request → String → ControlError
  | .execute _ => .modbusFailed
  | .atsExecute _ => .atsModbusFailed
  | .ack _ => .ackModbusFailed

end Request

/-- A call of the client's write: one word under function code 6, or a list of words. -/
inductive WriteCall where
  | single (addr value : ℤ)
  | multi (addr fc : ℤ) (values : List ℤ)
  deriving DecidableEq

namespace WriteCall

def ofControl (ctl : ControlDef) : WriteCall :=
  match ctl.writeValues with
  | [word] => if ctl.fc = 6 then .single ctl.addr word else .multi ctl.addr ctl.fc [word]
  | words => .multi ctl.addr ctl.fc words

def words : WriteCall → List ℤ
  | .single _ value => [value]
  | .multi _ _ values => values

@[simp] theorem words_ofControl (ctl : ControlDef) : (ofControl ctl).words = ctl.writeValues := by
  unfold ofControl
  split
  · rename_i word hw
    split <;> simp [words, hw]
  · rfl

end WriteCall

/-- Where a coroutine has stopped. -/
inductive Task where
  | done
  /-- a command waits for the control lock -/
  | queued (r : ControlRequest)
  | ackQueued (r : AckRequest) (m : RegisterMap)
  | issueQueued (operator : String) (verb : Option Action)
  | reloadQueued (m : RegisterMap) (operator : String)
  /-- a transfer-switch command waits for its own lock -/
  | atsQueued (r : AtsRequest)
  /-- a transfer-switch command has passed its gates and waits for the control lock -/
  | atsToken (r : AtsRequest) (ctl : ControlDef)
  | writing (req : Request) (ctl : ControlDef)

/-- What a step shows: `i` is the coroutine it happens in. -/
inductive Obs where
  | token (i : ℕ) (e : TokenEvent)
  | denied (i : ℕ) (error : ControlError)
  | write (i : ℕ) (req : Request) (call : WriteCall)
  | returned (i : ℕ) (req : Request) (error : Option ControlError)
  | updated
  deriving DecidableEq

def Obs.isWrite : Obs → Bool
  | .write _ _ _ => true
  | _ => false

structure World where
  mono : ℚ
  mon : Monitor
  control : ControlService
  lock : Mutex ℕ
  atsLock : Mutex ℕ
  appRegmap : RegisterMap
  tasks : ℕ → Task
  next : ℕ

inductive Label where
  | execute (r : ControlRequest) (at_ : Clock)
  | atsExecute (r : AtsRequest) (at_ : Clock)
  | ack (r : AckRequest) (at_ : Clock)
  | issue (operator : String) (verb : Option Action) (fresh : String) (at_ : Clock)
  | reload (m : RegisterMap) (operator : String) (at_ : Clock)
  /-- the first coroutine that waits for the control lock is resumed -/
  | wake (i : ℕ) (fresh : String) (at_ : Clock)
  /-- the first coroutine that waits for the transfer-switch lock is resumed -/
  | wakeAts (i : ℕ) (at_ : Clock)
  /-- a write returns, with an error or without -/
  | returned (i : ℕ) (error : Option String) (at_ : Clock)
  | input (i : Input) (faults : List Bool)

namespace World

def init (m : RegisterMap) (ats : Option (RegisterMap × Option ℤ)) (db : Database) (now mono : ℚ) :
    World where
  mono := mono
  mon := .init m ats db now
  control := ⟨m, ∅⟩
  lock := .free
  atsLock := .free
  appRegmap := m
  tasks := fun _ => .done
  next := 0

variable (w : World)

def snap : StateSnapshot := w.mon.stateMachine.snap

/-- The live state of the link behind the snapshot. -/
def comms : CommsState := (w.mon.heap w.snap.comms).state

def setDb (db : Database) : World := { w with mon := { w.mon with db := db } }

def setTask (i : ℕ) (t : Task) : World := { w with tasks := Function.update w.tasks i t }

def release : World := { w with lock := w.lock.release }

def releaseAts : World := { w with atsLock := w.atsLock.release }

/-- What a critical section of the control service starts from. -/
def ctx : ControlCtx := ⟨w.control, w.mon.db, []⟩

def store (c : ControlCtx) : World := { w with control := c.self, mon := { w.mon with db := c.db } }

def tokenObs (i : ℕ) (c : ControlCtx) : List Obs := c.log.map (.token i)

def deny (i : ℕ) (operator : String) (action : AuditAction) (token : String) (d : Denial)
    (now : ℚ) : World × List Obs :=
  let db := w.mon.db.writeAudit ⟨now, operator, action, d.detail, token, d.result⟩
  ((w.setDb db).setTask i .done, [.denied i d.error])

section Locked

variable (i : ℕ) (at_ : Clock)

/-- A command that holds the control lock: it ends at its write, or refused. -/
def executeLocked (r : ControlRequest) (ctlName : String) : World × List Obs :=
  match (ControlService.executeLocked w.snap w.comms r ctlName at_).run w.ctx with
  | .ok ctl c =>
    ((w.store c).setTask i (.writing (.execute r) ctl),
      tokenObs i c ++ [.write i (.execute r) (.ofControl ctl)])
  | .error e c => ((w.store c).release.setTask i .done, tokenObs i c ++ [.denied i e])

/-- A transfer-switch command that holds both locks consumes its token, and writes. -/
def atsTokenLocked (r : AtsRequest) (ctl : ControlDef) : World × List Obs :=
  match (ControlService.consumeTokenLocked r.token r.operator (some r.command) at_).run w.ctx with
  | .ok _ c =>
    ((w.store c).release.setTask i (.writing (.atsExecute r) ctl),
      tokenObs i c ++ [.write i (.atsExecute r) (.ofControl ctl)])
  | .error e c => ((w.store c).release.releaseAts.setTask i .done, tokenObs i c ++ [.denied i e])

/-- An acknowledgement consumes its token; with no control to write it clears the row at once. -/
def ackLocked (r : AckRequest) (m : RegisterMap) : World × List Obs :=
  match (ControlService.consumeTokenLocked r.token r.operator (some .ack) at_).run w.ctx with
  | .ok _ c =>
    match m.controls.find? "ack_alarm" with
    | some ctl =>
      ((w.store c).release.setTask i (.writing (.ack r) ctl),
        tokenObs i c ++ [.write i (.ack r) (.ofControl ctl)])
    | none =>
      (((w.store c).setDb (c.db.acknowledgeAlarm r.code r.operator none at_.wall)).release.setTask
        i .done, tokenObs i c)
  | .error e c => ((w.store c).release.setTask i .done, tokenObs i c ++ [.denied i e])

/-- A token is issued; the random string is drawn again while it is in the store. -/
def issueLocked (operator : String) (verb : Option Action) (fresh : String) :
    Option (World × List Obs) :=
  if ∃ ct ∈ w.control.tokens.rows, ct.token = fresh ∧ at_.evict ≤ ct.expiresMonotonic then none
  else
    match (ControlService.issueToken operator verb fresh at_).run w.ctx with
    | .ok _ c | .error _ c => some ((w.store c).release.setTask i .done, tokenObs i c)

/-- A new register map reaches the control service, then the application. -/
def reloadLocked (m : RegisterMap) (operator : String) : World × List Obs :=
  let w := { w with control := { w.control with regmap := m }, appRegmap := m }
  let db := w.mon.db.writeAudit ⟨at_.wall, operator, .registersReload, .reloaded, "", .ok⟩
  let db := db.writeEvent ⟨at_.wall, .info, .config, .reloaded, none⟩
  ((w.setDb db).release.setTask i .done, [])

def locked (fresh : String) : Task → Option (World × List Obs)
  | .queued r => (verbToControl r.verb).map (w.executeLocked i at_ r)
  | .atsToken r ctl => some (w.atsTokenLocked i at_ r ctl)
  | .ackQueued r m => some (w.ackLocked i at_ r m)
  | .issueQueued operator verb => w.issueLocked i at_ operator verb fresh
  | .reloadQueued m operator => some (w.reloadLocked i at_ m operator)
  | .done | .atsQueued _ | .writing _ _ => none

/-- Enter the control lock, or join its queue. -/
def acquire (fresh : String) (t : Task) : Option (World × List Obs) :=
  if w.lock.open? then { w with lock := w.lock.take i }.locked i at_ fresh t
  else some ({ w with lock := w.lock.enqueue i }.setTask i t, [])

/-- A transfer-switch command that holds its lock: past its gates it goes for the control lock. -/
def atsLocked (ats : AtsService) (r : AtsRequest) (spec : AtsCommandSpec) :
    Option (World × List Obs) :=
  match AtsControlService.gate ats w.mon.heap spec r with
  | .error d => some (w.releaseAts.deny i r.operator (.ats r.command) r.token d at_.wall)
  | .ok ctl => w.acquire i at_ "" (.atsToken r ctl)

/-- Enter the transfer-switch lock, or join its queue. -/
def acquireAts (ats : AtsService) (r : AtsRequest) (spec : AtsCommandSpec) :
    Option (World × List Obs) :=
  if w.atsLock.open? then { w with atsLock := w.atsLock.take i }.atsLocked i at_ ats r spec
  else some ({ w with atsLock := w.atsLock.enqueue i }.setTask i (.atsQueued r), [])

end Locked

section Requests

variable (i : ℕ) (at_ : Clock)

def execute (r : ControlRequest) : Option (World × List Obs) :=
  if ControlService.mayControl r.role = false then
    some (w.deny i r.operator (.control r.verb) r.token
      ⟨.role r.role, .denied, .forbidden⟩ at_.wall)
  else if (verbToControl r.verb).isNone then
    some (w.setTask i .done, [.denied i (.unknownVerb r.verb)])
  else w.acquire i at_ "" (.queued r)

def atsExecute (ats : AtsService) (r : AtsRequest) : Option (World × List Obs) :=
  match atsCommandSpecs r.command with
  | none => some (w.setTask i .done, [.denied i (.unknownCommand r.command)])
  | some spec =>
    if roleSatisfies r.role spec.role then w.acquireAts i at_ ats r spec
    else some (w.deny i r.operator (.ats r.command) r.token
      ⟨.role r.role, .denied, .roleRequired spec.role r.command⟩ at_.wall)

def ack (r : AckRequest) : Option (World × List Obs) :=
  if w.mon.db.Active r.code then
    if w.comms = .lost then some (w.setTask i .done, [.denied i .ackCommsLost])
    else w.acquire i at_ "" (.ackQueued r w.appRegmap)
  else some (w.setTask i .done, [.denied i (.alarmNotActive r.code)])

/-- The generator's maps are swapped at once, the control service's under its lock. -/
def reload (m : RegisterMap) (operator : String) : Option (World × List Obs) :=
  { w with mon := w.mon.applyRegmap m }.acquire i at_ "" (.reloadQueued m operator)

/-- What a write that returned leaves in the log and the audit. -/
def recordWrite (req : Request) (ctl : ControlDef) (error : Option String) (now : ℚ) :
    Database :=
  let db := w.mon.db
  match req, error with
  | .execute r, none =>
    (db.writeAudit ⟨now, r.operator, .control r.verb, .wrote ctl, r.token, .ok⟩).writeEvent
      ⟨now, .ok, .command, .command r.verb true, some r.operator⟩
  | .execute r, some e =>
    (db.writeAudit ⟨now, r.operator, .control r.verb, .writeFailed e, r.token, .failed⟩).writeEvent
      ⟨now, .warn, .command, .command r.verb false, some e⟩
  | .atsExecute r, none =>
    (db.writeAudit ⟨now, r.operator, .ats r.command, .atsWrote ctl r.assert r.override, r.token,
      .ok⟩).writeEvent ⟨now, .ok, .atsCommand, .atsCommand r.command
        (((atsCommandSpecs r.command).map fun spec =>
          AtsControlService.commandWord spec r).getD ""), some r.operator⟩
  | .atsExecute r, some e =>
    (db.writeAudit ⟨now, r.operator, .ats r.command, .writeFailed e, r.token, .failed⟩).writeEvent
      ⟨now, .warn, .atsCommand, .atsCommandFailed r.command, some e⟩
  | .ack r, none => db.acknowledgeAlarm r.code r.operator (some ctl) now
  | .ack r, some e =>
    (db.writeAudit ⟨now, r.operator, .alarmAck, .acked r.code (some ctl), "",
      .failedWith e⟩).writeEvent ⟨now, .warn, .alarm, .ackFailed r.code, some e⟩

/-- A write returns: the coroutine leaves its critical section and ends. -/
def returned (req : Request) (ctl : ControlDef) (error : Option String) : World × List Obs :=
  let w := w.setDb (w.recordWrite req ctl error at_.wall)
  let w :=
    match req with
    | .execute _ => w.release
    | .atsExecute r =>
      let w := w.releaseAts
      if error = none then
        { w with mon := { w.mon with
            ats := w.mon.ats.map (AtsService.noteCommandWrite · r.command r.assert at_.gate) } }
      else w
    | .ack _ => w
  (w.setTask i .done, [.returned i req (error.map req.writeError)])

end Requests

def tick (at_ : Clock) : Option World :=
  if at_.From w.mono then some { w with mono := at_.expiry } else none

def spawn (at_ : Clock) : Option World := (w.tick at_).map fun w => { w with next := w.next + 1 }

def step : Label → Option (World × List Obs)
  | .execute r at_ => (w.spawn at_).bind fun v => v.execute w.next at_ r
  | .atsExecute r at_ =>
    (w.spawn at_).bind fun v => v.mon.ats.bind fun ats => v.atsExecute w.next at_ ats r
  | .ack r at_ => (w.spawn at_).bind fun v => v.ack w.next at_ r
  | .issue operator verb fresh at_ =>
    (w.spawn at_).bind fun v => v.acquire w.next at_ fresh (.issueQueued operator verb)
  | .reload m operator at_ => (w.spawn at_).bind fun v => v.reload w.next at_ m operator
  | .wake i fresh at_ =>
    (w.tick at_).bind fun v => (v.lock.wake? i).bind fun lock =>
      { v with lock := lock }.locked i at_ fresh (v.tasks i)
  | .wakeAts i at_ =>
    (w.tick at_).bind fun v => (v.atsLock.wake? i).bind fun lock => v.mon.ats.bind fun ats =>
      match v.tasks i with
      | .atsQueued r =>
        (atsCommandSpecs r.command).bind ({ v with atsLock := lock }.atsLocked i at_ ats r)
      | _ => none
  | .returned i error at_ =>
    (w.tick at_).bind fun v =>
      match v.tasks i with
      | .writing req ctl => some (v.returned i at_ req ctl error)
      | _ => none
  | .input i faults =>
    (w.mon.step faults i).map fun r =>
      ({ w with mon := r.1 }, if i.callback = some .h100 then [.updated] else [])

end World

/-- The service with everything observed so far. -/
structure Service where
  world : World
  trace : List Obs

namespace Service

def start (m : RegisterMap) (ats : Option (RegisterMap × Option ℤ)) (db : Database)
    (now mono : ℚ) : Service :=
  ⟨.init m ats db now mono, []⟩

def step (s : Service) (l : Label) : Option Service :=
  (s.world.step l).map fun r => ⟨r.1, s.trace ++ r.2⟩

/-- The step under the label shows the observation. -/
def Shows (s : Service) (l : Label) (o : Obs) : Prop := ∃ r, s.world.step l = some r ∧ o ∈ r.2

instance (s : Service) (l : Label) (o : Obs) : Decidable (s.Shows l o) :=
  decidable_of_iff ((s.world.step l).any fun r => o ∈ r.2) (by simp [Shows, Option.any_eq_true])

section Example

/-- A site with two engine states, a key switch and two commands. -/
def siteMap : RegisterMap :=
  { RegisterMap.bare with
    registers := [.plain "status", .plain "key_switch" 1]
    engineStateBits := [⟨.stopped, "status", 1⟩, ⟨.running, "status", 2⟩]
    panelModeBits := [⟨.auto, "key_switch", 1⟩]
    controls := ⟨[⟨"remote_start", 0x0130, 6, 1, []⟩, ⟨"remote_stop", 0x0131, 6, 1, []⟩],
      by decide⟩ }

/-- A reading of the site's status word, with the key switch in AUTO. -/
def siteReading (status mono : ℚ) : Reading :=
  let values : Values := fun name => [("status", status), ("key_switch", 1)].lookup name
  ⟨values, mono, fun name => (values name).map fun _ => mono⟩

/-- All clocks read the same. -/
def clockAt (t : ℚ) : Clock := ⟨t, t, t, t⟩

end Example

end Service

end GenWatch
