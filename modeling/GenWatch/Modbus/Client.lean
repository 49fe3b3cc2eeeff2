import GenWatch.Prelude.Mutex
import GenWatch.Prelude.Transition
import Mathlib.Data.Rat.Defs
import Mathlib.Logic.Function.Basic

/-! # The Modbus client

Any number of reads and writes share one link. A call holds the link's lock for one
transaction: a read that fails gives the lock up, waits, and asks for it again, so that a
write that has come in between goes first. A write is never repeated. Over TCP a call opens
the socket again when it finds it closed. The library underneath, and what it answers, are
inputs.
-/

namespace GenWatch

structure ModbusResult where
  ok : Bool
  words : Option (List ℤ)
  error : Option String
  elapsedMs : ℚ
  deriving DecidableEq

namespace ModbusResult

def success (words : List ℤ) (elapsedMs : ℚ) : ModbusResult := ⟨true, some words, none, elapsedMs⟩

def failure (reason : String) (elapsedMs : ℚ) : ModbusResult :=
  ⟨false, none, some reason, elapsedMs⟩

end ModbusResult

inductive Attempt where
  | failed (reason : String)
  | got (words : List ℤ)
  deriving DecidableEq

/-- How the library reports a transaction. -/
inductive Reply where
  | none
  /-- an exception response; its code may be missing -/
  | exception (code : Option ℕ)
  | registers (words : Option (List ℤ))
  | timeout
  | raised (name : String)

def coerceWriteArgs (value : Option ℤ) (values : Option (List ℤ)) (fc : ℤ) :
    Except String (List ℤ) :=
  match value, values with
  | some _, some _ => .error "both_value_and_values_provided"
  | none, none => .error "no_value_provided"
  | some word, none => .ok [word]
  | none, some [] => .error "empty_values"
  | none, some words =>
    if fc = 6 ∧ words.length ≠ 1 then .error "fc6_requires_single_value" else .ok words

inductive ModbusCall where
  | read (addr count fc : ℤ)
  | write (addr : ℤ) (value : Option ℤ) (fc : ℤ) (values : Option (List ℤ))
  deriving DecidableEq

structure ReadJob where
  addr : ℤ
  count : ℤ
  fc : ℤ
  t0 : ℚ
  attempt : ℕ
  lastErr : String
  deriving DecidableEq

structure WriteJob where
  addr : ℤ
  words : List ℤ
  fc : ℤ
  t0 : ℚ
  deriving DecidableEq

inductive Job where
  | read (r : ReadJob)
  | write (w : WriteJob)
  deriving DecidableEq

/-- What is put on the wire. -/
inductive WireRequest where
  | read (addr count fc : ℤ)
  | write (addr fc : ℤ) (words : List ℤ)
  deriving DecidableEq

def exceptionCode : Option ℕ → String
  | some code => toString code
  | none => "?"

namespace Job

def wire : Job → WireRequest
  | .read r => .read r.addr r.count r.fc
  | .write w => .write w.addr w.fc w.words

/-- A write reads the clock once it holds the lock, a read when it is called. -/
def enter (now : ℚ) : Job → Job
  | .read r => .read r
  | .write w => .write { w with t0 := now }

def supported : Job → Bool
  | .read r => r.fc = 3 ∨ r.fc = 4
  | .write w => w.fc = 6 ∨ w.fc = 16

/-- What keeps a transaction off the wire, if the library's client is there or not. -/
def refusal (client : Bool) (job : Job) : Option String :=
  match job with
  | .read _ =>
    if client = false then some "AssertionError"
    else if job.supported then none
    else some "ValueError"
  | .write w =>
    if job.supported then if client then none else some "AttributeError"
    else some ("unsupported_write_fc_" ++ toString w.fc)

/-- What the caller makes of the reply: a read of the wrong length has failed. -/
def attempt : Job → Reply → Attempt
  | .read _, .none => .failed "no_response"
  | .read _, .exception code => .failed ("exc_" ++ exceptionCode code)
  | .read _, .registers none => .failed "short_read"
  | .read r, .registers (some words) =>
    if (words.length : ℤ) = r.count then .got words else .failed "short_read"
  | .write _, .none => .failed ("write_failed_" ++ exceptionCode none)
  | .write _, .exception code => .failed ("write_failed_" ++ exceptionCode code)
  | .write w, .registers _ => .got w.words
  | _, .timeout => .failed "timeout"
  | _, .raised name => .failed name

end Job

/-- Where a call has stopped. -/
inductive CallState where
  | done
  | queued (job : Job)
  /-- it holds the lock and opens the socket -/
  | connecting (job : Job)
  /-- it holds the lock and waits for the reply -/
  | onWire (job : Job)
  /-- a read between two attempts, until a time -/
  | sleeping (r : ReadJob) (wakeAt : ℚ)
  deriving DecidableEq

namespace CallState

def holds : CallState → Bool
  | .connecting _ | .onWire _ => true
  | _ => false

def isQueued : CallState → Bool
  | .queued _ => true
  | _ => false

def isDone : CallState → Bool
  | .done => true
  | _ => false

end CallState

inductive CallEvent where
  | called (c : ModbusCall)
  | sent (req : WireRequest)
  | attempted (a : Attempt)
  | returned (res : ModbusResult)
  deriving DecidableEq

/-- What a client is built with: there is always a delay to wait. -/
structure ClientConfig where
  tcp : Bool
  retries : ℕ
  backoffS : List ℚ
  backoffS_ne : backoffS ≠ []

namespace ClientConfig

def new (tcp : Bool) (retries : ℤ) (backoffS : List ℚ) : ClientConfig where
  tcp := tcp
  retries := (max 0 retries).toNat
  backoffS := if backoffS = [] then [1 / 4] else backoffS
  backoffS_ne := by
    split
    · simp
    · assumption

variable (cfg : ClientConfig)

def attempts : ℕ := cfg.retries + 1

/-- The delay after attempt `i`: past the end of the list, the last one. -/
def backoff (i : ℕ) : ℚ :=
  cfg.backoffS.get ⟨min i (cfg.backoffS.length - 1),
    lt_of_le_of_lt (min_le_right _ _)
      (Nat.sub_one_lt (List.length_pos_iff.mpr cfg.backoffS_ne).ne')⟩

/-- What the end of an attempt makes of its call: a failed read waits if it may try again. -/
def ended (now : ℚ) : Job → Attempt → CallState × List CallEvent
  | .read r, .failed reason =>
    let r := { r with attempt := r.attempt + 1, lastErr := reason }
    if r.attempt < cfg.attempts then (.sleeping r (now + cfg.backoff (r.attempt - 1)), [])
    else (.done, [.returned (.failure r.lastErr ((now - r.t0) * 1000))])
  | .read r, .got words => (.done, [.returned (.success words ((now - r.t0) * 1000))])
  | .write w, .failed reason => (.done, [.returned (.failure reason ((now - w.t0) * 1000))])
  | .write w, .got words => (.done, [.returned (.success words ((now - w.t0) * 1000))])

end ClientConfig

structure ModbusLink where
  cfg : ClientConfig
  /-- the library's client has been made -/
  client : Bool
  connected : Bool
  lock : Mutex ℕ
  calls : ℕ → CallState
  next : ℕ
  clock : ℚ

namespace ModbusLink

inductive Label where
  | connect (ok : Bool)
  | close
  /-- the socket goes down, or up again by itself -/
  | socket (up : Bool)
  | call (c : ModbusCall) (now : ℚ)
  /-- the first call that waits for the lock is resumed -/
  | wake (i : ℕ) (now : ℚ)
  | reconnected (i : ℕ) (ok : Bool) (now : ℚ)
  | replied (i : ℕ) (reply : Reply) (now : ℚ)
  | slept (i : ℕ) (now : ℚ)

def init (cfg : ClientConfig) (clock : ℚ) : ModbusLink :=
  ⟨cfg, false, false, .free, fun _ => .done, 0, clock⟩

variable (s : ModbusLink)

def setCall (i : ℕ) (c : CallState) : ModbusLink := { s with calls := Function.update s.calls i c }

def release : ModbusLink := { s with lock := s.lock.release }

section Locked

variable (i : ℕ) (now : ℚ)

def attemptEnds (job : Job) (a : Attempt) : ModbusLink × List CallEvent :=
  (s.release.setCall i (s.cfg.ended now job a).1, .attempted a :: (s.cfg.ended now job a).2)

/-- Put the request on the wire, unless something keeps it off. -/
def transact (job : Job) : ModbusLink × List CallEvent :=
  match job.refusal s.client with
  | some reason =>
    -- an unsupported write is refused without a duration
    s.attemptEnds i now (if job.supported then job else job.enter now) (.failed reason)
  | none => (s.setCall i (.onWire job), [.sent job.wire])

/-- What a call does once it holds the lock: over TCP it first sees to the socket. -/
def locked (job : Job) : ModbusLink × List CallEvent :=
  let job := job.enter now
  if s.cfg.tcp = false then s.transact i now job
  else if s.client = false then s.attemptEnds i now job (.failed "tcp_disconnected")
  else if s.connected then s.transact i now job
  else (s.setCall i (.connecting job), [])

def acquire (job : Job) : ModbusLink × List CallEvent :=
  if s.lock.open? then { s with lock := s.lock.take i }.locked i now job
  else ({ s with lock := s.lock.enqueue i }.setCall i (.queued job), [])

def spawn (c : ModbusCall) : ModbusLink × List CallEvent :=
  let refuse reason := (s.setCall i .done, [CallEvent.returned (.failure reason 0)])
  if s.client = false then refuse "not_connected"
  else
    match c with
    | .read addr count fc => s.acquire i now (.read ⟨addr, count, fc, now, 0, "unknown"⟩)
    | .write addr value fc values =>
      match coerceWriteArgs value values fc with
      | .error reason => refuse reason
      | .ok words => s.acquire i now (.write ⟨addr, words, fc, now⟩)

end Locked

/-- The clock is not before the last time it was read. -/
def tick (now : ℚ) : Option ModbusLink :=
  if s.clock ≤ now then some { s with clock := now } else none

def step : Label → Option (ModbusLink × List (ℕ × CallEvent))
  | .connect ok => some ({ s with client := true, connected := ok }, [])
  | .close => some ({ s with client := false, connected := false }, [])
  | .socket up => some ({ s with connected := up }, [])
  | .call c now => (s.tick now).map fun t =>
    let r := { t with next := t.next + 1 }.spawn t.next now c
    (r.1, (t.next, .called c) :: r.2.map (t.next, ·))
  | .wake i now => (s.tick now).bind fun t => (t.lock.wake? i).bind fun lock =>
    match t.calls i with
    | .queued job =>
      let r := { t with lock := lock }.locked i now job
      some (r.1, r.2.map (i, ·))
    | _ => none
  | .reconnected i ok now => (s.tick now).bind fun t =>
    match t.calls i with
    | .connecting job =>
      let t := { t with connected := ok }
      let r := if ok then t.transact i now job
        else t.attemptEnds i now job (.failed "tcp_disconnected")
      some (r.1, r.2.map (i, ·))
    | _ => none
  | .replied i reply now => (s.tick now).bind fun t =>
    match t.calls i with
    | .onWire job =>
      let r := t.attemptEnds i now job (job.attempt reply)
      some (r.1, r.2.map (i, ·))
    | _ => none
  | .slept i now => (s.tick now).bind fun t =>
    match t.calls i with
    | .sleeping r wakeAt =>
      if wakeAt ≤ now then
        let r := t.acquire i now (.read r)
        some (r.1, r.2.map (i, ·))
      else none
    | _ => none

end ModbusLink

end GenWatch
