import GenWatch.Auth.Session
import GenWatch.System.World

/-! # The requests of the network

Each request is let in on its token and its role, and then becomes a coroutine of the service:
confirm tokens, commands, acknowledgements and the reload of the register file. Logins go to the
rate limiter and the password. What happens within the service comes in between.
-/

namespace GenWatch

inductive RoleGate where
  | operator
  | admin
  deriving DecidableEq

namespace RoleGate

def admits : RoleGate → Role → Bool
  | .operator, .operator | .operator, .admin | .admin, .admin => true
  | _, _ => false

def refusal : RoleGate → HttpError
  | .operator => .plain 403 "operator role required"
  | .admin => .plain 403 "admin role required"

end RoleGate

inductive Route where
  | confirm (verb : Option Action)
  | start (token : String)
  | stop (token : String)
  | exercise (token : String)
  | transfer (token : String)
  | atsTest (token : String)
  | atsInhibit (token : String) (assert : Bool)
  | atsForceTransfer (token : String) (assert override : Bool)
  | atsBypassDelay (token : String)
  | ackAlarm (code token : String)
  /-- the register file has been read and is valid -/
  | reloadRegisters (m : RegisterMap)

namespace Route

def gate : Route → RoleGate
  | .atsForceTransfer .. | .reloadRegisters _ => .admin
  | _ => .operator

/-- The name of a transfer-switch command and its token. -/
def atsCommand? : Route → Option (String × String)
  | .atsTest token => some ("test", token)
  | .atsInhibit token _ => some ("inhibit", token)
  | .atsForceTransfer token _ _ => some ("force_transfer", token)
  | .atsBypassDelay token => some ("bypass_delay", token)
  | _ => none

def label (p : Principal) (fresh : String) (at_ : Clock) : Route → Label
  | .confirm verb => .issue p.operator verb fresh at_
  | .start token => .execute ⟨.start, token, p.operator, p.role⟩ at_
  | .stop token => .execute ⟨.stop, token, p.operator, p.role⟩ at_
  | .exercise token => .execute ⟨.exercise, token, p.operator, p.role⟩ at_
  | .transfer token => .execute ⟨.transfer, token, p.operator, p.role⟩ at_
  | .atsTest token => .atsExecute ⟨.test, token, p.operator, p.role, true, false⟩ at_
  | .atsInhibit token assert => .atsExecute ⟨.inhibit, token, p.operator, p.role, assert, false⟩ at_
  | .atsForceTransfer token assert override =>
    .atsExecute ⟨.forceTransfer, token, p.operator, p.role, assert, override⟩ at_
  | .atsBypassDelay token => .atsExecute ⟨.bypassDelay, token, p.operator, p.role, true, false⟩ at_
  | .ackAlarm code token => .ack ⟨code, token, p.operator⟩ at_
  | .reloadRegisters m => .reload m p.operator at_

end Route

inductive AccessEvent where
  /-- a password was looked at -/
  | verified (ip : String) (mono : ℚ) (ok : Bool)
  /-- a token was handed out, under the settings of the time -/
  | loggedIn (auth : AuthConfig) (ip password token : String) (wall : ℚ)
  | refused (e : HttpError)
  | failed (reason : String)
  /-- the request that becomes the coroutine `i`, with its token and when that was looked at -/
  | admitted (i : ℕ) (p : Principal) (token : String) (now : ℚ)
  | restarted

structure Gateway where
  auth : AuthConfig
  mono : ℚ
  loginLimiter : RateLimiter
  commandLimiter : RateLimiter
  service : Service
  audits : List AccessAudit
  log : List AccessEvent

namespace Gateway

inductive Label where
  | login (ip password scheme : String) (mono wall : ℚ)
  /-- the token is looked at at `now`; the request then goes on at `mono` -/
  | request (cred : Credentials) (now mono : ℚ) (route : Route) (fresh : String) (at_ : Clock)
  /-- a coroutine goes on, a write returns, a device is polled -/
  | within (l : GenWatch.Label)
  /-- the process is started again, perhaps with other settings -/
  | restart (auth : AuthConfig) (m : RegisterMap) (ats : Option (RegisterMap × Option ℤ))
    (db : Database) (now mono : ℚ)

def goesOn : GenWatch.Label → Bool
  | .wake .. | .wakeAts .. | .returned .. | .input .. => true
  | _ => false

def start (auth : AuthConfig) (m : RegisterMap) (ats : Option (RegisterMap × Option ℤ))
    (db : Database) (now mono : ℚ) : Gateway where
  auth := auth
  mono := mono
  loginLimiter := .login
  commandLimiter := .command
  service := .start m ats db now mono
  audits := []
  log := []

section Steps

variable (lib : AuthLibrary) (g : Gateway)

def note (events : List AccessEvent) : Gateway := { g with log := g.log ++ events }

def tick (mono : ℚ) : Option Gateway := if g.mono ≤ mono then some { g with mono := mono } else none

def letIn (p : Principal) (token : String) (now : ℚ) (l : GenWatch.Label) : Option Gateway :=
  (g.service.step l).map fun s =>
    ({ g with service := s }).note [.admitted g.service.world.next p token now]

def login (ip password scheme : String) (mono wall : ℚ) : Gateway :=
  let r := lib.login g.auth g.loginLimiter ip password scheme mono wall
  { g with
    loginLimiter := r.limiter
    audits := g.audits ++ r.audit.toList
    log := g.log ++ (r.verified.map (AccessEvent.verified ip mono)).toList ++
      match r.reply with
      | .refused e => [.refused e]
      | .failed reason => [.failed reason]
      | .loggedIn cookie => [.loggedIn g.auth ip password cookie.token wall] }

/-- A transfer-switch command is limited for each operator, before the service sees it. -/
def limitCommand (p : Principal) (mono : ℚ) (command token : String) : Gateway ⊕ Gateway :=
  let key := "ats:" ++ p.operator
  let checked := g.commandLimiter.check key mono
  let g := { g with commandLimiter := checked.2 }
  let row : AccessAudit := ⟨p.operator, "ats." ++ command, "rate_limited", token, "denied"⟩
  if checked.1 then .inr g
  else .inl ({ g with audits := g.audits ++ [row] }.note
    [.refused (.coded 429 "rate_limited"
      ("too many ATS commands; retry in " ++ toString (checked.2.retryAfterS key) ++ "s"))])

def request (cred : Credentials) (now mono : ℚ) (route : Route) (fresh : String) (at_ : Clock) :
    Option Gateway :=
  match lib.principal g.auth cred now with
  | .error e => some (g.note [.refused e])
  | .ok (p, token) =>
    if route.gate.admits p.role = false then some (g.note [.refused route.gate.refusal])
    else
      match route.atsCommand? with
      | none => g.letIn p token now (route.label p fresh at_)
      | some (command, confirmToken) =>
        if g.service.world.mon.ats.isNone then
          some (g.note [.refused (.coded 404 "ats_disabled"
            "ATS-Pi integration is not enabled")])
        else
          match g.limitCommand p mono command confirmToken with
          | .inl g => some g
          | .inr g => g.letIn p token now (route.label p fresh at_)

def step : Label → Option Gateway
  | .login ip password scheme mono wall =>
    (g.tick mono).map fun g => g.login lib ip password scheme mono wall
  | .request cred now mono route fresh at_ =>
    (g.tick mono).bind fun g => g.request lib cred now mono route fresh at_
  | .within l =>
    if goesOn l then (g.service.step l).map fun s => { g with service := s } else none
  | .restart auth m ats db now mono =>
    let started := start auth m ats db now mono
    some { started with audits := g.audits, log := g.log ++ [.restarted] }

end Steps

end Gateway

end GenWatch
