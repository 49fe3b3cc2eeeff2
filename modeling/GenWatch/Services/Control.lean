import Mathlib.Data.List.Dedup
import Mathlib.Data.List.Sort
import GenWatch.Services.State

/-! # The control service

An operator first obtains a confirm token, and spends it with the command itself.
A command is gated on the link, the freshness of the registers behind the engine
state and the panel mode, the panel mode and the engine state; only then is the
token consumed. Every path through the token store is logged, so that the fate of
each token can be followed.
-/

namespace GenWatch

/-- Refusals, with the values their texts interpolate. -/
inductive ControlError where
  | forbidden
  | unknownVerb (verb : Action)
  | noRegister (name : String)
  | commsLost (verb : Action) (state : CommsState)
  | staleData (verb : Action) (names : List String)
  | panelModeLocked (verb : Action) (mode : PanelMode)
  | invalidState (verb : Action) (state : EngineState)
  | tokenInvalid
  | tokenExpired
  | tokenMismatch
  | tokenActionMismatch
  | modbusFailed (error : String)
  | unknownCommand (command : Action)
  | roleRequired (role : Role) (command : Action)
  | atsCommsLost (command : Action)
  | atsNotAuthoritative (command : Action)
  | atsFault (command : Action) (codes : List String)
  | overrideRequired
  | atsNoRegister (name : Option String)
  | atsModbusFailed (error : String)
  /-- `alarm {code} not active` -/
  | alarmNotActive (code : String)
  | ackCommsLost
  | ackModbusFailed (error : String)
  deriving DecidableEq

namespace ControlError

/-- The refusals of the acknowledgement endpoint that carry no code are named by their status. -/
def code : ControlError → String
  | .forbidden => "forbidden"
  | .unknownVerb _ => "unknown_verb"
  | .noRegister _ => "no_register"
  | .commsLost _ _ => "comms_lost"
  | .staleData _ _ => "stale_data"
  | .panelModeLocked _ _ => "panel_mode_locked"
  | .invalidState _ _ => "invalid_state"
  | .tokenInvalid => "token_invalid"
  | .tokenExpired => "token_expired"
  | .tokenMismatch => "token_mismatch"
  | .tokenActionMismatch => "token_action_mismatch"
  | .modbusFailed _ => "modbus_failed"
  | .unknownCommand _ => "unknown_command"
  | .roleRequired _ _ => "forbidden"
  | .atsCommsLost _ => "ats_comms_lost"
  | .atsNotAuthoritative _ => "ats_not_authoritative"
  | .atsFault _ _ => "ats_fault"
  | .overrideRequired => "override_required"
  | .atsNoRegister _ => "no_register"
  | .atsModbusFailed _ => "ats_modbus_failed"
  | .alarmNotActive _ => "404"
  | .ackCommsLost => "comms_lost"
  | .ackModbusFailed _ => "502"

def byToken : ControlError → Bool
  | .tokenExpired | .tokenMismatch | .tokenActionMismatch => true
  | _ => false

end ControlError

def tokenTtlS : ℚ := 30

structure ConfirmToken where
  token : String
  operator : String
  issuedAt : ℚ
  expiresAt : ℚ
  expiresMonotonic : ℚ
  verb : Option Action
  deriving DecidableEq

/-- What happens to a token, with the monotonic time where it matters. -/
inductive TokenEvent where
  | issued (ct : ConfirmToken) (mono : ℚ)
  | evicted (ct : ConfirmToken)
  | refused (ct : ConfirmToken) (error : ControlError)
  | consumed (ct : ConfirmToken) (mono : ℚ)
  deriving DecidableEq

def verbToControl : Action → Option String
  | .start => some "remote_start"
  | .stop => some "remote_stop"
  | .exercise => some "exercise"
  | .transfer => some "transfer"
  | _ => none

def allowed : Action → List EngineState
  | .start => [.stopped]
  | .stop => [.running, .exercising, .cranking, .cooling, .alarm]
  | .exercise => [.stopped]
  | .transfer => [.running]
  | _ => []

def panelAutoRequired : List Action := [.start, .stop, .exercise, .transfer]

/-- The clock reads of one critical section, in their order, and the wall clock. -/
structure Clock where
  gate : ℚ
  evict : ℚ
  expiry : ℚ
  wall : ℚ
  deriving DecidableEq

/-- The reads do not go back, and start no earlier than `mono`. -/
def Clock.From (c : Clock) (mono : ℚ) : Prop :=
  mono ≤ c.gate ∧ c.gate ≤ c.evict ∧ c.evict ≤ c.expiry

instance (c : Clock) (mono : ℚ) : Decidable (c.From mono) :=
  inferInstanceAs (Decidable (_ ∧ _ ∧ _))

structure ControlRequest where
  verb : Action
  token : String
  operator : String
  role : Role
  deriving DecidableEq

structure ControlService where
  regmap : RegisterMap
  tokens : Table ConfirmToken.token

/-- The control service within one critical section, with the tokens' fates so far. -/
structure ControlCtx where
  self : ControlService
  db : Database
  log : List TokenEvent

abbrev ControlM := EStateM ControlError ControlCtx

structure Denial where
  detail : AuditDetail
  result : AuditResult
  error : ControlError
  deriving DecidableEq

namespace ControlService

section Tokens

def writeAudit (operator : String) (action : AuditAction) (detail : AuditDetail) (token : String)
    (result : AuditResult) (now : ℚ) : ControlM Unit :=
  modify fun c => { c with db := c.db.writeAudit ⟨now, operator, action, detail, token, result⟩ }

def evictExpiredLocked (mono now : ℚ) : ControlM Unit :=
  modify fun c =>
    let expired := c.self.tokens.rows.filter fun ct => ct.expiresMonotonic < mono
    { self := { c.self with
        tokens := c.self.tokens.deleteWhere fun ct => ct.expiresMonotonic < mono }
      db := expired.foldl (fun db ct =>
        db.writeAudit ⟨now, ct.operator, .evictToken, .ttl, ct.token, .expired⟩) c.db
      log := c.log ++ expired.map .evicted }

def popToken (ct : ConfirmToken) (e : TokenEvent) : ControlM Unit :=
  modify fun c =>
    { c with
      self := { c.self with tokens := c.self.tokens.delete ct.token }
      log := c.log ++ [e] }

def tokenDenial (ct : ConfirmToken) (operator : String) (verb : Option Action) (mono : ℚ) :
    Option Denial :=
  if ct.expiresMonotonic < mono then some ⟨.expired, .denied, .tokenExpired⟩
  else if ct.operator ≠ operator then some ⟨.operatorMismatch, .denied, .tokenMismatch⟩
  else
    match ct.verb, verb with
    | some bound, some want =>
      if bound ≠ want then some ⟨.verbMismatch want bound, .denied, .tokenActionMismatch⟩ else none
    | _, _ => none

/-- Validate and consume a token: one that is found is gone, whether or not it is accepted. -/
def consumeTokenLocked (token operator : String) (verb : Option Action) (at_ : Clock) :
    ControlM ConfirmToken := do
  evictExpiredLocked at_.evict at_.wall
  match (← get).self.tokens.find? token with
  | none =>
    writeAudit operator .consumeToken .missing token .denied at_.wall
    throw .tokenInvalid
  | some ct =>
    match tokenDenial ct operator verb at_.expiry with
    | some d =>
      popToken ct (.refused ct d.error)
      writeAudit operator .consumeToken d.detail token d.result at_.wall
      throw d.error
    | none =>
      popToken ct (.consumed ct at_.expiry)
      return ct

/-- Issue a token; `fresh` is the random string that is not in the store. -/
def issueToken (operator : String) (verb : Option Action) (fresh : String) (at_ : Clock) :
    ControlM ConfirmToken := do
  evictExpiredLocked at_.evict at_.wall
  let ct : ConfirmToken :=
    ⟨fresh, operator, at_.wall, at_.wall + tokenTtlS, at_.expiry + tokenTtlS, verb⟩
  modify fun c =>
    { c with
      self := { c.self with tokens := c.self.tokens.insertReplace ct }
      log := c.log ++ [.issued ct at_.expiry] }
  writeAudit operator .issueToken (.issuedFor verb) fresh .ok at_.wall
  return ct

end Tokens

section Gate

def controlFreshMultiplier : ℚ := 2

/-- The registers behind the engine state and the panel mode. -/
def controlSources (m : RegisterMap) : List String :=
  ((m.engineStateBits.map StateBitRule.register ++
    m.panelModeBits.map PanelModeRule.register).dedup).insertionSort (· ≤ ·)

/-- The age past which a register is stale. -/
def maxAgeS (m : RegisterMap) : ℚ := max m.primePollMs 1 / 1000 * controlFreshMultiplier

def staleControlRegisters (m : RegisterMap) (reading : Reading) (mono : ℚ) : List String :=
  (controlSources m).filter fun name =>
    match reading.valueAges name with
    | none => true
    | some ts => maxAgeS m < mono - ts

/-- The gates of a command, in their order, up to the control it would write. -/
def gate (m : RegisterMap) (snap : StateSnapshot) (comms : CommsState) (verb : Action)
    (ctlName : String) (mono : ℚ) : Except Denial ControlDef :=
  match m.controls.find? ctlName with
  | none => .error ⟨.noRegister none, .failed, .noRegister ctlName⟩
  | some ctl =>
    if comms ≠ .healthy then .error ⟨.comms comms, .denied, .commsLost verb comms⟩
    else
      let stale := staleControlRegisters m snap.lastReading mono
      if stale ≠ [] then .error ⟨.stale stale, .denied, .staleData verb stale⟩
      else if verb ∈ panelAutoRequired ∧ snap.panelMode ≠ .auto then
        .error ⟨.panelMode snap.panelMode, .denied, .panelModeLocked verb snap.panelMode⟩
      else if snap.engineState ∉ allowed verb then
        .error ⟨.state snap.engineState, .denied, .invalidState verb snap.engineState⟩
      else .ok ctl

def mayControl : Role → Bool
  | .operator | .admin => true
  | _ => false

end Gate

/-- The critical section of a command, up to the control it goes on to write. -/
def executeLocked (snap : StateSnapshot) (comms : CommsState) (r : ControlRequest)
    (ctlName : String) (at_ : Clock) : ControlM ControlDef := do
  match gate (← get).self.regmap snap comms r.verb ctlName at_.gate with
  | .error d =>
    writeAudit r.operator (.control r.verb) d.detail r.token d.result at_.wall
    throw d.error
  | .ok ctl =>
    let _ ← consumeTokenLocked r.token r.operator (some r.verb) at_
    return ctl

section Specs

open Handler

variable {m : RegisterMap} {snap : StateSnapshot} {comms : CommsState} {verb : Action}
  {reading : Reading} {name : String} {mono : ℚ} {ctl : ControlDef} {at_ : Clock}
  {c c' : ControlCtx} {r : ControlRequest}

theorem mem_controlSources :
    name ∈ controlSources m ↔
      (∃ rule ∈ m.engineStateBits, rule.register = name) ∨
        ∃ rule ∈ m.panelModeBits, rule.register = name := by
  simp [controlSources]

theorem staleControlRegisters_eq_nil :
    staleControlRegisters m reading mono = [] ↔
      ∀ name ∈ controlSources m,
        ∃ ts, reading.valueAges name = some ts ∧ mono - ts ≤ maxAgeS m := by
  simp only [staleControlRegisters, List.filter_eq_nil_iff]
  refine forall₂_congr fun name _ => ?_
  cases reading.valueAges name <;> simp

theorem gate_eq_ok :
    gate m snap comms verb name mono = .ok ctl ↔
      m.controls.find? name = some ctl ∧ comms = .healthy ∧
        staleControlRegisters m snap.lastReading mono = [] ∧
        (verb ∈ panelAutoRequired → snap.panelMode = .auto) ∧
        snap.engineState ∈ allowed verb := by
  unfold gate
  cases m.controls.find? name with
  | none => simp
  | some ctl' =>
    by_cases hcomms : comms = .healthy
    · by_cases hstale : staleControlRegisters m snap.lastReading mono = []
      · by_cases hpanel : verb ∈ panelAutoRequired ∧ snap.panelMode ≠ .auto
        · simp [hcomms, hstale, hpanel]
        · have hauto : verb ∈ panelAutoRequired → snap.panelMode = .auto := by simpa using hpanel
          by_cases hstate : snap.engineState ∈ allowed verb
          · simp only [hcomms, hstale, hpanel, hstate, ne_eq, not_true_eq_false, if_false,
              Except.ok.injEq, Option.some.injEq, true_and, and_true]
            exact (and_iff_left hauto).symm
          · simp [hcomms, hstale, hpanel, hstate]
      · simp [hcomms, hstale]
    · simp [hcomms]

theorem gate_byToken {d : Denial} (h : gate m snap comms verb name mono = .error d) :
    d.error.byToken = false := by
  unfold gate at h
  split at h
  · cases h; rfl
  split at h
  · cases h; rfl
  dsimp only at h
  split at h
  · cases h; rfl
  split at h
  · cases h; rfl
  split at h
  · cases h; rfl
  · cases h

/-- The tokens left after an eviction. -/
def unexpired (tokens : Table ConfirmToken.token) (mono : ℚ) : Table ConfirmToken.token :=
  tokens.deleteWhere fun ct => ct.expiresMonotonic < mono

def evictions (tokens : Table ConfirmToken.token) (mono : ℚ) : List TokenEvent :=
  (tokens.rows.filter fun ct => ct.expiresMonotonic < mono).map .evicted

/-- The outcomes of a consumption: no such token, a token that is refused, a token consumed. -/
theorem consumeTokenLocked_cases (token operator : String) (verb : Option Action) (at_ : Clock)
    (c : ControlCtx) :
    ∃ db,
      ((unexpired c.self.tokens at_.evict).find? token = none ∧
        (consumeTokenLocked token operator verb at_).run c =
          .error .tokenInvalid
            ⟨⟨c.self.regmap, unexpired c.self.tokens at_.evict⟩, db,
              c.log ++ evictions c.self.tokens at_.evict⟩) ∨
      (∃ ct d, (unexpired c.self.tokens at_.evict).find? token = some ct ∧
        tokenDenial ct operator verb at_.expiry = some d ∧
        (consumeTokenLocked token operator verb at_).run c =
          .error d.error
            ⟨⟨c.self.regmap, (unexpired c.self.tokens at_.evict).delete ct.token⟩, db,
              c.log ++ evictions c.self.tokens at_.evict ++ [.refused ct d.error]⟩) ∨
      ∃ ct, (unexpired c.self.tokens at_.evict).find? token = some ct ∧
        tokenDenial ct operator verb at_.expiry = none ∧
        (consumeTokenLocked token operator verb at_).run c =
          .ok ct
            ⟨⟨c.self.regmap, (unexpired c.self.tokens at_.evict).delete ct.token⟩, db,
              c.log ++ evictions c.self.tokens at_.evict ++ [.consumed ct at_.expiry]⟩ := by
  obtain ⟨db, hevict⟩ : ∃ db, (evictExpiredLocked at_.evict at_.wall).run c =
      .ok () ⟨⟨c.self.regmap, unexpired c.self.tokens at_.evict⟩, db,
        c.log ++ evictions c.self.tokens at_.evict⟩ := ⟨_, rfl⟩
  simp only [consumeTokenLocked, EStateM.run_bind, hevict, EStateM.run_get]
  cases hf : (unexpired c.self.tokens at_.evict).find? token with
  | none => exact ⟨_, Or.inl ⟨rfl, rfl⟩⟩
  | some ct =>
    cases hd : tokenDenial ct operator verb at_.expiry with
    | none => exact ⟨_, Or.inr (Or.inr ⟨ct, rfl, hd, by simp only [hd]; rfl⟩)⟩
    | some d => exact ⟨_, Or.inr (Or.inl ⟨ct, d, rfl, hd, by simp only [hd]; rfl⟩)⟩

theorem mem_keys_unexpired {tokens : Table ConfirmToken.token} {token : String} :
    token ∈ (unexpired tokens mono).keys ↔
      ∃ ct ∈ tokens.rows, ct.token = token ∧ mono ≤ ct.expiresMonotonic := by
  simp [unexpired, Table.mem_keys, and_assoc, and_comm]

def freshToken (operator : String) (verb : Option Action) (fresh : String) (at_ : Clock) :
    ConfirmToken :=
  ⟨fresh, operator, at_.wall, at_.wall + tokenTtlS, at_.expiry + tokenTtlS, verb⟩

theorem issueToken_run (operator : String) (verb : Option Action) (fresh : String) (at_ : Clock)
    (c : ControlCtx) :
    ∃ db, (issueToken operator verb fresh at_).run c =
      .ok (freshToken operator verb fresh at_)
        ⟨⟨c.self.regmap, (unexpired c.self.tokens at_.evict).insertReplace
            (freshToken operator verb fresh at_)⟩, db,
          c.log ++ evictions c.self.tokens at_.evict ++
            [.issued (freshToken operator verb fresh at_) at_.expiry]⟩ :=
  ⟨_, rfl⟩

theorem tokenDenial_eq_none {ct : ConfirmToken} {operator : String}
    (h : tokenDenial ct operator (some verb) mono = none) :
    mono ≤ ct.expiresMonotonic ∧ ct.operator = operator ∧
      (ct.verb = none ∨ ct.verb = some verb) := by
  unfold tokenDenial at h
  split at h
  · cases h
  split at h
  · cases h
  rename_i hexp hop
  refine ⟨not_lt.mp hexp, not_not.mp hop, ?_⟩
  split at h
  · rename_i bound want hbound hwant
    obtain rfl := Option.some.inj hwant
    split at h
    · cases h
    · rename_i heq
      exact Or.inr (by rw [hbound, not_not.mp heq])
  · rename_i hnone
    cases hv : ct.verb with
    | none => exact Or.inl rfl
    | some bound => exact absurd rfl (hnone bound verb hv)

/-- A command that reaches its write has passed the gates and consumed its token. -/
theorem executeLocked_ok (h : (executeLocked snap comms r name at_).run c = .ok ctl c') :
    gate c.self.regmap snap comms r.verb name at_.gate = .ok ctl ∧
      ∃ ct, (consumeTokenLocked r.token r.operator (some r.verb) at_).run c = .ok ct c' := by
  simp only [executeLocked, EStateM.run_bind, EStateM.run_get] at h
  cases hg : gate c.self.regmap snap comms r.verb name at_.gate with
  | error d =>
    rw [hg] at h
    cases h
  | ok ctl' =>
    rw [hg] at h
    obtain ⟨ct, c₁, hct, hret⟩ := bind_ok.mp h
    obtain ⟨rfl, rfl⟩ := pure_ok.mp hret
    exact ⟨rfl, ct, hct⟩

theorem executeLocked_error {e : ControlError}
    (h : (executeLocked snap comms r name at_).run c = .error e c') :
    (∃ d, gate c.self.regmap snap comms r.verb name at_.gate = .error d ∧ e = d.error ∧
      c'.self = c.self ∧ c'.log = c.log) ∨
    (∃ ctl, gate c.self.regmap snap comms r.verb name at_.gate = .ok ctl ∧
      (consumeTokenLocked r.token r.operator (some r.verb) at_).run c = .error e c') := by
  simp only [executeLocked, EStateM.run_bind, EStateM.run_get] at h
  cases hg : gate c.self.regmap snap comms r.verb name at_.gate with
  | error d =>
    rw [hg] at h
    cases h
    exact Or.inl ⟨d, rfl, rfl, rfl, rfl⟩
  | ok ctl =>
    rw [hg] at h
    refine Or.inr ⟨ctl, rfl, ?_⟩
    simp only [EStateM.run_bind] at h
    cases hc : (consumeTokenLocked r.token r.operator (some r.verb) at_).run c with
    | ok ct c₁ =>
      rw [hc] at h
      cases h
    | error e' c₁ =>
      rw [hc] at h
      cases h
      rfl

end Specs

end ControlService

end GenWatch
