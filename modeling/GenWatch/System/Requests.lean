import GenWatch.Polling.Requests
import GenWatch.System.Release
import GenWatch.System.Reload

/-! # Well-formed requests

Every write takes its words from a control of a map: that of the commands, that of the
application or that of the companion. Validation asks for the address of a control to be
in the address space and for a single word under function code 6; it asks for nothing
else about the words. What the maps offer under the names that the commands know is
therefore what the writes are like.
-/

namespace GenWatch

open Transition

namespace WriteCall

def addr : WriteCall → ℤ
  | .single addr _ => addr
  | .multi addr _ _ => addr

def fc : WriteCall → ℤ
  | .single _ _ => 6
  | .multi _ fc _ => fc

/-- The write names words that exist, no more of them than one request may, each of 16 bits. -/
structure WellFormed (call : WriteCall) : Prop where
  addr_nonneg : 0 ≤ call.addr
  count_pos : 1 ≤ call.words.length
  count_le : call.words.length ≤ 123
  stop_le : call.addr + call.words.length ≤ 0x10000
  words : ∀ word ∈ call.words, 0 ≤ word ∧ word ≤ 0xFFFF
  single : call.fc = 6 → call.words.length = 1

end WriteCall

namespace ControlDef

/-- What validation does not ask of a control. -/
structure Fits (c : ControlDef) : Prop where
  count_le : c.writeValues.length ≤ 123
  stop_le : c.addr + c.writeValues.length ≤ 0x10000
  words : ∀ word ∈ c.writeValues, 0 ≤ word ∧ word ≤ 0xFFFF

theorem fits_iff {c : ControlDef} : c.Fits ↔ c.writeValues.length ≤ 123 ∧
    c.addr + c.writeValues.length ≤ 0x10000 ∧ ∀ word ∈ c.writeValues, 0 ≤ word ∧ word ≤ 0xFFFF :=
  ⟨fun h => ⟨h.count_le, h.stop_le, h.words⟩, fun h => ⟨h.1, h.2.1, h.2.2⟩⟩

instance : DecidablePred Fits := fun _ => decidable_of_iff' _ fits_iff

theorem writeValues_ne_nil (c : ControlDef) : c.writeValues ≠ [] := by
  unfold writeValues
  split
  · simp
  · assumption

theorem addr_ofControl (c : ControlDef) : (WriteCall.ofControl c).addr = c.addr := by
  unfold WriteCall.ofControl
  split
  · split <;> rfl
  · rfl

theorem fc_ofControl (c : ControlDef) : (WriteCall.ofControl c).fc = c.fc := by
  unfold WriteCall.ofControl
  split
  · split
    · rename_i hfc
      exact hfc.symm
    · rfl
  · rfl

theorem wellFormed_ofControl {m : RegisterMap} (hm : m.Accepted) {c : ControlDef}
    (hc : c ∈ m.controls.rows) : (WriteCall.ofControl c).WellFormed ↔ c.Fits := by
  obtain ⟨-, haddr, -, hsingle⟩ := hm.checked.controls c hc
  constructor
  · rintro ⟨-, -, hcount, hstop, hwords, -⟩
    rw [WriteCall.words_ofControl] at hcount hstop hwords
    rw [addr_ofControl] at hstop
    exact ⟨hcount, hstop, hwords⟩
  · rintro ⟨hcount, hstop, hwords⟩
    constructor
    · rwa [addr_ofControl]
    · rw [WriteCall.words_ofControl]
      exact List.length_pos_iff.mpr c.writeValues_ne_nil
    · rwa [WriteCall.words_ofControl]
    · rwa [WriteCall.words_ofControl, addr_ofControl]
    · rwa [WriteCall.words_ofControl]
    · rwa [WriteCall.words_ofControl, fc_ofControl]

end ControlDef

/-- The controls of the generator's map that a command or an acknowledgement writes. -/
def commandControls : List String :=
  ["remote_start", "remote_stop", "exercise", "transfer", "ack_alarm"]

/-- The controls of the companion's map that a command writes. -/
def atsCommandControls : List String :=
  ["ats_test", "ats_inhibit_assert", "ats_inhibit_release", "ats_force_assert",
    "ats_force_release", "ats_bypass_delay"]

/-- Whatever the map has under the names is as required. -/
def RegisterMap.Offers (m : RegisterMap) (names : List String) (C : ControlDef → Prop) : Prop :=
  ∀ name ∈ names, ∀ ctl ∈ m.controls.find? name, C ctl

instance (m : RegisterMap) (names : List String) (C : ControlDef → Prop) [DecidablePred C] :
    Decidable (m.Offers names C) :=
  inferInstanceAs (Decidable (∀ name ∈ names, ∀ ctl ∈ m.controls.find? name, C ctl))

theorem RegisterMap.Offers.imp {m : RegisterMap} {names : List String} {C D : ControlDef → Prop}
    (h : m.Offers names C) (hCD : ∀ c ∈ m.controls.rows, C c → D c) : m.Offers names D := by
  intro name hname ctl hctl
  exact hCD ctl (Table.find?_eq_some.mp hctl).1 (h name hname ctl hctl)

theorem mem_commandControls {verb : Action} {name : String} (h : verbToControl verb = some name) :
    name ∈ commandControls := by
  cases verb <;> cases h <;> decide

theorem mem_atsCommandControls {q : AtsRequest} {spec : AtsCommandSpec} {name : String}
    (hspec : atsCommandSpecs q.command = some spec)
    (h : AtsControlService.controlName spec q = some name) : name ∈ atsCommandControls := by
  unfold AtsControlService.controlName at h
  cases hcommand : q.command <;> rw [hcommand] at hspec <;> cases hspec <;>
    cases hassert : q.assert <;> simp [hassert] at h <;> subst h <;> decide

namespace Task

/-- The controls that a waiting coroutine may come to write are as required. -/
def Holds (C : ControlDef → Prop) : Task → Prop
  | .ackQueued _ m | .reloadQueued m _ => m.Offers commandControls C
  | .atsToken _ ctl => C ctl
  | _ => True

theorem holds_of_not_waiting {C : ControlDef → Prop} {t : Task} (h : t.waiting = false) :
    t.Holds C := by
  cases t <;> trivial

theorem Holds.map {C : ControlDef → Prop} {t : Task} (h : t.Holds C) {m : RegisterMap}
    (hm : t.map = some m) : m.Offers commandControls C := by
  cases t <;> cases hm
  exact h

end Task

namespace World

section Supplied

variable {C : ControlDef → Prop} {w v u : World} {l : Label} {i : ℕ} {at_ : Clock}
  {fresh : String} {t : Task} {r : World × List Obs}

/-- Every control that a command or an acknowledgement may come to write is as required. -/
structure Supplied (C : ControlDef → Prop) (w : World) : Prop where
  control : w.control.regmap.Offers commandControls C
  app : w.appRegmap.Offers commandControls C
  tasks : ∀ i, (w.tasks i).Holds C

/-- What a step leaves and shows is as required. -/
structure Serves (C : ControlDef → Prop) (r : World × List Obs) : Prop where
  supplied : r.1.Supplied C
  writes : ∀ i req call, .write i req call ∈ r.2 → ∃ ctl, C ctl ∧ call = .ofControl ctl

theorem Supplied.update (h : v.Supplied C) (hctl : u.control.regmap.Offers commandControls C)
    (happ : u.appRegmap.Offers commandControls C) (htasks : u.tasks = Function.update v.tasks i t)
    (ht : t.Holds C) : u.Supplied C := by
  refine ⟨hctl, happ, ?_⟩
  rw [htasks]
  exact (Function.forall_update_iff v.tasks fun _ t => t.Holds C).mpr ⟨ht, fun j _ => h.tasks j⟩

theorem Supplied.serves (h : v.Supplied C) {os : List Obs} (hctl : u.control = v.control)
    (happ : u.appRegmap = v.appRegmap) (htasks : u.tasks = Function.update v.tasks i t)
    (ht : t.Holds C) (hos : ∀ i req call, .write i req call ∉ os) : Serves C (u, os) where
  supplied := h.update (hctl ▸ h.control) (happ ▸ h.app) htasks ht
  writes i req call hmem := absurd hmem (hos i req call)

theorem locked_appRegmap (h : v.locked i at_ fresh t = some r) :
    r.1.appRegmap = t.map.getD v.appRegmap := by
  cases t with
  | queued q =>
    obtain ⟨name, -, rfl⟩ := Option.map_eq_some_iff.mp h
    unfold executeLocked
    split <;> rfl
  | atsToken q ctl =>
    obtain rfl := Option.some.inj h
    unfold atsTokenLocked
    split <;> rfl
  | ackQueued q m =>
    obtain rfl := Option.some.inj h
    unfold ackLocked
    split
    · split <;> rfl
    · rfl
  | issueQueued operator verb =>
    simp only [locked, issueLocked] at h
    split at h
    · cases h
    · split at h <;> cases h <;> rfl
  | reloadQueued m operator =>
    obtain rfl := Option.some.inj h
    rfl
  | done | atsQueued _ | writing _ _ => cases h

theorem Supplied.of_pursues (h : v.Supplied C) (ht : t.Holds C) {req : Request} {ctl : ControlDef}
    (hp : Pursues v at_ t req ctl) : C ctl := by
  cases hp with
  | execute hname hgate =>
    exact h.control _ (mem_commandControls hname) ctl (ControlService.gate_eq_ok.mp hgate).1
  | atsExecute => exact ht
  | ack hctl => exact ht "ack_alarm" (by decide) ctl hctl

theorem Supplied.locked (h : v.Supplied C) (hr : v.locked i at_ fresh t = some r)
    (ht : t.Holds C) : Serves C r := by
  have hsec := locked_section hr
  obtain ⟨t', hwait, htasks, -⟩ := hsec.tasks
  have brought : ∀ {m : RegisterMap}, m.Offers commandControls C →
      (t.map.getD m).Offers commandControls C := by
    intro m hm
    cases hmap : t.map with
    | none => exact hm
    | some m' => exact ht.map hmap
  constructor
  · refine h.update ?_ ?_ htasks (Task.holds_of_not_waiting hwait)
    · rw [locked_regmap hr]
      exact brought h.control
    · rw [locked_appRegmap hr]
      exact brought h.app
  · intro j req call hmem
    cases hsec with
    | writes _ hp _ _ =>
      obtain ⟨-, -, rfl⟩ : j = i ∧ req = _ ∧ call = _ := by simpa [tokenObs] using hmem
      exact ⟨_, h.of_pursues ht hp, rfl⟩
    | acks _ _ _ _ | refused _ _ _ | denied _ _ _ _ _ | issued _ _ _ _ | reloaded _ _ _ =>
      simp [tokenObs] at hmem

theorem Supplied.congr (h : v.Supplied C) (hctl : u.control = v.control)
    (happ : u.appRegmap = v.appRegmap) (htasks : u.tasks = v.tasks) : u.Supplied C :=
  ⟨hctl ▸ h.control, happ ▸ h.app, htasks ▸ h.tasks⟩

theorem Supplied.acquire (h : v.Supplied C) (hr : v.acquire i at_ fresh t = some r)
    (ht : t.Holds C) : Serves C r := by
  unfold World.acquire at hr
  split at hr
  · exact (h.congr (u := { v with lock := v.lock.take i }) rfl rfl rfl).locked hr ht
  · obtain rfl := Option.some.inj hr
    exact h.serves rfl rfl rfl ht (by simp)

theorem Supplied.atsLocked (h : v.Supplied C) {ats : AtsService} {q : AtsRequest}
    {spec : AtsCommandSpec} (hats : ats.regmap.Offers atsCommandControls C)
    (hspec : atsCommandSpecs q.command = some spec)
    (hr : v.atsLocked i at_ ats q spec = some r) : Serves C r := by
  unfold World.atsLocked at hr
  split at hr
  · obtain rfl := Option.some.inj hr
    exact h.serves rfl rfl rfl trivial (by simp)
  · rename_i ctl hgate
    obtain ⟨name, hname, hctl⟩ :=
      Option.bind_eq_some_iff.mp (AtsControlService.control_of_gate hgate)
    exact h.acquire hr (hats name (mem_atsCommandControls hspec hname) ctl hctl)

theorem Supplied.execute (h : v.Supplied C) {q : ControlRequest}
    (hr : v.execute i at_ q = some r) : Serves C r := by
  unfold World.execute at hr
  split at hr
  · obtain rfl := Option.some.inj hr
    exact h.serves rfl rfl rfl trivial (by simp)
  split at hr
  · obtain rfl := Option.some.inj hr
    exact h.serves rfl rfl rfl trivial (by simp)
  · exact h.acquire hr trivial

theorem Supplied.atsExecute (h : v.Supplied C) {ats : AtsService} {q : AtsRequest}
    (hats : ats.regmap.Offers atsCommandControls C) (hr : v.atsExecute i at_ ats q = some r) :
    Serves C r := by
  unfold World.atsExecute at hr
  split at hr
  · obtain rfl := Option.some.inj hr
    exact h.serves rfl rfl rfl trivial (by simp)
  rename_i spec hspec
  split at hr
  · unfold acquireAts at hr
    split at hr
    · exact (h.congr (u := { v with atsLock := v.atsLock.take i }) rfl rfl rfl).atsLocked hats
        hspec hr
    · obtain rfl := Option.some.inj hr
      exact h.serves rfl rfl rfl trivial (by simp)
  · obtain rfl := Option.some.inj hr
    exact h.serves rfl rfl rfl trivial (by simp)

theorem Supplied.ack (h : v.Supplied C) {q : AckRequest} (hr : v.ack i at_ q = some r) :
    Serves C r := by
  unfold World.ack at hr
  split at hr
  · split at hr
    · obtain rfl := Option.some.inj hr
      exact h.serves rfl rfl rfl trivial (by simp)
    · exact h.acquire hr h.app
  · obtain rfl := Option.some.inj hr
    exact h.serves rfl rfl rfl trivial (by simp)

theorem Supplied.returned (h : v.Supplied C) {req : Request} {ctl : ControlDef}
    {error : Option String} : Serves C (v.returned i at_ req ctl error) := by
  unfold World.returned
  cases req with
  | execute q => exact h.serves rfl rfl rfl trivial (by simp)
  | atsExecute q =>
    cases error with
    | none => exact h.serves rfl rfl rfl trivial (by simp)
    | some e => exact h.serves rfl rfl rfl trivial (by simp)
  | ack q => exact h.serves rfl rfl rfl trivial (by simp)

theorem Supplied.spawned (h : w.Supplied C) (hv : w.spawn at_ = some v) :
    v.Supplied C ∧ v.mon = w.mon := by
  obtain ⟨-, rfl⟩ := spawn_eq_some.mp hv
  exact ⟨h.congr rfl rfl rfl, rfl⟩

theorem Supplied.ticked (h : w.Supplied C) (hv : w.tick at_ = some v) :
    v.Supplied C ∧ v.mon = w.mon := by
  obtain ⟨-, rfl⟩ := tick_eq_some.mp hv
  exact ⟨h.congr rfl rfl rfl, rfl⟩

/-- What a step leaves and shows is as required, if a map that it brings is. -/
theorem Supplied.step (h : w.Supplied C)
    (hats : ∀ m ∈ w.atsRegmap, m.Offers atsCommandControls C)
    (hmap : ∀ m operator at_, l = .reload m operator at_ → m.Offers commandControls C)
    (hr : w.step l = some r) : Serves C r := by
  have companion : ∀ {v : World} {ats}, v.mon = w.mon → v.mon.ats = some ats →
      ats.regmap.Offers atsCommandControls C := by
    intro v ats hmon hsome
    exact hats _ (by rw [atsRegmap, ← hmon, hsome]; rfl)
  cases l with
  | execute q at_ =>
    obtain ⟨v, hv, hr⟩ := Option.bind_eq_some_iff.mp hr
    exact (h.spawned hv).1.execute hr
  | atsExecute q at_ =>
    obtain ⟨v, hv, hr⟩ := Option.bind_eq_some_iff.mp hr
    obtain ⟨ats, hsome, hr⟩ := Option.bind_eq_some_iff.mp hr
    obtain ⟨hsupplied, hmon⟩ := h.spawned hv
    exact hsupplied.atsExecute (companion hmon hsome) hr
  | ack q at_ =>
    obtain ⟨v, hv, hr⟩ := Option.bind_eq_some_iff.mp hr
    exact (h.spawned hv).1.ack hr
  | issue operator verb fresh at_ =>
    obtain ⟨v, hv, hr⟩ := Option.bind_eq_some_iff.mp hr
    exact (h.spawned hv).1.acquire hr trivial
  | reload m operator at_ =>
    obtain ⟨v, hv, hr⟩ := Option.bind_eq_some_iff.mp hr
    have hsupplied : Supplied C { v with mon := v.mon.applyRegmap m } :=
      (h.spawned hv).1.congr rfl rfl rfl
    exact hsupplied.acquire hr (hmap m operator at_ rfl)
  | wake i fresh at_ =>
    obtain ⟨v, hv, hr⟩ := Option.bind_eq_some_iff.mp hr
    obtain ⟨lock, -, hr⟩ := Option.bind_eq_some_iff.mp hr
    have hsupplied : Supplied C { v with lock := lock } := (h.ticked hv).1.congr rfl rfl rfl
    exact hsupplied.locked hr (hsupplied.tasks i)
  | wakeAts i at_ =>
    obtain ⟨v, hv, hr⟩ := Option.bind_eq_some_iff.mp hr
    obtain ⟨lock, -, hr⟩ := Option.bind_eq_some_iff.mp hr
    obtain ⟨ats, hsome, hr⟩ := Option.bind_eq_some_iff.mp hr
    obtain ⟨hsupplied, hmon⟩ := h.ticked hv
    have hsupplied' : Supplied C { v with atsLock := lock } := hsupplied.congr rfl rfl rfl
    split at hr
    · obtain ⟨spec, hspec, hr⟩ := Option.bind_eq_some_iff.mp hr
      exact hsupplied'.atsLocked (companion hmon hsome) hspec hr
    · cases hr
  | returned i error at_ =>
    obtain ⟨v, hv, hr⟩ := Option.bind_eq_some_iff.mp hr
    split at hr
    · obtain rfl := Option.some.inj hr
      exact (h.ticked hv).1.returned
    · cases hr
  | input i faults =>
    obtain ⟨mon, -, rfl⟩ := Option.map_eq_some_iff.mp hr
    refine ⟨h.congr rfl rfl rfl, fun j req call hmem => ?_⟩
    split at hmem <;> simp at hmem

end Supplied

end World

namespace Service

section Requests

variable {m : RegisterMap} {ats : Option (RegisterMap × Option ℤ)} {db : Database} {now mono : ℚ}
  {ls : List Label} {s : Service} {C : ControlDef → Prop}

theorem writes_of_offers (hm : m.Offers commandControls C)
    (hats : ∀ a ∈ ats, a.1.Offers atsCommandControls C)
    (hmaps : ∀ m' operator at_, .reload m' operator at_ ∈ ls → m'.Offers commandControls C)
    {l : Label} {s' : Service} (ht : Takes step (start m ats db now mono) ls s l s') {i : ℕ}
    {req : Request} {call : WriteCall} (hw : s.Shows l (.write i req call)) :
    ∃ ctl, C ctl ∧ call = .ofControl ctl := by
  obtain ⟨pre, post, rfl, hrun, -⟩ := ht
  have hstart : (start m ats db now mono).world.Supplied C := ⟨hm, hm, fun _ => trivial⟩
  have hsupplied : s.world.Supplied C ∧ ∀ m ∈ s.world.atsRegmap, m.Offers atsCommandControls C := by
    refine run_invariant (I := fun t : Service => t.world.Supplied C ∧
        ∀ m ∈ t.world.atsRegmap, m.Offers atsCommandControls C)
      (fun t k t' hk ⟨ht, hcompanion⟩ hstep => ?_) ⟨hstart, ?_⟩ hrun
    · obtain ⟨r, hr, rfl⟩ := step_eq_some.mp hstep
      refine ⟨(ht.step hcompanion ?_ hr).supplied, ?_⟩
      · rintro m' operator at_ rfl
        exact hmaps m' operator at_ (List.mem_append_left _ hk)
      · rw [World.atsRegmap_of_step hr]
        exact hcompanion
    · intro m' hm'
      obtain ⟨ats', hats', rfl⟩ := Option.map_eq_some_iff.mp hm'
      obtain ⟨a, ha, rfl⟩ := Option.map_eq_some_iff.mp hats'
      exact hats a ha
  obtain ⟨hworld, hcompanion⟩ := hsupplied
  obtain ⟨r, hr, hmem⟩ := hw
  refine (hworld.step hcompanion ?_ hr).writes i req call hmem
  rintro m' operator at_ rfl
  exact hmaps m' operator at_ (List.mem_append_right _ List.mem_cons_self)

/-- In every run of the loops over accepted maps whose registers all end in the address space,
every read is well formed, and so is every write in every run of the service over accepted maps
under whose command names there are only controls with words of 16 bits that end in the address
space, no more of them than one request may have. -/
theorem requests_well_formed (m : RegisterMap) :
    (∀ now ls s tier p q, m.Accepted ∧ m.ReadsFit →
      (∀ m', .applyRegmap m' ∈ ls → m'.Accepted ∧ m'.ReadsFit) →
      run PollLoops.advance (.init m now) ls = some s → s.task tier = .reading p →
      p.readRequest = some q → q.WellFormed) ∧
    ∀ ats db now mono ls s l s' i req call,
      m.Accepted ∧ m.Offers commandControls ControlDef.Fits →
      (∀ a ∈ ats, a.1.Accepted ∧ a.1.Offers atsCommandControls ControlDef.Fits) →
      (∀ m' operator at_, .reload m' operator at_ ∈ ls →
        m'.Accepted ∧ m'.Offers commandControls ControlDef.Fits) →
      Takes step (start m ats db now mono) ls s l s' → s.Shows l (.write i req call) →
      call.WellFormed := by
  have wellFormed : ∀ {m : RegisterMap} {names},
      m.Accepted ∧ m.Offers names ControlDef.Fits →
        m.Offers names fun c => (WriteCall.ofControl c).WellFormed :=
    fun h => h.2.imp fun c hc hfit => (ControlDef.wellFormed_ofControl h.1 hc).mpr hfit
  constructor
  · intro now ls s tier p q hm hswaps hrun htask hq
    exact ((PollLoops.fits_of_run hm.1 hm.2 hswaps hrun).polls tier p htask).readRequest hq
  · intro ats db now mono ls s l s' i req call hm hats hmaps ht hw
    obtain ⟨ctl, hctl, rfl⟩ := writes_of_offers (wellFormed hm) (fun a ha => wellFormed (hats a ha))
      (fun m' operator at_ hmem => wellFormed (hmaps m' operator at_ hmem)) ht hw
    exact hctl

/-- The reads of the site and a start of its generator. -/
theorem site_requests_well_formed :
    (∃ s p q, run PollLoops.advance (.init siteMap 0) [.begin .prime] = some s ∧
      s.task .prime = .reading p ∧ p.readRequest = some q ∧ q.WellFormed) ∧
    ∃ s s', Takes step (start siteMap none .empty 0 0)
        [.input (.poll 1 (siteReading 1 1)) [], .issue "ann" (some .start) "T1" (clockAt 2),
          .execute ⟨.start, "T1", "ann", .operator⟩ (clockAt 3)]
        s (.execute ⟨.start, "T1", "ann", .operator⟩ (clockAt 3)) s' ∧
      (WriteCall.single 0x0130 1).WellFormed := by
  constructor
  · obtain ⟨s, p, q, hs, hp, hq⟩ : ∃ s p q,
        run PollLoops.advance (.init siteMap 0) [.begin .prime] = some s ∧
        s.task .prime = .reading p ∧ p.readRequest = some q := ⟨_, _, _, rfl, rfl, rfl⟩
    exact ⟨s, p, q, hs, hp, hq, (requests_well_formed siteMap).1 0 _ s .prime p q
      ⟨by decide +kernel, by decide⟩ (by simp) hs hp hq⟩
  · obtain ⟨s, s', ht, hshows⟩ := takes_of_lastStep step (start siteMap none .empty 0 0)
      [.input (.poll 1 (siteReading 1 1)) [], .issue "ann" (some .start) "T1" (clockAt 2)]
      (.execute ⟨.start, "T1", "ann", .operator⟩ (clockAt 3))
      (fun s l _ => s.Shows l
        (.write 1 (.execute ⟨.start, "T1", "ann", .operator⟩) (.single 0x0130 1)))
      (by decide +kernel)
    exact ⟨s, s', ht, (requests_well_formed siteMap).2 none .empty 0 0 _ s _ s' 1 _ _
      ⟨by decide +kernel, by decide⟩ (by simp) (by simp) ht (of_decide_eq_true hshows)⟩

def lastWordDoc : Yaml :=
  .map [("registers", .seq [
    .map [("name", .str "hours"), ("addr", .int 0xFFFF), ("type", .str "u32")]])]

/-- A site whose start control writes more than a word holds. -/
def wideWordDoc : Yaml :=
  .map [("registers", .seq [
      .map [("name", .str "status"), ("addr", .int 0), ("tier", .str "prime")],
      .map [("name", .str "key_switch"), ("addr", .int 1), ("tier", .str "prime")]]),
    ("engine_state_bits", .seq [
      .map [("register", .str "status"), ("mask", .int 1), ("state", .str "stopped")]]),
    ("panel_mode_bits", .seq [
      .map [("register", .str "key_switch"), ("mask", .int 1), ("mode", .str "auto")]]),
    ("controls", .seq [
      .map [("name", .str "remote_start"), ("addr", .int 0x0130), ("value", .int 70000)]])]

def lastWordMap : RegisterMap :=
  { RegisterMap.bare with
    registers := [{ RegisterDef.plain "hours" 0xFFFF with type := .u32, tier := .base }] }

def wideWordMap : RegisterMap :=
  { RegisterMap.bare with
    registers := [.plain "status", .plain "key_switch" 1]
    engineStateBits := [⟨.stopped, "status", 1⟩]
    panelModeBits := [⟨.auto, "key_switch", 1⟩]
    controls := ⟨[⟨"remote_start", 0x0130, 6, 70000, []⟩], by decide⟩ }

/-- The first document makes a read that goes past the last address, the second a start of a word
that is none. -/
theorem accepted_maps_ask_too_much :
    (∃ m : RegisterMap, ∃ s p q, loadRegisterMap .ascii lastWordDoc = .ok m.keyed ∧
      run PollLoops.advance (.init m 0) [.begin .base] = some s ∧ s.task .base = .reading p ∧
      p.readRequest = some q ∧ ¬q.WellFormed) ∧
    ∃ m : RegisterMap, ∃ s s', loadRegisterMap .ascii wideWordDoc = .ok m.keyed ∧
      Takes step (start m none .empty 0 0)
        [.input (.poll 1 (siteReading 1 1)) [], .issue "ann" (some .start) "T1" (clockAt 2),
          .execute ⟨.start, "T1", "ann", .operator⟩ (clockAt 3)]
        s (.execute ⟨.start, "T1", "ann", .operator⟩ (clockAt 3)) s' ∧
      s.Shows (.execute ⟨.start, "T1", "ann", .operator⟩ (clockAt 3))
        (.write 1 (.execute ⟨.start, "T1", "ann", .operator⟩) (.single 0x0130 70000)) ∧
      ¬(WriteCall.single 0x0130 70000).WellFormed := by
  constructor
  · refine ⟨lastWordMap, _, _, ⟨3, 0xFFFF, 2⟩, by decide +kernel, rfl, rfl, by decide, fun h => ?_⟩
    exact absurd h.stop_le (by decide)
  · have hload : loadRegisterMap .ascii wideWordDoc = .ok wideWordMap.keyed := by decide +kernel
    obtain ⟨s, s', ht, hshows⟩ := takes_of_lastStep step (start wideWordMap none .empty 0 0)
      [.input (.poll 1 (siteReading 1 1)) [], .issue "ann" (some .start) "T1" (clockAt 2)]
      (.execute ⟨.start, "T1", "ann", .operator⟩ (clockAt 3))
      (fun s l _ => s.Shows l
        (.write 1 (.execute ⟨.start, "T1", "ann", .operator⟩) (.single 0x0130 70000)))
      (by decide +kernel)
    exact ⟨wideWordMap, s, s', hload, ht, of_decide_eq_true hshows,
      fun h => absurd (h.words 70000 (by simp [WriteCall.words])) (by decide)⟩

end Requests

end Service

end GenWatch
