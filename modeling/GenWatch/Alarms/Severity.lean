import GenWatch.Alarms.Numeric
import GenWatch.Alarms.Debounce

/-! # The severity of a numeric alarm

A numeric alarm is raised once, at the severity that its value has then, and keeps that
severity in the bookkeeping, in its row and in what was announced until it is cleared. So
a value that drifts through the warning band into the alarm band stays a warning.
-/

namespace GenWatch

open Handler ServiceM Transition

/-- The severity at which an event leaves a code announced, given the one before it. -/
def Event.announce (code : String) (a : Option Severity) : Event → Option Severity
  | .alarm other _ severity _ => if other = code then some severity else a
  | .alarmCleared other _ _ => if other = code then none else a
  | .disagreeCleared other _ _ => if other = code then none else a
  | _ => a

/-- The severity at which a code stands announced after some events, `none` if it is cleared. -/
def announced (code : String) (a : Option Severity) (es : List Event) : Option Severity :=
  es.foldl (Event.announce code) a

section Announced

variable {code : String} {a : Option Severity} {es es' : List Event}

theorem announced_append :
    announced code a (es ++ es') = announced code (announced code a es) es' :=
  List.foldl_append

theorem announce_of_alarmCode_ne {e : Event} (h : e.alarmCode ≠ some code) :
    e.announce code a = a := by
  cases e with
  | alarm other desc severity ts => exact if_neg fun he => h (congrArg some he)
  | alarmCleared other desc ts => exact if_neg fun he => h (congrArg some he)
  | disagreeCleared other reason ts => exact if_neg fun he => h (congrArg some he)
  | _ => rfl

theorem announced_of_alarmCode_ne (h : ∀ e ∈ es, e.alarmCode ≠ some code) :
    announced code a es = a := by
  induction es generalizing a with
  | nil => rfl
  | cons e es ih =>
    obtain ⟨he, hes⟩ := List.forall_mem_cons.mp h
    rw [announced, List.foldl_cons, announce_of_alarmCode_ne he]
    exact ih hes

theorem eq_alarm_of_announce {e : Event} {severity : Severity} (hcode : e.alarmCode = some code)
    (h : e.announce code a = some severity) : ∃ desc ts, e = .alarm code desc severity ts := by
  cases e with
  | alarm other desc severity' ts =>
    obtain rfl := Option.some.inj hcode
    rw [Event.announce, if_pos rfl] at h
    obtain rfl := Option.some.inj h
    exact ⟨desc, ts, rfl⟩
  | alarmCleared other desc ts =>
    obtain rfl := Option.some.inj hcode
    rw [Event.announce, if_pos rfl] at h
    cases h
  | disagreeCleared other reason ts =>
    obtain rfl := Option.some.inj hcode
    rw [Event.announce, if_pos rfl] at h
    cases h
  | _ => cases hcode

theorem exists_alarm_of_announced {severity : Severity}
    (h : announced code none es = some severity) :
    ∃ before desc ts after, es = before ++ .alarm code desc severity ts :: after ∧
      ∀ e ∈ after, e.clears ≠ some code := by
  induction es using List.reverseRecOn with
  | nil => cases h
  | append_singleton es e ih =>
    have hlast : e.announce code (announced code none es) = some severity := by
      rw [announced_append] at h
      exact h
    by_cases hcode : e.alarmCode = some code
    · obtain ⟨desc, ts, rfl⟩ := eq_alarm_of_announce hcode hlast
      exact ⟨es, desc, ts, [], rfl, by simp⟩
    · rw [announce_of_alarmCode_ne hcode] at hlast
      obtain ⟨before, desc, ts, after, rfl, hafter⟩ := ih hlast
      refine ⟨before, desc, ts, after ++ [e], by simp, fun e' he' => ?_⟩
      rcases List.mem_append.mp he' with he' | he'
      · exact hafter e' he'
      · obtain rfl := List.mem_singleton.mp he'
        exact mt Event.alarmCode_of_clears hcode

end Announced

def Database.severityOf (db : Database) (code : String) : Option Severity :=
  (db.alarmsActive.find? code).map AlarmRow.severity

namespace StateMachine

/-- The severity at which a numeric alarm was raised. -/
def raisedAs (sm : StateMachine) (code : String) : Option Severity :=
  (sm.numericRaised.find? code).map Prod.snd

/-- The bookkeeping and the row of a numeric alarm say the same, and no alarm bit has its code. -/
structure Agrees (code : String) (c : Ctx StateMachine) (a : Option Severity) : Prop where
  raised : c.self.raisedAs code = a
  row : c.db.severityOf code = a
  session : code ∉ c.self.raisedThisSession

/-- The events of a code say what becomes of its bookkeeping and its row. -/
def Tracks (code : String) (c c' : Ctx StateMachine) : Prop :=
  ∃ new, c'.emitted = c.emitted ++ new ∧
    ∀ a, Agrees code c a → Agrees code c' (announced code a new)

/-- What leaves a numeric alarm alone. -/
structure Aside (code : String) (c c' : Ctx StateMachine) : Prop where
  regmap : c'.self.regmap = c.self.regmap
  counts : c'.self.numericPollCounts = c.self.numericPollCounts
  raised : c'.self.numericRaised = c.self.numericRaised
  session : code ∈ c'.self.raisedThisSession ↔ code ∈ c.self.raisedThisSession
  row : c'.db.alarmsActive.find? code = c.db.alarmsActive.find? code
  emits : ∃ new, c'.emitted = c.emitted ++ new ∧ ∀ e ∈ new, e.alarmCode ≠ some code

variable {code : String} {c c' c'' : Ctx StateMachine} {u : Unit}

instance : Std.Refl (Tracks code) := ⟨fun _ => ⟨[], by simp, fun _ => id⟩⟩

instance : IsTrans (Ctx StateMachine) (Tracks code) where
  trans _ _ _ h h' := by
    obtain ⟨new, he, ht⟩ := h
    obtain ⟨new', he', ht'⟩ := h'
    refine ⟨new ++ new', by rw [he', he, List.append_assoc], fun a ha => ?_⟩
    rw [announced_append]
    exact ht' _ (ht a ha)

instance : Std.Refl (Aside code) := ⟨fun _ => ⟨rfl, rfl, rfl, Iff.rfl, rfl, [], by simp⟩⟩

instance : IsTrans (Ctx StateMachine) (Aside code) where
  trans _ _ _ h h' := by
    obtain ⟨new, he, hn⟩ := h.emits
    obtain ⟨new', he', hn'⟩ := h'.emits
    refine ⟨h'.regmap.trans h.regmap, h'.counts.trans h.counts, h'.raised.trans h.raised,
      h'.session.trans h.session, h'.row.trans h.row, new ++ new', ?_, fun e hm => ?_⟩
    · rw [he', he, List.append_assoc]
    · exact (List.mem_append.mp hm).elim (hn e) (hn' e)

theorem tracks_modifySelf {f : StateMachine → StateMachine}
    (hr : (modifySelf f).run c = .ok u c')
    (h : ∀ sm, (f sm).numericRaised = sm.numericRaised ∧
      (f sm).raisedThisSession = sm.raisedThisSession) : Tracks code c c' := by
  obtain rfl := modifySelf_ok.mp hr
  refine ⟨[], by simp, fun a ha => ⟨?_, ha.row, ?_⟩⟩
  · show raisedAs (f c.self) code = a
    rw [raisedAs, (h c.self).1]
    exact ha.raised
  · show code ∉ (f c.self).raisedThisSession
    rw [(h c.self).2]
    exact ha.session

theorem Aside.tracks (h : Aside code c c') : Tracks code c c' := by
  obtain ⟨new, he, hn⟩ := h.emits
  refine ⟨new, he, fun a ha => ?_⟩
  rw [announced_of_alarmCode_ne hn]
  refine ⟨?_, ?_, mt h.session.mp ha.session⟩
  · rw [raisedAs, h.raised]
    exact ha.raised
  · rw [Database.severityOf, h.row]
    exact ha.row

section Aside

theorem aside_modifySelf {f : StateMachine → StateMachine}
    (h : ∀ sm, (f sm).regmap = sm.regmap ∧ (f sm).numericPollCounts = sm.numericPollCounts ∧
      (f sm).numericRaised = sm.numericRaised ∧
      (code ∈ (f sm).raisedThisSession ↔ code ∈ sm.raisedThisSession)) :
    Relates (Aside code) (modifySelf f) := by
  refine Relates.modify fun c => ?_
  obtain ⟨hmap, hcounts, hraised, hsession⟩ := h c.self
  exact ⟨hmap, hcounts, hraised, hsession, rfl, [], by simp⟩

theorem aside_emit {e : Event} (h : e.alarmCode ≠ some code) : Relates (Aside code) (emit e) :=
  Relates.modify fun _ => ⟨rfl, rfl, rfl, Iff.rfl, rfl, [e], rfl, by simpa using h⟩

theorem aside_dbCall {α : Type} {op : Database → α × Database}
    (h : ∀ db, (op db).2.alarmsActive.find? code = db.alarmsActive.find? code) :
    Relates (Aside code) (dbCall op : ServiceM StateMachine α) :=
  relates_dbCall (fun _ _ => ⟨rfl, rfl, rfl, Iff.rfl, rfl, [], by simp⟩)
    fun c _ => ⟨rfl, rfl, rfl, Iff.rfl, h c.db, [], by simp⟩

theorem aside_raiseAlarm {other : String} (h : code ≠ other) (desc : Desc) (severity : Severity)
    (raw : ℤ) (now : ℚ) : Relates (Aside code) (raiseAlarm other desc severity raw now) := by
  refine aside_dbCall fun db => ?_
  simp only [Database.raiseAlarm, Table.find?_insertIgnore, h, if_false, Option.or_none]

theorem aside_clearAlarm {other : String} (h : code ≠ other) :
    Relates (Aside code) (clearAlarm other : ServiceM StateMachine Bool) := by
  refine aside_dbCall fun db => ?_
  simp only [Database.clearAlarm, Table.find?_delete, h, if_false]

theorem aside_rules (hk : IsRange code) : OuterRules (Aside code) where
  writes _ _ _ _ _ := aside_dbCall fun _ => rfl
  raises _ _ _ _ := aside_raiseAlarm (ne_disagree hk) _ _ _ _
  clears := aside_clearAlarm (ne_disagree hk)
  emits e he := aside_emit fun h => ne_disagree hk (he code h)
  moves f hf := aside_modifySelf fun sm => by
    obtain ⟨hmap, hsession, hcounts, hraised, -⟩ := hf sm
    exact ⟨hmap, hcounts, hraised, by rw [hsession]⟩

theorem aside_announceIf {e : Event} (h : e.alarmCode ≠ some code) (severity : Severity)
    (type : EventType) (message : Message) (info : Option String) (now : ℚ) (changed : Bool) :
    Relates (Aside code)
      (if changed then writeEvent severity type message info now >>= fun _ => emit e
        else pure ()) :=
  Relates.ite (fun _ => Relates.bind (aside_dbCall fun _ => rfl) fun _ => aside_emit h)
    fun _ => Relates.pure _

theorem updateAlarms_aside {m : RegisterMap} {reading : Reading} {now : ℚ}
    (hset : code ∉ setCodes m reading.values) (hsession : code ∉ c.self.raisedThisSession)
    (h : (updateAlarms m reading now).run c = .ok u c') : Aside code c c' := by
  obtain ⟨c₁, h₁, h⟩ := seq_ok.mp h
  have a₁ : Aside code c c₁ := by
    obtain rfl := modifySelf_ok.mp h₁
    exact ⟨rfl, rfl, rfl, Iff.rfl, rfl, [], by simp⟩
  obtain ⟨sm, c₀, hg, h⟩ := bind_ok.mp h
  obtain ⟨rfl, rfl⟩ := getSelf_ok.mp hg
  obtain ⟨c₂, h₂, h⟩ := seq_ok.mp h
  have a₂ : Aside code c₁ c₂ := by
    refine (Relates.forM fun ab hab => ?_ : Relates (Aside code) _).ok h₂
    have hne : code ≠ ab.code := by
      rintro rfl
      exact hset (List.mem_map_of_mem (List.mem_filter.mp hab).1)
    refine Relates.ite (fun _ => Relates.pure _) fun _ => ?_
    refine Relates.bind (aside_raiseAlarm hne _ _ _ _) fun raised => ?_
    refine Relates.bind (aside_modifySelf fun sm => ⟨rfl, rfl, rfl, ?_⟩) fun _ => ?_
    · rw [List.mem_insert_iff, or_iff_right hne]
    · refine aside_announceIf ?_ _ _ _ _ _ _
      exact fun he => hne (Option.some.inj he).symm
  obtain ⟨sm, c₀, hg, h⟩ := bind_ok.mp h
  obtain ⟨rfl, rfl⟩ := getSelf_ok.mp hg
  obtain ⟨c₃, h₃, h⟩ := seq_ok.mp h
  have hnot : code ∉ c₂.self.raisedThisSession :=
    mt a₂.session.mp (mt a₁.session.mp hsession)
  have a₃ : Aside code c₂ c₃ := by
    refine (Relates.forM fun other hmem => ?_ : Relates (Aside code) _).ok h₃
    have hne : code ≠ other := by
      rintro rfl
      exact hnot hmem
    refine Relates.ite (fun _ => Relates.pure _) fun _ => ?_
    refine Relates.bind (aside_clearAlarm hne) fun cleared => ?_
    refine Relates.bind (aside_modifySelf fun sm => ⟨rfl, rfl, rfl, ?_⟩) fun _ => ?_
    · simp [hne]
    · refine aside_announceIf ?_ _ _ _ _ _ _
      exact fun he => hne (Option.some.inj he).symm
  have a₄ : Aside code c₃ c' := by
    obtain rfl := modifySelf_ok.mp h
    exact ⟨rfl, rfl, rfl, Iff.rfl, rfl, [], by simp⟩
  exact IsTrans.trans _ _ _ a₁ (IsTrans.trans _ _ _ a₂ (IsTrans.trans _ _ _ a₃ a₄))

end Aside

section Check

variable {values : Values} {now : ℚ}

/-- What a step of the numeric check does to the alarm of a code, which it leaves raised as `a`. -/
structure Checks (code : String) (a : Option Severity) (c c' : Ctx StateMachine) : Prop where
  regmap : c'.self.regmap = c.self.regmap
  counts : c'.self.numericPollCounts = c.self.numericPollCounts
  raised : c'.self.raisedAs code = a
  tracks : Tracks code c c'

theorem active_iff_severityOf {db : Database} : db.Active code ↔ db.severityOf code ≠ none := by
  rw [Database.severityOf, ne_eq, Option.map_eq_none_iff, Table.find?_eq_none, not_not]
  rfl

theorem raisedAs_eq_none_iff {sm : StateMachine} :
    sm.raisedAs code = none ↔ code ∉ sm.numericRaised.keys := by
  rw [raisedAs, Option.map_eq_none_iff, Table.find?_eq_none]

theorem raiseNumeric_checks {hit : NumericHit}
    (h : (raiseNumeric values now hit).run c = .ok u c') :
    Checks code ((c.self.raisedAs code).or
      (if hit.code = code ∧ numericAlarmMinPolls ≤ c.self.numericPollCounts code
        then some hit.severity else none)) c c' := by
  obtain ⟨rfl, hskip⟩ | ⟨hpolls, hnew, desc, hself, hdb, hemit⟩ := raiseNumeric_cases h
  · refine ⟨rfl, rfl, ?_, Std.Refl.refl _⟩
    split
    · rename_i hdue
      obtain ⟨rfl, hpolls⟩ := hdue
      have hup := hskip.resolve_left (by omega)
      rw [← not_not (a := _ ∈ _), ← raisedAs_eq_none_iff] at hup
      cases hr : c'.self.raisedAs hit.code with
      | none => exact absurd hr hup
      | some severity => rfl
    · rw [Option.or_none]
  have hraised : c'.self.raisedAs code =
      if code = hit.code then some hit.severity else c.self.raisedAs code := by
    rw [hself, raisedAs]
    show Option.map _ (Table.find? (Table.insertReplace _ _) code) = _
    rw [Table.find?_insertReplace]
    by_cases hcode : code = hit.code
    · rw [if_pos hcode, if_pos hcode, Option.map_some]
    · rw [if_neg hcode, if_neg hcode, raisedAs]
  have hrow : c'.db.severityOf code =
      (c.db.severityOf code).or (if code = hit.code then some hit.severity else none) := by
    rw [Database.severityOf, hdb, Table.find?_insertIgnore, Database.severityOf]
    cases c.db.alarmsActive.find? code with
    | none => by_cases hcode : code = hit.code <;> simp [hcode]
    | some row => rfl
  have hsession : code ∉ c.self.raisedThisSession → code ∉ c'.self.raisedThisSession := by
    rw [hself]
    exact id
  by_cases hcode : hit.code = code
  · subst hcode
    have hnone := raisedAs_eq_none_iff.mpr hnew
    rw [if_pos rfl] at hraised hrow
    rw [if_pos ⟨rfl, hpolls⟩, hnone, Option.none_or]
    refine ⟨by rw [hself], by rw [hself], hraised, _, hemit, fun a ha => ?_⟩
    -- no row was left, so the raise is announced
    obtain rfl : a = none := ha.raised.symm.trans hnone
    have hfree : ¬c.db.Active hit.code := by
      rw [active_iff_severityOf, not_not]
      exact ha.row
    rw [if_neg hfree]
    refine ⟨hraised.trans ?_, hrow.trans ?_, hsession ha.session⟩
    · simp [announced, Event.announce]
    · rw [ha.row]
      simp [announced, Event.announce]
  · rw [if_neg (Ne.symm hcode)] at hraised hrow
    rw [Option.or_none] at hrow
    rw [if_neg fun h => hcode h.1, Option.or_none]
    refine ⟨by rw [hself], by rw [hself], hraised, _, hemit, fun a ha => ?_⟩
    rw [announced_of_alarmCode_ne]
    · exact ⟨hraised.trans ha.raised, hrow.trans ha.row, hsession ha.session⟩
    · intro e he
      split at he
      · cases he
      · obtain rfl := List.mem_singleton.mp he
        exact fun h => hcode (Option.some.inj h)

theorem clearNumeric_checks {active : List String} {other : String}
    (h : (clearNumeric active now other).run c = .ok u c') :
    Checks code (if other = code ∧ code ∉ active then none else c.self.raisedAs code) c c' := by
  obtain ⟨rfl, hin⟩ | ⟨hout, hself, hdb, hemit⟩ := clearNumeric_cases h
  · rw [if_neg (by rintro ⟨rfl, hout⟩; exact hout hin)]
    exact ⟨rfl, rfl, rfl, Std.Refl.refl _⟩
  have hraised : c'.self.raisedAs code = if code = other then none else c.self.raisedAs code := by
    rw [hself, raisedAs]
    show Option.map _ (Table.find? (Table.delete _ _) code) = _
    rw [Table.find?_delete]
    by_cases hcode : code = other
    · rw [if_pos hcode, if_pos hcode, Option.map_none]
    · rw [if_neg hcode, if_neg hcode, raisedAs]
  have hrow : c'.db.severityOf code = if code = other then none else c.db.severityOf code := by
    rw [Database.severityOf, hdb, Table.find?_delete, Database.severityOf]
    by_cases hcode : code = other <;> simp [hcode]
  have hsession : code ∉ c.self.raisedThisSession → code ∉ c'.self.raisedThisSession := by
    rw [hself]
    exact id
  by_cases hcode : other = code
  · subst hcode
    rw [if_pos rfl] at hraised hrow
    rw [if_pos ⟨rfl, hout⟩]
    refine ⟨by rw [hself], by rw [hself], hraised, _, hemit, fun a ha => ?_⟩
    have hleft : announced other a
        (if c.db.Active other then [.alarmCleared other (.text other) now] else []) = none := by
      split
      · simp [announced, Event.announce]
      · rename_i hfree
        rw [active_iff_severityOf, not_not] at hfree
        exact ha.row.symm.trans hfree
    rw [hleft]
    exact ⟨hraised, hrow, hsession ha.session⟩
  · rw [if_neg (Ne.symm hcode)] at hraised hrow
    rw [if_neg fun h => hcode h.1]
    refine ⟨by rw [hself], by rw [hself], hraised, _, hemit, fun a ha => ?_⟩
    rw [announced_of_alarmCode_ne]
    · exact ⟨hraised.trans ha.raised, hrow.trans ha.row, hsession ha.session⟩
    · intro e he
      split at he
      · obtain rfl := List.mem_singleton.mp he
        exact fun h => hcode (Option.some.inj h)
      · cases he

theorem raiseNumeric_loop_checks (hits : List NumericHit)
    (hnodup : (hits.map NumericHit.code).Nodup) :
    ∀ {c c' : Ctx StateMachine}, (hits.forM (raiseNumeric values now)).run c = .ok u c' →
      Checks code ((c.self.raisedAs code).or
        (if numericAlarmMinPolls ≤ c.self.numericPollCounts code then
          (hits.find? fun hit => hit.code = code).map NumericHit.severity
          else none)) c c' := by
  induction hits with
  | nil =>
    intro c c' h
    obtain rfl := forM_nil_ok.mp h
    exact ⟨rfl, rfl, by simp, Std.Refl.refl _⟩
  | cons hit hits ih =>
    intro c c' h
    rw [List.map_cons, List.nodup_cons] at hnodup
    obtain ⟨t, h₁, h₂⟩ := forM_cons_ok.mp h
    have k₁ : Checks code _ c t := raiseNumeric_checks h₁
    have k₂ := ih hnodup.2 h₂
    refine ⟨k₂.regmap.trans k₁.regmap, k₂.counts.trans k₁.counts, k₂.raised.trans ?_,
      IsTrans.trans _ _ _ k₁.tracks k₂.tracks⟩
    rw [k₁.raised, k₁.counts, Option.or_assoc, List.find?_cons]
    congr 1
    by_cases hdue : numericAlarmMinPolls ≤ c.self.numericPollCounts code
    · by_cases hcode : hit.code = code
      · simp [hcode, hdue]
      · simp [hcode, hdue]
    · simp [hdue]

theorem clearNumeric_loop_checks {active : List String} (codes : List String) :
    ∀ {c c' : Ctx StateMachine}, (codes.forM (clearNumeric active now)).run c = .ok u c' →
      Checks code (if code ∈ codes ∧ code ∉ active then none else c.self.raisedAs code) c c' := by
  induction codes with
  | nil =>
    intro c c' h
    obtain rfl := forM_nil_ok.mp h
    exact ⟨rfl, rfl, by simp, Std.Refl.refl _⟩
  | cons other codes ih =>
    intro c c' h
    obtain ⟨t, h₁, h₂⟩ := forM_cons_ok.mp h
    have k₁ : Checks code _ c t := clearNumeric_checks h₁
    have k₂ := ih h₂
    refine ⟨k₂.regmap.trans k₁.regmap, k₂.counts.trans k₁.counts, k₂.raised.trans ?_,
      IsTrans.trans _ _ _ k₁.tracks k₂.tracks⟩
    rw [k₁.raised]
    by_cases hactive : code ∈ active
    · simp [hactive]
    · by_cases hcode : other = code
      · simp [hactive, hcode]
      · simp [hactive, hcode, Ne.symm hcode]

/-- What the numeric check leaves a code raised as: nothing when it is in range, else what it was
raised as before, or once it is due the severity of the hit. -/
def nextRaisedAs (hit : Option NumericHit) (polls : ℕ) (old : Option Severity) : Option Severity :=
  hit.bind fun hit => old.or (if numericAlarmMinPolls ≤ polls then some hit.severity else none)

theorem checkNumericRanges_checks {m : RegisterMap} {reading : Reading}
    (h : (checkNumericRanges m reading now).run c = .ok u c') :
    c'.self.regmap = c.self.regmap ∧
    c'.self.numericPollCounts = countPolls c.self.numericPollCounts
      (numericActive m reading.values c.self.snap.engineState).keys ∧
    c'.self.raisedAs code = nextRaisedAs
      ((numericActive m reading.values c.self.snap.engineState).find? code)
      (c'.self.numericPollCounts code) (c.self.raisedAs code) ∧
    Tracks code c c' := by
  obtain ⟨sm, c₀, hg, h⟩ := bind_ok.mp h
  obtain ⟨rfl, rfl⟩ := getSelf_ok.mp hg
  obtain ⟨c₁, h₁, h⟩ := seq_ok.mp h
  have t₁ : Tracks code c c₁ := tracks_modifySelf h₁ fun _ => ⟨rfl, rfl⟩
  obtain rfl := modifySelf_ok.mp h₁
  obtain ⟨c₂, h₂, h⟩ := seq_ok.mp h
  have k₂ : Checks code _ _ c₂ := raiseNumeric_loop_checks _
    (numericActive m reading.values c.self.snap.engineState).nodup h₂
  obtain ⟨sm, c₃, hg, h⟩ := bind_ok.mp h
  obtain ⟨rfl, rfl⟩ := getSelf_ok.mp hg
  have k₃ : Checks code _ c₂ c' := clearNumeric_loop_checks _ h
  have hcounts := k₃.counts.trans k₂.counts
  refine ⟨k₃.regmap.trans k₂.regmap, hcounts, k₃.raised.trans ?_,
    IsTrans.trans _ _ _ t₁ (IsTrans.trans _ _ _ k₂.tracks k₃.tracks)⟩
  rw [nextRaisedAs, hcounts]
  have hraised := k₂.raised
  dsimp only at hraised ⊢
  cases hhit : (numericActive m reading.values c.self.snap.engineState).find? code with
  | none =>
    have hout := Table.find?_eq_none.mp hhit
    rw [Option.bind_none]
    split
    · rfl
    · rename_i hkeep
      exact raisedAs_eq_none_iff.mpr fun hmem => hkeep ⟨hmem, hout⟩
  | some hit =>
    have hin : code ∈ (numericActive m reading.values c.self.snap.engineState).keys := by
      by_contra hout
      rw [Table.find?_eq_none.mpr hout] at hhit
      cases hhit
    rw [if_neg fun h => h.2 hin, hraised]
    have hfind : (numericActive m reading.values c.self.snap.engineState).rows.find?
        (fun hit => hit.code = code) = some hit := hhit
    rw [hfind]
    rfl

end Check

/-- The registers that a completed update finds out of range. -/
def numericHits (sm : StateMachine) (values : Values) : Table NumericHit.code :=
  numericActive sm.regmap values (nextEngineState sm.regmap values sm.snap.engineState)

theorem update_checks {env : PollEnv} {reading : Reading} {comms : CommsRef}
    (hk : IsRange code) (hset : code ∉ setCodes c.self.regmap reading.values)
    (hsession : code ∉ c.self.raisedThisSession)
    (h : (update env reading comms).run c = .ok u c') :
    Tracks code c c' ∧ (c.self.regmap.numericAlarmsEnabled = true →
      c'.self.numericPollCounts = countPolls c.self.numericPollCounts
        (c.self.numericHits reading.values).keys ∧
      c'.self.raisedAs code = nextRaisedAs ((c.self.numericHits reading.values).find? code)
        (c'.self.numericPollCounts code) (c.self.raisedAs code)) := by
  obtain ⟨sm, c₀, hg, h⟩ := bind_ok.mp h
  obtain ⟨rfl, rfl⟩ := getSelf_ok.mp hg
  obtain ⟨c₁, h₁, h⟩ := seq_ok.mp h
  obtain ⟨c₂, h₂, h⟩ := seq_ok.mp h
  obtain ⟨c₃, h₃, h⟩ := seq_ok.mp h
  have a₁ : Aside code c c₁ := ((aside_rules hk).relates_updateEngineState _ _ _).ok h₁
  have hstate : c₂.self.snap.engineState =
      nextEngineState c.self.regmap reading.values c.self.snap.engineState :=
    (updateAlarms_observes h₂).engineState.trans (updateEngineState_ok h₁)
  have a₂ : Aside code c₁ c₂ := updateAlarms_aside hset (mt a₁.session.mp hsession) h₂
  have a₄ : Aside code c₃ c' := ((aside_rules hk).relates_afterNumeric _ reading env comms).ok h
  have hbefore : c₂.self.raisedAs code = c.self.raisedAs code := by
    rw [raisedAs, a₂.raised, a₁.raised, raisedAs]
  have hafter : c'.self.raisedAs code = c₃.self.raisedAs code := by
    rw [raisedAs, a₄.raised, raisedAs]
  unfold updateNumeric at h₃
  split at h₃
  · obtain ⟨d, hd, h₃⟩ := seq_ok.mp h₃
    obtain ⟨-, hcounts, hraised, htracks⟩ :=
      (checkNumericRanges_checks hd : _ ∧ _ ∧ d.self.raisedAs code = _ ∧ _)
    have t₃ : Tracks code d c₃ := tracks_modifySelf h₃ fun _ => ⟨rfl, rfl⟩
    have t := IsTrans.trans _ _ _ htracks (IsTrans.trans _ _ _ t₃ a₄.tracks)
    obtain rfl := modifySelf_ok.mp h₃
    refine ⟨IsTrans.trans _ _ _ a₁.tracks (IsTrans.trans _ _ _ a₂.tracks t), fun _ => ?_⟩
    have hpolls : c'.self.numericPollCounts = d.self.numericPollCounts := a₄.counts
    rw [hstate, a₂.counts, a₁.counts] at hcounts
    rw [hstate, hbefore] at hraised
    exact ⟨hpolls.trans hcounts, hafter.trans (hpolls ▸ hraised)⟩
  · rename_i hoff
    have t₃ : Tracks code c₂ c₃ := tracks_modifySelf h₃ fun _ => ⟨rfl, rfl⟩
    have t := IsTrans.trans _ _ _ t₃ a₄.tracks
    exact ⟨IsTrans.trans _ _ _ a₁.tracks (IsTrans.trans _ _ _ a₂.tracks t), fun hon =>
      absurd hon hoff⟩

end StateMachine

namespace AlarmHistory

open StateMachine

variable {m : RegisterMap} {db : Database} {now : ℚ} {s s' : AlarmHistory} {l : ReloadLabel}
  {code : String} {reg : RegisterDef}

/-- The code has a row of severity `alarm`, and an `alarm` event of that severity was published for
it since it was last cleared. -/
def InAlarm (s : AlarmHistory) (code : String) : Prop :=
  (∃ row, s.desk.db.alarmsActive.find? code = some row ∧ row.severity = .alarm) ∧
    ∃ before desc ts after, s.log = before ++ .alarm code desc .alarm ts :: after ∧
      ∀ e ∈ after, e.clears ≠ some code

/-- The step is an update of a producing engine, under a map with numeric alarms, that finds the
register present and outside its alarm range. -/
def FindsOutside (reg : RegisterDef) (s : AlarmHistory) : ReloadLabel → Prop
  | .update _ reading _ => s.desk.sm.regmap.numericAlarmsEnabled = true ∧
      reg ∈ s.desk.sm.regmap.registers ∧
      nextEngineState s.desk.sm.regmap reading.values s.desk.sm.snap.engineState ∈
        numericAlarmStates ∧
      ∃ x ∈ reading.values reg.name, ∃ range ∈ reg.alarmRange, x < range.1 ∨ range.2 < x
  | .applyRegmap _ => False

/-- No set alarm bit and no other register of the map has the register's code. -/
def OwnsCode (reg : RegisterDef) (s : AlarmHistory) : ReloadLabel → Prop
  | .update _ reading _ => numericCode reg ∉ setCodes s.desk.sm.regmap reading.values ∧
      ∀ other ∈ s.desk.sm.regmap.registers, numericCode other = numericCode reg → other = reg
  | .applyRegmap _ => True

instance (reg : RegisterDef) (s : AlarmHistory) (l : ReloadLabel) :
    Decidable (FindsOutside reg s l) :=
  match l with
  | .update .. => inferInstanceAs (Decidable (_ ∧ _ ∧ _ ∧ ∃ x ∈ _, ∃ range ∈ _, _))
  | .applyRegmap _ => inferInstanceAs (Decidable False)

instance (reg : RegisterDef) (s : AlarmHistory) (l : ReloadLabel) : Decidable (OwnsCode reg s l) :=
  match l with
  | .update .. => inferInstanceAs (Decidable (_ ∧ ∀ other ∈ _, _))
  | .applyRegmap _ => inferInstanceAs (Decidable True)

/-- Bookkeeping, row and published events of the code say the same. -/
def Told (code : String) (s : AlarmHistory) : Prop :=
  Agrees code ⟨s.desk.sm, s.desk.db, [], []⟩ (announced code none s.log)

theorem told_start (hdb : ¬db.Active code) : Told code (start m db now) where
  raised := rfl
  row := by
    rw [active_iff_severityOf, not_not] at hdb
    exact hdb
  session := by simp [start, AlarmDesk.start, init]

theorem numericDerived_step (hd : s.desk.sm.NumericDerived) (h : step s l = some s') :
    s'.desk.sm.NumericDerived := by
  obtain ⟨env, reading, ref, c', -, hu, -, rfl⟩ | ⟨m, -, rfl⟩ := step_cases hd h
  · exact hu.numeric
  · exact hd

theorem Told.step (hd : s.desk.sm.NumericDerived) (ht : Told (numericCode reg) s)
    (ho : OwnsCode reg s l) (h : step s l = some s') : Told (numericCode reg) s' := by
  obtain ⟨env, reading, ref, c', rfl, -, hok, rfl⟩ | ⟨m, rfl, rfl⟩ := step_cases hd h
  · obtain ⟨⟨new, hemit, htracks⟩, -⟩ :=
      update_checks (isRange_numericCode reg) ho.1 ht.session hok
    obtain rfl : c'.emitted = new := hemit
    have hnext := htracks _ ht
    rw [← announced_append] at hnext
    exact ⟨hnext.raised, hnext.row, hnext.session⟩
  · exact ⟨ht.raised, ht.row, ht.session⟩

theorem Told.inAlarm_iff (ht : Told code s) :
    s.InAlarm code ↔ s.desk.sm.raisedAs code = some .alarm := by
  have hraised : s.desk.sm.raisedAs code = announced code none s.log := ht.raised
  have hrow : s.desk.db.severityOf code = announced code none s.log := ht.row
  constructor
  · rintro ⟨⟨row, hfind, hseverity⟩, -⟩
    rw [hraised, ← hrow, Database.severityOf, hfind, Option.map_some, hseverity]
  · intro h
    rw [hraised] at h
    rw [h, Database.severityOf, Option.map_eq_some_iff] at hrow
    exact ⟨hrow, exists_alarm_of_announced h⟩

theorem severityFor_of_outside {values : Values} {x : ℚ} {range : ℚ × ℚ}
    (hx : x ∈ values reg.name) (hr : range ∈ reg.alarmRange) (hout : x < range.1 ∨ range.2 < x) :
    severityFor values reg = some (.alarm, range.1, range.2) := by
  rw [severityFor, Option.mem_def.mp hx, Option.mem_def.mp hr]
  simp [hout]

/-- The hit of a register that has its code to itself says that the value is in the alarm band. -/
theorem FindsOutside.hit {env : PollEnv} {reading : Reading} {ref : CommsRef}
    (hf : FindsOutside reg s (.update env reading ref))
    (ho : OwnsCode reg s (.update env reading ref)) :
    ∃ hit, (s.desk.sm.numericHits reading.values).find? (numericCode reg) = some hit ∧
      hit.severity = .alarm := by
  obtain ⟨-, hreg, hstate, x, hx, range, hr, hout⟩ := hf
  have hsev := severityFor_of_outside hx hr hout
  have hmem : numericCode reg ∈ (s.desk.sm.numericHits reading.values).keys :=
    mem_keys_numericActive hstate hreg (by rw [hsev, Option.isSome_some])
  obtain ⟨hit, hhit, hcode⟩ := Table.mem_keys.mp hmem
  obtain ⟨hreg', hcode', hsev'⟩ := numericActive_hit hit hhit
  rw [ho.2 hit.reg hreg' (hcode'.trans hcode), hsev] at hsev'
  refine ⟨hit, Table.find?_eq_some.mpr ⟨hhit, hcode⟩, ?_⟩
  simpa using (congrArg (Option.map Prod.fst) hsev').symm

theorem step_outside (hd : s.desk.sm.NumericDerived) (ht : Told (numericCode reg) s)
    (ho : OwnsCode reg s l) (hf : FindsOutside reg s l) (h : step s l = some s') :
    s.desk.sm.numericPollCounts (numericCode reg) <
      s'.desk.sm.numericPollCounts (numericCode reg) ∧
    s'.desk.sm.raisedAs (numericCode reg) = (s.desk.sm.raisedAs (numericCode reg)).or
      (if numericAlarmMinPolls ≤ s'.desk.sm.numericPollCounts (numericCode reg)
        then some .alarm else none) := by
  obtain ⟨env, reading, ref, c', rfl, -, hok, rfl⟩ | ⟨m, rfl, rfl⟩ := step_cases hd h
  · obtain ⟨-, hchecks⟩ := update_checks (isRange_numericCode reg) ho.1 ht.session hok
    obtain ⟨hcounts, hraised⟩ := hchecks hf.1
    obtain ⟨hit, hhit, hseverity⟩ := hf.hit ho
    have hkey : numericCode reg ∈ (s.desk.sm.numericHits reading.values).keys := by
      obtain ⟨hmem, hcode⟩ := Table.find?_eq_some.mp hhit
      exact Table.mem_keys.mpr ⟨hit, hmem, hcode⟩
    dsimp only at hraised
    rw [hhit] at hraised
    refine ⟨?_, ?_⟩
    · show _ < c'.self.numericPollCounts _
      rw [hcounts, countPolls_eq, if_pos hkey]
      have := List.count_pos_iff.mpr hkey
      dsimp only
      omega
    · rw [← hseverity]
      exact hraised
  · exact hf.elim

/-- Along updates that all find the register outside its alarm range, the counter keeps up with
them, and the alarm keeps its severity or is raised at severity `alarm`. -/
theorem run_outside {us : List ReloadLabel}
    (hd : s.desk.sm.NumericDerived) (ht : Told (numericCode reg) s)
    (hall : ∀ t l t', Takes step s us t l t' → OwnsCode reg t l ∧ FindsOutside reg t l)
    (h : run step s us = some s') :
    (s'.desk.sm.NumericDerived ∧ Told (numericCode reg) s') ∧
    us.length ≤ s'.desk.sm.numericPollCounts (numericCode reg) ∧
    ∃ raised, s'.desk.sm.raisedAs (numericCode reg) =
        (s.desk.sm.raisedAs (numericCode reg)).or raised ∧
      (raised = none ∨ raised = some .alarm) ∧
      (numericAlarmMinPolls ≤ us.length → raised = some .alarm) := by
  induction us using List.reverseRecOn generalizing s' with
  | nil =>
    obtain rfl := Option.some.inj h
    exact ⟨⟨hd, ht⟩, Nat.zero_le _, none, by simp, Or.inl rfl, fun hle => absurd hle (by decide)⟩
  | append_singleton us l ih =>
    obtain ⟨t, hrun, hstep⟩ := run_snoc_iff.mp h
    obtain ⟨⟨hd', ht'⟩, hcount, raised, hraised, hcases, -⟩ :=
      ih (fun t l t' htakes => hall t l t' (htakes.append_right _)) hrun
    obtain ⟨ho, hf⟩ := hall t l s' ⟨us, [], rfl, hrun, hstep⟩
    obtain ⟨hlt, hnext⟩ := step_outside hd' ht' ho hf hstep
    have hlen : (us ++ [l]).length ≤ s'.desk.sm.numericPollCounts (numericCode reg) := by
      rw [List.length_append, List.length_singleton]
      omega
    refine ⟨⟨?_, ht'.step hd' ho hstep⟩, hlen, raised.or (if numericAlarmMinPolls ≤
      s'.desk.sm.numericPollCounts (numericCode reg) then some .alarm else none), ?_, ?_, ?_⟩
    · exact numericDerived_step hd' hstep
    · rw [hnext, hraised, Option.or_assoc]
    · rcases hcases with rfl | rfl
      · rw [Option.none_or]
        split
        · exact Or.inr rfl
        · exact Or.inl rfl
      · exact Or.inr rfl
    · intro hle
      rw [if_pos (hle.trans hlen)]
      rcases hcases with rfl | rfl <;> rfl

/-- In every run, also with reloads, that starts without a row of the register's code and in which
nothing else has that code: once as many updates in a row as an alarm takes have found the register
outside its alarm range, it is in alarm exactly when it was not up at a lesser severity before. -/
theorem numeric_severity_iff (m : RegisterMap) (db : Database) (now : ℚ) (reg : RegisterDef)
    (ls us : List ReloadLabel) (s s' : AlarmHistory) (hdb : ¬db.Active (numericCode reg))
    (howns : ∀ t l t', Takes step (start m db now) (ls ++ us) t l t' → OwnsCode reg t l)
    (hls : run step (start m db now) ls = some s) (hus : run step s us = some s')
    (hlen : numericAlarmMinPolls ≤ us.length)
    (hout : ∀ t l t', Takes step s us t l t' → FindsOutside reg t l) :
    s'.InAlarm (numericCode reg) ↔
      ∀ severity ∈ s.desk.sm.raisedAs (numericCode reg), severity = .alarm := by
  have hs : s.desk.sm.NumericDerived ∧ Told (numericCode reg) s := by
    refine run_invariant_of_takes hls
      (I := fun s => s.desk.sm.NumericDerived ∧ Told (numericCode reg) s)
      (C := fun t l _ => OwnsCode reg t l) (fun t l t' ht => howns t l t' (ht.append_right _))
      ⟨numericDerived_init m now, told_start hdb⟩ fun t l t' hI ho hstep => ?_
    exact ⟨numericDerived_step hI.1 hstep, hI.2.step hI.1 ho hstep⟩
  obtain ⟨⟨-, ht⟩, -, raised, hraised, -, hdue⟩ := run_outside hs.1 hs.2
    (fun t l t' h => ⟨howns t l t' (h.append_left hls), hout t l t' h⟩) hus
  rw [ht.inAlarm_iff, hraised, hdue hlen]
  cases s.desk.sm.raisedAs (numericCode reg) with
  | none => simp
  | some severity => simp

def bandedRegister : RegisterDef :=
  { RegisterDef.plain "oil" with warnRange := some (10, 20), alarmRange := some (5, 40) }

def bandedMap : RegisterMap :=
  { RegisterMap.bare with
    registers := [.plain "engine", bandedRegister]
    engineStateBits := [⟨.running, "engine", 1⟩]
    numericAlarmsEnabled := true }

def oilUpdates (now oil : ℚ) : List ReloadLabel :=
  [.update (quietEnv now) (oilReading oil) .poller,
    .update (quietEnv (now + 1)) (oilReading oil) .poller,
    .update (quietEnv (now + 2)) (oilReading oil) .poller]

/-- The oil pressure leaves both bands at once. -/
theorem sudden_drop_in_alarm :
    ∃ s, run step (start bandedMap .empty 0) (oilUpdates 1 50) = some s ∧
      s.InAlarm (numericCode bandedRegister) := by
  have htest : ∀ t l t', Takes step (start bandedMap .empty 0) (oilUpdates 1 50) t l t' →
      OwnsCode bandedRegister t l ∧ FindsOutside bandedRegister t l := fun t l t' h =>
    of_decide_eq_true (h.test_of_everyStep
      (fun s l _ => OwnsCode bandedRegister s l ∧ FindsOutside bandedRegister s l)
      (by decide +kernel))
  obtain ⟨s, hs⟩ := Option.isSome_iff_exists.mp
    (show (run step (start bandedMap .empty 0) (oilUpdates 1 50)).isSome by decide +kernel)
  have hiff := numeric_severity_iff bandedMap .empty 0 bandedRegister [] (oilUpdates 1 50) _ s
    (by decide) (fun t l t' h => (htest t l t' h).1) rfl hs (by decide)
    fun t l t' h => (htest t l t' h).2
  exact ⟨s, hs, hiff.mpr fun severity h => by cases h⟩

/-- The oil pressure drifts through the warning band into the alarm band, and stays a warning. -/
theorem drift_stays_warning :
    ∃ s s', run step (start bandedMap .empty 0) (oilUpdates 1 30) = some s ∧
      run step s (oilUpdates 4 50) = some s' ∧
      (∀ t l t', Takes step s (oilUpdates 4 50) t l t' → FindsOutside bandedRegister t l) ∧
      s'.desk.db.severityOf (numericCode bandedRegister) = some .warn ∧
      ¬s'.InAlarm (numericCode bandedRegister) := by
  have htest : (run step (start bandedMap .empty 0) (oilUpdates 1 30)).any (fun s =>
      everyStep step s (oilUpdates 4 50) (fun t l _ => FindsOutside bandedRegister t l) &&
        (run step s (oilUpdates 4 50)).any fun s' =>
          s'.desk.db.severityOf (numericCode bandedRegister) = some .warn) := by
    decide +kernel
  obtain ⟨s, hs, htest⟩ := Option.any_eq_true _ _ |>.mp htest
  obtain ⟨hevery, htest⟩ := Bool.and_eq_true _ _ |>.mp htest
  obtain ⟨s', hs', hwarn⟩ := Option.any_eq_true _ _ |>.mp htest
  refine ⟨s, s', hs, hs', fun t l t' h => of_decide_eq_true (h.test_of_everyStep _ hevery),
    of_decide_eq_true hwarn, ?_⟩
  rintro ⟨⟨row, hrow, hseverity⟩, -⟩
  have hwarn := of_decide_eq_true hwarn
  rw [Database.severityOf, hrow, Option.map_some, hseverity] at hwarn
  cases hwarn

end AlarmHistory

end GenWatch
