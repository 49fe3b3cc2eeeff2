import Mathlib.Data.List.Induction

/-! # Labelled transition systems

A system is a step function that may refuse a label. A run is a list of labels;
an invariant is proved once for a step and holds in every reachable state, and
a property of steps is stated over every step that a run takes.
-/

namespace GenWatch.Transition

variable {σ ℓ : Type*} (step : σ → ℓ → Option σ)

/-- The state a list of labels leads to, provided each label is enabled in turn. -/
def run (s : σ) : List ℓ → Option σ
  | [] => some s
  | l :: ls => (step s l).bind fun s' => run s' ls

/-- The states that some run leads to. -/
def Reachable (s₀ s : σ) : Prop := ∃ ls, run step s₀ ls = some s

/-- The run `ls` from `s₀` takes the step from `s` to `s'` under the label `l`. -/
def Takes (s₀ : σ) (ls : List ℓ) (s : σ) (l : ℓ) (s' : σ) : Prop :=
  ∃ pre post, ls = pre ++ l :: post ∧ run step s₀ pre = some s ∧ step s l = some s'

/-- The run `ls` can be taken, then the step under `l`, and that last step passes the test. -/
def lastStep (s₀ : σ) (ls : List ℓ) (l : ℓ) (test : σ → ℓ → σ → Bool) : Bool :=
  match run step s₀ ls with
  | none => false
  | some s =>
    match step s l with
    | none => false
    | some s' => test s l s'

variable {step} {s₀ s s' : σ} {l : ℓ} {ls ls' : List ℓ}

@[simp] theorem run_nil : run step s [] = some s := rfl

@[simp] theorem run_cons : run step s (l :: ls) = (step s l).bind fun s' => run step s' ls := rfl

theorem run_append : run step s (ls ++ ls') = (run step s ls).bind fun s' => run step s' ls' := by
  induction ls generalizing s with
  | nil => rfl
  | cons l ls ih =>
    simp only [List.cons_append, run_cons]
    cases step s l with
    | none => rfl
    | some t => exact ih

theorem run_snoc_iff :
    run step s (ls ++ [l]) = some s' ↔ ∃ t, run step s ls = some t ∧ step t l = some s' := by
  rw [run_append]
  simp [Option.bind_eq_some_iff]

theorem Reachable.refl : Reachable step s₀ s₀ := ⟨[], rfl⟩

theorem Reachable.tail (h : Reachable step s₀ s) (hs : step s l = some s') :
    Reachable step s₀ s' := by
  obtain ⟨ls, hr⟩ := h
  exact ⟨ls ++ [l], run_snoc_iff.mpr ⟨s, hr, hs⟩⟩

/-- What every step along a run preserves holds at its end. -/
theorem run_invariant {I : σ → Prop}
    (hstep : ∀ s l s', l ∈ ls → I s → step s l = some s' → I s')
    (h₀ : I s₀) (h : run step s₀ ls = some s) : I s := by
  induction ls using List.reverseRecOn generalizing s with
  | nil => exact Option.some.inj h ▸ h₀
  | append_singleton ls l ih =>
    obtain ⟨t, ht, hs⟩ := run_snoc_iff.mp h
    have hI : I t := ih (fun s l s' hl => hstep s l s' (List.mem_append_left _ hl)) ht
    exact hstep t l s (List.mem_append_right _ (List.mem_singleton_self l)) hI hs

theorem Reachable.invariant {I : σ → Prop} (h : Reachable step s₀ s) (h₀ : I s₀)
    (hstep : ∀ s l s', I s → step s l = some s' → I s') : I s := by
  obtain ⟨ls, hr⟩ := h
  exact run_invariant (fun s l s' _ => hstep s l s') h₀ hr

theorem Takes.reachable (h : Takes step s₀ ls s l s') : Reachable step s₀ s := by
  obtain ⟨pre, _, _, hr, _⟩ := h
  exact ⟨pre, hr⟩

theorem Takes.step_eq (h : Takes step s₀ ls s l s') : step s l = some s' := by
  obtain ⟨_, _, _, _, hs⟩ := h
  exact hs

theorem takes_head (hs : step s l = some s') : Takes step s (l :: ls) s l s' :=
  ⟨[], ls, rfl, rfl, hs⟩

theorem Takes.append_left {t u : σ} {k : ℓ} (hr : run step s₀ ls = some s)
    (h : Takes step s ls' t k u) : Takes step s₀ (ls ++ ls') t k u := by
  obtain ⟨pre, post, rfl, hpre, hs⟩ := h
  refine ⟨ls ++ pre, post, by rw [List.append_assoc], ?_, hs⟩
  rw [run_append, hr]
  exact hpre

theorem Takes.append_right (h : Takes step s₀ ls s l s') (ls' : List ℓ) :
    Takes step s₀ (ls ++ ls') s l s' := by
  obtain ⟨pre, post, rfl, hr, hs⟩ := h
  exact ⟨pre, post ++ ls', by rw [List.append_assoc, List.cons_append], hr, hs⟩

theorem Takes.cons {t u : σ} {k : ℓ} (hs : step s l = some s') (h : Takes step s' ls t k u) :
    Takes step s (l :: ls) t k u :=
  h.append_left (by rw [run_cons, hs]; rfl : run step s [l] = some s')

theorem Takes.rest {t : σ} (h : Takes step s₀ ls s l s') (hr : run step s₀ ls = some t) :
    ∃ post, run step s' post = some t := by
  obtain ⟨pre, post, rfl, hpre, hs⟩ := h
  rw [run_append, hpre, Option.bind_some, run_cons, hs] at hr
  exact ⟨post, hr⟩

theorem takes_snoc_iff {t u : σ} {k : ℓ} :
    Takes step s₀ (ls ++ [l]) t k u ↔
      Takes step s₀ ls t k u ∨ (k = l ∧ run step s₀ ls = some t ∧ step t l = some u) := by
  constructor
  · rintro ⟨pre, post, he, hr, hs⟩
    rcases List.eq_nil_or_concat post with rfl | ⟨post, x, rfl⟩
    · obtain ⟨rfl, hl⟩ := List.append_inj' he rfl
      obtain rfl : l = k := by simpa using hl
      exact Or.inr ⟨rfl, hr, hs⟩
    · left
      have he' : ls ++ [l] = (pre ++ k :: post) ++ [x] := by simpa using he
      obtain ⟨rfl, -⟩ := List.append_inj' he' rfl
      exact ⟨pre, post, rfl, hr, hs⟩
  · rintro (⟨pre, post, rfl, hr, hs⟩ | ⟨rfl, hr, hs⟩)
    · exact ⟨pre, post ++ [l], by simp, hr, hs⟩
    · exact ⟨ls, [], rfl, hr, hs⟩

/-- An invariant that is kept by the steps of a run holds at its end. -/
theorem run_invariant_of_takes {I : σ → Prop} {C : σ → ℓ → σ → Prop}
    (h : run step s₀ ls = some s) (hC : ∀ s l s', Takes step s₀ ls s l s' → C s l s') (h₀ : I s₀)
    (hstep : ∀ s l s', I s → C s l s' → step s l = some s' → I s') : I s := by
  induction ls using List.reverseRecOn generalizing s with
  | nil => exact Option.some.inj h ▸ h₀
  | append_singleton ls l ih =>
    obtain ⟨t, ht, hs⟩ := run_snoc_iff.mp h
    have hI : I t := ih ht fun s l s' htakes => hC s l s' (htakes.append_right _)
    exact hstep t l s hI (hC t l s ⟨ls, [], rfl, ht, hs⟩) hs

theorem Takes.invariant {I : σ → Prop} {C : σ → ℓ → σ → Prop} (h : Takes step s₀ ls s l s')
    (hC : ∀ s l s', Takes step s₀ ls s l s' → C s l s') (h₀ : I s₀)
    (hstep : ∀ s l s', I s → C s l s' → step s l = some s' → I s') : I s := by
  obtain ⟨pre, post, rfl, hr, -⟩ := h
  exact run_invariant_of_takes hr (fun s l s' htakes => hC s l s' (htakes.append_right _)) h₀ hstep

theorem run_congr {step' : σ → ℓ → Option σ} {I : σ → Prop}
    (hstep : ∀ s l s', I s → step s l = some s' → I s')
    (heq : ∀ s l, I s → step' s l = step s l) (h₀ : I s) : run step' s ls = run step s ls := by
  induction ls generalizing s with
  | nil => rfl
  | cons l ls ih =>
    rw [run_cons, run_cons, heq s l h₀]
    cases hs : step s l with
    | none => rfl
    | some s' => exact ih (hstep s l s' h₀ hs)

theorem takes_congr {step' : σ → ℓ → Option σ} {I : σ → Prop}
    (hstep : ∀ s l s', I s → step s l = some s' → I s')
    (heq : ∀ s l, I s → step' s l = step s l) (h₀ : I s₀) :
    Takes step' s₀ ls s l s' ↔ Takes step s₀ ls s l s' := by
  unfold Takes
  refine exists_congr fun pre => exists_congr fun post => and_congr_right fun _ => ?_
  rw [run_congr hstep heq h₀]
  refine and_congr_right fun hpre => ?_
  rw [heq s l (run_invariant (fun s l s' _ => hstep s l s') h₀ hpre)]

def everyStep (step : σ → ℓ → Option σ) (s : σ) (ls : List ℓ) (test : σ → ℓ → σ → Bool) : Bool :=
  match ls with
  | [] => true
  | l :: ls =>
    match step s l with
    | none => true
    | some s' => test s l s' && everyStep step s' ls test

/-- A test that evaluates to true on the whole run holds of every step it takes. -/
theorem Takes.test_of_everyStep (h : Takes step s₀ ls s l s') (test : σ → ℓ → σ → Bool)
    (he : everyStep step s₀ ls test = true) : test s l s' = true := by
  obtain ⟨pre, post, rfl, hr, hs⟩ := h
  induction pre generalizing s₀ with
  | nil =>
    obtain rfl := Option.some.inj hr
    simp only [List.nil_append, everyStep, hs, Bool.and_eq_true] at he
    exact he.1
  | cons k pre ih =>
    obtain ⟨t, ht, hr⟩ := Option.bind_eq_some_iff.mp hr
    simp only [List.cons_append, everyStep, ht, Bool.and_eq_true] at he
    exact ih he.2 hr

theorem takes_of_lastStep (step : σ → ℓ → Option σ) (s₀ : σ) (ls : List ℓ) (l : ℓ)
    (test : σ → ℓ → σ → Bool) (h : lastStep step s₀ ls l test = true) :
    ∃ s s', Takes step s₀ (ls ++ [l]) s l s' ∧ test s l s' = true := by
  unfold lastStep at h
  split at h
  · cases h
  rename_i s hr
  split at h
  · cases h
  rename_i s' hs
  exact ⟨s, s', ⟨ls, [], rfl, hr, hs⟩, h⟩

theorem append_eq_append_cons {α : Type*} {xs ys before after : List α} {a : α}
    (h : xs ++ ys = before ++ a :: after) :
    (∃ mid, xs = before ++ a :: mid ∧ after = mid ++ ys) ∨
      ∃ mid, ys = mid ++ a :: after ∧ before = xs ++ mid := by
  rcases List.append_eq_append_iff.mp h with ⟨mid, rfl, hys⟩ | ⟨mid, hxs, hafter⟩
  · exact Or.inr ⟨mid, hys, rfl⟩
  · rcases mid with _ | ⟨b, mid⟩
    · exact Or.inr ⟨[], hafter.symm, by simp [hxs]⟩
    · obtain ⟨rfl, rfl⟩ := List.cons.inj hafter
      exact Or.inl ⟨mid, hxs, rfl⟩

end GenWatch.Transition
