import Mathlib.Logic.Basic
import Mathlib.Order.Basic

/-! # Reasoning about handlers that may be cut short

A handler is a computation in `EStateM`: a raised error keeps the state that had
been reached. A completed handler is inverted into the steps it took. A reflexive
and transitive relation between the states before and after, completed or not,
passes through sequencing and loops, which gives frame conditions; so does one
that is asked of completed executions only.
-/

namespace GenWatch.Handler

variable {ε σ α β : Type}

theorem bind_ok {x : EStateM ε σ α} {f : α → EStateM ε σ β} {s s'' : σ} {b : β} :
    (x >>= f).run s = .ok b s'' ↔ ∃ a s', x.run s = .ok a s' ∧ (f a).run s' = .ok b s'' := by
  rw [EStateM.run_bind]
  constructor
  · intro h
    cases hx : x.run s with
    | ok a s' =>
      rw [hx] at h
      exact ⟨a, s', rfl, h⟩
    | error e s' =>
      rw [hx] at h
      cases h
  · rintro ⟨a, s', hx, hf⟩
    rw [hx]
    exact hf

theorem bind_run {x : EStateM ε σ α} {f : α → EStateM ε σ β} {s t : σ} {a : α}
    (h : x.run s = .ok a t) : (x >>= f).run s = (f a).run t := by
  rw [EStateM.run_bind, h]

theorem bind_error {x : EStateM ε σ α} {f : α → EStateM ε σ β} {s s' : σ} {e : ε}
    (h : x.run s = .error e s') : (x >>= f).run s = .error e s' := by
  rw [EStateM.run_bind, h]

theorem seq_ok {x : EStateM ε σ PUnit} {f : PUnit → EStateM ε σ β} {s s'' : σ} {b : β} :
    (x >>= f).run s = .ok b s'' ↔
      ∃ s', x.run s = .ok PUnit.unit s' ∧ (f PUnit.unit).run s' = .ok b s'' :=
  bind_ok.trans ⟨fun ⟨_, s', h⟩ => ⟨s', h⟩, fun ⟨s', h⟩ => ⟨PUnit.unit, s', h⟩⟩

theorem pure_ok {a b : α} {s s' : σ} :
    (pure a : EStateM ε σ α).run s = .ok b s' ↔ a = b ∧ s = s' := by
  simp

theorem get_ok {a s s' : σ} : (get : EStateM ε σ σ).run s = .ok a s' ↔ s = a ∧ s = s' := by
  simp

theorem modify_ok {f : σ → σ} {s s' : σ} {u : PUnit} :
    (modify f : EStateM ε σ PUnit).run s = .ok u s' ↔ f s = s' := by
  simp

/-- The state in which an execution ends, completed or not. -/
def finalState : EStateM.Result ε σ α → σ
  | .ok _ s => s
  | .error _ s => s

def completed : EStateM.Result ε σ α → Bool
  | .ok _ _ => true
  | .error _ _ => false

/-- Every execution, completed or not, relates the state it started in to the state it ends in. -/
def Relates (R : σ → σ → Prop) (x : EStateM ε σ α) : Prop := ∀ s, R s (finalState (x.run s))

section Rules

variable {R : σ → σ → Prop} {x y : EStateM ε σ α} {g : α → EStateM ε σ β}

theorem Relates.ok (h : Relates R x) {s s' : σ} {a : α} (hx : x.run s = .ok a s') : R s s' := by
  have hs := h s
  rw [hx] at hs
  exact hs

theorem Relates.pure [Std.Refl R] (a : α) : Relates R (pure a : EStateM ε σ α) :=
  fun s => Std.Refl.refl s

theorem Relates.modify {f : σ → σ} (h : ∀ s, R s (f s)) :
    Relates R (modify f : EStateM ε σ PUnit) :=
  h

theorem Relates.bind [IsTrans σ R] (hx : Relates R x) (hg : ∀ a, Relates R (g a)) :
    Relates R (x >>= g) := by
  intro s
  have hs := hx s
  rw [EStateM.run_bind]
  cases h : x.run s with
  | ok a s' =>
    rw [h] at hs
    exact IsTrans.trans _ _ _ hs (hg a s')
  | error e s' =>
    rw [h] at hs
    exact hs

theorem Relates.ite {c : Prop} [Decidable c] (hx : c → Relates R x) (hy : ¬c → Relates R y) :
    Relates R (if c then x else y) := by
  split
  · exact hx ‹_›
  · exact hy ‹_›

theorem Relates.forM [Std.Refl R] [IsTrans σ R] {ι : Type} {l : List ι}
    {f : ι → EStateM ε σ PUnit} (hf : ∀ i ∈ l, Relates R (f i)) : Relates R (l.forM f) := by
  induction l with
  | nil => exact Relates.pure _
  | cons i l ih =>
    have hl : Relates R (l.forM f) := ih fun j hj => hf j (List.mem_cons_of_mem _ hj)
    exact Relates.bind (hf i List.mem_cons_self) fun _ => hl

end Rules

/-- Every completed execution relates the state it started in to the state it ends in. -/
def Ensures (R : σ → σ → Prop) (x : EStateM ε σ α) : Prop := ∀ s a s', x.run s = .ok a s' → R s s'

section Completed

variable {R : σ → σ → Prop} {x y : EStateM ε σ α} {g : α → EStateM ε σ β}

theorem Relates.ensures (h : Relates R x) : Ensures R x := fun _ _ _ hx => h.ok hx

theorem Ensures.pure [Std.Refl R] (a : α) : Ensures R (pure a : EStateM ε σ α) :=
  (Relates.pure a).ensures

theorem Ensures.bind [IsTrans σ R] (hx : Ensures R x) (hg : ∀ a, Ensures R (g a)) :
    Ensures R (x >>= g) := by
  intro s b s'' h
  obtain ⟨a, s', h₁, h₂⟩ := bind_ok.mp h
  exact IsTrans.trans _ _ _ (hx s a s' h₁) (hg a s' b s'' h₂)

theorem Ensures.ite {c : Prop} [Decidable c] (hx : c → Ensures R x) (hy : ¬c → Ensures R y) :
    Ensures R (if c then x else y) := by
  split
  · exact hx ‹_›
  · exact hy ‹_›

theorem Ensures.forM [Std.Refl R] [IsTrans σ R] {ι : Type} {l : List ι}
    {f : ι → EStateM ε σ PUnit} (hf : ∀ i ∈ l, Ensures R (f i)) : Ensures R (l.forM f) := by
  induction l with
  | nil => exact Ensures.pure _
  | cons i l ih =>
    have hl : Ensures R (l.forM f) := ih fun j hj => hf j (List.mem_cons_of_mem _ hj)
    exact Ensures.bind (hf i List.mem_cons_self) fun _ => hl

end Completed

section Loops

variable {ι : Type} {i : ι} {l : List ι} {f : ι → EStateM ε σ PUnit} {s s' : σ} {u : PUnit}

theorem forM_nil_ok : (List.forM [] f).run s = .ok u s' ↔ s = s' :=
  pure_ok.trans (by simp)

theorem forM_cons_ok :
    (List.forM (i :: l) f).run s = .ok u s' ↔
      ∃ t, (f i).run s = .ok PUnit.unit t ∧ (l.forM f).run t = .ok PUnit.unit s' :=
  seq_ok

end Loops

end GenWatch.Handler
