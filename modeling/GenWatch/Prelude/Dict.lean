import Mathlib.Data.List.Forall2
import GenWatch.Prelude.Yaml

/-! # Dictionaries in order

A dictionary is a list of keys with their values. Setting a key keeps its place, or adds it
at the end; an update sets the keys of another dictionary one after the other. A document
laid over another one replaces its values, except that mappings are merged.
-/

namespace GenWatch

namespace Dict

variable {κ α : Type*} [DecidableEq κ]

def set : List (κ × α) → κ → α → List (κ × α)
  | [], k, v => [(k, v)]
  | e :: d, k, v => if e.1 = k then (k, v) :: d else e :: set d k v

def update (d patch : List (κ × α)) : List (κ × α) := patch.foldl (fun d e => set d e.1 e.2) d

variable {d patch : List (κ × α)} {j k : κ} {v : α}

theorem lookup_cons (e : κ × α) : (e :: d).lookup k = if k = e.1 then some e.2 else d.lookup k := by
  obtain ⟨key, value⟩ := e
  by_cases h : k = key
  · simp [h]
  · simp [List.lookup_cons, beq_eq_false_iff_ne.mpr h, h]

@[simp] theorem lookup_set : (set d k v).lookup j = if j = k then some v else d.lookup j := by
  induction d with
  | nil => simp [set, lookup_cons]
  | cons e d ih =>
    rw [set]
    split
    · rename_i he
      rw [lookup_cons, lookup_cons, he]
      by_cases h : j = k <;> simp [h]
    · rename_i he
      rw [lookup_cons, lookup_cons, ih]
      by_cases h : j = e.1
      · rw [if_pos h, if_pos h, if_neg (h ▸ he)]
      · rw [if_neg h, if_neg h]

theorem update_cons (e : κ × α) : update d (e :: patch) = update (set d e.1 e.2) patch := rfl

theorem lookup_update_of_not_mem (h : j ∉ patch.map Prod.fst) :
    (update d patch).lookup j = d.lookup j := by
  induction patch generalizing d with
  | nil => rfl
  | cons e patch ih =>
    rw [List.map_cons, List.mem_cons, not_or] at h
    rw [update_cons, ih h.2, lookup_set, if_neg h.1]

theorem lookup_update_of_mem (h : j ∈ patch.map Prod.fst) :
    ∃ v, (j, v) ∈ patch ∧ ∀ d : List (κ × α), (update d patch).lookup j = some v := by
  induction patch with
  | nil => cases h
  | cons e patch ih =>
    by_cases hlater : j ∈ patch.map Prod.fst
    · obtain ⟨v, hv, hlookup⟩ := ih hlater
      exact ⟨v, List.mem_cons_of_mem _ hv, fun d => hlookup _⟩
    · obtain rfl : j = e.1 := by
        rw [List.map_cons, List.mem_cons] at h
        exact h.resolve_right hlater
      refine ⟨e.2, List.mem_cons_self, fun d => ?_⟩
      rw [update_cons, lookup_update_of_not_mem hlater, lookup_set, if_pos rfl]

theorem lookup_eq_none (h : k ∉ d.map Prod.fst) : d.lookup k = none := by
  induction d with
  | nil => rfl
  | cons e d ih =>
    rw [List.map_cons, List.mem_cons, not_or] at h
    rw [lookup_cons, if_neg h.1, ih h.2]

section Reading

variable {β : Type*} {read : β → Option (κ × α)} {name : β → κ} {l : List β}

omit [DecidableEq κ] in
theorem mapM_isSome : (l.mapM read).isSome ↔ ∀ b ∈ l, (read b).isSome := by
  induction l with
  | nil => simp
  | cons b l ih =>
    rw [List.mapM_cons, List.forall_mem_cons, ← ih]
    cases read b <;> cases l.mapM read <;> simp

omit [DecidableEq κ] in
theorem keys_mapM (hname : ∀ b e, read b = some e → e.1 = name b) (h : l.mapM read = some d) :
    d.map Prod.fst = l.map name := by
  induction l generalizing d with
  | nil =>
    obtain rfl : [] = d := Option.some.inj h
    rfl
  | cons b l ih =>
    rw [List.mapM_cons] at h
    obtain ⟨e, he, h⟩ := Option.bind_eq_some_iff.mp h
    obtain ⟨d, hd, h⟩ := Option.bind_eq_some_iff.mp h
    obtain rfl := Option.some.inj h
    rw [List.map_cons, List.map_cons, ih hd, hname b e he]

theorem lookup_mapM (hname : ∀ b e, read b = some e → e.1 = name b) (h : l.mapM read = some d)
    (hnodup : (l.map name).Nodup) {b : β} (hb : b ∈ l) :
    d.lookup (name b) = (read b).map Prod.snd := by
  induction l generalizing d with
  | nil => cases hb
  | cons c l ih =>
    rw [List.mapM_cons] at h
    obtain ⟨e, he, h⟩ := Option.bind_eq_some_iff.mp h
    obtain ⟨d, hd, h⟩ := Option.bind_eq_some_iff.mp h
    obtain rfl := Option.some.inj h
    obtain ⟨hnew, hnodup⟩ := List.nodup_cons.mp hnodup
    rw [lookup_cons, hname c e he]
    rcases List.mem_cons.mp hb with rfl | hb
    · rw [if_pos rfl, he, Option.map_some]
    · have hne : name b ≠ name c := fun heq => hnew (heq ▸ List.mem_map_of_mem hb)
      rw [if_neg hne, ih hd hnodup hb]

end Reading

section Raising

variable {ε α β γ : Type} {f : α → Except ε β} {g : β → Except ε γ} {l : List α} {ys : List β}
  {zs : List γ}

theorem mapM_cons_eq_ok {a : α} : (a :: l).mapM f = .ok ys ↔
    ∃ y rest, f a = .ok y ∧ l.mapM f = .ok rest ∧ ys = y :: rest := by
  rw [List.mapM_cons]
  cases f a with
  | error e => simp [bind, Except.bind]
  | ok y => cases l.mapM f <;> simp [bind, Except.bind, pure, Except.pure, eq_comm]

theorem mapM_eq_ok : l.mapM f = .ok ys ↔ List.Forall₂ (fun a y => f a = .ok y) l ys := by
  induction l generalizing ys with
  | nil =>
    rw [List.forall₂_nil_left_iff]
    exact ⟨fun h => (Except.ok.inj h).symm, fun h => h ▸ rfl⟩
  | cons a l ih => simp only [mapM_cons_eq_ok, List.forall₂_cons_left_iff, ih]

theorem exists_mapM_ok : (∃ ys, l.mapM f = .ok ys) ↔ ∀ a ∈ l, ∃ y, f a = .ok y := by
  induction l with
  | nil => simp [pure, Except.pure]
  | cons a l ih =>
    simp only [mapM_cons_eq_ok, List.forall_mem_cons, ← ih]
    constructor
    · rintro ⟨_, y, rest, hy, hrest, -⟩
      exact ⟨⟨y, hy⟩, rest, hrest⟩
    · rintro ⟨⟨y, hy⟩, rest, hrest⟩
      exact ⟨_, y, rest, hy, hrest, rfl⟩

theorem mapM_error {e : ε} (h : l.mapM f = .error e) : ∃ a ∈ l, f a = .error e := by
  induction l with
  | nil => cases h
  | cons a l ih =>
    rw [List.mapM_cons] at h
    cases ha : f a with
    | error e' =>
      rw [ha] at h
      cases h
      exact ⟨a, List.mem_cons_self, ha⟩
    | ok y =>
      rw [ha, ok_bind] at h
      cases hl : l.mapM f with
      | error e' =>
        rw [hl] at h
        cases h
        obtain ⟨a', ha', he⟩ := ih hl
        exact ⟨a', List.mem_cons_of_mem _ ha', he⟩
      | ok rest =>
        rw [hl] at h
        cases h

section Transfer

variable {p : α → Prop} {q : β → Prop} {P : α → α → Prop} {Q : β → β → Prop}

theorem forall_mem_iff_of_mapM (hpq : ∀ a b, f a = .ok b → (p a ↔ q b)) (h : l.mapM f = .ok ys) :
    (∀ a ∈ l, p a) ↔ ∀ b ∈ ys, q b := by
  induction l generalizing ys with
  | nil =>
    obtain rfl := Except.ok.inj h
    simp
  | cons a l ih =>
    obtain ⟨y, rest, hy, hrest, rfl⟩ := mapM_cons_eq_ok.mp h
    rw [List.forall_mem_cons, List.forall_mem_cons, hpq a y hy, ih hrest]

theorem pairwise_iff_of_mapM
    (hPQ : ∀ a b a' b', f a = .ok b → f a' = .ok b' → (P a a' ↔ Q b b'))
    (h : l.mapM f = .ok ys) : l.Pairwise P ↔ ys.Pairwise Q := by
  induction l generalizing ys with
  | nil =>
    obtain rfl := Except.ok.inj h
    simp
  | cons a l ih =>
    obtain ⟨y, rest, hy, hrest, rfl⟩ := mapM_cons_eq_ok.mp h
    rw [List.pairwise_cons, List.pairwise_cons, ih hrest,
      forall_mem_iff_of_mapM (fun a' b' => hPQ a y a' b' hy) hrest]

end Transfer

theorem mapM_bind_of_ok (h : l.mapM f = .ok ys) : (l.mapM fun a => f a >>= g) = ys.mapM g := by
  induction l generalizing ys with
  | nil =>
    obtain rfl := Except.ok.inj h
    rfl
  | cons a l ih =>
    obtain ⟨y, rest, hy, hrest, rfl⟩ := mapM_cons_eq_ok.mp h
    rw [List.mapM_cons, List.mapM_cons, ih hrest, hy]
    rfl

theorem mapM_of_bind (h : (l.mapM fun a => f a >>= g) = .ok zs) : ∃ ys, l.mapM f = .ok ys := by
  induction l generalizing zs with
  | nil => exact ⟨[], rfl⟩
  | cons a l ih =>
    obtain ⟨z, rest, hz, hrest, -⟩ := mapM_cons_eq_ok.mp h
    obtain ⟨ys, hys⟩ := ih hrest
    cases ha : f a with
    | error e =>
      rw [ha] at hz
      cases hz
    | ok y => exact ⟨y :: ys, mapM_cons_eq_ok.mpr ⟨y, ys, ha, hys, rfl⟩⟩

end Raising

end Dict

namespace Yaml

mutual

/-- The second document laid over the first. -/
def deepUpdate : Yaml → Yaml → Yaml
  | .map base, .map top =>
    .map (deepEntries base top ++ top.filter fun e => (base.lookup e.1).isNone)
  | _, top => top

def deepEntries : List (String × Yaml) → List (String × Yaml) → List (String × Yaml)
  | [], _ => []
  | (k, v) :: base, top =>
    (k, match top.lookup k with
      | some o => v.deepUpdate o
      | none => v) :: deepEntries base top

end

def deepMerge (base top : List (String × Yaml)) : List (String × Yaml) :=
  deepEntries base top ++ top.filter fun e => (base.lookup e.1).isNone

/-- What two layers make of a value that either may have. -/
def overlay : Option Yaml → Option Yaml → Option Yaml
  | b, none => b
  | none, some o => some o
  | some b, some o => some (b.deepUpdate o)

variable {base top : List (String × Yaml)} {k : String}

theorem lookup_deepEntries :
    (deepEntries base top).lookup k =
      (base.lookup k).bind fun v => overlay (some v) (top.lookup k) := by
  induction base with
  | nil => rfl
  | cons e base ih =>
    obtain ⟨j, v⟩ := e
    rw [deepEntries, Dict.lookup_cons, Dict.lookup_cons, ih]
    by_cases h : k = j
    · subst h
      cases top.lookup k <;> simp [overlay]
    · simp [h]

theorem lookup_filter_new (h : base.lookup k = none) :
    (top.filter fun e => (base.lookup e.1).isNone).lookup k = top.lookup k := by
  induction top with
  | nil => rfl
  | cons e top ih =>
    rw [List.filter_cons, Dict.lookup_cons]
    split
    · rw [Dict.lookup_cons, ih]
    · rename_i hold
      have hne : k ≠ e.1 := by
        rintro rfl
        rw [h] at hold
        exact hold rfl
      rw [ih, if_neg hne]

/-- Layers are looked up key by key. -/
theorem lookup_deepMerge :
    (deepMerge base top).lookup k = overlay (base.lookup k) (top.lookup k) := by
  rw [deepMerge, List.lookup_append, lookup_deepEntries]
  cases h : base.lookup k with
  | some v => cases top.lookup k <;> rfl
  | none =>
    rw [lookup_filter_new h]
    cases top.lookup k <;> rfl

end Yaml

end GenWatch
