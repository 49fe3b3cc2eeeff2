import Mathlib.Data.List.Nodup
import Mathlib.Data.List.Dedup
import Mathlib.Data.List.Induction

/-! # Keyed tables

A table is a list of rows in which no two rows share a key. The operations are
those of a table with a primary key, or of a dictionary: insert unless the key is
present, insert or replace, and delete. Writing the groups of a `GROUP BY` back
into a table replaces exactly the keys that have a group.
-/

namespace GenWatch

variable {ρ κ α : Type*}

/-- Rows under a primary key. -/
@[ext]
structure Table (key : ρ → κ) where
  rows : List ρ
  nodup : (rows.map key).Nodup

namespace Table

variable {key : ρ → κ}

instance [DecidableEq ρ] : DecidableEq (Table key) := fun _ _ =>
  decidable_of_iff' _ Table.ext_iff

def keys (t : Table key) : List κ := t.rows.map key

def empty : Table key := ⟨[], List.nodup_nil⟩

instance : EmptyCollection (Table key) := ⟨empty⟩

@[simp] theorem rows_empty : (∅ : Table key).rows = [] := rfl

@[simp] theorem keys_empty : (∅ : Table key).keys = [] := rfl

theorem mem_keys {t : Table key} {k : κ} : k ∈ t.keys ↔ ∃ r ∈ t.rows, key r = k := by
  simp [keys]

def deleteWhere (t : Table key) (p : ρ → Bool) : Table key :=
  ⟨t.rows.filter fun r => !p r, t.nodup.sublist (List.filter_sublist.map key)⟩

@[simp] theorem mem_deleteWhere {t : Table key} {p : ρ → Bool} {r : ρ} :
    r ∈ (t.deleteWhere p).rows ↔ r ∈ t.rows ∧ p r = false := by
  simp [deleteWhere]

theorem perm_deleteWhere (t : Table key) (p : ρ → Bool) :
    t.keys.Perm ((t.rows.filter p).map key ++ (t.deleteWhere p).keys) := by
  have hperm := (List.filter_append_perm p t.rows).symm.map key
  rwa [List.map_append] at hperm

variable [DecidableEq κ]

def find? (t : Table key) (k : κ) : Option ρ := t.rows.find? fun r => key r = k

def insertIgnore (t : Table key) (r : ρ) : Table key :=
  if h : key r ∈ t.keys then t
  else ⟨t.rows ++ [r], by
    rw [List.map_append, List.map_singleton, ← List.concat_eq_append]
    exact t.nodup.concat h⟩

theorem map_replace_keys (l : List ρ) (r : ρ) :
    (l.map fun x => if key x = key r then r else x).map key = l.map key := by
  rw [List.map_map]
  refine List.map_congr_left fun x _ => ?_
  by_cases h : key x = key r <;> simp [h]

def insertReplace (t : Table key) (r : ρ) : Table key :=
  if h : key r ∈ t.keys then
    ⟨t.rows.map fun x => if key x = key r then r else x, by
      rw [map_replace_keys]; exact t.nodup⟩
  else ⟨t.rows ++ [r], by
    rw [List.map_append, List.map_singleton, ← List.concat_eq_append]
    exact t.nodup.concat h⟩

def delete (t : Table key) (k : κ) : Table key := t.deleteWhere fun r => key r = k

theorem find?_eq_none {t : Table key} {k : κ} : t.find? k = none ↔ k ∉ t.keys := by
  simp [find?, mem_keys]

theorem find?_eq_some {t : Table key} {k : κ} {r : ρ} :
    t.find? k = some r ↔ r ∈ t.rows ∧ key r = k := by
  have hsound : ∀ {x}, t.find? k = some x → x ∈ t.rows ∧ key x = k := fun h =>
    ⟨List.mem_of_find?_eq_some h, by simpa [find?] using List.find?_some h⟩
  refine ⟨hsound, fun ⟨hr, hk⟩ => ?_⟩
  cases hf : t.find? k with
  | none => exact absurd (mem_keys.mpr ⟨r, hr, hk⟩) (find?_eq_none.mp hf)
  | some x =>
    obtain ⟨hx, hkx⟩ := hsound hf
    rw [List.inj_on_of_nodup_map t.nodup hx hr (hkx.trans hk.symm)]

@[simp] theorem mem_keys_insertIgnore {t : Table key} {r : ρ} {k : κ} :
    k ∈ (t.insertIgnore r).keys ↔ k ∈ t.keys ∨ k = key r := by
  unfold insertIgnore
  split
  · rename_i h
    exact ⟨Or.inl, fun hk => hk.elim id fun he => he ▸ h⟩
  · simp [keys]

theorem mem_insertReplace {t : Table key} {r x : ρ} :
    x ∈ (t.insertReplace r).rows ↔ x = r ∨ (x ∈ t.rows ∧ key x ≠ key r) := by
  unfold insertReplace
  split
  · rename_i h
    obtain ⟨r₀, hr₀, hk⟩ := mem_keys.mp h
    simp only [List.mem_map]
    constructor
    · rintro ⟨y, hy, rfl⟩
      by_cases hyk : key y = key r
      · simp [hyk]
      · simp [hyk, hy]
    · rintro (rfl | ⟨hx, hne⟩)
      · exact ⟨r₀, hr₀, by simp [hk]⟩
      · exact ⟨x, hx, by simp [hne]⟩
  · rename_i h
    simp only [List.mem_append, List.mem_singleton]
    constructor
    · rintro (hx | rfl)
      · exact Or.inr ⟨hx, fun hk => h (mem_keys.mpr ⟨x, hx, hk⟩)⟩
      · exact Or.inl rfl
    · rintro (rfl | ⟨hx, -⟩)
      · exact Or.inr rfl
      · exact Or.inl hx

@[simp] theorem mem_keys_insertReplace {t : Table key} {r : ρ} {k : κ} :
    k ∈ (t.insertReplace r).keys ↔ k ∈ t.keys ∨ k = key r := by
  simp only [mem_keys, mem_insertReplace]
  constructor
  · rintro ⟨x, rfl | ⟨hx, -⟩, rfl⟩
    · exact Or.inr rfl
    · exact Or.inl ⟨x, hx, rfl⟩
  · rintro (⟨x, hx, rfl⟩ | rfl)
    · by_cases hk : key x = key r
      · exact ⟨r, Or.inl rfl, hk.symm⟩
      · exact ⟨x, Or.inr ⟨hx, hk⟩, rfl⟩
    · exact ⟨r, Or.inl rfl, rfl⟩

theorem find?_insertReplace {t : Table key} {r : ρ} {k : κ} :
    (t.insertReplace r).find? k = if k = key r then some r else t.find? k := by
  split
  · rename_i h
    exact find?_eq_some.mpr ⟨mem_insertReplace.mpr (Or.inl rfl), h.symm⟩
  · rename_i h
    cases hf : t.find? k with
    | none =>
      rw [find?_eq_none, mem_keys_insertReplace]
      rw [find?_eq_none] at hf
      exact fun hk => hk.elim hf h
    | some x =>
      obtain ⟨hx, rfl⟩ := find?_eq_some.mp hf
      exact find?_eq_some.mpr ⟨mem_insertReplace.mpr (Or.inr ⟨hx, h⟩), rfl⟩

@[simp] theorem mem_delete {t : Table key} {k : κ} {r : ρ} :
    r ∈ (t.delete k).rows ↔ r ∈ t.rows ∧ key r ≠ k := by
  simp [delete]

@[simp] theorem mem_keys_delete {t : Table key} {k j : κ} :
    j ∈ (t.delete k).keys ↔ j ∈ t.keys ∧ j ≠ k := by
  simp only [mem_keys, mem_delete]
  constructor
  · rintro ⟨r, ⟨hr, hne⟩, rfl⟩
    exact ⟨⟨r, hr, rfl⟩, hne⟩
  · rintro ⟨⟨r, hr, rfl⟩, hne⟩
    exact ⟨r, ⟨hr, hne⟩, rfl⟩

theorem find?_deleteWhere {t : Table key} {p : ρ → Bool} {k : κ} :
    (t.deleteWhere p).find? k = (t.find? k).filter fun r => !p r := by
  cases hf : t.find? k with
  | none =>
    rw [Option.filter_none, find?_eq_none]
    rw [find?_eq_none] at hf
    intro hk
    obtain ⟨r, hr, rfl⟩ := mem_keys.mp hk
    exact hf (mem_keys.mpr ⟨r, (mem_deleteWhere.mp hr).1, rfl⟩)
  | some r =>
    obtain ⟨hr, rfl⟩ := find?_eq_some.mp hf
    rw [Option.filter_some]
    cases hp : p r with
    | true =>
      rw [Bool.not_true, if_neg (by simp), find?_eq_none]
      intro hk
      obtain ⟨x, hx, hkey⟩ := mem_keys.mp hk
      rw [mem_deleteWhere] at hx
      rw [List.inj_on_of_nodup_map t.nodup hx.1 hr hkey, hp] at hx
      exact absurd hx.2 (by simp)
    | false =>
      rw [Bool.not_false, if_pos rfl]
      exact find?_eq_some.mpr ⟨mem_deleteWhere.mpr ⟨hr, hp⟩, rfl⟩

theorem find?_delete {t : Table key} {k j : κ} :
    (t.delete k).find? j = if j = k then none else t.find? j := by
  rw [delete, find?_deleteWhere]
  cases hf : t.find? j with
  | none => simp
  | some r =>
    obtain ⟨-, rfl⟩ := find?_eq_some.mp hf
    by_cases hk : key r = k <;> simp [Option.filter_some, hk]

theorem find?_insertIgnore {t : Table key} {r : ρ} {k : κ} :
    (t.insertIgnore r).find? k = (t.find? k).or (if k = key r then some r else none) := by
  by_cases hr : key r ∈ t.keys
  · rw [insertIgnore, dif_pos hr]
    by_cases hk : k = key r
    · subst hk
      obtain ⟨x, hx, he⟩ := mem_keys.mp hr
      rw [find?_eq_some.mpr ⟨hx, he⟩, Option.some_or]
    · rw [if_neg hk, Option.or_none]
  · rw [insertIgnore, dif_neg hr]
    show List.find? _ (t.rows ++ [r]) = _
    rw [List.find?_append]
    congr 1
    by_cases hk : k = key r
    · simp [hk]
    · simp [hk, Ne.symm hk]

theorem perm_delete {t : Table key} {r : ρ} (hr : r ∈ t.rows) :
    t.keys.Perm (key r :: (t.delete (key r)).keys) := by
  have hone : t.rows.filter (fun x => key x = key r) = [r] := by
    refine List.Perm.eq_singleton ((List.perm_ext_iff_of_nodup ?_ (List.nodup_singleton r)).mpr ?_)
    · exact (List.Nodup.of_map key t.nodup).filter _
    · intro x
      simp only [List.mem_filter, decide_eq_true_eq, List.mem_singleton]
      constructor
      · rintro ⟨hx, hk⟩
        exact List.inj_on_of_nodup_map t.nodup hx hr hk
      · rintro rfl
        exact ⟨hr, rfl⟩
  have hperm := t.perm_deleteWhere fun x => key x = key r
  rwa [hone] at hperm

theorem keys_insertReplace_of_not_mem {t : Table key} {r : ρ} (hr : key r ∉ t.keys) :
    (t.insertReplace r).keys = t.keys ++ [key r] := by
  rw [insertReplace, dif_neg hr]
  simp [keys]

theorem mem_keys_foldl_insertReplace {rows : List ρ} {k : κ} :
    k ∈ (rows.foldl insertReplace (∅ : Table key)).keys ↔ k ∈ rows.map key := by
  induction rows using List.reverseRecOn with
  | nil => simp
  | append_singleton rows x ih => simp [List.foldl_append, ih]

theorem rows_foldl_insertReplace {rows : List ρ} :
    (rows.foldl insertReplace (∅ : Table key)).rows = rows ↔ (rows.map key).Nodup := by
  constructor
  · intro h
    have hnodup := (rows.foldl insertReplace (∅ : Table key)).nodup
    rwa [h] at hnodup
  · intro h
    induction rows using List.reverseRecOn with
    | nil => rfl
    | append_singleton rows x ih =>
      rw [List.map_append, List.nodup_append] at h
      obtain ⟨hrows, -, hdisjoint⟩ := h
      have hnew : key x ∉ (rows.foldl insertReplace (∅ : Table key)).keys := by
        rw [mem_keys_foldl_insertReplace]
        exact fun hmem => hdisjoint _ hmem _ (by simp) rfl
      rw [List.foldl_append, List.foldl_cons, List.foldl_nil, insertReplace, dif_neg hnew]
      simp [ih hrows]

/-- Insert or replace one row for each bucket that occurs among `xs`. -/
def upsertGroups (t : Table key) (bucket : α → κ) (agg : κ → List α → ρ) (xs : List α) :
    Table key :=
  (xs.map bucket).dedup.foldl
    (fun t k => t.insertReplace (agg k (xs.filter fun x => bucket x = k))) t

theorem find?_foldl_insertReplace {f : κ → ρ} (hf : ∀ k, key (f k) = k) (ks : List κ)
    (t : Table key) (k : κ) :
    (ks.foldl (fun t k => t.insertReplace (f k)) t).find? k =
      if k ∈ ks then some (f k) else t.find? k := by
  induction ks generalizing t with
  | nil => simp
  | cons j ks ih =>
    rw [List.foldl_cons, ih, find?_insertReplace, hf]
    by_cases hk : k ∈ ks
    · simp [hk]
    · by_cases hj : k = j
      · subst hj; simp
      · simp [hk, hj]

theorem filter_insertReplace {t : Table key} {r : ρ} {p : κ → Bool} (hp : p (key r) = false) :
    (t.insertReplace r).rows.filter (fun x => p (key x)) =
      t.rows.filter fun x => p (key x) := by
  unfold insertReplace
  split
  · show List.filter _ (List.map _ _) = _
    have hkey : ∀ x, p (key (if key x = key r then r else x)) = p (key x) := fun x => by
      by_cases hx : key x = key r <;> simp [hx]
    rw [List.filter_map]
    simp only [Function.comp_def, hkey]
    refine (List.map_congr_left fun x hx => ?_).trans (List.map_id _)
    have hpx : p (key x) = true := (List.mem_filter.mp hx).2
    rw [if_neg (fun he => by rw [he, hp] at hpx; cases hpx), id]
  · show List.filter _ (t.rows ++ [r]) = _
    rw [List.filter_append, List.filter_cons_of_neg (by simp [hp]), List.filter_nil,
      List.append_nil]

theorem filter_upsertGroups {t : Table key} {bucket : α → κ} {agg : κ → List α → ρ}
    (hagg : ∀ k g, key (agg k g) = k) {xs : List α} {p : κ → Bool}
    (hp : ∀ x ∈ xs, p (bucket x) = false) :
    (t.upsertGroups bucket agg xs).rows.filter (fun x => p (key x)) =
      t.rows.filter fun x => p (key x) := by
  have hks : ∀ k ∈ (xs.map bucket).dedup, p k = false := by
    simpa using hp
  unfold upsertGroups
  generalize (xs.map bucket).dedup = ks at hks
  induction ks generalizing t with
  | nil => rfl
  | cons k ks ih =>
    rw [List.foldl_cons, ih fun j hj => hks j (List.mem_cons_of_mem k hj)]
    exact filter_insertReplace (by rw [hagg]; exact hks k List.mem_cons_self)

/-- A key that has a group holds the group's aggregate, and any other key is untouched. -/
theorem find?_upsertGroups {t : Table key} {bucket : α → κ} {agg : κ → List α → ρ}
    (hagg : ∀ k g, key (agg k g) = k) (xs : List α) (k : κ) :
    (t.upsertGroups bucket agg xs).find? k =
      if ∃ x ∈ xs, bucket x = k then some (agg k (xs.filter fun x => bucket x = k))
      else t.find? k := by
  rw [upsertGroups,
    find?_foldl_insertReplace (f := fun k => agg k (xs.filter fun x => bucket x = k))
      fun k => hagg k _]
  simp

theorem bucket_mem_keys_upsertGroups {t : Table key} {bucket : α → κ} {agg : κ → List α → ρ}
    (hagg : ∀ k g, key (agg k g) = k) {xs : List α} {x : α} (hx : x ∈ xs) :
    bucket x ∈ (t.upsertGroups bucket agg xs).keys := by
  by_contra hnot
  have hf := find?_eq_none.mpr hnot
  rw [find?_upsertGroups hagg, if_pos ⟨x, hx, rfl⟩] at hf
  cases hf

theorem mem_upsertGroups {t : Table key} {bucket : α → κ} {agg : κ → List α → ρ}
    (hagg : ∀ k g, key (agg k g) = k) {xs : List α} {r : ρ}
    (hr : r ∈ (t.upsertGroups bucket agg xs).rows) :
    r ∈ t.rows ∨ ∃ x ∈ xs, r = agg (bucket x) (xs.filter fun y => bucket y = bucket x) := by
  have hf := find?_eq_some.mpr ⟨hr, rfl⟩
  rw [find?_upsertGroups hagg] at hf
  split at hf
  · rename_i hx
    obtain ⟨x, hx, hk⟩ := hx
    rw [← hk] at hf
    exact Or.inr ⟨x, hx, (Option.some.inj hf).symm⟩
  · exact Or.inl (find?_eq_some.mp hf).1

theorem perm_filter_upsertGroups {t : Table key} {bucket : α → κ} {agg : κ → List α → ρ}
    (hagg : ∀ k g, key (agg k g) = k) {p : κ → Bool} (ht : ∀ r ∈ t.rows, p (key r) = false)
    (xs : List α) :
    ((t.upsertGroups bucket agg xs).rows.filter fun r => p (key r)).Perm
      (((xs.filter fun x => p (bucket x)).map bucket).dedup.map fun k =>
        agg k (xs.filter fun x => bucket x = k)) := by
  have hnodup := (List.Nodup.of_map key (t.upsertGroups bucket agg xs).nodup).filter
    fun r => p (key r)
  refine (List.perm_ext_iff_of_nodup hnodup ?_).mpr fun r => ?_
  · refine (List.nodup_dedup _).map fun k j hkj => ?_
    rw [← hagg k (xs.filter fun x => bucket x = k), hkj, hagg]
  simp only [List.mem_filter, List.mem_map, List.mem_dedup]
  constructor
  · rintro ⟨hr, hp⟩
    rcases mem_upsertGroups hagg hr with hr | ⟨x, hx, rfl⟩
    · rw [ht r hr] at hp
      cases hp
    · rw [hagg] at hp
      exact ⟨bucket x, ⟨x, ⟨hx, hp⟩, rfl⟩, rfl⟩
  · rintro ⟨k, ⟨x, ⟨hx, hp⟩, rfl⟩, rfl⟩
    have hf : (t.upsertGroups bucket agg xs).find? (bucket x) = _ :=
      find?_upsertGroups hagg xs (bucket x)
    rw [if_pos ⟨x, hx, rfl⟩] at hf
    exact ⟨(find?_eq_some.mp hf).1, by rwa [hagg]⟩

end Table

/-! ### Loops that act on one key at a time

Each round of a loop changes the entry under its own key, from that entry alone. When no
two rounds share a key, the loop acts once on each key and leaves the others alone.
-/

namespace Keyed

variable {σ ρ κ β : Type*} [DecidableEq κ]

/-- A round acts on the entry under its key, and on no other. -/
def Acts (view : σ → κ → β) (key : ρ → κ) (act : ρ → β → β) (f : σ → ρ → σ) : Prop :=
  ∀ s r k, view (f s r) k = if k = key r then act r (view s k) else view s k

variable {view : σ → κ → β} {key : ρ → κ} {act : ρ → β → β} {f : σ → ρ → σ} {rs : List ρ}

theorem Acts.foldl_of_not_mem (h : Acts view key act f) {k : κ} (hk : k ∉ rs.map key) (s : σ) :
    view (rs.foldl f s) k = view s k := by
  induction rs generalizing s with
  | nil => rfl
  | cons r rs ih =>
    rw [List.map_cons, List.mem_cons, not_or] at hk
    rw [List.foldl_cons, ih hk.2, h, if_neg hk.1]

theorem Acts.foldl_of_mem (h : Acts view key act f) (hnodup : (rs.map key).Nodup) {r : ρ}
    (hr : r ∈ rs) (s : σ) : view (rs.foldl f s) (key r) = act r (view s (key r)) := by
  induction rs generalizing s with
  | nil => cases hr
  | cons r₀ rs ih =>
    obtain ⟨hnot, hnodup⟩ := List.nodup_cons.mp hnodup
    rw [List.foldl_cons]
    rcases List.mem_cons.mp hr with rfl | hr
    · rw [h.foldl_of_not_mem hnot, h, if_pos rfl]
    · have hne : key r ≠ key r₀ := by
        intro he
        exact hnot (he ▸ List.mem_map_of_mem hr)
      rw [ih hnodup hr, h, if_neg hne]

end Keyed

end GenWatch
