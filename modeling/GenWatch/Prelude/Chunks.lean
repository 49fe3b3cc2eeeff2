import GenWatch.Prelude.Table
import GenWatch.Prelude.Transition

/-! # Deletion in chunks, between inserts

A loop deletes matching rows of a table, a bounded number at a time, until a chunk comes
up short. Which of the matching rows a chunk takes is not known, and between two chunks
others insert rows that do not match. The loop ends, and has then deleted the rows that
matched at its start and no others.
-/

namespace GenWatch.Chunks

open Transition

variable {ρ κ : Type*} {key : ρ → κ}

/-- The keys of some matching rows: of all of them, if there are no more than the limit. -/
structure Selects (p : ρ → Bool) (limit : ℕ) (t : Table key) (keys : List κ) : Prop where
  nodup : keys.Nodup
  matching : ∀ k ∈ keys, ∃ r ∈ t.rows, key r = k ∧ p r = true
  length : keys.length = min limit (t.rows.countP p)

theorem selects_iff {p : ρ → Bool} {limit : ℕ} {t : Table key} {keys : List κ} :
    Selects p limit t keys ↔ keys.Nodup ∧ (∀ k ∈ keys, ∃ r ∈ t.rows, key r = k ∧ p r = true) ∧
      keys.length = min limit (t.rows.countP p) :=
  ⟨fun h => ⟨h.nodup, h.matching, h.length⟩, fun h => ⟨h.1, h.2.1, h.2.2⟩⟩

theorem exists_selects (p : ρ → Bool) (limit : ℕ) (t : Table key) :
    ∃ keys, Selects p limit t keys := by
  have hsub : ((t.rows.filter p).take limit).Sublist t.rows :=
    (List.take_sublist _ _).trans List.filter_sublist
  refine ⟨((t.rows.filter p).take limit).map key, t.nodup.sublist (hsub.map key), ?_, ?_⟩
  · intro k hk
    obtain ⟨r, hr, rfl⟩ := List.mem_map.mp hk
    obtain ⟨hmem, hp⟩ := List.mem_filter.mp (List.mem_of_mem_take hr)
    exact ⟨r, hmem, rfl, hp⟩
  · rw [List.length_map, List.length_take, List.countP_eq_length_filter]

theorem Selects.of_mem {p : ρ → Bool} {limit : ℕ} {t : Table key} {keys : List κ}
    (h : Selects p limit t keys) {r : ρ} (hr : r ∈ t.rows) (hk : key r ∈ keys) : p r = true := by
  obtain ⟨r', hr', he, hp⟩ := h.matching _ hk
  rwa [← List.inj_on_of_nodup_map t.nodup hr' hr he]

/-- The loop between two chunks: the table, the rows deleted so far, and whether it has returned. -/
structure State (key : ρ → κ) where
  table : Table key
  total : ℕ
  returned : Bool

/-- The loop deletes the selected rows of a chunk, or another writer inserts a row. -/
inductive Label (ρ κ : Type*) where
  | delete (keys : List κ)
  | insert (row : ρ)

def Label.isDelete : Label ρ κ → Bool
  | .delete _ => true
  | .insert _ => false

def Label.inserted : Label ρ κ → Option ρ
  | .delete _ => none
  | .insert row => some row

def start (t : Table key) : State key := ⟨t, 0, false⟩

/-- Between the chunks: the rows that do not match are those there were and those inserted, the rows
deleted and those still to be deleted make up the ones that matched at the start, and every chunk
but the last was full. -/
structure Pruned (p : ρ → Bool) (chunk : ℕ) (t : Table key) (ls : List (Label ρ κ))
    (s : State key) : Prop where
  kept : (s.table.rows.filter fun r => !p r) =
    (t.rows.filter fun r => !p r) ++ ls.filterMap Label.inserted
  counted : s.total + s.table.rows.countP p = t.rows.countP p
  chunks : ls.countP Label.isDelete = s.total / chunk + if s.returned then 1 else 0
  full : s.returned = false → chunk ∣ s.total
  none_left : s.returned = true → s.table.rows.countP p = 0

section Pruned

variable {p : ρ → Bool} {chunk : ℕ} {t : Table key} {ls : List (Label ρ κ)} {s : State key}

theorem pruned_start (p : ρ → Bool) (chunk : ℕ) (t : Table key) :
    Pruned p chunk t [] (start t) where
  kept := by simp [start]
  counted := by simp [start]
  chunks := by simp [start]
  full _ := ⟨0, rfl⟩
  none_left := by simp [start]

theorem Pruned.rows (h : Pruned p chunk t ls s) (hreturned : s.returned = true) :
    s.table.rows = (t.rows.filter fun r => !p r) ++ ls.filterMap Label.inserted := by
  rw [← h.kept, eq_comm, List.filter_eq_self]
  intro r hr
  simpa using List.countP_eq_zero.mp (h.none_left hreturned) r hr

theorem Pruned.total (h : Pruned p chunk t ls s) (hreturned : s.returned = true) :
    s.total = t.rows.countP p := by
  have hcounted := h.counted
  rwa [h.none_left hreturned, Nat.add_zero] at hcounted

theorem mem_inserted {r : ρ} : r ∈ ls.filterMap Label.inserted ↔ .insert r ∈ ls := by
  rw [List.mem_filterMap]
  constructor
  · rintro ⟨l, hl, he⟩
    cases l with
    | delete keys => cases he
    | insert row => rwa [← Option.some.inj he]
  · intro hl
    exact ⟨.insert r, hl, rfl⟩

theorem Pruned.mem_iff (h : Pruned p chunk t ls s) {r : ρ} (hr : p r = false) :
    r ∈ s.table.rows ↔ r ∈ t.rows ∨ .insert r ∈ ls := by
  have hmem : ∀ rows : List ρ, r ∈ rows.filter (fun r => !p r) ↔ r ∈ rows := by
    simp [hr]
  rw [← hmem s.table.rows, h.kept, List.mem_append, hmem, mem_inserted]

theorem Pruned.rows_of_uninterrupted (h : Pruned p chunk t ls s) (hreturned : s.returned = true)
    (hnone : ∀ row, .insert row ∉ ls) : s.table.rows = t.rows.filter fun r => !p r := by
  have hinserted : ls.filterMap Label.inserted = [] :=
    List.eq_nil_iff_forall_not_mem.mpr fun r hr => hnone r (mem_inserted.mp hr)
  rw [h.rows hreturned, hinserted, List.append_nil]

end Pruned

variable [DecidableEq κ]

instance (p : ρ → Bool) (limit : ℕ) (t : Table key) (keys : List κ) :
    Decidable (Selects p limit t keys) :=
  decidable_of_iff' _ selects_iff

variable (p : ρ → Bool) (chunk : ℕ)

def step (s : State key) : Label ρ κ → Option (State key)
  | .delete keys =>
    if s.returned = false ∧ Selects p chunk s.table keys then
      let n := s.table.rows.countP fun r => key r ∈ keys
      some ⟨s.table.deleteWhere fun r => key r ∈ keys, s.total + n, n < chunk⟩
    else none
  | .insert row =>
    if key row ∉ s.table.keys then some { s with table := s.table.insertIgnore row } else none

section Select

variable {p : ρ → Bool} {limit : ℕ} {t : Table key} {keys : List κ}

theorem Selects.countP_mem (h : Selects p limit t keys) :
    (t.rows.countP fun r => key r ∈ keys) = min limit (t.rows.countP p) := by
  rw [← h.length, List.countP_eq_length_filter, ← List.length_map key]
  have hnodup : ((t.rows.filter fun r => key r ∈ keys).map key).Nodup :=
    t.nodup.sublist (List.filter_sublist.map key)
  refine ((List.perm_ext_iff_of_nodup hnodup h.nodup).mpr fun k => ?_).length_eq
  simp only [List.mem_map, List.mem_filter, decide_eq_true_eq]
  constructor
  · rintro ⟨r, ⟨-, hk⟩, rfl⟩
    exact hk
  · intro hk
    obtain ⟨r, hr, rfl, -⟩ := h.matching k hk
    exact ⟨r, ⟨hr, hk⟩, rfl⟩

theorem Selects.filter_deleteWhere (h : Selects p limit t keys) :
    ((t.deleteWhere fun r => key r ∈ keys).rows.filter fun r => !p r) =
      t.rows.filter fun r => !p r := by
  rw [Table.deleteWhere, List.filter_filter]
  refine List.filter_congr fun r hr => ?_
  cases hp : p r with
  | true => rfl
  | false =>
    have hk : key r ∉ keys := fun hk => by simp [h.of_mem hr hk] at hp
    simp [hk]

theorem Selects.countP_deleteWhere (h : Selects p limit t keys) :
    (t.rows.countP fun r => key r ∈ keys) +
      (t.deleteWhere fun r => key r ∈ keys).rows.countP p = t.rows.countP p := by
  rw [List.countP_eq_countP_filter_add t.rows p fun r => key r ∈ keys]
  congr 1
  rw [List.countP_filter]
  refine List.countP_congr fun r hr => ?_
  simp only [decide_eq_true_eq, Bool.and_eq_true]
  exact ⟨fun hk => ⟨h.of_mem hr hk, hk⟩, And.right⟩

end Select

section Steps

variable {p : ρ → Bool} {chunk : ℕ} {t : Table key} {ls : List (Label ρ κ)} {s s' : State key}

theorem step_delete {keys : List κ} (h : step p chunk s (.delete keys) = some s') :
    s.returned = false ∧ Selects p chunk s.table keys ∧
      s' = ⟨s.table.deleteWhere fun r => key r ∈ keys,
        s.total + min chunk (s.table.rows.countP p),
        min chunk (s.table.rows.countP p) < chunk⟩ := by
  simp only [step] at h
  split at h
  · rename_i hok
    refine ⟨hok.1, hok.2, ?_⟩
    rw [hok.2.countP_mem] at h
    exact (Option.some.inj h).symm
  · cases h

theorem step_insert {row : ρ} (h : step p chunk s (.insert row) = some s') :
    s'.table.rows = s.table.rows ++ [row] ∧ s'.total = s.total ∧ s'.returned = s.returned := by
  simp only [step] at h
  split at h
  · rename_i hnew
    obtain rfl := Option.some.inj h
    refine ⟨?_, rfl, rfl⟩
    rw [Table.insertIgnore, dif_neg hnew]
  · cases h

theorem Pruned.delete (h : Pruned p chunk t ls s) (hchunk : 0 < chunk) {keys : List κ}
    (hs : step p chunk s (.delete keys) = some s') :
    Pruned p chunk t (ls ++ [.delete keys]) s' := by
  obtain ⟨hreturned, hselects, rfl⟩ := step_delete hs
  have hcount := hselects.countP_deleteWhere
  rw [hselects.countP_mem] at hcount
  obtain ⟨k, hk⟩ := h.full hreturned
  have hchunks : ls.countP Label.isDelete = k := by
    rw [h.chunks, hreturned, hk, Nat.mul_div_cancel_left k hchunk]
    rfl
  constructor
  · rw [hselects.filter_deleteWhere, h.kept, List.filterMap_append]
    simp [Label.inserted]
  · have := h.counted
    dsimp only
    omega
  · rw [List.countP_append, hchunks, hk]
    dsimp only
    by_cases hshort : min chunk (s.table.rows.countP p) < chunk
    · rw [Nat.mul_add_div hchunk, Nat.div_eq_of_lt hshort]
      simp [hshort, Label.isDelete]
    · rw [Nat.min_eq_left (by omega), Nat.mul_add_div hchunk, Nat.div_self hchunk]
      simp [Label.isDelete]
  · intro hlong
    have hge : ¬min chunk (s.table.rows.countP p) < chunk := of_decide_eq_false hlong
    rw [Nat.min_eq_left (by omega)]
    exact Nat.dvd_add (h.full hreturned) (Nat.dvd_refl chunk)
  · intro hshort
    have hlt : min chunk (s.table.rows.countP p) < chunk := of_decide_eq_true hshort
    dsimp only
    omega

theorem Pruned.insert (h : Pruned p chunk t ls s) {row : ρ} (hrow : p row = false)
    (hs : step p chunk s (.insert row) = some s') :
    Pruned p chunk t (ls ++ [.insert row]) s' := by
  obtain ⟨hrows, htotal, hreturned⟩ := step_insert hs
  have hcount : s'.table.rows.countP p = s.table.rows.countP p := by
    rw [hrows, List.countP_append]
    simp [hrow]
  constructor
  · rw [hrows, List.filter_append, h.kept, List.filterMap_append, List.append_assoc]
    simp [hrow, Label.inserted]
  · rw [htotal, hcount]
    exact h.counted
  · rw [htotal, hreturned, ← h.chunks, List.countP_append]
    simp [Label.isDelete]
  · rw [htotal, hreturned]
    exact h.full
  · rw [hcount, hreturned]
    exact h.none_left

/-- The invariant of the loop, whatever the chunks select and whatever is inserted between them. -/
theorem pruned_of_run (hchunk : 0 < chunk) (hins : ∀ row, .insert row ∈ ls → p row = false)
    (hrun : run (step p chunk) (start t) ls = some s) : Pruned p chunk t ls s := by
  induction ls using List.reverseRecOn generalizing s with
  | nil =>
    obtain rfl := Option.some.inj hrun
    exact pruned_start p chunk t
  | append_singleton ls l ih =>
    obtain ⟨u, hu, hs⟩ := run_snoc_iff.mp hrun
    have hpruned := ih (fun row hrow => hins row (List.mem_append_left _ hrow)) hu
    cases l with
    | delete keys => exact hpruned.delete hchunk hs
    | insert row => exact hpruned.insert (hins row (by simp)) hs

theorem exists_delete (h : s.returned = false) :
    ∃ keys s', step p chunk s (.delete keys) = some s' := by
  obtain ⟨keys, hselects⟩ := exists_selects p chunk s.table
  exact ⟨keys, _, if_pos ⟨h, hselects⟩⟩

end Steps

end GenWatch.Chunks
