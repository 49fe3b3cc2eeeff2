import Mathlib.Data.Set.Basic
import Mathlib.Tactic.Tauto

/-! # Ledgers of raised conditions

A ledger follows conditions by name: which ones have a row in a persistent table,
which ones were raised in the current session, and which ones are on display. An
observation reports the conditions that are set and, among them, the effective
ones. A condition that becomes effective without being on display is raised; one
raised in this session is withdrawn when it is no longer set.
-/

namespace GenWatch

variable {κ : Type*}

@[ext]
structure Ledger (κ : Type*) where
  rows : Set κ
  raised : Set κ
  shown : Set κ

namespace Ledger

variable (L : Ledger κ) (eff raw : Set κ) {k : κ}

/-- The ledger after an observation of the set and the effective conditions. -/
def observe : Ledger κ where
  rows := (L.rows \ (L.raised \ raw)) ∪ (eff \ L.shown)
  raised := (L.raised ∩ raw) ∪ (eff \ L.shown)
  shown := eff

/-- The conditions whose raise an observation reports: those that had no row. -/
def announced : Set κ := (eff \ L.shown) \ L.rows

/-- The conditions whose withdrawal an observation reports: those that had a row. -/
def withdrawn : Set κ := (L.raised \ raw) ∩ L.rows

/-- The part of the ledger about the conditions in `K`. -/
def restrict (K : Set κ) : Ledger κ := ⟨L.rows ∩ K, L.raised ∩ K, L.shown ∩ K⟩

/-- A condition that is neither in the table nor on display. -/
def Quiet (k : κ) : Prop := k ∉ L.rows ∧ k ∉ L.shown

variable {L eff raw}

theorem restrict_observe (K : Set κ) :
    (L.observe eff raw).restrict K = (L.restrict K).observe (eff ∩ K) raw := by
  refine Ledger.ext ?_ ?_ rfl <;> ext k <;>
    simp only [restrict, observe, Set.mem_inter_iff, Set.mem_union, Set.mem_sdiff] <;> tauto

theorem announced_restrict (K : Set κ) :
    (L.restrict K).announced (eff ∩ K) = L.announced eff ∩ K := by
  ext k
  simp only [restrict, announced, Set.mem_inter_iff, Set.mem_sdiff]
  tauto

theorem withdrawn_restrict (K : Set κ) : (L.restrict K).withdrawn raw = L.withdrawn raw ∩ K := by
  ext k
  simp only [restrict, withdrawn, Set.mem_inter_iff, Set.mem_sdiff]
  tauto

theorem observe_rows_subset_raised (h : L.rows ⊆ L.raised) :
    (L.observe eff raw).rows ⊆ (L.observe eff raw).raised := by
  rintro k (⟨hk, hn⟩ | hk)
  · by_cases hraw : k ∈ raw
    · exact Or.inl ⟨h hk, hraw⟩
    · exact absurd ⟨h hk, hraw⟩ hn
  · exact Or.inr hk

/-- Every row belongs to this session, every raise of the session has its row, and so has every
condition on display. -/
structure Closed (L : Ledger κ) : Prop where
  rows : L.rows = L.raised
  shown : L.shown ⊆ L.rows

theorem Closed.observe (h : L.Closed) (heff : eff ⊆ raw) : (L.observe eff raw).Closed := by
  have hrows : (L.observe eff raw).rows = (L.observe eff raw).raised := by
    ext k
    simp only [Ledger.observe, Set.mem_union, Set.mem_sdiff, Set.mem_inter_iff, h.rows]
    tauto
  refine ⟨hrows, fun k hk => ?_⟩
  rw [hrows]
  by_cases hs : k ∈ L.shown
  · exact Or.inl ⟨h.rows ▸ h.shown hs, heff hk⟩
  · exact Or.inr ⟨hk, hs⟩

theorem Closed.withdrawn (h : L.Closed) : L.withdrawn raw = L.rows \ raw := by
  ext k
  simp only [Ledger.withdrawn, Set.mem_inter_iff, Set.mem_sdiff, h.rows]
  tauto

theorem unset_row_iff (heff : eff ⊆ raw) (hk : k ∉ raw) :
    k ∈ (L.observe eff raw).rows ↔ k ∈ L.rows ∧ k ∉ L.raised := by
  constructor
  · rintro (⟨hr, hn⟩ | ⟨he, -⟩)
    · exact ⟨hr, fun h => hn ⟨h, hk⟩⟩
    · exact absurd (heff he) hk
  · rintro ⟨hr, hn⟩
    exact Or.inl ⟨hr, fun h => hn h.1⟩

theorem quiet_of_unset (heff : eff ⊆ raw) (hk : k ∉ raw) (hr : k ∈ L.rows → k ∈ L.raised) :
    (L.observe eff raw).Quiet k :=
  ⟨fun h => ((unset_row_iff heff hk).mp h).2 (hr ((unset_row_iff heff hk).mp h).1),
    fun h => hk (heff h)⟩

theorem Quiet.of_not_effective (h : L.Quiet k) (hk : k ∉ eff) : (L.observe eff raw).Quiet k := by
  refine ⟨?_, hk⟩
  rintro (⟨hr, -⟩ | ⟨he, -⟩)
  · exact h.1 hr
  · exact hk he

theorem Quiet.mem_announced (h : L.Quiet k) (hk : k ∈ eff) : k ∈ L.announced eff :=
  ⟨⟨hk, h.2⟩, h.1⟩

/-- Once all rows belong to this session, table and display agree up to a mask exactly when every
effective condition on display still has its row and every set, unmasked one with a row is
effective. -/
theorem agree_iff {unmasked : Set κ} (heff : eff ⊆ raw) (hu : eff ⊆ unmasked)
    (hr : L.rows ⊆ L.raised) :
    (L.observe eff raw).shown = (L.observe eff raw).rows ∩ unmasked ↔
      eff ∩ L.shown ⊆ L.rows ∧ L.rows ∩ raw ∩ unmasked ⊆ eff := by
  have hrow : ∀ k, k ∈ (L.observe eff raw).rows ↔
      (k ∈ L.rows ∧ k ∈ raw) ∨ (k ∈ eff ∧ k ∉ L.shown) := by
    intro k
    simp only [observe, Set.mem_union, Set.mem_sdiff]
    have := @hr k
    tauto
  constructor
  · intro h
    refine ⟨fun k ⟨he, hs⟩ => ?_, fun k ⟨⟨hk, hraw⟩, hm⟩ => ?_⟩
    · have hk : k ∈ (L.observe eff raw).rows ∩ unmasked := h ▸ he
      exact (((hrow k).mp hk.1).resolve_right fun h => h.2 hs).1
    · have hk : k ∈ (L.observe eff raw).shown := h ▸ ⟨(hrow k).mpr (Or.inl ⟨hk, hraw⟩), hm⟩
      exact hk
  · rintro ⟨hrows, hdone⟩
    ext k
    constructor
    · intro he
      refine ⟨(hrow k).mpr ?_, hu he⟩
      by_cases hs : k ∈ L.shown
      · exact Or.inl ⟨hrows ⟨he, hs⟩, heff he⟩
      · exact Or.inr ⟨he, hs⟩
    · rintro ⟨hk, hm⟩
      rcases (hrow k).mp hk with ⟨hk, hraw⟩ | ⟨he, -⟩
      · exact hdone ⟨⟨hk, hraw⟩, hm⟩
      · exact he

end Ledger

end GenWatch
