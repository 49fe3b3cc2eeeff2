import GenWatch.Prelude.Table
import GenWatch.Modbus.Poller
import GenWatch.Modbus.Validation

/-! # What a poll makes of a reading

A finished poll acts on each register of its tier by itself: a decoded register gets its
value and the age zero, any other keeps what it had until that has grown stale. Names
outside the tier are left alone.
-/

namespace GenWatch

open Keyed

namespace Reading

/-- The value under a name with the time of its last decode. -/
def entry (r : Reading) (name : String) : Option ℚ × Option ℚ := (r.values name, r.valueAges name)

def stampEntry (decoded : Option ℚ) (mono : ℚ) (e : Option ℚ × Option ℚ) : Option ℚ × Option ℚ :=
  match decoded with
  | some v => (some v, some mono)
  | none => e

def evictEntry (threshold mono : ℚ) (e : Option ℚ × Option ℚ) : Option ℚ × Option ℚ :=
  match e.2 with
  | none => e
  | some age => if threshold ≤ mono - age then (none, none) else e

theorem acts_stamp (results : List BatchResult) (mono : ℚ) :
    Acts entry RegisterDef.name (fun reg => stampEntry (readRegister results reg) mono)
      (stamp results mono) := by
  intro r reg name
  rw [stamp]
  dsimp only
  cases readRegister results reg with
  | none => simp [stampEntry]
  | some v => by_cases h : name = reg.name <;> simp [entry, stampEntry, h]

theorem acts_evict (threshold mono : ℚ) :
    Acts entry RegisterDef.name (fun _ => evictEntry threshold mono) (evict threshold mono) := by
  intro r reg name
  by_cases h : name = reg.name
  · subst h
    rw [if_pos rfl, evict]
    simp only [entry, evictEntry]
    cases hage : r.valueAges reg.name with
    | none => simp [hage]
    | some age => by_cases hold : threshold ≤ mono - age <;> simp [hold, hage]
  · rw [if_neg h]
    unfold evict
    split
    · rfl
    · split
      · simp [entry, h]
      · rfl

end Reading

theorem RegisterMap.mem_tier {m : RegisterMap} {r : RegisterDef} {tier : RegTier} :
    r ∈ m.tier tier ↔ r ∈ m.registers ∧ r.tier = tier := by
  simp [RegisterMap.tier]

theorem RegisterMap.Accepted.nodup_tier {m : RegisterMap} (h : m.Accepted) (tier : RegTier) :
    ((m.tier tier).map RegisterDef.name).Nodup :=
  h.nodup.sublist (List.filter_sublist.map _)

theorem RegisterMap.Accepted.name_not_mem_tier {m : RegisterMap} (hm : m.Accepted)
    {reg : RegisterDef} (hreg : reg ∈ m.registers) {tier : RegTier} (h : reg.tier ≠ tier) :
    reg.name ∉ (m.tier tier).map RegisterDef.name := by
  intro hmem
  obtain ⟨reg', hreg', hname⟩ := List.mem_map.mp hmem
  obtain ⟨hin, htier⟩ := List.mem_filter.mp hreg'
  obtain rfl := List.inj_on_of_nodup_map hm.nodup hin hreg hname
  exact h (of_decide_eq_true htier)

namespace Poll

variable {p : Poll} (current : Reading) (now mono : ℚ)

theorem reading_entry (hnodup : ((p.regmap.tier p.tier).map RegisterDef.name).Nodup)
    {reg : RegisterDef} (hreg : reg ∈ p.regmap.tier p.tier) :
    (p.reading current now mono).entry reg.name =
      Reading.evictEntry (p.regmap.staleThresholdS p.tier) mono
        (Reading.stampEntry (readRegister p.results reg) mono (current.entry reg.name)) := by
  have hevict := (Reading.acts_evict (p.regmap.staleThresholdS p.tier) mono).foldl_of_mem hnodup
    hreg ((p.regmap.tier p.tier).foldl (Reading.stamp p.results mono) current)
  rw [(Reading.acts_stamp p.results mono).foldl_of_mem hnodup hreg current] at hevict
  exact hevict

theorem reading_entry_of_not_mem {name : String}
    (hname : name ∉ (p.regmap.tier p.tier).map RegisterDef.name) :
    (p.reading current now mono).entry name = current.entry name := by
  have hevict := (Reading.acts_evict (p.regmap.staleThresholdS p.tier) mono).foldl_of_not_mem
    hname ((p.regmap.tier p.tier).foldl (Reading.stamp p.results mono) current)
  rw [(Reading.acts_stamp p.results mono).foldl_of_not_mem hname current] at hevict
  exact hevict

end Poll

end GenWatch
