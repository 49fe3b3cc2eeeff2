import GenWatch.Comms.Classification

/-! # Earning `healthy` back

After an outage the link is healthy again through the recovery streak or through the
share of successes in the window. The second way asks for no streak: a firing of the
watchdog leaves no failed sample behind, and three failed samples in sixty are within
the share. The window is what decides whether a lost link must earn `healthy` back.
-/

namespace GenWatch

open Transition

namespace History

/-- The streak of successes that a recovery takes. -/
def recoveryStreak : List Bool := List.replicate healthyRecoveryStreak true

/-- A link that was lost and is healthy has had a recovery streak in between. -/
def Earned (log : List Mark) : Prop :=
  ∀ newer older, log = newer ++ older → stateAfter older = .lost → stateAfter log = .healthy →
    recoveryStreak <:+: samples newer

def sinceLost (log : List Mark) : List Mark := log.takeWhile fun m => m.state ≠ .lost

/-- A success that follows an outage with no recovery streak since, itself included, finds too many
failures in the window. -/
def HoldsBack (log : List Mark) : Prop :=
  (∃ m ∈ log, m.state = .lost) → ¬recoveryStreak <:+: true :: samples (sinceLost log) →
    ¬WindowGood (true :: samples log)

theorem earned_of_ne_healthy {log : List Mark} (h : stateAfter log ≠ .healthy) : Earned log :=
  fun _ _ _ _ hhealthy => absurd hhealthy h

theorem sinceLost_prefix_newer {log newer older : List Mark} (he : log = newer ++ older)
    (hold : stateAfter older = .lost) : sinceLost log <+: newer := by
  subst he
  cases older with
  | nil => cases hold
  | cons m older =>
    induction newer with
    | nil =>
      have hm : ¬m.state ≠ .lost := not_not.mpr hold
      simp [sinceLost, hm]
    | cons x newer ih =>
      unfold sinceLost at ih ⊢
      rw [List.cons_append, List.takeWhile_cons]
      split
      · exact List.cons_prefix_cons.mpr ⟨rfl, ih⟩
      · exact List.nil_prefix

theorem samples_infix_samples {newer newer' : List Mark} (h : newer <+: newer') :
    samples newer <:+: samples newer' :=
  (h.filterMap Mark.sample?).isInfix

/-- A healthy link has earned its state when the streak lies after the last outage. -/
theorem earned_iff {log : List Mark} (hhealthy : stateAfter log = .healthy) :
    Earned log ↔ (∃ m ∈ log, m.state = .lost) → recoveryStreak <:+: samples (sinceLost log) := by
  constructor
  · rintro h ⟨m, hm, hlost⟩
    have hsplit : log = sinceLost log ++ log.dropWhile fun m => m.state ≠ .lost :=
      List.takeWhile_append_dropWhile.symm
    refine h _ _ hsplit ?_ hhealthy
    have hne : (log.dropWhile fun m => m.state ≠ .lost) ≠ [] := by
      rw [Ne, List.dropWhile_eq_nil_iff]
      intro hall
      simpa [hlost] using hall m hm
    obtain ⟨x, rest, hx⟩ := List.exists_cons_of_ne_nil hne
    have hhead := List.head_dropWhile_not (fun m : Mark => decide (m.state ≠ .lost)) hne
    simp only [hx, List.head_cons] at hhead
    rw [hx, stateAfter]
    simpa using hhead
  · intro h newer older he hold _
    have hlost : ∃ m ∈ log, m.state = .lost := by
      cases older with
      | nil => cases hold
      | cons m older => exact ⟨m, by simp [he], hold⟩
    exact (h hlost).trans (samples_infix_samples (sinceLost_prefix_newer he hold))

theorem takeWhile_isGood_prefix_sinceLost {log : List Mark}
    (hgood : ∀ m ∈ log, m.isGood → m.state ≠ .lost) :
    log.takeWhile Mark.isGood <+: sinceLost log := by
  induction log with
  | nil => exact List.nil_prefix
  | cons m log ih =>
    rw [List.forall_mem_cons] at hgood
    unfold sinceLost at ih ⊢
    rw [List.takeWhile_cons, List.takeWhile_cons]
    by_cases hm : m.isGood
    · simp only [hm, hgood.1 hm, if_true, decide_true, ne_eq, not_false_eq_true]
      exact List.cons_prefix_cons.mpr ⟨rfl, ih hgood.2⟩
    · simp [hm]

theorem samples_takeWhile_isGood (log : List Mark) :
    samples (log.takeWhile Mark.isGood) = List.replicate (goodStreak log) true := by
  induction log with
  | nil => rfl
  | cons m log ih =>
    rw [goodStreak, List.takeWhile_cons]
    split
    · rename_i hm
      have hsample : m.sample? = some true := of_decide_eq_true hm
      rw [List.length_cons, List.replicate_succ, ← goodStreak, ← ih, samples,
        List.filterMap_cons_some hsample, samples]
    · rfl

theorem recoveryStreak_of_goodStreak {log : List Mark}
    (hgood : ∀ m ∈ log, m.isGood → m.state ≠ .lost)
    (h : healthyRecoveryStreak ≤ goodStreak log) :
    recoveryStreak <:+: samples (sinceLost log) := by
  have hstreak : recoveryStreak <+: List.replicate (goodStreak log) true := by
    refine ⟨List.replicate (goodStreak log - healthyRecoveryStreak) true, ?_⟩
    rw [recoveryStreak, List.replicate_append_replicate, Nat.add_sub_cancel' h]
  rw [← samples_takeWhile_isGood] at hstreak
  exact hstreak.isInfix.trans (samples_infix_samples (takeWhile_isGood_prefix_sinceLost hgood))

end History

open History

/-- A success finds a history that holds the link back; no other probe can restore it. -/
def LinkHistory.HeldBack (w : LinkHistory) : Probe → Prop
  | .record true _ _ _ => HoldsBack w.log
  | _ => True

namespace LinkHistory

variable {w w' : LinkHistory} {l : Probe}

/-- No success leaves the link lost. -/
def GoodNotLost (w : LinkHistory) : Prop := ∀ m ∈ w.log, m.isGood → m.state ≠ .lost

theorem GoodNotLost.step (hg : w.GoodNotLost) (h : w.step l = some w') : w'.GoodNotLost := by
  obtain ⟨-, rfl⟩ := step_eq_some h
  intro m hm
  cases l with
  | record ok elapsedMs now mono =>
    rcases List.mem_cons.mp hm with rfl | hm
    · intro hok
      obtain rfl : ok = true := by simpa [Mark.isGood, Mark.sample?] using hok
      exact good_not_lost w.link elapsedMs now mono
    · exact hg m hm
  | wake primePollMs mono =>
    simp only [logged] at hm
    split at hm
    · exact hg m hm
    · rcases List.mem_cons.mp hm with rfl | hm
      · exact fun hok => absurd hok (by simp [Mark.isGood, Mark.sample?])
      · exact hg m hm
  | primeGood mono => exact hg m hm

theorem step_good_or (hc : w.Counted) (h : w.step l = some w') :
    (∃ elapsedMs now mono, l = .record true elapsedMs now mono) ∨ w'.log = w.log ∨
      stateAfter w'.log ≠ .healthy := by
  obtain ⟨-, rfl⟩ := step_eq_some h
  cases l with
  | record ok elapsedMs now mono =>
    cases ok with
    | true => exact Or.inl ⟨elapsedMs, now, mono, rfl⟩
    | false =>
      right; right
      have hverdict := hc.verdict false elapsedMs now mono
      simp only [logged, stateAfter, Mark.state]
      rw [hverdict, History.verdict]
      split_ifs <;> simp_all
  | wake primePollMs mono =>
    right
    simp only [logged]
    split
    · exact Or.inl rfl
    · exact Or.inr (by simp [stateAfter, Mark.state])
  | primeGood mono => exact Or.inr (Or.inl rfl)

/-- After a success the state is earned exactly when the window held the link back. -/
theorem earned_record_iff (hc : w.Counted) (hg : w.GoodNotLost) {elapsedMs now mono : ℚ}
    (h : w.step (.record true elapsedMs now mono) = some w') :
    Earned w'.log ↔ HoldsBack w.log := by
  have hg' := hg.step h
  obtain ⟨-, rfl⟩ := step_eq_some h
  have hverdict := hc.verdict true elapsedMs now mono
  have hnot := good_not_lost w.link elapsedMs now mono
  set state := (w.link.record true elapsedMs now mono).health.state with hstate
  have hlog : w.logged (.record true elapsedMs now mono) = .sample true mono state :: w.log := rfl
  have hsince : sinceLost (.sample true mono state :: w.log) =
      .sample true mono state :: sinceLost w.log := by
    simp [sinceLost, Mark.state, hnot]
  have hlost : (∃ m ∈ Mark.sample true mono state :: w.log, m.state = .lost) ↔
      ∃ m ∈ w.log, m.state = .lost := by
    simp [Mark.state, hnot]
  rw [hlog] at hverdict
  simp only [hlog]
  by_cases hhealthy : state = .healthy
  · have hafter : stateAfter (.sample true mono state :: w.log) = .healthy := hhealthy
    rw [earned_iff hafter, hlost, hsince, samples_sample, HoldsBack]
    refine imp_congr_right fun _ => ⟨fun hstreak hno => absurd hstreak hno, fun h => ?_⟩
    by_contra hno
    have hwindow := h hno
    have hgood : healthyRecoveryStreak ≤ goodStreak (.sample true mono state :: w.log) := by
      by_contra hshort
      rw [hhealthy, History.verdict] at hverdict
      simp_all
    apply hno
    rw [← samples_sample _ _ mono state, ← hsince]
    exact recoveryStreak_of_goodStreak hg' hgood
  · refine iff_of_true (earned_of_ne_healthy hhealthy) fun _ _ hwindow => hhealthy ?_
    rw [hverdict, History.verdict]
    simp [hwindow]

theorem heldBack_of_earned (hc : w.Counted) (hg : w.GoodNotLost) (h : w.step l = some w')
    (he : Earned w'.log) : w.HeldBack l := by
  cases l with
  | record ok elapsedMs now mono =>
    cases ok with
    | true => exact (earned_record_iff hc hg h).mp he
    | false => trivial
  | wake primePollMs mono => trivial
  | primeGood mono => trivial

theorem earned_of_heldBack (hc : w.Counted) (hg : w.GoodNotLost) (he : Earned w.log)
    (hl : w.HeldBack l) (h : w.step l = some w') : Earned w'.log := by
  rcases step_good_or hc h with ⟨elapsedMs, now, mono, rfl⟩ | hsame | hstate
  · exact (earned_record_iff hc hg h).mpr hl
  · exact hsame ▸ he
  · exact earned_of_ne_healthy hstate

theorem counted_goodNotLost {rateMs : ℤ} {t₀ : ℚ} (h : Reachable step (start rateMs t₀) w) :
    w.Counted ∧ w.GoodNotLost :=
  ⟨h.invariant (counted_start rateMs t₀) fun _ _ _ hc hs => hc.step hs,
    h.invariant (by simp [GoodNotLost, start]) fun _ _ _ hg hs => hg.step hs⟩

/-- In a run from a fresh poller every lost link earns `healthy` back exactly when the window holds
back every success that comes before the recovery streak. -/
theorem lost_earns_healthy_iff (rateMs : ℤ) (t₀ : ℚ) (ls : List Probe) :
    (∀ w l w', Takes step (start rateMs t₀) ls w l w' → Earned w'.log) ↔
      ∀ w l w', Takes step (start rateMs t₀) ls w l w' → w.HeldBack l := by
  constructor
  · intro h w l w' ht
    obtain ⟨hc, hg⟩ := counted_goodNotLost ht.reachable
    exact heldBack_of_earned hc hg ht.step_eq (h w l w' ht)
  · intro h w l w' ht
    have hI : Reachable step (start rateMs t₀) w ∧ Earned w.log := by
      have hstart : Earned (start rateMs t₀).log := by
        intro newer older he hold
        obtain ⟨-, rfl⟩ := List.append_eq_nil_iff.mp he.symm
        cases hold
      apply ht.invariant h
      · exact ⟨Reachable.refl, hstart⟩
      · rintro s k s' ⟨hr, he⟩ hk hs
        obtain ⟨hc, hg⟩ := counted_goodNotLost hr
        exact ⟨hr.tail hs, earned_of_heldBack hc hg he hk hs⟩
    obtain ⟨hc, hg⟩ := counted_goodNotLost hI.1
    exact earned_of_heldBack hc hg hI.2 (h w l w' ht) ht.step_eq

/-- The watchdog declares the link lost, and the next sample makes it healthy. -/
theorem single_success_restores_healthy :
    ¬∀ w l w', Takes step (start 1500 0)
      ([.record true 0 1 1, .primeGood 1, .wake 1500 6] ++ [.record true 0 7 7]) w l w' →
        Earned w'.log := by
  intro h
  obtain ⟨w, w', ht, hw⟩ := takes_of_lastStep step (start 1500 0)
    [.record true 0 1 1, .primeGood 1, .wake 1500 6] (.record true 0 7 7)
    (fun w _ w' => decide (w'.log = .sample true 7 .healthy :: w.log ∧
      stateAfter w.log = .lost)) (by decide +kernel)
  obtain ⟨hlog, hlost⟩ := of_decide_eq_true hw
  have hstreak := h _ _ _ ht [.sample true 7 .healthy] w.log hlog hlost (by rw [hlog]; rfl)
  exact absurd hstreak (by decide)

end LinkHistory

end GenWatch
