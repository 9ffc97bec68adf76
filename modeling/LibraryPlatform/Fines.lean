import Mathlib.Data.Rat.Floor
import LibraryPlatform.Services

/-!
# Fines

A fine charges every day begun. The code rounds up by the whole seconds of the last day, and
drops a remainder shorter than a second.
-/
namespace LibraryPlatform

/-- The rule of the flat daily fine: partial days count as full days, up to the ceiling. -/
def FlatDailyFineStrategy.rule (fine : FlatDailyFineStrategy) (dueDate returnDate : Int) : Int :=
  if returnDate ≤ dueDate then 0
  else min fine.maxLimit (fine.dailyRate * ⌈((returnDate - dueDate : Int) : ℚ) / day⌉)

variable {fine : FlatDailyFineStrategy} {dueDate returnDate : Int}

/-- The days begun: the whole ones, and one more for a remainder. -/
theorem ceil_days (delta : Int) :
    ⌈(delta : ℚ) / day⌉ = delta / day + if delta % day = 0 then 0 else 1 := by
  have hday : (day : ℚ) = ((86400000000 : ℕ) : ℚ) := by norm_num [day, hour, second]
  rw [hday, Rat.ceil_intCast_div_natCast]
  by_cases hwhole : delta % day = 0
  · rw [if_pos hwhole]
    simp only [day, hour, second] at *
    omega
  · rw [if_neg hwhole]
    simp only [day, hour, second] at *
    omega

/-- What is charged from: the days the code counts are those begun, unless the last one
has not lasted a second. -/
theorem calculateFine_late (hlate : dueDate < returnDate) :
    fine.calculateFine dueDate returnDate = min fine.maxLimit (fine.dailyRate *
      ((returnDate - dueDate) / day + if (returnDate - dueDate) % day < second then 0 else 1)) := by
  unfold FlatDailyFineStrategy.calculateFine
  rw [if_neg (not_le.mpr hlate), min_comm, mul_comm]
  have hcount : 0 < (returnDate - dueDate) % day / second ↔
      ¬(returnDate - dueDate) % day < second := by
    simp only [second]
    omega
  by_cases hshort : (returnDate - dueDate) % day < second
  · simp only [hcount, hshort, not_true_eq_false, ↓reduceIte, add_zero]
  · simp only [hcount, hshort, not_false_eq_true, ↓reduceIte]

theorem rule_late (hlate : dueDate < returnDate) :
    fine.rule dueDate returnDate = min fine.maxLimit (fine.dailyRate *
      ((returnDate - dueDate) / day + if (returnDate - dueDate) % day = 0 then 0 else 1)) := by
  unfold FlatDailyFineStrategy.rule
  rw [if_neg (not_le.mpr hlate), ceil_days]

/-- One day more makes no difference to a fine that is nothing, or at its ceiling. -/
theorem one_day_more_iff {limit rate days : Int} (hrate : 0 ≤ rate) :
    min limit (rate * days) = min limit (rate * (days + 1)) ↔ rate = 0 ∨ limit ≤ rate * days := by
  rw [mul_add, mul_one]
  omega

/-- The fine is that of the rule exactly when the return is in time, the last day begun is
over or has lasted a second, or that day would not be charged. -/
theorem fine_eq_rule_iff (hrate : 0 ≤ fine.dailyRate) :
    fine.calculateFine dueDate returnDate = fine.rule dueDate returnDate ↔
      returnDate ≤ dueDate ∨ (returnDate - dueDate) % day = 0 ∨
      second ≤ (returnDate - dueDate) % day ∨ fine.dailyRate = 0 ∨
      fine.maxLimit ≤ fine.dailyRate * ((returnDate - dueDate) / day) := by
  rcases le_or_gt returnDate dueDate with htime | hlate
  · simp [FlatDailyFineStrategy.calculateFine, FlatDailyFineStrategy.rule, htime]
  · rw [calculateFine_late hlate, rule_late hlate]
    by_cases hwhole : (returnDate - dueDate) % day = 0
    · simp [hwhole, second]
    · by_cases hshort : (returnDate - dueDate) % day < second
      · simp only [hwhole, hshort, ↓reduceIte, add_zero, not_le.mpr hlate, not_le.mpr hshort,
          false_or]
        exact one_day_more_iff hrate
      · simp [hwhole, hshort, not_lt.mp hshort]

/-- Six days and a second late is seven days late. -/
theorem fine_eq_rule_demo :
    (⟨50, 5000⟩ : FlatDailyFineStrategy).calculateFine 0 (6 * day + second) = 350 ∧
    (⟨50, 5000⟩ : FlatDailyFineStrategy).rule 0 (6 * day + second) = 350 := by
  have hfine : (⟨50, 5000⟩ : FlatDailyFineStrategy).calculateFine 0 (6 * day + second) = 350 := rfl
  have hrule : (⟨50, 5000⟩ : FlatDailyFineStrategy).calculateFine 0 (6 * day + second) =
      (⟨50, 5000⟩ : FlatDailyFineStrategy).rule 0 (6 * day + second) :=
    (fine_eq_rule_iff (by decide)).mpr (.inr (.inr (.inl (by decide))))
  exact ⟨hfine, hrule.symm.trans hfine⟩

/-- A microsecond late costs nothing. -/
theorem partial_day_free :
    ¬∀ fine : FlatDailyFineStrategy, 0 ≤ fine.dailyRate → 0 ≤ fine.maxLimit →
      ∀ dueDate returnDate,
        fine.calculateFine dueDate returnDate = fine.rule dueDate returnDate := by
  intro hclaim
  have hfree := hclaim ⟨50, 5000⟩ (by decide) (by decide) 0 1
  have hrule : (⟨50, 5000⟩ : FlatDailyFineStrategy).rule 0 1 = 50 := by
    rw [rule_late (by decide)]
    rfl
  rw [hrule] at hfree
  exact absurd hfree (by decide)

/-- The days charged, and when there are none. -/
theorem days_charged {delta : Int} (hlate : 0 < delta) :
    0 ≤ delta / day + (if delta % day < second then 0 else 1) ∧
    (delta / day + (if delta % day < second then 0 else 1) = 0 ↔ delta < second) := by
  by_cases hshort : delta % day < second
  · rw [if_pos hshort]
    simp only [day, hour, second] at *
    omega
  · rw [if_neg hshort]
    simp only [day, hour, second] at *
    omega

/-- Without a fine: the return is in time, or less than a second late. -/
theorem calculateFine_eq_zero_iff (hrate : 0 < fine.dailyRate) (hlimit : 0 < fine.maxLimit) :
    fine.calculateFine dueDate returnDate = 0 ↔ returnDate < dueDate + second := by
  rcases le_or_gt returnDate dueDate with htime | hlate
  · simp only [FlatDailyFineStrategy.calculateFine, htime, ↓reduceIte, true_iff, second]
    omega
  · rw [calculateFine_late hlate]
    obtain ⟨hpos, hzero⟩ := days_charged (sub_pos.mpr hlate)
    rw [← sub_lt_iff_lt_add', ← hzero]
    generalize (returnDate - dueDate) / day +
      (if (returnDate - dueDate) % day < second then 0 else 1) = days at hpos
    constructor
    · intro hnothing
      by_contra hne
      have hcharged : 0 < fine.dailyRate * days := mul_pos hrate (by omega)
      omega
    · rintro rfl
      simp [hlimit.le]

/-! ## Later returns -/

/-- The days charged are a whole division of what is a second short of a day more. -/
theorem days_charged_eq (delta : Int) :
    delta / day + (if delta % day < second then 0 else 1) = (delta + (day - second)) / day := by
  split <;> simp only [day, hour, second] at * <;> omega

theorem days_charged_mono {delta delta' : Int} (h : delta ≤ delta') :
    (delta + (day - second)) / day ≤ (delta' + (day - second)) / day :=
  Int.ediv_le_ediv (by decide) (by omega)

theorem calculateFine_bounds (hrate : 0 ≤ fine.dailyRate) (hlimit : 0 ≤ fine.maxLimit)
    (dueDate returnDate : Int) :
    0 ≤ fine.calculateFine dueDate returnDate ∧
    fine.calculateFine dueDate returnDate ≤ fine.maxLimit := by
  rcases le_or_gt returnDate dueDate with htime | hlate
  · simp [FlatDailyFineStrategy.calculateFine, htime, hlimit]
  · rw [calculateFine_late hlate]
    obtain ⟨hdays, _⟩ := days_charged (sub_pos.mpr hlate)
    exact ⟨le_min hlimit (mul_nonneg hrate hdays), min_le_left _ _⟩

/-- A fine lies between nothing and the ceiling, and no fine is lower for a later return or an
earlier due date. -/
theorem fine_monotone (hrate : 0 ≤ fine.dailyRate) (hlimit : 0 ≤ fine.maxLimit) :
    (∀ dueDate returnDate, 0 ≤ fine.calculateFine dueDate returnDate ∧
      fine.calculateFine dueDate returnDate ≤ fine.maxLimit) ∧
    ∀ due₁ due₂ ret₁ ret₂, due₁ ≤ due₂ → ret₁ ≤ ret₂ →
      fine.calculateFine due₂ ret₁ ≤ fine.calculateFine due₁ ret₂ := by
  refine ⟨calculateFine_bounds hrate hlimit, fun due₁ due₂ ret₁ ret₂ hdue hret => ?_⟩
  rcases le_or_gt ret₁ due₂ with htime | hlate
  · have hnothing : fine.calculateFine due₂ ret₁ = 0 := by
      simp [FlatDailyFineStrategy.calculateFine, htime]
    rw [hnothing]
    exact (calculateFine_bounds hrate hlimit due₁ ret₂).1
  · have hlate' : due₁ < ret₂ := by omega
    rw [calculateFine_late hlate, calculateFine_late hlate', days_charged_eq, days_charged_eq]
    have hdays := days_charged_mono (show ret₁ - due₂ ≤ ret₂ - due₁ by omega)
    exact min_le_min_left _ (mul_le_mul_of_nonneg_left hdays hrate)

/-- Due a day earlier and returned a second later. -/
theorem fine_monotone_demo :
    (⟨50, 5000⟩ : FlatDailyFineStrategy).calculateFine day (2 * day) ≤
      (⟨50, 5000⟩ : FlatDailyFineStrategy).calculateFine 0 (2 * day + second) := by
  have hrate : 0 ≤ (⟨50, 5000⟩ : FlatDailyFineStrategy).dailyRate := by decide
  have hmono := (fine_monotone hrate (by decide)).2
  exact hmono _ _ _ _ (by decide) (by decide)

end LibraryPlatform
