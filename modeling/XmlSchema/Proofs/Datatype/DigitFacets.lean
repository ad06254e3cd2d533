import XmlSchema.Datatype.SimpleType
import XmlSchema.Proofs.Datatype.Numeral

namespace XmlSchema.Datatype

namespace Decimal

variable {d : Decimal} {k : ℕ}

def coefficient (d : Decimal) : ℤ :=
  if d.negative then -natural (d.whole ++ d.fraction) else natural (d.whole ++ d.fraction)

theorem natAbs_coefficient (d : Decimal) : d.coefficient.natAbs = natural (d.whole ++ d.fraction) := by
  unfold coefficient
  split <;> simp

theorem coefficient_eq (d : Decimal) : (d.coefficient : ℚ) = d.value * 10 ^ d.fraction.length := by
  have digits : (natural (d.whole ++ d.fraction) : ℚ) = d.magnitude * 10 ^ d.fraction.length := by
    rw [natural_append, magnitude, add_mul, ← natural_eq_fractional]
    push_cast
    rfl
  unfold coefficient value
  split <;> simp [digits]

theorem coefficient_mul_eq {m : ℕ} {i : ℤ} (scaled : d.value * 10 ^ m = i) {l : ℕ}
    (split : d.fraction.length = m + l) : d.coefficient = i * 10 ^ l := by
  have same : (d.coefficient : ℚ) = i * 10 ^ l := by
    rw [coefficient_eq, split, pow_add, ← scaled, mul_assoc]
  exact_mod_cast same

theorem allDigits_append (reduced : d.Reduced) : AllDigits (d.whole ++ d.fraction) :=
  List.forall_mem_append.2 ⟨reduced.whole, reduced.fraction⟩

theorem fraction_length_le_iff (reduced : d.Reduced) :
    d.fraction.length ≤ k ↔ ∃ i : ℤ, d.value * 10 ^ k = i := by
  constructor
  · intro few
    obtain ⟨l, rfl⟩ := Nat.exists_eq_add_of_le few
    refine ⟨d.coefficient * 10 ^ l, ?_⟩
    rw [pow_add, ← mul_assoc, ← coefficient_eq]
    push_cast
    rfl
  · rintro ⟨i, scaled⟩
    -- If there were more digits, the number of all digits would be a multiple of ten.
    by_contra many
    obtain ⟨l, split⟩ := Nat.exists_eq_add_of_lt (Nat.lt_of_not_le many)
    have nonempty : d.fraction ≠ [] := List.ne_nil_of_length_pos (by omega)
    have last : (d.whole ++ d.fraction).getLast? ≠ some '0' := by
      rw [List.getLast?_append_of_ne_nil _ nonempty]
      exact reduced.last
    refine not_ten_dvd_natural (allDigits_append reduced)
      (List.append_ne_nil_of_right_ne_nil _ nonempty) last ?_
    rw [← natAbs_coefficient, coefficient_mul_eq scaled (l := l + 1) split, pow_succ,
      Int.natAbs_mul, Int.natAbs_mul]
    exact dvd_mul_of_dvd_right (Dvd.intro_left _ rfl) _

theorem natAbs_eq_of_scaled {m l : ℕ} {i : ℤ} (scaled : d.value * 10 ^ m = i)
    (split : m = d.fraction.length + l) : i.natAbs = natural (d.whole ++ d.fraction) * 10 ^ l := by
  have larger : (i : ℚ) = d.coefficient * 10 ^ l := by
    rw [coefficient_eq, ← scaled, split, pow_add, mul_assoc]
  have same : i = d.coefficient * 10 ^ l := by exact_mod_cast larger
  rw [same, Int.natAbs_mul, natAbs_coefficient, Int.natAbs_pow]
  rfl

theorem length_le_of_natural_lt (reduced : d.Reduced) (few : d.fraction.length < k)
    (less : natural (d.whole ++ d.fraction) < 10 ^ k) :
    max d.whole.length 1 + d.fraction.length ≤ k := by
  by_cases none : d.whole = []
  · rw [none, List.length_nil]
    omega
  · have first : (d.whole ++ d.fraction).head? ≠ some '0' := by
      rw [List.head?_append_of_ne_nil _ none]
      exact reduced.first
    have least := le_natural (allDigits_append reduced) (List.append_ne_nil_of_left_ne_nil none _)
      first
    have fewer : (d.whole ++ d.fraction).length - 1 < k :=
      (Nat.pow_lt_pow_iff_right (by decide)).1 (Nat.lt_of_le_of_lt least less)
    have some := List.length_pos_iff.2 none
    rw [List.length_append] at fewer
    omega

theorem totalDigits_le_iff (reduced : d.Reduced) :
    max d.whole.length 1 + d.fraction.length ≤ k ↔
      ∃ (i : ℤ) (m : ℕ), d.value = i / 10 ^ m ∧ |i| < 10 ^ k ∧ m < k := by
  constructor
  · intro few
    refine ⟨d.coefficient, d.fraction.length, ?_, ?_, by omega⟩
    · rw [coefficient_eq, mul_div_cancel_right₀]
      positivity
    · have less : natural (d.whole ++ d.fraction) < 10 ^ k :=
        calc
          natural (d.whole ++ d.fraction) < 10 ^ (d.whole ++ d.fraction).length :=
            natural_lt (allDigits_append reduced)
          _ ≤ 10 ^ k := Nat.pow_le_pow_right (by decide) (by rw [List.length_append]; omega)
      rw [Int.abs_eq_natAbs, natAbs_coefficient]
      exact_mod_cast less
  · rintro ⟨i, m, same, small, few⟩
    have scaled : d.value * 10 ^ m = i := by
      rw [same, div_mul_cancel₀]
      positivity
    -- The fraction has no more digits than the given power of ten, and the given number is as large
    -- as the one of all digits, or larger.
    obtain ⟨l, rfl⟩ := Nat.exists_eq_add_of_le ((fraction_length_le_iff reduced).2 ⟨i, scaled⟩)
    refine length_le_of_natural_lt reduced (by omega) ?_
    calc
      natural (d.whole ++ d.fraction) ≤ natural (d.whole ++ d.fraction) * 10 ^ l :=
        Nat.le_mul_of_pos_right _ (Nat.pow_pos (by decide))
      _ = i.natAbs := (natAbs_eq_of_scaled scaled rfl).symm
      _ < 10 ^ k := by
        rw [Int.abs_eq_natAbs] at small
        exact_mod_cast small

end Decimal

theorem decimalDigits_text (n : Numeral) :
    decimalDigits n.text = (max n.decimal.whole.length 1, n.decimal.fraction.length) := by
  rw [decimalDigits, Decimal.ofText?_text]

/-- The facets that limit digits tell from the value of a numeral whether it passes them. The one
for all digits also refuses a number below one that needs them all behind the point. -/
theorem digits_limited_by_value (t : SimpleType) (n : Numeral) (k : ℕ) :
    (t.passes n.text (.totalDigits k) = true ↔
      ∃ (i : ℤ) (m : ℕ), n.value = i / 10 ^ m ∧ |i| < 10 ^ k ∧ m < k) ∧
    ((∃ (i : ℤ) (m : ℕ), n.value = i / 10 ^ m ∧ |i| < 10 ^ k ∧ m ≤ k) ↔
      t.passes n.text (.totalDigits k) = true ∨ |n.value| < 1 ∧ ∃ i : ℤ, n.value * 10 ^ k = i) ∧
    (t.passes n.text (.fractionDigits k) = true ↔ ∃ i : ℤ, n.value * 10 ^ k = i) := by
  have total : t.passes n.text (.totalDigits k) = true ↔
      ∃ (i : ℤ) (m : ℕ), n.value = i / 10 ^ m ∧ |i| < 10 ^ k ∧ m < k := by
    rw [← n.value_decimal, ← Decimal.totalDigits_le_iff n.reduced_decimal]
    simp [SimpleType.passes, SimpleType.sizeFor, decimalDigits_text]
  have positive : (0 : ℚ) < 10 ^ k := by positivity
  refine ⟨total, ?_, ?_⟩
  · rw [total]
    constructor
    · rintro ⟨i, m, same, small, few⟩
      rcases Nat.lt_or_eq_of_le few with fewer | rfl
      · exact .inl ⟨i, m, same, small, fewer⟩
      · refine .inr ⟨?_, i, by rw [same, div_mul_cancel₀ _ positive.ne']⟩
        rw [same, abs_div, abs_of_pos positive, div_lt_one positive]
        exact_mod_cast small
    · rintro (⟨i, m, same, small, fewer⟩ | ⟨below, i, scaled⟩)
      · exact ⟨i, m, same, small, fewer.le⟩
      · refine ⟨i, k, by rw [← scaled, mul_div_cancel_right₀ _ positive.ne'], ?_, le_rfl⟩
        have small : |(i : ℚ)| < 10 ^ k := by
          rw [← scaled, abs_mul, abs_of_pos positive]
          exact mul_lt_of_lt_one_left positive below
        exact_mod_cast small
  · rw [← n.value_decimal, ← Decimal.fraction_length_le_iff n.reduced_decimal]
    simp [SimpleType.passes, SimpleType.sizeFor, decimalDigits_text]

def half : Numeral where
  sign := none
  whole := ['0']
  fraction := some ['5']
  digits := by decide
  fractionDigits := by decide
  nonempty := by decide

/-- One half is five tenths, but has a digit too many for a limit of one digit. -/
theorem half_exceeds_one_digit : half.text = "0.5" ∧
    (∃ (i : ℤ) (m : ℕ), half.value = i / 10 ^ m ∧ |i| < 10 ^ 1 ∧ m ≤ 1) ∧
    (SimpleType.builtin .decimal).passes half.text (.totalDigits 1) = false := by
  refine ⟨rfl, ⟨5, 1, ?_, by decide, le_rfl⟩, by decide +kernel⟩
  simp [Numeral.value, half, digitValue]

end XmlSchema.Datatype
