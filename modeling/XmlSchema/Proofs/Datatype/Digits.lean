import Mathlib.Algebra.Order.Field.Basic
import Mathlib.Algebra.Order.Ring.Rat
import Mathlib.Data.Nat.Cast.Order.Ring
import Mathlib.Order.Compare
import Mathlib.Tactic.FieldSimp
import Mathlib.Tactic.Linarith
import Mathlib.Tactic.Positivity
import Mathlib.Tactic.Ring
import XmlSchema.Datatype.Lexical

namespace XmlSchema.Datatype

def digitValue (c : Char) : ℕ := c.toNat - '0'.toNat

def natural (digits : List Char) : ℕ := Nat.ofDigitChars 10 digits 0

def fractional (digits : List Char) : ℚ := natural digits / 10 ^ digits.length

def AllDigits (text : List Char) : Prop := ∀ c ∈ text, c.isDigit = true

instance (text : List Char) : Decidable (AllDigits text) := List.decidableBAll _ text

variable {c d : Char} {digits : List Char}

theorem toNat_eq_of_isDigit (digit : c.isDigit = true) : c.toNat = digitValue c + 48 :=
  (Nat.sub_add_cancel (Char.isDigit_iff_toNat.1 digit).1).symm

theorem digitValue_lt (digit : c.isDigit = true) : digitValue c < 10 := by
  have last : c.toNat ≤ 57 := (Char.isDigit_iff_toNat.1 digit).2
  rw [toNat_eq_of_isDigit digit] at last
  omega

theorem digitValue_pos (digit : c.isDigit = true) (notZero : c ≠ '0') : 0 < digitValue c := by
  refine Nat.pos_of_ne_zero fun zero => notZero (Char.toNat_inj.1 ?_)
  rw [toNat_eq_of_isDigit digit, zero]
  rfl

@[simp]
theorem natural_nil : natural [] = 0 := rfl

theorem natural_append (digits more : List Char) :
    natural (digits ++ more) = natural digits * 10 ^ more.length + natural more := by
  rw [natural, Nat.ofDigitChars_append, Nat.ofDigitChars_eq_ofDigitChars_zero, Nat.mul_comm]
  rfl

@[simp]
theorem natural_singleton (c : Char) : natural [c] = digitValue c := by
  simp [natural, Nat.ofDigitChars_cons, digitValue]

theorem natural_cons (c : Char) (digits : List Char) :
    natural (c :: digits) = digitValue c * 10 ^ digits.length + natural digits := by
  rw [← List.singleton_append, natural_append, natural_singleton]

theorem natural_lt (all : AllDigits digits) : natural digits < 10 ^ digits.length := by
  induction digits with
  | nil => exact Nat.one_pos
  | cons c digits ih =>
    obtain ⟨digit, rest⟩ := List.forall_mem_cons.1 all
    have less := ih rest
    calc
      natural (c :: digits) < (digitValue c + 1) * 10 ^ digits.length := by
        rw [natural_cons, Nat.add_mul]
        omega
      _ ≤ 10 * 10 ^ digits.length := Nat.mul_le_mul_right _ (digitValue_lt digit)
      _ = 10 ^ (c :: digits).length := by rw [List.length_cons, pow_succ, Nat.mul_comm]

theorem le_natural (all : AllDigits digits) (nonempty : digits ≠ [])
    (first : digits.head? ≠ some '0') : 10 ^ (digits.length - 1) ≤ natural digits := by
  cases digits with
  | nil => exact absurd rfl nonempty
  | cons c digits =>
    have positive := digitValue_pos (all c List.mem_cons_self) (by simpa using first)
    rw [natural_cons]
    exact Nat.le_add_right_of_le (Nat.le_mul_of_pos_left _ positive)

theorem natural_pos (all : AllDigits digits) (nonempty : digits ≠ [])
    (first : digits.head? ≠ some '0') : 0 < natural digits :=
  Nat.lt_of_lt_of_le (Nat.pow_pos (by decide)) (le_natural all nonempty first)

theorem not_ten_dvd_natural (all : AllDigits digits) (nonempty : digits ≠ [])
    (last : digits.getLast? ≠ some '0') : ¬10 ∣ natural digits := by
  obtain ⟨digits, c, rfl⟩ := List.eq_nil_or_concat' digits |>.resolve_left nonempty
  have digit : c.isDigit = true := all c (by simp)
  have less := digitValue_lt digit
  have positive := digitValue_pos digit fun zero => last (by simp [zero])
  rw [natural_append, natural_singleton, List.length_singleton]
  omega

theorem natural_dropWhile (digits : List Char) :
    natural (digits.dropWhile (· == '0')) = natural digits := by
  induction digits with
  | nil => rfl
  | cons c digits ih =>
    rw [List.dropWhile_cons]
    split
    · next zero =>
      rw [ih, beq_iff_eq.1 zero, natural_cons]
      simp [digitValue]
    · rfl

@[simp]
theorem fractional_nil : fractional [] = 0 := by simp [fractional]

@[simp]
theorem fractional_singleton (c : Char) : fractional [c] = digitValue c / 10 := by
  simp [fractional]

theorem natural_eq_fractional (digits : List Char) :
    (natural digits : ℚ) = fractional digits * 10 ^ digits.length := by
  rw [fractional, div_mul_cancel₀]
  positivity

theorem fractional_append (digits more : List Char) :
    fractional (digits ++ more) = fractional digits + fractional more / 10 ^ digits.length := by
  rw [fractional, natural_append, List.length_append, pow_add, fractional, fractional]
  push_cast
  field_simp

theorem fractional_cons (c : Char) (digits : List Char) :
    fractional (c :: digits) = (digitValue c + fractional digits) / 10 := by
  rw [← List.singleton_append, fractional_append, fractional_singleton, List.length_singleton,
    pow_one, add_div]

theorem fractional_nonneg (digits : List Char) : 0 ≤ fractional digits := by
  unfold fractional
  positivity

theorem fractional_lt_one (all : AllDigits digits) : fractional digits < 1 := by
  rw [fractional, div_lt_one (by positivity)]
  exact_mod_cast natural_lt all

theorem fractional_dropTrailingZeros (digits : List Char) :
    fractional (Decimal.dropTrailingZeros digits) = fractional digits := by
  induction digits using List.reverseRecOn with
  | nil => rfl
  | append_singleton digits c ih =>
    rw [Decimal.dropTrailingZeros, List.reverse_append, List.reverse_singleton,
      List.singleton_append, List.dropWhile_cons]
    split
    · next zero =>
      rw [beq_iff_eq.1 zero, fractional_append, fractional_singleton]
      simpa [digitValue, Decimal.dropTrailingZeros] using ih
    · rw [List.reverse_cons, List.reverse_reverse]

theorem fractional_pos (all : AllDigits digits) (nonempty : digits ≠ [])
    (last : digits.getLast? ≠ some '0') : 0 < fractional digits := by
  obtain ⟨digits, c, rfl⟩ := List.eq_nil_or_concat' digits |>.resolve_left nonempty
  have positive : 0 < digitValue c :=
    digitValue_pos (all c (by simp)) fun zero => last (by simp [zero])
  have nonneg := fractional_nonneg digits
  rw [fractional_append, fractional_singleton]
  positivity

theorem cmp_natCast_add {m n : ℕ} {x y : ℚ} (nonneg : 0 ≤ x) (less : x < 1) (nonneg' : 0 ≤ y)
    (less' : y < 1) : cmp (m + x) (n + y) = (cmp m n).then (cmp x y) := by
  rcases lt_trichotomy m n with lt | rfl | gt
  · have apart : (m : ℚ) + 1 ≤ n := by exact_mod_cast lt
    rw [(cmp_eq_lt_iff m n).2 lt, (cmp_eq_lt_iff _ _).2 (by linarith)]
    rfl
  · rw [cmp_self_eq_eq, cmp_add_left]
    rfl
  · have apart : (n : ℚ) + 1 ≤ m := by exact_mod_cast gt
    rw [(cmp_eq_gt_iff m n).2 gt, (cmp_eq_gt_iff _ _).2 (by linarith)]
    rfl

section Order

variable {a b : Char} {as bs : List Char}

theorem compare_toNat (digit : a.isDigit = true) (digit' : b.isDigit = true) :
    compare a.toNat b.toNat = cmp (digitValue a) (digitValue b) := by
  rw [← cmp_eq_compare, toNat_eq_of_isDigit digit, toNat_eq_of_isDigit digit', cmp_add_right]

theorem cmp_fractional_cons (all : AllDigits as) (all' : AllDigits bs) :
    cmp (fractional (a :: as)) (fractional (b :: bs)) =
      (cmp (digitValue a) (digitValue b)).then (cmp (fractional as) (fractional bs)) := by
  rw [fractional_cons, fractional_cons, div_eq_mul_inv, div_eq_mul_inv,
    cmp_mul_pos_right (by norm_num),
    cmp_natCast_add (fractional_nonneg _) (fractional_lt_one all) (fractional_nonneg _)
      (fractional_lt_one all')]

namespace Decimal

theorem compareDigits_eq (all : AllDigits as) (all' : AllDigits bs)
    (aligned : as.length = bs.length ∨ as.getLast? ≠ some '0' ∧ bs.getLast? ≠ some '0') :
    compareDigits as bs = cmp (fractional as) (fractional bs) := by
  -- Digits that are left over stay aligned: no zeros at the end of a text are lost on the way.
  induction as generalizing bs with
  | nil =>
    cases bs with
    | nil => exact (cmp_self_eq_eq _).symm
    | cons b bs =>
      have last := aligned.resolve_left (by simp)
      have positive := fractional_pos all' (List.cons_ne_nil _ _) last.2
      exact ((cmp_eq_lt_iff _ _).2 (by simpa using positive)).symm
  | cons a as ih =>
    cases bs with
    | nil =>
      have last := aligned.resolve_left (by simp)
      have positive := fractional_pos all (List.cons_ne_nil _ _) last.1
      exact ((cmp_eq_gt_iff _ _).2 (by simpa using positive)).symm
    | cons b bs =>
      obtain ⟨digit, rest⟩ := List.forall_mem_cons.1 all
      obtain ⟨digit', rest'⟩ := List.forall_mem_cons.1 all'
      have tails : as.length = bs.length ∨ as.getLast? ≠ some '0' ∧ bs.getLast? ≠ some '0' := by
        refine aligned.imp Nat.succ.inj fun last => ?_
        rw [List.getLast?_cons, List.getLast?_cons] at last
        exact ⟨fun zero => last.1 (by simp [zero]), fun zero => last.2 (by simp [zero])⟩
      rw [compareDigits, ih rest rest' tails, compare_toNat digit digit', cmp_fractional_cons rest rest']

theorem compareDigits_of_length_eq (all : AllDigits as) (all' : AllDigits bs)
    (same : as.length = bs.length) : compareDigits as bs = cmp (natural as) (natural bs) := by
  rw [compareDigits_eq all all' (.inl same), ← (Nat.strictMono_cast (α := ℚ)).cmp_map_eq,
    natural_eq_fractional, natural_eq_fractional, same, cmp_mul_pos_right (by positivity)]

theorem compareDigits_eq_then (all : AllDigits as) (all' : AllDigits bs) :
    compareDigits as bs = (cmp (fractional as) (fractional bs)).then (cmp as.length bs.length) := by
  induction as generalizing bs with
  | nil =>
    cases bs with
    | nil =>
      rw [cmp_self_eq_eq, cmp_self_eq_eq]
      rfl
    | cons b bs =>
      have shorter : cmp ([] : List Char).length (b :: bs).length = .lt :=
        (cmp_eq_lt_iff _ _).2 (Nat.succ_pos _)
      rw [shorter, fractional_nil]
      rcases (fractional_nonneg (b :: bs)).lt_or_eq with positive | zero
      · rw [(cmp_eq_lt_iff _ _).2 positive]
        rfl
      · rw [← zero, cmp_self_eq_eq]
        rfl
  | cons a as ih =>
    cases bs with
    | nil =>
      have longer : cmp (a :: as).length ([] : List Char).length = .gt :=
        (cmp_eq_gt_iff _ _).2 (Nat.succ_pos _)
      rw [longer, fractional_nil]
      rcases (fractional_nonneg (a :: as)).lt_or_eq with positive | zero
      · rw [(cmp_eq_gt_iff _ _).2 positive]
        rfl
      · rw [← zero, cmp_self_eq_eq]
        rfl
    | cons b bs =>
      obtain ⟨digit, rest⟩ := List.forall_mem_cons.1 all
      obtain ⟨digit', rest'⟩ := List.forall_mem_cons.1 all'
      rw [compareDigits, ih rest rest', compare_toNat digit digit', cmp_fractional_cons rest rest',
        Ordering.then_assoc, List.length_cons, List.length_cons, cmp_add_right]

end Decimal

end Order

end XmlSchema.Datatype
