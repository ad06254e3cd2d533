import Mathlib.Order.Antisymmetrization
import XmlSchema.Proofs.Datatype.Digits

namespace XmlSchema.Datatype

namespace Decimal

def magnitude (d : Decimal) : ℚ := natural d.whole + fractional d.fraction

def value (d : Decimal) : ℚ := if d.negative then -d.magnitude else d.magnitude

structure Reduced (d : Decimal) : Prop where
  whole : AllDigits d.whole
  fraction : AllDigits d.fraction
  first : d.whole.head? ≠ some '0'
  last : d.fraction.getLast? ≠ some '0'
  negative : d.negative = true → 0 < d.magnitude

variable {a b : Decimal}

theorem magnitude_nonneg (d : Decimal) : 0 ≤ d.magnitude :=
  add_nonneg (Nat.cast_nonneg _) (fractional_nonneg _)

theorem natural_lt_of_length_lt (reduced : a.Reduced) (reduced' : b.Reduced)
    (shorter : a.whole.length < b.whole.length) : natural a.whole < natural b.whole :=
  calc
    natural a.whole < 10 ^ a.whole.length := natural_lt reduced.whole
    _ ≤ 10 ^ (b.whole.length - 1) := Nat.pow_le_pow_right (by decide) (Nat.le_sub_one_of_lt shorter)
    _ ≤ natural b.whole :=
      le_natural reduced'.whole (List.ne_nil_of_length_pos (by omega)) reduced'.first

theorem compareWhole_eq (reduced : a.Reduced) (reduced' : b.Reduced) :
    (compare a.whole.length b.whole.length).then (compareDigits a.whole b.whole) =
      cmp (natural a.whole) (natural b.whole) := by
  rw [← cmp_eq_compare]
  rcases lt_trichotomy a.whole.length b.whole.length with shorter | same | longer
  · rw [(cmp_eq_lt_iff _ _).2 shorter,
      (cmp_eq_lt_iff _ _).2 (natural_lt_of_length_lt reduced reduced' shorter)]
    rfl
  · rw [(cmp_eq_eq_iff _ _).2 same, Ordering.then,
      compareDigits_of_length_eq reduced.whole reduced'.whole same]
  · rw [(cmp_eq_gt_iff _ _).2 longer,
      (cmp_eq_gt_iff _ _).2 (natural_lt_of_length_lt reduced' reduced longer)]
    rfl

theorem compareMagnitude_eq (reduced : a.Reduced) (reduced' : b.Reduced) :
    compareMagnitude a b = cmp a.magnitude b.magnitude := by
  rw [compareMagnitude, compareWhole_eq reduced reduced',
    compareDigits_eq reduced.fraction reduced'.fraction (.inr ⟨reduced.last, reduced'.last⟩),
    magnitude, magnitude,
    cmp_natCast_add (fractional_nonneg _) (fractional_lt_one reduced.fraction)
      (fractional_nonneg _) (fractional_lt_one reduced'.fraction)]

theorem order_eq (reduced : a.Reduced) (reduced' : b.Reduced) :
    a.order b = cmp a.value b.value := by
  have magnitudes := compareMagnitude_eq reduced reduced'
  have nonneg := a.magnitude_nonneg
  have nonneg' := b.magnitude_nonneg
  unfold order value
  cases negative : a.negative <;> cases negative' : b.negative
  · exact magnitudes
  · have positive := reduced'.negative negative'
    exact ((cmp_eq_gt_iff _ _).2 (by simp; linarith)).symm
  · have positive := reduced.negative negative
    exact ((cmp_eq_lt_iff _ _).2 (by simp; linarith)).symm
  · change (compareMagnitude a b).swap = cmp (-a.magnitude) (-b.magnitude)
    rw [magnitudes, cmp_swap]
    exact (StrictAnti.cmp_map_eq (fun _ _ => neg_lt_neg) a.magnitude b.magnitude).symm

def ofDigits (negative : Bool) (whole fraction : List Char) : Decimal :=
  let whole := whole.dropWhile (· == '0')
  let fraction := dropTrailingZeros fraction
  ⟨negative && !(whole.isEmpty && fraction.isEmpty), whole, fraction⟩

section OfDigits

variable {negative : Bool} {whole fraction : List Char}

theorem magnitude_ofDigits :
    (ofDigits negative whole fraction).magnitude = natural whole + fractional fraction := by
  simp only [ofDigits, magnitude, natural_dropWhile, fractional_dropTrailingZeros]

theorem value_ofDigits : (ofDigits negative whole fraction).value =
    if negative then -(natural whole + fractional fraction)
    else natural whole + fractional fraction := by
  rw [value, magnitude_ofDigits]
  by_cases counts : (ofDigits negative whole fraction).negative = negative
  · rw [counts]
  · have empty : whole.dropWhile (· == '0') = [] ∧ dropTrailingZeros fraction = [] := by
      have none : negative = true ∧ whole.dropWhile (· == '0') = [] ∧
          dropTrailingZeros fraction = [] := by simpa [ofDigits] using counts
      exact none.2
    have zero : natural whole + fractional fraction = 0 := by
      rw [← natural_dropWhile, ← fractional_dropTrailingZeros, empty.1, empty.2]
      simp
    simp [zero]

theorem head?_dropWhile_zero (digits : List Char) :
    (digits.dropWhile (· == '0')).head? ≠ some '0' := by
  intro zero
  have first := List.head?_dropWhile_not (· == '0') digits
  rw [zero] at first
  simp at first

theorem reduced_ofDigits (all : AllDigits whole) (all' : AllDigits fraction) :
    (ofDigits negative whole fraction).Reduced := by
  have whole' : AllDigits (whole.dropWhile (· == '0')) := fun c member =>
    all c ((List.dropWhile_sublist _).subset member)
  have fraction' : AllDigits (dropTrailingZeros fraction) := fun c member =>
    all' c (List.mem_reverse.1 ((List.dropWhile_sublist _).subset (List.mem_reverse.1 member)))
  have first := head?_dropWhile_zero whole
  have last : (dropTrailingZeros fraction).getLast? ≠ some '0' := by
    rw [dropTrailingZeros, List.getLast?_reverse]
    exact head?_dropWhile_zero _
  refine ⟨whole', fraction', first, last, fun counts => ?_⟩
  have some : whole.dropWhile (· == '0') ≠ [] ∨ dropTrailingZeros fraction ≠ [] := by
    simp only [ofDigits, Bool.and_eq_true, Bool.not_eq_true', Bool.and_eq_false_iff] at counts
    simpa using counts.2
  rcases some with nonempty | nonempty
  · have positive : (0 : ℚ) < natural (whole.dropWhile (· == '0')) :=
      Nat.cast_pos.2 (natural_pos whole' nonempty first)
    exact add_pos_of_pos_of_nonneg positive (fractional_nonneg _)
  · exact add_pos_of_nonneg_of_pos (Nat.cast_nonneg _) (fractional_pos fraction' nonempty last)

end OfDigits

def unsigned (whole : List Char) (fraction : Option (List Char)) : List Char :=
  whole ++ fraction.elim [] ('.' :: ·)

theorem unsigned_ne_nil_iff {whole : List Char} {fraction : Option (List Char)} :
    unsigned whole fraction ≠ [] ↔ whole ≠ [] ∨ fraction.isSome := by
  cases fraction <;> simp [unsigned]

theorem head?_unsigned {whole : List Char} {fraction : Option (List Char)} (all : AllDigits whole) :
    ∀ c ∈ (unsigned whole fraction).head?, c.isDigit = true ∨ c = '.' := by
  cases whole with
  | nil => cases fraction <;> simp [unsigned]
  | cons first whole =>
    intro c same
    obtain rfl : first = c := by simpa [unsigned] using same
    exact .inl (all first List.mem_cons_self)

theorem exists_unsigned (text : List Char) :
    ∃ whole fraction, '.' ∉ whole ∧ unsigned whole fraction = text := by
  cases split : Xml.splitAtChar '.' text with
  | none =>
    exact ⟨text, none, Xml.splitAtChar_eq_none_iff.1 split, List.append_nil _⟩
  | some parts =>
    obtain ⟨noPoint, same⟩ := Xml.splitAtChar_eq_some_iff.1 split
    exact ⟨parts.1, some parts.2, noPoint, same.symm⟩

theorem ofUnsigned?_unsigned {negative : Bool} {whole : List Char} {fraction : Option (List Char)}
    (noPoint : '.' ∉ whole) : ofUnsigned? negative (unsigned whole fraction) =
      if whole.all Char.isDigit && (fraction.getD []).all Char.isDigit then
        some (ofDigits negative whole (fraction.getD []))
      else none := by
  cases fraction with
  | none =>
    rw [unsigned, Option.elim, List.append_nil, ofUnsigned?,
      Xml.splitAtChar_eq_none_iff.2 noPoint]
    rfl
  | some fraction =>
    rw [unsigned, Option.elim, ofUnsigned?, Xml.splitAtChar_eq_some_iff.2 ⟨noPoint, rfl⟩]
    rfl

theorem ofUnsigned?_eq_some_iff {negative : Bool} {text : List Char} {d : Decimal} :
    ofUnsigned? negative text = some d ↔ ∃ whole fraction, AllDigits whole ∧
      AllDigits (fraction.getD []) ∧ unsigned whole fraction = text ∧
        ofDigits negative whole (fraction.getD []) = d := by
  have digits (whole fraction : List Char) :
      (whole.all Char.isDigit && fraction.all Char.isDigit) = true ↔
        AllDigits whole ∧ AllDigits fraction := by
    simp [AllDigits]
  constructor
  · intro read
    obtain ⟨whole, fraction, noPoint, rfl⟩ := exists_unsigned text
    rw [ofUnsigned?_unsigned noPoint] at read
    obtain ⟨all, made⟩ := Option.ite_none_right_eq_some.1 read
    rw [digits] at all
    exact ⟨whole, fraction, all.1, all.2, rfl, Option.some.inj made⟩
  · rintro ⟨whole, fraction, all, all', rfl, rfl⟩
    have noPoint : '.' ∉ whole := fun member => absurd (all '.' member) (by decide)
    rw [ofUnsigned?_unsigned noPoint, if_pos ((digits _ _).2 ⟨all, all'⟩)]

end Decimal

inductive Sign where
  | plus
  | minus
  deriving DecidableEq

def Sign.char : Sign → Char
  | plus => '+'
  | minus => '-'

def spelled (sign : Option Sign) (whole : List Char) (fraction : Option (List Char)) : List Char :=
  (sign.map Sign.char).toList ++ Decimal.unsigned whole fraction

/-- A sign, digits, and a point with digits, any of which may be missing, but not all of them. -/
structure Numeral where
  sign : Option Sign
  whole : List Char
  fraction : Option (List Char)
  digits : AllDigits whole
  fractionDigits : AllDigits (fraction.getD [])
  nonempty : sign.isSome ∨ whole ≠ [] ∨ fraction.isSome

namespace Numeral

def letters (n : Numeral) : List Char := spelled n.sign n.whole n.fraction

def text (n : Numeral) : String := String.ofList n.letters

def ofNat (n : ℕ) : Numeral where
  sign := none
  whole := Nat.toDigits 10 n
  fraction := none
  digits _ := Nat.isDigit_of_mem_toDigits (by decide) le_rfl
  fractionDigits := List.forall_mem_nil _
  nonempty := .inr (.inl Nat.toDigits_ne_nil)

def value (n : Numeral) : ℚ :=
  let magnitude := natural n.whole + fractional (n.fraction.getD [])
  if n.sign = some .minus then -magnitude else magnitude

def decimal (n : Numeral) : Decimal :=
  Decimal.ofDigits (n.sign == some .minus) n.whole (n.fraction.getD [])

theorem reduced_decimal (n : Numeral) : n.decimal.Reduced :=
  Decimal.reduced_ofDigits n.digits n.fractionDigits

theorem value_decimal (n : Numeral) : n.decimal.value = n.value := by
  rw [decimal, Decimal.value_ofDigits]
  simp [value]

end Numeral

open Decimal in
theorem Decimal.ofText?_eq_some_iff {text : List Char} {d : Decimal} :
    ofText? text = some d ↔ ∃ n : Numeral, n.letters = text ∧ n.decimal = d := by
  constructor
  · intro read
    unfold ofText? at read
    split at read
    · cases read
    · obtain ⟨whole, fraction, all, all', rfl, rfl⟩ := ofUnsigned?_eq_some_iff.1 read
      exact ⟨⟨some .minus, whole, fraction, all, all', .inl rfl⟩, rfl, rfl⟩
    · obtain ⟨whole, fraction, all, all', rfl, rfl⟩ := ofUnsigned?_eq_some_iff.1 read
      exact ⟨⟨some .plus, whole, fraction, all, all', .inl rfl⟩, rfl, rfl⟩
    · next nonempty _ _ =>
      obtain ⟨whole, fraction, all, all', rfl, rfl⟩ := ofUnsigned?_eq_some_iff.1 read
      exact ⟨⟨none, whole, fraction, all, all', .inr (unsigned_ne_nil_iff.1 nonempty)⟩, rfl, rfl⟩
  · rintro ⟨⟨sign, whole, fraction, all, all', nonempty⟩, rfl, rfl⟩
    have read (negative : Bool) : ofUnsigned? negative (unsigned whole fraction) =
        some (ofDigits negative whole (fraction.getD [])) :=
      ofUnsigned?_eq_some_iff.2 ⟨whole, fraction, all, all', rfl, rfl⟩
    rcases sign with _ | _ | _
    · have first : ∀ c ∈ (unsigned whole fraction).head?, c.isDigit = true ∨ c = '.' :=
        head?_unsigned all
      have nonempty := unsigned_ne_nil_iff.2 (nonempty.resolve_left (by decide))
      have unsignedText : ofText? (unsigned whole fraction) =
          ofUnsigned? false (unsigned whole fraction) := by
        unfold ofText?
        split
        · contradiction
        · next same => simp [same] at first
        · next same => simp [same] at first
        · rfl
      exact unsignedText.trans (read false)
    · exact read false
    · exact read true

theorem Decimal.ofText?_text (n : Numeral) : ofText? n.text.toList = some n.decimal :=
  ofText?_eq_some_iff.2 ⟨n, String.toList_ofList.symm, rfl⟩

theorem exists_numeral {text : String} {d : Decimal} (read : Decimal.ofText? text.toList = some d) :
    ∃ n : Numeral, n.text = text := by
  obtain ⟨n, same, -⟩ := Decimal.ofText?_eq_some_iff.1 read
  exact ⟨n, by rw [Numeral.text, same, String.ofList_toList]⟩

theorem compareDecimal?_text (m n : Numeral) :
    compareDecimal? m.text n.text = some (compare m.value n.value) := by
  rw [compareDecimal?, Decimal.ofText?_text, Decimal.ofText?_text, ← cmp_eq_compare,
    ← m.value_decimal, ← n.value_decimal, ← Decimal.order_eq m.reduced_decimal n.reduced_decimal]
  rfl

theorem isSome_compareDecimal?_iff {a b : String} : (compareDecimal? a b).isSome ↔
    (∃ m : Numeral, m.text = a) ∧ ∃ n : Numeral, n.text = b := by
  constructor
  · intro compared
    obtain ⟨order, compared⟩ := Option.isSome_iff_exists.1 compared
    obtain ⟨d, read, compared⟩ := Option.bind_eq_some_iff.1 compared
    obtain ⟨d', read', -⟩ := Option.bind_eq_some_iff.1 compared
    exact ⟨exists_numeral read, exists_numeral read'⟩
  · rintro ⟨⟨m, rfl⟩, n, rfl⟩
    rw [compareDecimal?_text]
    rfl

/-- The texts of two numerals are compared, and the first is not found greater. -/
def Numeral.AtMost (m n : Numeral) : Prop :=
  ∃ order, compareDecimal? m.text n.text = some order ∧ order ≠ .gt

theorem Numeral.atMost_iff {m n : Numeral} : m.AtMost n ↔ m.value ≤ n.value := by
  rw [AtMost, compareDecimal?_text, ← compare_le_iff_le]
  simp

theorem Numeral.isPreorder_atMost : IsPreorder Numeral AtMost where
  refl _ := atMost_iff.2 le_rfl
  trans _ _ _ least greatest :=
    atMost_iff.2 ((atMost_iff.1 least).trans (atMost_iff.1 greatest))

/-- Texts can be compared exactly if they are numerals, and their order is that of the numbers that
they stand for: a total preorder, in which only equal numbers are not told apart. -/
theorem compared_by_value :
    (∀ a b : String, (compareDecimal? a b).isSome ↔
      (∃ m : Numeral, m.text = a) ∧ ∃ n : Numeral, n.text = b) ∧
    (∀ m n : Numeral, compareDecimal? m.text n.text = some (compare m.value n.value)) ∧
    IsPreorder Numeral Numeral.AtMost ∧ Std.Total Numeral.AtMost ∧
    ∀ m n : Numeral, AntisymmRel Numeral.AtMost m n ↔ m.value = n.value := by
  refine ⟨fun _ _ => isSome_compareDecimal?_iff, compareDecimal?_text, Numeral.isPreorder_atMost,
    ⟨fun m n => ?_⟩, fun m n => ?_⟩
  · exact (le_total m.value n.value).imp Numeral.atMost_iff.2 Numeral.atMost_iff.2
  · rw [AntisymmRel, Numeral.atMost_iff, Numeral.atMost_iff, le_antisymm_iff]

end XmlSchema.Datatype
