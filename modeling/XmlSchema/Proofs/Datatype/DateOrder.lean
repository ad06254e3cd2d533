import Mathlib.Data.Prod.Lex
import XmlSchema.Proofs.Datatype.DateLiterals

namespace XmlSchema.Datatype

namespace Decimal

variable {as bs : List Char}

theorem compareDigits_eq_lt_iff : compareDigits as bs = .lt ↔ as < bs := by
  induction as generalizing bs with
  | nil => cases bs <;> simp [compareDigits]
  | cons a as ih =>
    cases bs with
    | nil => simp [compareDigits]
    | cons b bs =>
      have less : a < b ↔ a.toNat < b.toNat := Iff.rfl
      rw [compareDigits, Ordering.then_eq_lt, ih, List.cons_lt_cons_iff, less, ← Char.toNat_inj,
        Nat.compare_eq_lt, Nat.compare_eq_eq]

theorem compareDigits_eq_eq_iff : compareDigits as bs = .eq ↔ as = bs := by
  induction as generalizing bs with
  | nil => cases bs <;> simp [compareDigits]
  | cons a as ih =>
    cases bs with
    | nil => simp [compareDigits]
    | cons b bs =>
      rw [compareDigits, Ordering.then_eq_eq, ih, Nat.compare_eq_eq, Char.toNat_inj,
        List.cons.injEq]

theorem compare_eq_compareDigits (s t : String) :
    Ord.compare s t = compareDigits s.toList t.toList := by
  have unfolded : Ord.compare s t = if s < t then .lt else if s = t then .eq else .gt := rfl
  have less : s < t ↔ compareDigits s.toList t.toList = .lt := by
    rw [compareDigits_eq_lt_iff, String.lt_iff]
  have same : s = t ↔ compareDigits s.toList t.toList = .eq := by
    rw [compareDigits_eq_eq_iff, String.toList_inj]
  rw [unfolded]
  simp only [less, same]
  cases compareDigits s.toList t.toList <;> rfl

theorem compareDigits_append (same : as.length = bs.length) (xs ys : List Char) :
    compareDigits (as ++ xs) (bs ++ ys) = (compareDigits as bs).then (compareDigits xs ys) := by
  induction as generalizing bs with
  | nil =>
    obtain rfl := List.length_eq_zero_iff.1 same.symm
    rfl
  | cons a as ih =>
    obtain ⟨b, bs, rfl⟩ := List.exists_cons_of_length_eq_add_one same.symm
    simp only [List.cons_append, compareDigits, ih (Nat.succ.inj same), Ordering.then_assoc]

theorem compareDigits_cons_self (c : Char) (xs ys : List Char) :
    compareDigits (c :: xs) (c :: ys) = compareDigits xs ys := by
  rw [compareDigits, Nat.compare_eq_eq.2 rfl]
  rfl

theorem compare_hyphen {c : Char} (digit : c.isDigit = true) :
    compare '-'.toNat c.toNat = .lt ∧ compare c.toNat '-'.toNat = .gt := by
  have less : '-'.toNat < c.toNat :=
    Nat.lt_of_lt_of_le (by decide) (Char.isDigit_iff_toNat.1 digit).1
  exact ⟨Nat.compare_eq_lt.2 less, Nat.compare_eq_gt.2 less⟩

theorem compareDigits_hyphen_left (all : AllDigits bs) (some : bs ≠ []) (xs ys : List Char) :
    compareDigits ('-' :: xs) (bs ++ ys) = .lt := by
  obtain ⟨b, bs, rfl⟩ := List.exists_cons_of_ne_nil some
  rw [List.cons_append, compareDigits, (compare_hyphen (all b List.mem_cons_self)).1]
  rfl

theorem compareDigits_hyphen_right (all : AllDigits as) (some : as ≠ []) (xs ys : List Char) :
    compareDigits (as ++ xs) ('-' :: ys) = .gt := by
  obtain ⟨a, as, rfl⟩ := List.exists_cons_of_ne_nil some
  rw [List.cons_append, compareDigits, (compare_hyphen (all a List.mem_cons_self)).2]
  rfl

theorem compareDigits_hyphen (all : AllDigits as) (all' : AllDigits bs) (xs ys : List Char) :
    compareDigits (as ++ '-' :: xs) (bs ++ '-' :: ys) =
      (compareDigits as bs).then (compareDigits xs ys) := by
  induction as generalizing bs with
  | nil =>
    cases bs with
    | nil => exact compareDigits_cons_self _ _ _
    | cons b bs => exact compareDigits_hyphen_left all' (List.cons_ne_nil _ _) _ _
  | cons a as ih =>
    cases bs with
    | nil => exact compareDigits_hyphen_right all (List.cons_ne_nil _ _) _ _
    | cons b bs =>
      rw [List.cons_append, List.cons_append, compareDigits,
        ih (List.forall_mem_cons.1 all).2 (List.forall_mem_cons.1 all').2, compareDigits,
        Ordering.then_assoc]

theorem compareDigits_twoDigits {m n : ℕ} (small : m < 100) (small' : n < 100) :
    compareDigits (twoDigits m) (twoDigits n) = compare m n := by
  rw [compareDigits_of_length_eq (allDigits_twoDigits small) (allDigits_twoDigits small') rfl,
    natural_twoDigits small, natural_twoDigits small', cmp_eq_compare]

end Decimal

namespace Year

variable (y z : Year)

def digitOrder : Ordering := compare (fractional y.digits) (fractional z.digits)

def sizeOrder : Ordering := compare y.digits.length z.digits.length

def textOrder : Ordering :=
  (compare z.negative y.negative).then ((y.digitOrder z).then (y.sizeOrder z))

/-- The texts of two years are in the order of the years: years without a sign must not differ in
the one direction in their digits and in the other one in the number of these, but years with a sign
must. -/
def SortsWith : Prop :=
  match y.negative, z.negative with
  | false, false => y.sizeOrder z = .eq ∨ y.digitOrder z = .eq ∨ y.digitOrder z = y.sizeOrder z
  | true, true => y.digitOrder z = (y.sizeOrder z).swap
  | _, _ => ¬(y.absolute = 0 ∧ z.absolute = 0)

variable {y z}

theorem digits_ne_nil (y : Year) : y.digits ≠ [] := by
  have enough := y.enough
  exact List.ne_nil_of_length_pos (by omega)

theorem absolute_lt (shorter : y.digits.length < z.digits.length) : y.absolute < z.absolute := by
  have first : z.digits.head? ≠ some '0' := by
    rcases z.enough with four | ⟨-, first⟩
    · have atLeast := y.enough
      omega
    · exact first
  calc
    y.absolute < 10 ^ y.digits.length := natural_lt y.allDigits
    _ ≤ 10 ^ (z.digits.length - 1) :=
      Nat.pow_le_pow_right (by decide) (Nat.le_sub_one_of_lt shorter)
    _ ≤ z.absolute := le_natural z.allDigits (List.ne_nil_of_length_pos (by omega)) first

theorem compare_absolute (y z : Year) :
    compare y.absolute z.absolute = (y.sizeOrder z).then (y.digitOrder z) := by
  rcases lt_trichotomy y.digits.length z.digits.length with shorter | same | longer
  · rw [sizeOrder, compare_lt_iff_lt.2 shorter, compare_lt_iff_lt.2 (absolute_lt shorter)]
    rfl
  · have digits := Decimal.compareDigits_of_length_eq y.allDigits z.allDigits same
    rw [Decimal.compareDigits_eq y.allDigits z.allDigits (.inl same), cmp_eq_compare,
      cmp_eq_compare] at digits
    rw [sizeOrder, compare_eq_iff_eq.2 same]
    exact digits.symm
  · rw [sizeOrder, compare_gt_iff_gt.2 longer, compare_gt_iff_gt.2 (absolute_lt longer)]
    rfl

theorem compare_cast (m n : ℕ) : compare (m : ℤ) n = compare m n := by
  rw [← cmp_eq_compare, (Nat.strictMono_cast (α := ℤ)).cmp_map_eq, cmp_eq_compare]

theorem compare_neg_cast (m n : ℕ) : compare (-(m : ℤ)) (-n) = (compare m n).swap := by
  have opposite : StrictAnti fun n : ℕ => -(n : ℤ) := fun m n less => by simpa using less
  rw [← cmp_eq_compare, ← cmp_eq_compare, cmp_swap]
  exact opposite.cmp_map_eq m n

theorem compare_neg_cast_cast (m n : ℕ) :
    compare (-(m : ℤ)) n = .lt ↔ ¬(m = 0 ∧ n = 0) := by
  rw [compare_lt_iff_lt]
  omega

theorem compare_cast_neg_cast (m n : ℕ) :
    compare (m : ℤ) (-n) = .gt ↔ ¬(m = 0 ∧ n = 0) := by
  rw [compare_gt_iff_gt]
  omega

theorem textOrder_eq_iff : y.textOrder z = compare y.value z.value ↔ y.SortsWith z := by
  unfold textOrder SortsWith value
  cases y.negative <;> cases z.negative
  · simp only [Bool.false_eq_true, if_false, compare_cast, compare_absolute]
    cases y.digitOrder z <;> cases y.sizeOrder z <;> decide
  · exact eq_comm.trans (compare_cast_neg_cast _ _)
  · exact eq_comm.trans (compare_neg_cast_cast _ _)
  · simp only [if_true, compare_neg_cast, compare_absolute]
    cases y.digitOrder z <;> cases y.sizeOrder z <;> decide

theorem value_eq_of_textOrder (same : y.textOrder z = .eq) : y.value = z.value := by
  simp only [textOrder, Ordering.then_eq_eq] at same
  obtain ⟨signs, digits, size⟩ := same
  have signs : y.negative = z.negative := by
    revert signs
    cases y.negative <;> cases z.negative <;> decide
  have absolute : y.absolute = z.absolute := by
    rw [← compare_eq_iff_eq, compare_absolute, size, digits]
    rfl
  rw [value, value, signs, absolute]

end Year

namespace Date

def text (d : Date) : String := String.ofList d.letters

/-- The place of a date in time: year, month and day, with the year counted most. -/
def place (d : Date) : ℤ ×ₗ ℕ ×ₗ ℕ := toLex (d.year.value, toLex (d.month, d.day))

def textOrder (a b : Date) : Ordering :=
  (a.year.textOrder b.year).then ((compare a.month b.month).then (compare a.day b.day))

variable {a b : Date}

theorem compare_place (a b : Date) : compare a.place b.place =
    (compare a.year.value b.year.value).then
      ((compare a.month b.month).then (compare a.day b.day)) := rfl

theorem compareDigits_date (a b : Date) :
    Decimal.compareDigits a.letters b.letters = a.textOrder b := by
  have months := a.month_bounds
  have months' := b.month_bounds
  have days := a.day_le_31
  have days' := b.day_le_31
  have behind : Decimal.compareDigits (twoDigits a.month ++ '-' :: twoDigits a.day)
      (twoDigits b.month ++ '-' :: twoDigits b.day) =
        (compare a.month b.month).then (compare a.day b.day) := by
    have same : (twoDigits a.month).length = (twoDigits b.month).length := rfl
    rw [Decimal.compareDigits_append same, Decimal.compareDigits_cons_self,
      Decimal.compareDigits_twoDigits (by omega) (by omega),
      Decimal.compareDigits_twoDigits (by omega) (by omega)]
  have digits : Decimal.compareDigits a.year.digits b.year.digits =
      (a.year.digitOrder b.year).then (a.year.sizeOrder b.year) := by
    rw [Decimal.compareDigits_eq_then a.year.allDigits b.year.allDigits, cmp_eq_compare,
      cmp_eq_compare]
    rfl
  have unsigned := Decimal.compareDigits_hyphen a.year.allDigits b.year.allDigits
    (twoDigits a.month ++ '-' :: twoDigits a.day) (twoDigits b.month ++ '-' :: twoDigits b.day)
  rw [digits, behind] at unsigned
  rw [a.letters_eq, b.letters_eq, textOrder, Year.textOrder]
  cases a.year.negative <;> cases b.year.negative
  · exact unsigned
  · exact Decimal.compareDigits_hyphen_right a.year.allDigits a.year.digits_ne_nil _ _
  · exact Decimal.compareDigits_hyphen_left b.year.allDigits b.year.digits_ne_nil _ _
  · exact (Decimal.compareDigits_cons_self _ _ _).trans unsigned

theorem textOrder_eq_iff (different : a.year.value ≠ b.year.value) :
    a.textOrder b = compare a.place b.place ↔ a.year.SortsWith b.year := by
  rw [← Year.textOrder_eq_iff, compare_place, textOrder]
  have told : compare a.year.value b.year.value ≠ .eq := fun same =>
    different (compare_eq_iff_eq.1 same)
  have told' : a.year.textOrder b.year ≠ .eq := fun same =>
    different (Year.value_eq_of_textOrder same)
  revert told told'
  cases a.year.textOrder b.year <;> cases compare a.year.value b.year.value <;> simp

theorem textOrder_eq (sorts : a.year.SortsWith b.year) :
    a.textOrder b = compare a.place b.place := by
  rw [compare_place, textOrder, Year.textOrder_eq_iff.2 sorts]

theorem exists_text_iff {v : String} : (Builtin.date.isLiteral v = true ∧ IsAscii v.toList) ∧
    'Z' ∉ v.toList ∧ ':' ∉ v.toList ↔
      ∃ d : Date, d.year.absolute ≤ Lexical.maxYear ∧ d.text = v := by
  rw [isLiteral_date_and_isAscii_iff]
  constructor
  · rintro ⟨⟨d, small, zone, spelled⟩, noZone, noColon⟩
    rw [← spelled] at noZone noColon
    refine ⟨d, small, ?_⟩
    cases zone with
    | untold => rw [text, ← String.toList_inj, String.toList_ofList, ← spelled, Zone.letters,
        List.append_nil]
    | utc => exact absurd (by simp [Zone.letters]) noZone
    | offset => exact absurd (by simp [Zone.letters]) noColon
  · rintro ⟨d, small, rfl⟩
    rw [text, String.toList_ofList]
    refine ⟨⟨d, small, .untold, List.append_nil _⟩, fun member => ?_, fun member => ?_⟩
    · exact absurd (d.isDigit_or_hyphen 'Z' member) (by decide)
    · exact absurd (d.isDigit_or_hyphen ':' member) (by decide)

end Date

namespace SimpleType

variable {t : SimpleType}

theorem compare?_dates (primitive : t.primitive? = some .date) (a b : Date) :
    t.compare? a.text b.text = some (a.textOrder b) := by
  have asTexts : t.compare? a.text b.text = some (Ord.compare a.text b.text) := by
    rw [compare?, primitive]
    rfl
  rw [asTexts, Decimal.compare_eq_compareDigits, Date.text, Date.text, String.toList_ofList,
    String.toList_ofList, Date.compareDigits_date]

/-- Dates without time zones are compared as texts. That is their order in time exactly if the texts of
their years are in order, unless the years are the same anyway. Then the facets for bounds admit the
dates on the right side of the bound. -/
theorem dates_compared (primitive : t.primitive? = some .date) (a b : Date) :
    (∀ v : String, (Builtin.date.isLiteral v = true ∧ IsAscii v.toList) ∧
      'Z' ∉ v.toList ∧ ':' ∉ v.toList ↔
        ∃ d : Date, d.year.absolute ≤ Lexical.maxYear ∧ d.text = v) ∧
    t.compare? a.text b.text = some (a.textOrder b) ∧
    (a.year.value ≠ b.year.value →
      (t.compare? a.text b.text = some (compare a.place b.place) ↔ a.year.SortsWith b.year)) ∧
    (a.year.SortsWith b.year →
      t.compare? a.text b.text = some (compare a.place b.place) ∧
      (t.passes a.text (.minInclusive b.text) = true ↔ b.place ≤ a.place) ∧
      (t.passes a.text (.maxInclusive b.text) = true ↔ a.place ≤ b.place) ∧
      (t.passes a.text (.minExclusive b.text) = true ↔ b.place < a.place) ∧
      (t.passes a.text (.maxExclusive b.text) = true ↔ a.place < b.place)) := by
  have compared := compare?_dates primitive a b
  refine ⟨fun _ => Date.exists_text_iff, compared, fun different => ?_, fun sorts => ?_⟩
  · rw [compared, Option.some.injEq]
    exact Date.textOrder_eq_iff different
  · rw [Date.textOrder_eq sorts] at compared
    exact ⟨compared, passes_of_compare? compared⟩

def lastDay : Date where
  year := ⟨false, ['9', '9', '9', '9'], by decide, .inl rfl⟩
  month := 12
  day := 31
  day_pos := by decide
  day_le := by decide

theorem newYear_compared : (builtin .date).primitive? = some .date ∧
    newYear.year.value ≠ lastDay.year.value ∧ newYear.year.SortsWith lastDay.year ∧
    (builtin .date).compare? newYear.text lastDay.text =
      some (compare newYear.place lastDay.place) ∧
    (builtin .date).passes newYear.text (.maxInclusive lastDay.text) = true := by
  have different : newYear.year.value ≠ lastDay.year.value := by decide
  have sorts : newYear.year.SortsWith lastDay.year := .inl rfl
  obtain ⟨-, -, told, bounds⟩ := dates_compared (t := builtin .date) rfl newYear lastDay
  exact ⟨rfl, different, sorts, (told different).2 sorts, (bounds sorts).2.2.1.2 (by decide)⟩

def dayAfter : Date :=
  { newYear with
    year := ⟨false, ['1', '0', '0', '0', '0'], by decide, .inr (by decide)⟩
    day_le := by decide }

/-- As a text, a year of five digits may come before one of four. -/
theorem dayAfter_misplaced : lastDay.text = "9999-12-31" ∧ dayAfter.text = "10000-01-01" ∧
    Builtin.date.isLiteral lastDay.text = true ∧ Builtin.date.isLiteral dayAfter.text = true ∧
    lastDay.place < dayAfter.place ∧
    (builtin .date).compare? dayAfter.text lastDay.text = some .lt ∧
    (builtin .date).passes dayAfter.text (.maxInclusive lastDay.text) = true := by
  have compared : (builtin .date).compare? dayAfter.text lastDay.text = some .lt :=
    (compare?_dates rfl dayAfter lastDay).trans (congrArg some (by decide +kernel))
  have literal (d : Date) (small : d.year.absolute ≤ Lexical.maxYear) :
      Builtin.date.isLiteral d.text = true := (Date.exists_text_iff.2 ⟨d, small, rfl⟩).1.1
  have passes : (builtin .date).passes dayAfter.text (.maxInclusive lastDay.text) = true := by
    rw [SimpleType.passes, compared]
    rfl
  exact ⟨rfl, rfl, literal _ (by decide), literal _ (by decide), by decide, compared, passes⟩

end SimpleType

end XmlSchema.Datatype
