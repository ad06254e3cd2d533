import XmlSchema.Datatype.Lexical
import XmlSchema.Proofs.Datatype.Numeral

namespace XmlSchema.Datatype

def twoDigits (n : ℕ) : List Char := [(n / 10).digitChar, (n % 10).digitChar]

section TwoDigits

variable {n : ℕ} {c d : Char}

theorem digitChar_digitValue (digit : c.isDigit = true) : (digitValue c).digitChar = c := by
  apply Char.toNat_inj.1
  rw [Nat.toNat_digitChar_of_lt_ten (digitValue_lt digit), toNat_eq_of_isDigit digit, Nat.add_comm]

theorem digitValue_digitChar (small : n < 10) : digitValue n.digitChar = n := by
  rw [digitValue, Nat.toNat_digitChar_of_lt_ten small]
  exact Nat.add_sub_cancel_left 48 n

theorem natural_pair (c d : Char) : natural [c, d] = 10 * digitValue c + digitValue d := by
  rw [natural_cons, natural_singleton, List.length_singleton, pow_one, Nat.mul_comm]

theorem natural_twoDigits (small : n < 100) : natural (twoDigits n) = n := by
  rw [twoDigits, natural_pair, digitValue_digitChar (by omega), digitValue_digitChar (by omega)]
  omega

theorem twoDigits_natural (digit : c.isDigit = true) (digit' : d.isDigit = true) :
    twoDigits (natural [c, d]) = [c, d] := by
  have less := digitValue_lt digit'
  have first : (10 * digitValue c + digitValue d) / 10 = digitValue c := by omega
  have second : (10 * digitValue c + digitValue d) % 10 = digitValue d := by omega
  rw [natural_pair, twoDigits, first, second, digitChar_digitValue digit,
    digitChar_digitValue digit']

theorem allDigits_twoDigits (small : n < 100) : AllDigits (twoDigits n) := by
  have digit (m : ℕ) (less : m < 10) : m.digitChar.isDigit = true := by
    rw [Nat.isDigit_digitChar]
    exact decide_eq_true less
  exact List.forall_mem_cons.2 ⟨digit _ (by omega), List.forall_mem_singleton.2 (digit _ (by omega))⟩

end TwoDigits

def signLetters (negative : Bool) : List Char := if negative then ['-'] else []

structure Year where
  negative : Bool
  digits : List Char
  allDigits : AllDigits digits
  enough : digits.length = 4 ∨ 4 < digits.length ∧ digits.head? ≠ some '0'

namespace Year

def letters (y : Year) : List Char := signLetters y.negative ++ y.digits

def absolute (y : Year) : ℕ := natural y.digits

def value (y : Year) : ℤ := if y.negative then -y.absolute else y.absolute

end Year

def IsLeap (year : ℕ) : Prop := 4 ∣ year ∧ (100 ∣ year → 400 ∣ year)

instance (year : ℕ) : Decidable (IsLeap year) := inferInstanceAs (Decidable (_ ∧ _))

def monthLength (year : ℕ) : ℕ → ℕ
  | 1 | 3 | 5 | 7 | 8 | 10 | 12 => 31
  | 4 | 6 | 9 | 11 => 30
  | 2 => if IsLeap year then 29 else 28
  | _ => 0

theorem daysIn_eq {year month : ℕ} (first : 1 ≤ month) (last : month ≤ 12) :
    Lexical.daysIn year month = monthLength year month := by
  have leap : (year % 4 = 0 ∧ year % 100 ≠ 0) ∨ year % 400 = 0 ↔ IsLeap year := by
    unfold IsLeap
    omega
  obtain rfl | rfl | rfl | rfl | rfl | rfl | rfl | rfl | rfl | rfl | rfl | rfl :
      month = 1 ∨ month = 2 ∨ month = 3 ∨ month = 4 ∨ month = 5 ∨ month = 6 ∨ month = 7 ∨
        month = 8 ∨ month = 9 ∨ month = 10 ∨ month = 11 ∨ month = 12 := by omega
  all_goals simp [Lexical.daysIn, monthLength, leap]

theorem monthLength_le (year month : ℕ) : monthLength year month ≤ 31 := by
  unfold monthLength
  split <;> first | omega | (split <;> omega)

structure Date where
  year : Year
  month : ℕ
  day : ℕ
  day_pos : 1 ≤ day
  day_le : day ≤ monthLength year.absolute month

namespace Date

def letters (d : Date) : List Char :=
  d.year.letters ++ '-' :: (twoDigits d.month ++ '-' :: twoDigits d.day)

theorem letters_eq (d : Date) : d.letters = signLetters d.year.negative ++
    (d.year.digits ++ '-' :: (twoDigits d.month ++ '-' :: twoDigits d.day)) :=
  List.append_assoc _ _ _

theorem month_bounds (d : Date) : 1 ≤ d.month ∧ d.month ≤ 12 := by
  by_contra other
  have none : monthLength d.year.absolute d.month = 0 := by
    unfold monthLength
    split <;> first | rfl | omega
  have least := d.day_pos
  have most := d.day_le
  omega

theorem day_le_31 (d : Date) : d.day ≤ 31 := d.day_le.trans (monthLength_le _ _)

theorem isDigit_or_hyphen (d : Date) : ∀ c ∈ d.letters, c.isDigit = true ∨ c = '-' := by
  have months := d.month_bounds
  have days := d.day_le_31
  have number {n : ℕ} (small : n < 100) {c : Char} (member : c ∈ twoDigits n) :
      c.isDigit = true := allDigits_twoDigits small c member
  intro c member
  simp only [d.letters_eq, List.mem_append, List.mem_cons] at member
  rcases member with sign | digit | rfl | digit | rfl | digit
  · unfold signLetters at sign
    split at sign
    · exact .inr (List.mem_singleton.1 sign)
    · cases sign
  · exact .inl (d.year.allDigits c digit)
  · exact .inr rfl
  · exact .inl (number (by omega) digit)
  · exact .inr rfl
  · exact .inl (number (by omega) digit)

end Date

/-- A time of day. The last one is the midnight at the end of the day. -/
structure Time where
  hours : ℕ
  minutes : ℕ
  seconds : ℕ
  fraction : List Char
  digits : AllDigits fraction
  minutes_lt : minutes < 60
  seconds_lt : seconds < 60
  within : hours < 24 ∨ hours = 24 ∧ minutes = 0 ∧ seconds = 0 ∧ ∀ c ∈ fraction, c = '0'

def fractionLetters : List Char → List Char
  | [] => []
  | digits => '.' :: digits

def Time.letters (t : Time) : List Char :=
  twoDigits t.hours ++ ':' :: (twoDigits t.minutes ++ ':' :: (twoDigits t.seconds ++
    fractionLetters t.fraction))

/-- A time zone, which need not be told, as a distance in hours and minutes. -/
inductive Zone where
  | untold
  | utc
  | offset (sign : Sign) (hours minutes : ℕ) (hours_le : hours ≤ 14) (minutes_lt : minutes < 60)

namespace Zone

def letters : Zone → List Char
  | untold => []
  | utc => ['Z']
  | offset sign hours minutes _ _ => sign.char :: (twoDigits hours ++ ':' :: twoDigits minutes)

def distance : Zone → ℕ
  | untold | utc => 0
  | offset _ hours minutes _ _ => 60 * hours + minutes

end Zone

end XmlSchema.Datatype
