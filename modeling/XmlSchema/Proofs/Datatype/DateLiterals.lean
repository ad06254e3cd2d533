import XmlSchema.Proofs.Datatype.Calendar
import XmlSchema.Proofs.Datatype.DecimalLiterals
import XmlSchema.Proofs.Regex.Plain

namespace XmlSchema.Datatype

open Regex (Expr CharSet)

namespace Lexical

variable {text : List Char}

def IsPair (e : Expr) (p : Char → Char → Prop) : Prop :=
  ∀ text, text ∈ e.texts ↔ ∃ c d, text = [c, d] ∧ p c d

section IsPair

variable {a b e : Expr} {p q : Char → Char → Prop}

theorem isPair_seq (s t : CharSet) :
    IsPair (.seq (.chars s) (.chars t)) fun c d => s.mem c = true ∧ t.mem d = true :=
  fun _ => Expr.mem_texts_pair

theorem IsPair.alt (first : IsPair a p) (second : IsPair b q) :
    IsPair (.alt a b) fun c d => p c d ∨ q c d := by
  intro text
  rw [Expr.mem_texts_alt, first, second]
  simp only [and_or_left, exists_or]

theorem IsPair.numbers (pair : IsPair e p) {number : ℕ → Prop} (small : ∀ n, number n → n < 100)
    (same : ∀ c d, c.toNat < 128 → d.toNat < 128 →
      (p c d ↔ (48 ≤ c.toNat ∧ c.toNat ≤ 57) ∧ (48 ≤ d.toNat ∧ d.toNat ≤ 57) ∧
        number (10 * (c.toNat - 48) + (d.toNat - 48)))) :
    text ∈ e.texts ∧ IsAscii text ↔ ∃ n, number n ∧ twoDigits n = text := by
  rw [pair]
  constructor
  · rintro ⟨⟨c, d, rfl, holds⟩, ascii⟩
    simp only [isAscii_cons, isAscii_nil, and_true] at ascii
    obtain ⟨first, second, number⟩ := (same c d ascii.1 ascii.2).1 holds
    refine ⟨natural [c, d], ?_, ?_⟩
    · rwa [natural_pair]
    · exact twoDigits_natural (Char.isDigit_iff_toNat.2 first) (Char.isDigit_iff_toNat.2 second)
  · rintro ⟨n, number, rfl⟩
    have less := small n number
    have digits := allDigits_twoDigits less
    have ascii := isAscii_of_allDigits digits
    have code (m : ℕ) (few : m < 10) : m.digitChar.toNat = 48 + m :=
      Nat.toNat_digitChar_of_lt_ten few
    have first := code (n / 10) (by omega)
    have second := code (n % 10) (by omega)
    have whole : 10 * (48 + n / 10 - 48) + (48 + n % 10 - 48) = n := by omega
    refine ⟨⟨_, _, rfl, (same _ _ ?_ ?_).2 ?_⟩, ascii⟩
    · omega
    · omega
    · rw [first, second, whole]
      exact ⟨by omega, by omega, number⟩

end IsPair

def hour : Expr :=
  .alt (.seq (Expr.anyOf "01") digit) (.seq (Expr.literal "2") (Expr.between '0' '3'))

def zoneHour : Expr :=
  .alt (.seq (Expr.literal "0") digit) (.seq (Expr.literal "1") (Expr.between '0' '4'))

def digitSet : CharSet := .property (.category [.nd])

theorem mem_digitSet {c : Char} : digitSet.mem c = true ↔ Unicode.category c = .nd := by
  simp [digitSet, CharSet.mem, Unicode.Property.holds]

theorem mem_digitSet_of_ascii {c : Char} (ascii : c.toNat < 128) :
    digitSet.mem c = true ↔ 48 ≤ c.toNat ∧ c.toNat ≤ 57 := by
  rw [mem_digitSet, Unicode.category_eq_nd_iff ascii, Char.isDigit_iff_toNat]
  rfl

theorem mem_texts_sixtieth :
    text ∈ sixtieth.texts ∧ IsAscii text ↔ ∃ n, n < 60 ∧ twoDigits n = text := by
  have pair : IsPair sixtieth _ := isPair_seq (.range 48 53) digitSet
  refine pair.numbers (by omega) fun c d _ ascii => ?_
  simp only [mem_digitSet_of_ascii ascii, CharSet.mem, Bool.and_eq_true, decide_eq_true_eq]
  omega

theorem mem_texts_hour : text ∈ hour.texts ∧ IsAscii text ↔ ∃ n, n < 24 ∧ twoDigits n = text := by
  have pair : IsPair hour _ :=
    (isPair_seq (.union (.union .empty (.singleton '0')) (.singleton '1')) digitSet).alt
      (isPair_seq (.singleton '2') (.range 48 51))
  refine pair.numbers (by omega) fun c d _ ascii => ?_
  simp only [mem_digitSet_of_ascii ascii, CharSet.mem, CharSet.singleton, Bool.and_eq_true,
    Bool.or_eq_true, Bool.false_or, decide_eq_true_eq, Char.reduceToNat]
  omega

theorem mem_texts_zoneHour :
    text ∈ zoneHour.texts ∧ IsAscii text ↔ ∃ n, n ≤ 14 ∧ twoDigits n = text := by
  have pair : IsPair zoneHour _ :=
    (isPair_seq (.singleton '0') digitSet).alt (isPair_seq (.singleton '1') (.range 48 52))
  refine pair.numbers (by omega) fun c d _ ascii => ?_
  simp only [mem_digitSet_of_ascii ascii, CharSet.mem, CharSet.singleton, Bool.and_eq_true,
    decide_eq_true_eq, Char.reduceToNat]
  omega

theorem isPair_month : IsPair month fun c d =>
    (CharSet.singleton '0').mem c = true ∧ (CharSet.range 49 57).mem d = true ∨
      (CharSet.singleton '1').mem c = true ∧ (CharSet.range 48 50).mem d = true :=
  (isPair_seq _ _).alt (isPair_seq _ _)

theorem isAscii_of_month (member : text ∈ month.texts) : IsAscii text := by
  obtain ⟨c, d, rfl, holds⟩ := (isPair_month text).1 member
  simp only [CharSet.mem, CharSet.singleton, Bool.and_eq_true, decide_eq_true_eq,
    Char.reduceToNat] at holds
  simp only [isAscii_cons, isAscii_nil, and_true]
  omega

theorem mem_texts_month : text ∈ month.texts ↔ ∃ n, (1 ≤ n ∧ n ≤ 12) ∧ twoDigits n = text := by
  rw [← isPair_month.numbers (by omega) fun c d _ _ => ?_]
  · exact ⟨fun member => ⟨member, isAscii_of_month member⟩, And.left⟩
  · simp only [CharSet.mem, CharSet.singleton, Bool.and_eq_true, decide_eq_true_eq,
      Char.reduceToNat]
    omega

theorem isPair_day : IsPair day fun c d =>
    ((CharSet.singleton '0').mem c = true ∧ (CharSet.range 49 57).mem d = true ∨
      (CharSet.union (.union .empty (.singleton '1')) (.singleton '2')).mem c = true ∧
        digitSet.mem d = true) ∨
      (CharSet.singleton '3').mem c = true ∧
        (CharSet.union (.union .empty (.singleton '0')) (.singleton '1')).mem d = true :=
  ((isPair_seq _ _).alt (isPair_seq _ _)).alt (isPair_seq _ _)

theorem length_of_day (member : text ∈ day.texts) : text.length = 2 := by
  obtain ⟨c, d, rfl, -⟩ := (isPair_day text).1 member
  rfl

theorem mem_texts_day : text ∈ day.texts ∧ IsAscii text ↔
    ∃ n, (1 ≤ n ∧ n ≤ 31) ∧ twoDigits n = text := by
  refine isPair_day.numbers (by omega) fun c d _ ascii => ?_
  simp only [mem_digitSet_of_ascii ascii, CharSet.mem, CharSet.singleton, Bool.and_eq_true,
    Bool.or_eq_true, Bool.false_or, decide_eq_true_eq, Char.reduceToNat]
  omega

theorem number?_eq (digits : List Char) :
    number? digits = if digits ≠ [] ∧ AllDigits digits then some (natural digits) else none := by
  have refused : (digits.isEmpty || !digits.all Char.isDigit) = true ↔
      ¬(digits ≠ [] ∧ AllDigits digits) := by
    rw [Bool.or_eq_true, List.isEmpty_iff, Bool.not_eq_true', ← Bool.not_eq_true, List.all_eq_true,
      not_and_or, not_not]
    rfl
  simp only [number?, refused, ite_not]
  rfl

theorem dropWhile_hyphen (negative : Bool) {digits rest : List Char} (nonempty : digits ≠ [])
    (noHyphen : '-' ∉ digits) :
    (signLetters negative ++ (digits ++ rest)).dropWhile (· == '-') = digits ++ rest := by
  obtain ⟨c, others, rfl⟩ := List.exists_cons_of_ne_nil nonempty
  have first : (c == '-') = false := by
    rw [beq_eq_false_iff_ne]
    rintro rfl
    exact noHyphen List.mem_cons_self
  cases negative <;> simp [signLetters, first]

theorem dayExists_iff {negative : Bool} {digits month day rest : List Char} (nonempty : digits ≠ [])
    (noHyphen : '-' ∉ digits) (noHyphen' : '-' ∉ month) (size : day.length = 2) :
    dayExists (signLetters negative ++ (digits ++ '-' :: (month ++ '-' :: (day ++ rest)))) = true ↔
      AllDigits digits ∧ (month ≠ [] ∧ AllDigits month) ∧ AllDigits day ∧
        natural digits ≤ maxYear ∧ natural day ≤ daysIn (natural digits) (natural month) := by
  have split {first : List Char} (rest : List Char) (noHyphen : '-' ∉ first) :
      Xml.splitAtChar '-' (first ++ '-' :: rest) = some (first, rest) :=
    Xml.splitAtChar_eq_some_iff.2 ⟨noHyphen, rfl⟩
  have nonempty' : day ≠ [] := List.ne_nil_of_length_pos (by omega)
  simp only [dayExists, dropWhile_hyphen negative nonempty noHyphen, split _ noHyphen,
    split _ noHyphen', List.take_left' size, number?_eq]
  by_cases all : AllDigits digits
  · by_cases all' : month ≠ [] ∧ AllDigits month
    · by_cases all'' : AllDigits day
      · simp [all, all', all'', nonempty, nonempty']
      · simp [all, all', all'', nonempty, nonempty']
    · simp [all, all', nonempty]
  · simp [all, nonempty]

def IsYear (digits : List Char) : Prop :=
  (∀ c ∈ digits, Unicode.category c = .nd) ∧
    (digits.length = 4 ∨ 4 < digits.length ∧ ∃ c ∈ digits.head?, 49 ≤ c.toNat ∧ c.toNat ≤ 57)

def yearDigits : Expr :=
  .alt (.seq (Expr.between '1' '9') (.repeated digit 4 none)) (Expr.times digit 4)

theorem mem_texts_yearDigits : text ∈ yearDigits.texts ↔ IsYear text := by
  have digits {text : List Char} : (∀ c ∈ text, digitSet.mem c = true) ↔
      ∀ c ∈ text, Unicode.category c = .nd :=
    forall₂_congr fun _ _ => mem_digitSet
  have many {text : List Char} : text ∈ (Expr.repeated digit 4 none).texts ↔
      4 ≤ text.length ∧ ∀ c ∈ text, Unicode.category c = .nd := by
    rw [← digits]
    exact Expr.mem_texts_repeated_chars
  have four : text ∈ (Expr.times digit 4).texts ↔
      text.length = 4 ∧ ∀ c ∈ text, Unicode.category c = .nd := by
    rw [← digits]
    exact Expr.mem_texts_times_chars
  have first {c : Char} : (CharSet.range 49 57).mem c = true ↔ 49 ≤ c.toNat ∧ c.toNat ≤ 57 := by
    simp [CharSet.mem]
  rw [yearDigits, Expr.mem_texts_alt, Expr.mem_texts_seq, four, IsYear]
  constructor
  · rintro (⟨_, ⟨c, rfl, member⟩, rest, enough, rfl⟩ | ⟨size, all⟩)
    · obtain ⟨size, all⟩ := many.1 enough
      have bounds := first.1 member
      have digit : c.isDigit = true :=
        Char.isDigit_iff_toNat.2 ⟨Nat.le_trans (by decide) bounds.1, bounds.2⟩
      have category : Unicode.category c = .nd := (Unicode.category_eq_nd_iff (by omega)).2 digit
      exact ⟨List.forall_mem_cons.2 ⟨category, all⟩, .inr ⟨Nat.lt_succ_of_le size, c, rfl, bounds⟩⟩
    · exact ⟨all, .inl size⟩
  · rintro ⟨all, size | ⟨size, c, head, bounds⟩⟩
    · exact .inr ⟨size, all⟩
    · obtain ⟨rest, rfl⟩ := List.head?_eq_some_iff.1 head
      refine .inl ⟨[c], ⟨c, rfl, first.2 bounds⟩, rest, many.2 ⟨Nat.le_of_lt_succ size, ?_⟩, rfl⟩
      exact (List.forall_mem_cons.1 all).2

theorem mem_texts_year : text ∈ year.texts ↔
    ∃ negative digits, IsYear digits ∧ signLetters negative ++ digits = text := by
  have sign {sign : List Char} : sign ∈ (Expr.literal "-").optional.texts ↔
      ∃ negative, signLetters negative = sign := by
    rw [Expr.mem_texts_optional rfl, Expr.mem_texts_literal, Bool.exists_bool, eq_comm,
      @eq_comm _ sign]
    rfl
  rw [year, ← yearDigits, Expr.mem_texts_seq]
  simp only [sign, mem_texts_yearDigits]
  constructor
  · rintro ⟨_, ⟨negative, rfl⟩, digits, isYear, rfl⟩
    exact ⟨negative, digits, isYear, rfl⟩
  · rintro ⟨negative, digits, isYear, rfl⟩
    exact ⟨_, ⟨negative, rfl⟩, digits, isYear, rfl⟩

theorem mem_texts_yearMonthDay : text ∈ yearMonthDay.texts ↔ ∃ negative digits monthText dayText,
    IsYear digits ∧ monthText ∈ month.texts ∧ dayText ∈ day.texts ∧
      signLetters negative ++ (digits ++ '-' :: (monthText ++ '-' :: dayText)) = text := by
  have parts : yearMonthDay = .seq year (.seq (Expr.literal "-") (.seq month
    (.seq (Expr.literal "-") day))) := rfl
  rw [parts]
  simp only [Expr.mem_texts_seq, mem_texts_year, Expr.mem_texts_literal]
  constructor
  · rintro ⟨_, ⟨negative, digits, isYear, rfl⟩, _, ⟨_, rfl, _, ⟨monthText, isMonth, _,
      ⟨_, rfl, dayText, isDay, rfl⟩, rfl⟩, rfl⟩, rfl⟩
    exact ⟨negative, digits, monthText, dayText, isYear, isMonth, isDay,
      (List.append_assoc _ _ _).symm⟩
  · rintro ⟨negative, digits, monthText, dayText, isYear, isMonth, isDay, rfl⟩
    exact ⟨_, ⟨negative, digits, isYear, rfl⟩, _, ⟨_, rfl, _, ⟨monthText, isMonth, _,
      ⟨_, rfl, dayText, isDay, rfl⟩, rfl⟩, rfl⟩, List.append_assoc _ _ _⟩

theorem isYear_digits (y : Year) : IsYear y.digits := by
  refine ⟨category_of_allDigits y.allDigits, y.enough.imp_right fun ⟨size, first⟩ => ⟨size, ?_⟩⟩
  obtain ⟨c, rest, made⟩ := List.exists_cons_of_length_pos (Nat.zero_lt_of_lt size)
  rw [made] at first
  have digit : c.isDigit = true := y.allDigits c (made ▸ List.mem_cons_self)
  have positive := digitValue_pos digit (by simpa using first)
  refine ⟨c, by rw [made]; rfl, ?_, (Char.isDigit_iff_toNat.1 digit).2⟩
  rw [toNat_eq_of_isDigit digit]
  omega

theorem exists_year (negative : Bool) {digits : List Char} (isYear : IsYear digits)
    (all : AllDigits digits) : ∃ y : Year, y.negative = negative ∧ y.digits = digits := by
  refine ⟨⟨negative, digits, all, isYear.2.imp_right fun ⟨size, c, first, bounds⟩ => ⟨size, ?_⟩⟩,
    rfl, rfl⟩
  rw [first]
  rintro ⟨⟩
  exact absurd bounds.1 (by decide)

theorem not_mem_of_isYear {digits : List Char} (isYear : IsYear digits) : '-' ∉ digits := by
  intro member
  have digit := (Unicode.category_eq_nd_iff (by decide)).1 (isYear.1 '-' member)
  cases digit

theorem dayExists_month_iff {negative : Bool} {digits dayText rest : List Char} {m : ℕ}
    (isYear : IsYear digits) (months : 1 ≤ m ∧ m ≤ 12) (size : dayText.length = 2) :
    dayExists (signLetters negative ++ (digits ++ '-' :: (twoDigits m ++ '-' :: dayText)) ++
      rest) = true ↔ AllDigits digits ∧ AllDigits dayText ∧ natural digits ≤ maxYear ∧
        natural dayText ≤ monthLength (natural digits) m := by
  have nonempty : digits ≠ [] := List.ne_nil_of_length_pos (by have := isYear.2; omega)
  have isNumber := allDigits_twoDigits (n := m) (by omega)
  have noHyphen : '-' ∉ twoDigits m := fun member => absurd (isNumber '-' member) (by decide)
  have exists_iff : dayExists (signLetters negative ++ (digits ++ '-' :: (twoDigits m ++
      '-' :: (dayText ++ rest)))) = true ↔ _ :=
    dayExists_iff nonempty (not_mem_of_isYear isYear) noHyphen size
  simp only [List.append_assoc, List.cons_append, exists_iff, natural_twoDigits (n := m) (by omega),
    daysIn_eq months.1 months.2, isNumber, and_true]
  simp [twoDigits]

theorem dayExists_date_iff (d : Date) (rest : List Char) :
    dayExists (d.letters ++ rest) = true ↔ d.year.absolute ≤ maxYear := by
  have most := d.day_le_31
  have digits := allDigits_twoDigits (n := d.day) (by omega)
  rw [d.letters_eq, dayExists_month_iff (isYear_digits d.year) d.month_bounds rfl,
    natural_twoDigits (by omega)]
  exact ⟨fun known => known.2.2.1, fun small => ⟨d.year.allDigits, digits, small, d.day_le⟩⟩

theorem dated_iff {first rest : List Char} :
    first ∈ yearMonthDay.texts ∧ dayExists (first ++ rest) = true ↔
      ∃ d : Date, d.year.absolute ≤ maxYear ∧ d.letters = first := by
  rw [mem_texts_yearMonthDay]
  constructor
  · rintro ⟨⟨negative, digits, monthText, dayText, isYear, isMonth, isDay, rfl⟩, known⟩
    obtain ⟨m, months, rfl⟩ := mem_texts_month.1 isMonth
    obtain ⟨all, all', small, within⟩ :=
      (dayExists_month_iff isYear months (length_of_day isDay)).1 known
    obtain ⟨n, days, rfl⟩ := mem_texts_day.1 ⟨isDay, isAscii_of_allDigits all'⟩
    obtain ⟨y, rfl, rfl⟩ := exists_year negative isYear all
    rw [natural_twoDigits (by omega)] at within
    exact ⟨⟨y, m, n, days.1, within⟩, small, Date.letters_eq _⟩
  · rintro ⟨d, small, rfl⟩
    have isDay := (mem_texts_day.2 ⟨d.day, ⟨d.day_pos, d.day_le_31⟩, rfl⟩).1
    have isMonth := mem_texts_month.2 ⟨d.month, d.month_bounds, rfl⟩
    exact ⟨⟨_, _, _, _, isYear_digits d.year, isMonth, isDay, d.letters_eq.symm⟩,
      (dayExists_date_iff d rest).2 small⟩

theorem mem_texts_dated {e : Expr} :
    text ∈ (Expr.seq yearMonthDay e).texts ∧ dayExists text = true ↔
      ∃ d : Date, d.year.absolute ≤ maxYear ∧ ∃ rest ∈ e.texts, d.letters ++ rest = text := by
  rw [Expr.mem_texts_seq]
  constructor
  · rintro ⟨⟨first, isDate, rest, member, rfl⟩, known⟩
    obtain ⟨d, small, rfl⟩ := dated_iff.1 ⟨isDate, known⟩
    exact ⟨d, small, rest, member, rfl⟩
  · rintro ⟨d, small, rest, member, rfl⟩
    obtain ⟨isDate, known⟩ := dated_iff.2 ⟨d, small, rfl⟩
    exact ⟨⟨_, isDate, rest, member, rfl⟩, known⟩

theorem mem_texts_fraction {s : CharSet} : text ∈ (fraction (.chars s)).texts ↔
    ∃ digits, (∀ c ∈ digits, s.mem c = true) ∧ fractionLetters digits = text := by
  have behind {text : List Char} : text ∈ (Expr.plus (.chars s)).texts ↔
      0 < text.length ∧ ∀ c ∈ text, s.mem c = true := Expr.mem_texts_repeated_chars
  rw [fraction, Expr.mem_texts_optional rfl, Expr.mem_texts_seq]
  simp only [Expr.mem_texts_literal, behind]
  constructor
  · rintro (rfl | ⟨_, rfl, _ | ⟨c, digits⟩, ⟨some, all⟩, rfl⟩)
    · exact ⟨[], List.forall_mem_nil _, rfl⟩
    · cases some
    · exact ⟨c :: digits, all, rfl⟩
  · rintro ⟨_ | ⟨c, digits⟩, all, rfl⟩
    · exact .inl rfl
    · exact .inr ⟨_, rfl, c :: digits, ⟨Nat.succ_pos _, all⟩, rfl⟩

theorem mem_texts_time : text ∈ time.texts ↔
    (∃ hours ∈ hour.texts, ∃ minutes ∈ sixtieth.texts, ∃ seconds ∈ sixtieth.texts,
      ∃ parts ∈ (fraction digit).texts,
        hours ++ ':' :: (minutes ++ ':' :: (seconds ++ parts)) = text) ∨
    ∃ parts ∈ (fraction (Expr.literal "0")).texts, "24:00:00".toList ++ parts = text := by
  have forms : time = .alt
      (.seq hour (.seq (Expr.literal ":") (.seq sixtieth (.seq (Expr.literal ":")
        (.seq sixtieth (fraction digit))))))
      (.seq (Expr.literal "24:00:00") (fraction (Expr.literal "0"))) := rfl
  rw [forms]
  simp only [Expr.mem_texts_alt, Expr.mem_texts_seq, Expr.mem_texts_literal]
  constructor
  · rintro (⟨hours, isHour, _, ⟨_, rfl, _, ⟨minutes, isMinute, _, ⟨_, rfl, _, ⟨seconds, isSecond,
      parts, isFraction, rfl⟩, rfl⟩, rfl⟩, rfl⟩, rfl⟩ | ⟨_, rfl, parts, isFraction, rfl⟩)
    · exact .inl ⟨hours, isHour, minutes, isMinute, seconds, isSecond, parts, isFraction, rfl⟩
    · exact .inr ⟨parts, isFraction, rfl⟩
  · rintro (⟨hours, isHour, minutes, isMinute, seconds, isSecond, parts, isFraction, rfl⟩ |
      ⟨parts, isFraction, rfl⟩)
    · exact .inl ⟨hours, isHour, _, ⟨_, rfl, _, ⟨minutes, isMinute, _, ⟨_, rfl, _, ⟨seconds, isSecond,
        parts, isFraction, rfl⟩, rfl⟩, rfl⟩, rfl⟩, rfl⟩
    · exact .inr ⟨_, rfl, parts, isFraction, rfl⟩

theorem mem_texts_signs : text ∈ (Expr.anyOf "+-").texts ↔ ∃ sign : Sign, [sign.char] = text := by
  have signs : Expr.anyOf "+-" =
      .chars (.union (.union .empty (.singleton '+')) (.singleton '-')) := rfl
  rw [signs, Expr.mem_texts_chars]
  simp only [CharSet.mem, Bool.false_or, Bool.or_eq_true, CharSet.mem_singleton_iff]
  constructor
  · rintro ⟨c, rfl, rfl | rfl⟩
    · exact ⟨.plus, rfl⟩
    · exact ⟨.minus, rfl⟩
  · rintro ⟨_ | _, rfl⟩
    · exact ⟨_, rfl, .inl rfl⟩
    · exact ⟨_, rfl, .inr rfl⟩

theorem mem_texts_timeZone : text ∈ timeZone.texts ↔ text = [] ∨ text = ['Z'] ∨
    ∃ sign : Sign, ∃ hours ∈ zoneHour.texts, ∃ minutes ∈ sixtieth.texts,
      sign.char :: (hours ++ ':' :: minutes) = text := by
  have forms : timeZone = Expr.optional (.alt (Expr.literal "Z")
    (.seq (Expr.anyOf "+-") (.seq zoneHour (.seq (Expr.literal ":") sixtieth)))) := rfl
  rw [forms, Expr.mem_texts_optional rfl]
  simp only [Expr.mem_texts_alt, Expr.mem_texts_seq, Expr.mem_texts_literal, mem_texts_signs]
  constructor
  · rintro (rfl | rfl | ⟨_, ⟨sign, rfl⟩, _, ⟨hours, isHour, _, ⟨_, rfl, minutes, isMinute, rfl⟩,
      rfl⟩, rfl⟩)
    · exact .inl rfl
    · exact .inr (.inl rfl)
    · exact .inr (.inr ⟨sign, hours, isHour, minutes, isMinute, rfl⟩)
  · rintro (rfl | rfl | ⟨sign, hours, isHour, minutes, isMinute, rfl⟩)
    · exact .inl rfl
    · exact .inr (.inl rfl)
    · exact .inr (.inr ⟨_, ⟨sign, rfl⟩, _, ⟨hours, isHour, _, ⟨_, rfl, minutes, isMinute, rfl⟩,
        rfl⟩, rfl⟩)

theorem mem_texts_fraction_digit : text ∈ (fraction digit).texts ∧ IsAscii text ↔
    ∃ digits, AllDigits digits ∧ fractionLetters digits = text := by
  have digits : fraction digit = fraction (.chars digitSet) := rfl
  rw [digits, mem_texts_fraction]
  constructor
  · rintro ⟨⟨digits, all, rfl⟩, ascii⟩
    refine ⟨digits, fun c member => ?_, rfl⟩
    have small : c.toNat < 128 := by
      cases digits with
      | nil => cases member
      | cons d digits => exact (isAscii_cons.1 ascii).2 c member
    exact Char.isDigit_iff_toNat.2 ((mem_digitSet_of_ascii small).1 (all c member))
  · rintro ⟨digits, all, rfl⟩
    refine ⟨⟨digits, fun c member => mem_digitSet.2 (category_of_allDigits all c member), rfl⟩, ?_⟩
    cases digits with
    | nil => exact isAscii_nil
    | cons d digits => exact isAscii_cons.2 ⟨by decide, isAscii_of_allDigits all⟩

theorem toList_midnight :
    "24:00:00".toList = twoDigits 24 ++ ':' :: (twoDigits 0 ++ ':' :: twoDigits 0) := by
  simp [twoDigits, Nat.digitChar]

theorem isAscii_twoDigits {n : ℕ} (small : n < 100) : IsAscii (twoDigits n) :=
  isAscii_of_allDigits (allDigits_twoDigits small)

theorem isAscii_time (t : Time) : IsAscii t.letters := by
  obtain ⟨h, m, s, digits, all, minutes, seconds, within⟩ := t
  have fraction := (mem_texts_fraction_digit.2 ⟨digits, all, rfl⟩).2
  simp only [Time.letters, isAscii_append, isAscii_cons]
  exact ⟨isAscii_twoDigits (by omega), by decide, isAscii_twoDigits (by omega), by decide,
    isAscii_twoDigits (by omega), fraction⟩

theorem exists_time : text ∈ time.texts ∧ IsAscii text ↔ ∃ t : Time, t.letters = text := by
  constructor
  · rintro ⟨isTime, ascii⟩
    rcases mem_texts_time.1 isTime with ⟨hours, isHour, minutes, isMinute, seconds, isSecond, parts,
      isFraction, rfl⟩ | ⟨parts, isFraction, rfl⟩
    · simp only [isAscii_append, isAscii_cons] at ascii
      obtain ⟨h, hours, rfl⟩ := mem_texts_hour.1 ⟨isHour, ascii.1⟩
      obtain ⟨m, minutes, rfl⟩ := mem_texts_sixtieth.1 ⟨isMinute, ascii.2.2.1⟩
      obtain ⟨s, seconds, rfl⟩ := mem_texts_sixtieth.1 ⟨isSecond, ascii.2.2.2.2.1⟩
      obtain ⟨digits, all, rfl⟩ := mem_texts_fraction_digit.1 ⟨isFraction, ascii.2.2.2.2.2⟩
      exact ⟨⟨h, m, s, digits, all, minutes, seconds, .inl hours⟩, rfl⟩
    · obtain ⟨zeros, all, rfl⟩ := mem_texts_fraction.1 isFraction
      have zero : ∀ c ∈ zeros, c = '0' := fun c member => CharSet.mem_singleton_iff.1 (all c member)
      rw [toList_midnight]
      exact ⟨⟨24, 0, 0, zeros, fun c member => zero c member ▸ rfl, by decide, by decide,
        .inr ⟨rfl, rfl, rfl, zero⟩⟩, rfl⟩
  · rintro ⟨t, rfl⟩
    refine ⟨mem_texts_time.2 ?_, isAscii_time t⟩
    rcases t.within with hours | ⟨last, first, first', zero⟩
    · have isHour := (mem_texts_hour.2 ⟨t.hours, hours, rfl⟩).1
      have isMinute := (mem_texts_sixtieth.2 ⟨t.minutes, t.minutes_lt, rfl⟩).1
      have isSecond := (mem_texts_sixtieth.2 ⟨t.seconds, t.seconds_lt, rfl⟩).1
      have isFraction := (mem_texts_fraction_digit.2 ⟨t.fraction, t.digits, rfl⟩).1
      exact .inl ⟨_, isHour, _, isMinute, _, isSecond, _, isFraction, rfl⟩
    · have zeros : fractionLetters t.fraction ∈ (fraction (Expr.literal "0")).texts :=
        mem_texts_fraction.2 ⟨_, fun c among => CharSet.mem_singleton_iff.2 (zero c among), rfl⟩
      refine .inr ⟨_, zeros, ?_⟩
      rw [toList_midnight, Time.letters, last, first, first']
      rfl

theorem exists_zone : text ∈ timeZone.texts ∧ IsAscii text ↔ ∃ z : Zone, z.letters = text := by
  rw [mem_texts_timeZone]
  constructor
  · rintro ⟨rfl | rfl | ⟨sign, hours, isHour, minutes, isMinute, rfl⟩, ascii⟩
    · exact ⟨.untold, rfl⟩
    · exact ⟨.utc, rfl⟩
    · simp only [isAscii_append, isAscii_cons] at ascii
      obtain ⟨h, hours, rfl⟩ := mem_texts_zoneHour.1 ⟨isHour, ascii.2.1⟩
      obtain ⟨m, minutes, rfl⟩ := mem_texts_sixtieth.1 ⟨isMinute, ascii.2.2.2⟩
      exact ⟨.offset sign h m hours minutes, rfl⟩
  · rintro ⟨_ | _ | ⟨sign, h, m, hours, minutes⟩, rfl⟩
    · exact ⟨.inl rfl, isAscii_nil⟩
    · exact ⟨.inr (.inl rfl), isAscii_cons.2 ⟨by decide, isAscii_nil⟩⟩
    · obtain ⟨isHour, ascii⟩ := mem_texts_zoneHour.2 ⟨h, hours, rfl⟩
      obtain ⟨isMinute, ascii'⟩ := mem_texts_sixtieth.2 ⟨m, minutes, rfl⟩
      refine ⟨.inr (.inr ⟨sign, _, isHour, _, isMinute, rfl⟩), ?_⟩
      rw [Zone.letters, isAscii_cons, isAscii_append, isAscii_cons]
      exact ⟨by cases sign <;> decide, ascii, by decide, ascii'⟩

end Lexical

section Literals

open Lexical

variable {v : String}

theorem isLiteral_date_iff : Builtin.date.isLiteral v = true ↔
    ∃ d : Date, d.year.absolute ≤ maxYear ∧
      ∃ zone ∈ timeZone.texts, d.letters ++ zone = v.toList := by
  have checks : Builtin.date.isLiteral v =
      ((Expr.seq yearMonthDay timeZone).matchesWhole v.toList && dayExists v.toList) := rfl
  rw [checks, Bool.and_eq_true, Expr.matchesWhole_iff_mem_texts rfl, mem_texts_dated]

theorem isLiteral_dateTime_iff : Builtin.dateTime.isLiteral v = true ↔
    ∃ d : Date, d.year.absolute ≤ maxYear ∧ ∃ time ∈ Lexical.time.texts, ∃ zone ∈ timeZone.texts,
      d.letters ++ 'T' :: (time ++ zone) = v.toList := by
  have checks : Builtin.dateTime.isLiteral v = ((Expr.seq yearMonthDay (.seq (Expr.literal "T")
      (.seq time timeZone))).matchesWhole v.toList && dayExists v.toList) := rfl
  rw [checks, Bool.and_eq_true, Expr.matchesWhole_iff_mem_texts rfl, mem_texts_dated]
  refine exists_congr fun d => and_congr_right fun _ => ?_
  simp only [Expr.mem_texts_seq, Expr.mem_texts_literal]
  constructor
  · rintro ⟨_, ⟨_, rfl, _, ⟨time, isTime, zone, isZone, rfl⟩, rfl⟩, same⟩
    exact ⟨time, isTime, zone, isZone, same⟩
  · rintro ⟨time, isTime, zone, isZone, same⟩
    exact ⟨_, ⟨_, rfl, _, ⟨time, isTime, zone, isZone, rfl⟩, rfl⟩, same⟩

theorem isAscii_date (d : Date) : IsAscii d.letters := fun c member => by
  rcases d.isDigit_or_hyphen c member with digit | rfl
  · have last := (Char.isDigit_iff_toNat.1 digit).2
    exact Nat.lt_of_le_of_lt last (by decide)
  · decide

theorem isLiteral_date_and_isAscii_iff : Builtin.date.isLiteral v = true ∧ IsAscii v.toList ↔
    ∃ d : Date, d.year.absolute ≤ maxYear ∧ ∃ zone : Zone, d.letters ++ zone.letters = v.toList := by
  rw [isLiteral_date_iff]
  constructor
  · rintro ⟨⟨d, small, zone, isZone, same⟩, ascii⟩
    have ascii : IsAscii (d.letters ++ zone) := same ▸ ascii
    obtain ⟨zone, rfl⟩ := exists_zone.1 ⟨isZone, (isAscii_append.1 ascii).2⟩
    exact ⟨d, small, zone, same⟩
  · rintro ⟨d, small, zone, same⟩
    obtain ⟨isZone, ascii⟩ := exists_zone.2 ⟨zone, rfl⟩
    have ascii : IsAscii v.toList := same ▸ isAscii_append.2 ⟨isAscii_date d, ascii⟩
    exact ⟨⟨d, small, _, isZone, same⟩, ascii⟩

theorem isLiteral_dateTime_and_isAscii_iff : Builtin.dateTime.isLiteral v = true ∧ IsAscii v.toList ↔
    ∃ d : Date, d.year.absolute ≤ maxYear ∧ ∃ (t : Time) (zone : Zone),
      d.letters ++ 'T' :: (t.letters ++ zone.letters) = v.toList := by
  rw [isLiteral_dateTime_iff]
  constructor
  · rintro ⟨⟨d, small, time, isTime, zone, isZone, same⟩, ascii⟩
    have ascii : IsAscii (d.letters ++ 'T' :: (time ++ zone)) := same ▸ ascii
    simp only [isAscii_append, isAscii_cons] at ascii
    obtain ⟨t, rfl⟩ := exists_time.1 ⟨isTime, ascii.2.2.1⟩
    obtain ⟨zone, rfl⟩ := exists_zone.1 ⟨isZone, ascii.2.2.2⟩
    exact ⟨d, small, t, zone, same⟩
  · rintro ⟨d, small, t, zone, same⟩
    obtain ⟨isTime, asciiTime⟩ := exists_time.2 ⟨t, rfl⟩
    obtain ⟨isZone, asciiZone⟩ := exists_zone.2 ⟨zone, rfl⟩
    have ascii : IsAscii v.toList := by
      rw [← same, isAscii_append, isAscii_cons, isAscii_append]
      exact ⟨isAscii_date d, by decide, asciiTime, asciiZone⟩
    exact ⟨⟨d, small, _, isTime, _, isZone, same⟩, ascii⟩

/-- A literal of `date` is the text of a date that exists, and then a time zone or nothing; in a
literal of `dateTime`, a time of day stands in between. The year is one that a machine integer can
hold. The literals in ASCII are those of times of day and of time zones up to 14:59. -/
theorem date_literals (v : String) :
    (Builtin.date.isLiteral v = true ↔ ∃ d : Date, d.year.absolute ≤ maxYear ∧
      ∃ zone, timeZone.matchesWhole zone = true ∧ d.letters ++ zone = v.toList) ∧
    (Builtin.dateTime.isLiteral v = true ↔ ∃ d : Date, d.year.absolute ≤ maxYear ∧
      ∃ time, Lexical.time.matchesWhole time = true ∧
      ∃ zone, timeZone.matchesWhole zone = true ∧ d.letters ++ 'T' :: (time ++ zone) = v.toList) ∧
    (Builtin.date.isLiteral v = true ∧ IsAscii v.toList ↔ ∃ d : Date, d.year.absolute ≤ maxYear ∧
      ∃ zone : Zone, d.letters ++ zone.letters = v.toList) ∧
    (Builtin.dateTime.isLiteral v = true ∧ IsAscii v.toList ↔ ∃ d : Date, d.year.absolute ≤ maxYear ∧
      ∃ (t : Time) (zone : Zone), d.letters ++ 'T' :: (t.letters ++ zone.letters) = v.toList) := by
  have isZone {zone : List Char} : timeZone.matchesWhole zone = true ↔ zone ∈ timeZone.texts :=
    Expr.matchesWhole_iff_mem_texts rfl
  have isTime {time : List Char} : Lexical.time.matchesWhole time = true ↔
      time ∈ Lexical.time.texts := Expr.matchesWhole_iff_mem_texts rfl
  simp only [isZone, isTime]
  exact ⟨isLiteral_date_iff, isLiteral_dateTime_iff, isLiteral_date_and_isAscii_iff,
    isLiteral_dateTime_and_isAscii_iff⟩

def newYear : Date where
  year := ⟨false, ['2', '0', '2', '4'], by decide, .inl rfl⟩
  month := 1
  day := 1
  day_pos := by decide
  day_le := by decide

/-- A time zone of more than fourteen hours is taken. -/
theorem beyondLimit_isLiteral : Builtin.date.isLiteral "2024-01-01+14:30" = true ∧
    ¬∃ (d : Date) (zone : Zone), zone.distance ≤ 14 * 60 ∧
      d.letters ++ zone.letters = "2024-01-01+14:30".toList := by
  have letters : "2024-01-01+14:30".toList = ['2', '0', '2', '4', '-', '0', '1', '-', '0', '1', '+',
      '1', '4', ':', '3', '0'] := by simp
  have spelled : newYear.letters ++ (Zone.offset .plus 14 30 (by decide) (by decide)).letters =
      "2024-01-01+14:30".toList := by
    rw [letters]
    rfl
  refine ⟨(isLiteral_date_and_isAscii_iff.2 ⟨newYear, by decide, _, spelled⟩).1, ?_⟩
  rintro ⟨d, zone, within, same⟩
  have ends {first last : List Char} (made : first ++ last = "2024-01-01+14:30".toList) :
      last = "2024-01-01+14:30".toList.drop (16 - last.length) := by
    have size : first.length = 16 - last.length := by
      have whole := congrArg List.length made
      rw [letters, List.length_append] at whole
      simp only [List.length_cons, List.length_nil] at whole
      omega
    rw [← made, List.drop_left' size]
  cases zone with
  | untold =>
    rw [Zone.letters, List.append_nil, Date.letters] at same
    have last := ends same
    simp [letters, twoDigits] at last
  | utc =>
    have last := ends same
    simp [letters, Zone.letters] at last
  | offset sign hours minutes hours_le minutes_lt =>
    have last := ends same
    obtain ⟨-, tens, ones, tens', ones'⟩ : sign.char = '+' ∧ hours / 10 = 1 ∧ hours % 10 = 4 ∧
        minutes / 10 = 3 ∧ minutes % 10 = 0 := by
      simpa [letters, Zone.letters, twoDigits] using last
    rw [Zone.distance] at within
    omega

end Literals

end XmlSchema.Datatype
