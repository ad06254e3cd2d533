import XmlSchema.Proofs.Datatype.Numeral
import XmlSchema.Proofs.Datatype.Restriction
import XmlSchema.Proofs.Regex.Language
import XmlSchema.Proofs.Unicode.Categories

namespace XmlSchema.Datatype

open Regex (Expr CharSet)

def HasDigits (whole : List Char) (fraction : Option (List Char)) : Prop :=
  (∀ c ∈ whole, Unicode.category c = .nd) ∧ (∀ c ∈ fraction.getD [], Unicode.category c = .nd) ∧
    (whole ≠ [] ∨ fraction.getD [] ≠ [])

namespace Lexical

variable {before after : Option Char} {text : List Char}

theorem spans_digits {min : Nat} : (Expr.repeated digit min none).Spans before text after ↔
    min ≤ text.length ∧ ∀ c ∈ text, Unicode.category c = .nd := by
  have isDigit (c : Char) : (CharSet.property (.category [.nd])).mem c = true ↔
      Unicode.category c = .nd := by
    simp [CharSet.mem, Unicode.Property.holds]
  simp only [digit, Expr.spans_repeated_chars, isDigit]

theorem spans_sign : sign.Spans before text after ↔
    ∃ sign : Option Sign, (sign.map Sign.char).toList = text := by
  have signs : Expr.anyOf "+-" =
      .chars (.union (.union .empty (.singleton '+')) (.singleton '-')) := rfl
  rw [sign, Expr.spans_optional, signs]
  constructor
  · rintro (rfl | ⟨c, rfl, member⟩)
    · exact ⟨none, rfl⟩
    · simp only [CharSet.mem, Bool.false_or, Bool.or_eq_true, CharSet.mem_singleton_iff] at member
      rcases member with rfl | rfl
      · exact ⟨some .plus, rfl⟩
      · exact ⟨some .minus, rfl⟩
  · rintro ⟨_ | _ | _, rfl⟩
    · exact .inl rfl
    · exact .inr ⟨'+', rfl, rfl⟩
    · exact .inr ⟨'-', rfl, rfl⟩

theorem spans_unsignedDecimal : unsignedDecimal.Spans before text after ↔
    ∃ whole fraction, HasDigits whole fraction ∧ Decimal.unsigned whole fraction = text := by
  have point : Expr.literal "." = .chars (.singleton '.') := rfl
  constructor
  · rintro (⟨whole, _, rfl, left, right⟩ | ⟨_, digits, rfl, ⟨c, rfl, member⟩, right⟩)
    · obtain ⟨enough, all⟩ := spans_digits.1 left
      have nonempty := List.ne_nil_of_length_pos enough
      rcases Expr.spans_optional.1 right with rfl | ⟨_, digits, rfl, ⟨c, rfl, member⟩, behind⟩
      · exact ⟨whole, none, ⟨all, List.forall_mem_nil _, .inl nonempty⟩, rfl⟩
      · obtain rfl := CharSet.mem_singleton_iff.1 member
        exact ⟨whole, some digits, ⟨all, (spans_digits.1 behind).2, .inl nonempty⟩, rfl⟩
    · obtain rfl := CharSet.mem_singleton_iff.1 member
      obtain ⟨enough, all⟩ := spans_digits.1 right
      have nonempty := List.ne_nil_of_length_pos enough
      exact ⟨[], some digits, ⟨List.forall_mem_nil _, all, .inr nonempty⟩, rfl⟩
  · rintro ⟨whole, fraction, ⟨all, all', nonempty⟩, rfl⟩
    cases whole with
    | cons c whole =>
      refine .inl ⟨c :: whole, _, rfl, spans_digits.2 ⟨Nat.succ_pos _, all⟩,
        Expr.spans_optional.2 ?_⟩
      cases fraction with
      | none => exact .inl rfl
      | some digits =>
        exact .inr ⟨['.'], digits, rfl, ⟨'.', rfl, rfl⟩, spans_digits.2 ⟨Nat.zero_le _, all'⟩⟩
    | nil =>
      cases fraction with
      | none => simp at nonempty
      | some digits =>
        have enough : 0 < digits.length := List.length_pos_iff.2 (by simpa using nonempty)
        exact .inr ⟨['.'], digits, rfl, ⟨'.', rfl, rfl⟩, spans_digits.2 ⟨enough, all'⟩⟩

theorem matchesWhole_form_iff {b : Builtin} (isDecimal : b.isDecimal = true) :
    (form? b).all (·.matchesWhole text) = true ↔ ∃ sign whole fraction, HasDigits whole fraction ∧
      (b = .decimal ∨ fraction = none) ∧ spelled sign whole fraction = text := by
  by_cases same : b = .decimal
  · have form : form? b = some decimal := by rw [same]; rfl
    have wf : decimal.WellFormed := by
      simp [decimal, sign, unsignedDecimal, digit, Expr.optional, Expr.plus, Expr.star, Expr.anyOf,
        Expr.literal, Expr.sequence, Expr.WellFormed]
    rw [form, Option.all_some, Expr.matchesWhole_iff wf]
    constructor
    · rintro ⟨_, _, rfl, left, right⟩
      obtain ⟨sign, rfl⟩ := spans_sign.1 left
      obtain ⟨whole, fraction, digits, rfl⟩ := spans_unsignedDecimal.1 right
      exact ⟨sign, whole, fraction, digits, .inl same, rfl⟩
    · rintro ⟨sign, whole, fraction, digits, -, rfl⟩
      exact ⟨_, _, rfl, spans_sign.2 ⟨sign, rfl⟩, spans_unsignedDecimal.2 ⟨whole, fraction, digits, rfl⟩⟩
  · have form : form? b = some integer := by
      cases b <;> first | exact absurd rfl same | rfl | cases isDecimal
    have wf : integer.WellFormed := by
      simp [integer, sign, digit, Expr.optional, Expr.plus, Expr.anyOf, Expr.WellFormed]
    rw [form, Option.all_some, Expr.matchesWhole_iff wf]
    constructor
    · rintro ⟨_, whole, rfl, left, right⟩
      obtain ⟨sign, rfl⟩ := spans_sign.1 left
      obtain ⟨enough, all⟩ := spans_digits.1 right
      refine ⟨sign, whole, none, ⟨all, List.forall_mem_nil _, .inl ?_⟩, .inr rfl, ?_⟩
      · exact List.ne_nil_of_length_pos enough
      · rw [spelled, Decimal.unsigned, Option.elim, List.append_nil]
    · rintro ⟨sign, whole, fraction, ⟨all, -, nonempty⟩, isInteger, rfl⟩
      obtain rfl := isInteger.resolve_left same
      refine ⟨_, whole, ?_, spans_sign.2 ⟨sign, rfl⟩, spans_digits.2 ⟨?_, all⟩⟩
      · rw [spelled, Decimal.unsigned, Option.elim, List.append_nil]
      · exact List.length_pos_iff.2 (by simpa using nonempty)

end Lexical

def IsAscii (text : List Char) : Prop := ∀ c ∈ text, c.toNat < 128

section IsAscii

variable {first rest : List Char} {c : Char}

@[simp]
theorem isAscii_nil : IsAscii [] := List.forall_mem_nil _

@[simp]
theorem isAscii_cons : IsAscii (c :: rest) ↔ c.toNat < 128 ∧ IsAscii rest := List.forall_mem_cons

@[simp]
theorem isAscii_append : IsAscii (first ++ rest) ↔ IsAscii first ∧ IsAscii rest :=
  List.forall_mem_append

theorem isAscii_of_allDigits (all : AllDigits first) : IsAscii first := fun c member => by
  have last : c.toNat ≤ 57 := (Char.isDigit_iff_toNat.1 (all c member)).2
  omega

end IsAscii

section Literals

variable {b : Builtin} {v : String}

theorem Numeral.isAscii (n : Numeral) : IsAscii n.text.toList := by
  have ofSign : IsAscii (n.sign.map Sign.char).toList := by
    rcases n.sign with _ | _ | _ <;> simp [Sign.char]
  have ofFraction : IsAscii (n.fraction.elim [] ('.' :: ·)) := by
    have digits := isAscii_of_allDigits n.fractionDigits
    cases fraction : n.fraction with
    | none => exact isAscii_nil
    | some digits' =>
      rw [fraction] at digits
      exact isAscii_cons.2 ⟨by decide, digits⟩
  rw [text, String.toList_ofList]
  exact isAscii_append.2 ⟨ofSign, isAscii_append.2 ⟨isAscii_of_allDigits n.digits, ofFraction⟩⟩

theorem allDigits_of_ascii {text : List Char} (digits : ∀ c ∈ text, Unicode.category c = .nd)
    (ascii : IsAscii text) : AllDigits text := fun c member =>
  (Unicode.category_eq_nd_iff (ascii c member)).1 (digits c member)

theorem category_of_allDigits {text : List Char} (all : AllDigits text) :
    ∀ c ∈ text, Unicode.category c = .nd := by
  intro c member
  have last : c.toNat ≤ 57 := (Char.isDigit_iff_toNat.1 (all c member)).2
  exact (Unicode.category_eq_nd_iff (by omega)).2 (all c member)

theorem isLiteral_iff (isDecimal : b.isDecimal = true) : b.isLiteral v = true ↔
    (∃ sign whole fraction, HasDigits whole fraction ∧ (b = .decimal ∨ fraction = none) ∧
      spelled sign whole fraction = v.toList) ∧ Lexical.withinBounds b v = true := by
  have checks : b.isLiteral v =
      ((Lexical.form? b).all (·.matchesWhole v.toList) && Lexical.withinBounds b v) := by
    cases b <;> first | rfl | cases isDecimal
  rw [checks, Bool.and_eq_true, Lexical.matchesWhole_form_iff isDecimal]

theorem isAscii_iff_of_isLiteral (isDecimal : b.isDecimal = true) (literal : b.isLiteral v = true) :
    (∃ n : Numeral, n.text = v ∧ (b = .decimal ∨ n.fraction = none)) ↔ IsAscii v.toList := by
  constructor
  · rintro ⟨n, rfl, -⟩
    exact n.isAscii
  · intro ascii
    obtain ⟨⟨sign, whole, fraction, ⟨all, all', nonempty⟩, integer, same⟩, -⟩ :=
      (isLiteral_iff isDecimal).1 literal
    rw [← same, spelled, Decimal.unsigned, isAscii_append, isAscii_append] at ascii
    have digits : AllDigits whole := allDigits_of_ascii all ascii.2.1
    have digits' : AllDigits (fraction.getD []) := by
      cases fraction with
      | none => exact List.forall_mem_nil _
      | some digits => exact allDigits_of_ascii all' (isAscii_cons.1 ascii.2.2).2
    have some : sign.isSome ∨ whole ≠ [] ∨ fraction.isSome := by
      cases fraction with
      | none => exact .inr (nonempty.imp_right fun none => absurd rfl none)
      | some digits => exact .inr (.inr rfl)
    exact ⟨⟨sign, whole, fraction, digits, digits', some⟩,
      by rw [Numeral.text, Numeral.letters, same, String.ofList_toList], integer⟩

theorem isAscii_of_bounds (isDecimal : b.isDecimal = true) (bounded : b.bounds ≠ (none, none))
    (literal : b.isLiteral v = true) : IsAscii v.toList := by
  have within := ((isLiteral_iff isDecimal).1 literal).2
  have compared {bound : String} {p : Ordering → Bool}
      (found : (compareDecimal? v bound).any p = true) : IsAscii v.toList := by
    obtain ⟨order, known, -⟩ := (Option.any_eq_true _ _).1 found
    obtain ⟨⟨n, rfl⟩, -⟩ := isSome_compareDecimal?_iff.1 (Option.isSome_iff_exists.2 ⟨order, known⟩)
    exact n.isAscii
  rw [Lexical.withinBounds, Bool.and_eq_true] at within
  cases limits : b.bounds with
  | mk least greatest =>
    rw [limits] at bounded within
    cases least with
    | some bound => exact compared within.1
    | none =>
      cases greatest with
      | some bound => exact compared within.2
      | none => exact absurd rfl bounded

end Literals

namespace SimpleType

variable {t : SimpleType} {b : Builtin}

theorem passes_of_compare? {α : Type} [LinearOrder α] {text boundText : String} {x bound : α}
    (compared : t.compare? text boundText = some (compare x bound)) :
    (t.passes text (.minInclusive boundText) = true ↔ bound ≤ x) ∧
    (t.passes text (.maxInclusive boundText) = true ↔ x ≤ bound) ∧
    (t.passes text (.minExclusive boundText) = true ↔ bound < x) ∧
    (t.passes text (.maxExclusive boundText) = true ↔ x < bound) := by
  simp only [passes, compared]
  rcases lt_trichotomy x bound with lt | same | gt
  · rw [compare_lt_iff_lt.2 lt]
    simp [lt, lt.le, lt.not_ge, lt.not_gt]
  · rw [compare_eq_iff_eq.2 same]
    simp [same]
  · rw [compare_gt_iff_gt.2 gt]
    simp [gt, gt.le, gt.not_ge, gt.not_gt]

theorem passes_bound (primitive : t.primitive? = some b) (isDecimal : b.isDecimal = true)
    (n bound : Numeral) :
    (t.passes n.text (.minInclusive bound.text) = true ↔ bound.value ≤ n.value) ∧
    (t.passes n.text (.maxInclusive bound.text) = true ↔ n.value ≤ bound.value) ∧
    (t.passes n.text (.minExclusive bound.text) = true ↔ bound.value < n.value) ∧
    (t.passes n.text (.maxExclusive bound.text) = true ↔ n.value < bound.value) := by
  have decimals : b.compare? n.text bound.text = compareDecimal? n.text bound.text :=
    if_pos isDecimal
  apply passes_of_compare?
  rw [compare?, primitive]
  exact decimals.trans (compareDecimal?_text n bound)

/-- The literals in ASCII of a decimal type are numerals, and only these; they can be compared with
all numerals. So a value in ASCII of a restriction, or any value of a type with bounds of its own,
keeps all bounds that are numerals. -/
theorem ascii_keeps_bounds (isDecimal : b.isDecimal = true) :
    (∀ v : String, b.isLiteral v = true →
      ((∃ n : Numeral, n.text = v ∧ (b = .decimal ∨ n.fraction = none)) ↔ IsAscii v.toList) ∧
      (b.bounds ≠ (none, none) → IsAscii v.toList)) ∧
    ∀ (t : SimpleType) (raw value : String), t.primitive? = some b → t.validate raw = .ok value →
      (IsAscii value.toList ∨ b.bounds ≠ (none, none)) →
      ∃ n : Numeral, n.text = value ∧ ∀ bound : Numeral,
        compareDecimal? value bound.text = some (compare n.value bound.value) ∧
        (.minInclusive bound.text ∈ t.facets → bound.value ≤ n.value) ∧
        (.maxInclusive bound.text ∈ t.facets → n.value ≤ bound.value) ∧
        (.minExclusive bound.text ∈ t.facets → bound.value < n.value) ∧
        (.maxExclusive bound.text ∈ t.facets → n.value < bound.value) := by
  refine ⟨fun v literal => ⟨isAscii_iff_of_isLiteral isDecimal literal,
    fun bounded => isAscii_of_bounds isDecimal bounded literal⟩, ?_⟩
  intro t raw value primitive valid told
  obtain ⟨-, ofVariety, passes⟩ := validate_eq_ok_iff.1 valid
  have literal : b.isLiteral value = true := by
    rwa [variety_eq_of_primitive? primitive] at ofVariety
  have ascii : IsAscii value.toList :=
    told.elim id fun bounded => isAscii_of_bounds isDecimal bounded literal
  obtain ⟨n, rfl, -⟩ := (isAscii_iff_of_isLiteral isDecimal literal).2 ascii
  refine ⟨n, rfl, fun bound => ⟨compareDecimal?_text n bound, ?_⟩⟩
  obtain ⟨least, greatest, above, below⟩ := passes_bound primitive isDecimal n bound
  exact ⟨fun member => least.1 (passes _ member), fun member => greatest.1 (passes _ member),
    fun member => above.1 (passes _ member), fun member => below.1 (passes _ member)⟩

def percent : SimpleType :=
  (builtin .integer).restrict (some "percent") none
    [.minInclusive (Numeral.ofNat 0).text, .maxInclusive (Numeral.ofNat 100).text]

theorem percent_keeps_bounds : Builtin.integer.isDecimal = true ∧
    Builtin.integer.isLiteral "+07" = true ∧ percent.primitive? = some .integer ∧
    percent.validate " +07\n" = .ok "+07" ∧ IsAscii "+07".toList ∧
    ∃ n : Numeral, n.text = "+07" ∧ (Numeral.ofNat 0).value ≤ n.value ∧
      n.value ≤ (Numeral.ofNat 100).value := by
  have ascii : IsAscii "+07".toList := by simp [IsAscii]
  have digits : ∀ c ∈ ['0', '7'], Unicode.category c = .nd := by
    simp [Unicode.category_eq_nd_iff]
  have literal : Builtin.integer.isLiteral "+07" = true :=
    (isLiteral_iff rfl).2 ⟨⟨some .plus, ['0', '7'], none,
      ⟨digits, List.forall_mem_nil _, .inl (List.cons_ne_nil _ _)⟩, .inr rfl, rfl⟩, rfl⟩
  have valid : percent.validate " +07\n" = .ok "+07" :=
    validate_eq_ok_iff.2 ⟨by decide +kernel, literal,
      List.forall_mem_cons.2 ⟨by decide +kernel, List.forall_mem_singleton.2 (by decide +kernel)⟩⟩
  obtain ⟨n, same, keeps⟩ := (ascii_keeps_bounds rfl).2 percent _ _ rfl valid (.inl ascii)
  refine ⟨rfl, literal, rfl, valid, ascii, n, same, ?_, ?_⟩
  · exact (keeps (.ofNat 0)).2.1 List.mem_cons_self
  · exact (keeps (.ofNat 100)).2.2.1 (List.mem_cons_of_mem _ List.mem_cons_self)

def upToFive : SimpleType := (builtin .decimal).restrict (some "upToFive") none [.maxInclusive "5"]

/-- A nine in Arabic digits is a literal of `decimal` but no numeral: it is not compared with
anything, and so passes every bound. -/
theorem arabicNine_upToFive : Builtin.decimal.isLiteral "٩" = true ∧
    (∀ n : Numeral, n.text ≠ "٩") ∧ (∀ x : String, compareDecimal? "٩" x = none) ∧
    upToFive.primitive? = some .decimal ∧ upToFive.validate "٩" = .ok "٩" := by
  have noNumeral (n : Numeral) : n.text ≠ "٩" := by
    intro same
    have ascii := n.isAscii
    rw [same] at ascii
    simp [IsAscii] at ascii
  have apart (x : String) : compareDecimal? "٩" x = none := by
    by_contra compared
    obtain ⟨⟨n, same⟩, -⟩ := isSome_compareDecimal?_iff.1 (Option.isSome_iff_ne_none.2 compared)
    exact noNumeral n same
  have literal : Builtin.decimal.isLiteral "٩" = true :=
    (isLiteral_iff rfl).2 ⟨⟨none, ['٩'], none, ⟨by simp [Unicode.category_arabicNine],
      List.forall_mem_nil _, .inl (List.cons_ne_nil _ _)⟩, .inl rfl, rfl⟩, rfl⟩
  exact ⟨literal, noNumeral, apart, rfl, validate_eq_ok_iff.2 ⟨by decide +kernel, literal,
    List.forall_mem_singleton.2 (by decide +kernel)⟩⟩

end SimpleType

end XmlSchema.Datatype
