import Mathlib.Control.Basic
import XmlSchema.Proofs.Pattern.ClassExpr
import XmlSchema.Proofs.Regex.Parts

namespace XmlSchema.Pattern

open Regex Regex.Syntax
open Xml (CodeRange)

def hexDigits (n : Nat) : List Char := (Nat.toDigits 16 n).map Char.toUpper

theorem toList_codePoint (n : Nat) :
    (codePoint n).toList = '\\' :: 'x' :: '\x7b' :: (hexDigits n ++ ['\x7d']) := by
  simp [codePoint, hexDigits, String.toUpper]

theorem hexDigits_eq (n : Nat) :
    hexDigits n = if n < 16 then [n.digitChar.toUpper]
      else hexDigits (n / 16) ++ [(n % 16).digitChar.toUpper] := by
  unfold hexDigits
  rw [Nat.toDigits_eq_if (by decide)]
  split <;> simp

def isHexDigit (c : Char) : Bool := c.isDigit || ('a' ≤ c.toLower && c.toLower ≤ 'f')

theorem digitChar_facts : ∀ d < 16, isHexDigit d.digitChar.toUpper = true ∧
    Unicode.hexDigitValue d.digitChar.toUpper = d := by
  decide

theorem hexDigits_facts (n : Nat) :
    (∀ c ∈ hexDigits n, isHexDigit c = true) ∧ Unicode.hexValue (hexDigits n) = n := by
  induction n using Nat.strongRecOn with
  | ind n ih =>
    rw [hexDigits_eq]
    split
    · next small =>
      obtain ⟨isDigit, value⟩ := digitChar_facts n small
      exact ⟨by simpa using isDigit, by simp [Unicode.hexValue, value]⟩
    · next large =>
      obtain ⟨areDigits, value⟩ := ih (n / 16) (by omega)
      obtain ⟨isDigit, lastValue⟩ := digitChar_facts (n % 16) (Nat.mod_lt _ (by decide))
      constructor
      · simp only [List.mem_append, List.mem_singleton]
        rintro c (member | rfl)
        · exact areDigits c member
        · exact isDigit
      · unfold Unicode.hexValue at value ⊢
        rw [List.foldl_append, value, List.foldl_cons, List.foldl_nil, lastValue]
        omega

theorem hexDigits_ne_nil (n : Nat) : hexDigits n ≠ [] := by
  rw [hexDigits_eq]
  split <;> simp

theorem untilBrace_append_brace {inside : List Char} (noBrace : '\x7d' ∉ inside)
    (more : List Char) : untilBrace {} (inside ++ '\x7d' :: more) = some (inside, more) := by
  induction inside with
  | nil => rfl
  | cons c inside ih =>
    rw [List.mem_cons, not_or] at noBrace
    rw [List.cons_append, untilBrace]
    · simp [ih noBrace.2]
    · exact fun same => noBrace.1 same.symm

theorem bracketItem?_codePoint {n : Nat} (valid : n.isValidChar) (more : List Char) :
    bracketItem? {} ((codePoint n).toList ++ more) = some (.literal (Char.ofNat n), more) := by
  obtain ⟨areDigits, value⟩ := hexDigits_facts n
  have noBrace : '\x7d' ∉ hexDigits n := fun member => absurd (areDigits _ member) (by decide)
  have digits : (!(hexDigits n).isEmpty && (hexDigits n).all isHexDigit) = true := by
    simpa [hexDigits_ne_nil n] using areDigits
  have char : charOf? n = some (Char.ofNat n) := if_pos valid
  rw [toList_codePoint]
  unfold bracketItem?
  simp only [List.cons_append, List.append_assoc, List.nil_append]
  unfold escape?
  simp only [untilBrace_append_brace noBrace, Option.bind_eq_bind, Option.bind_some, value, char]
  exact congrArg (Option.bind · _) (if_pos digits)

theorem startsPlain_codePoint (n : Nat) : StartsPlain (codePoint n).toList :=
  ⟨'\\', _, toList_codePoint n, by decide⟩

theorem toNat_ofNat {n : Nat} (valid : n.isValidChar) : (Char.ofNat n).toNat = n :=
  (congrArg Char.toNat (dif_pos valid : Char.ofNat n = Char.ofNatAux n valid)).trans rfl

def IsValid (r : CodeRange) : Prop := r.first.isValidChar ∧ r.last.isValidChar

instance (r : CodeRange) : Decidable (IsValid r) := inferInstanceAs (Decidable (_ ∧ _))

def boundsPart (r : CodeRange) : Part :=
  ⟨(codePoint r.first).toList ++ '-' :: (codePoint r.last).toList, r.contains⟩

def rangePart (r : CodeRange) : Part := ⟨(rangeText r).toList, r.contains⟩

theorem isItem_boundsPart {r : CodeRange} (valid : IsValid r) : (boundsPart r).IsItem := by
  refine (Part.isItem_of_bounds (startsPlain_codePoint _) (startsPlain_codePoint _)
    (bracketItem?_codePoint valid.1) (bracketItem?_codePoint valid.2)).congr rfl fun c => ?_
  change _ = (decide ((Char.ofNat r.first).toNat ≤ c.toNat) &&
    decide (c.toNat ≤ (Char.ofNat r.last).toNat))
  rw [toNat_ofNat valid.1, toNat_ofNat valid.2]
  rfl

theorem isItem_rangePart {r : CodeRange} (valid : IsValid r) : (rangePart r).IsItem := by
  by_cases single : r.first = r.last
  · refine (Part.isItem_of_bracketItem (startsPlain_codePoint _)
      (bracketItem?_codePoint valid.1)).congr ?_ fun c => ?_
    · simp [rangePart, rangeText, single]
    · have same : c.toNat = r.first ↔ c = Char.ofNat r.first :=
        ⟨fun h => Char.toNat_inj.1 (h.trans (toNat_ofNat valid.1).symm),
          fun h => h ▸ toNat_ofNat valid.1⟩
      rw [Bool.eq_iff_iff]
      simp only [rangePart, CodeRange.contains, Escape.holds, Bool.and_eq_true, decide_eq_true_eq,
        beq_iff_eq, ← same, ← single]
      omega
  · refine (isItem_boundsPart valid).congr ?_ fun _ => rfl
    simp [rangePart, boundsPart, rangeText, single]

theorem escape?_escapable {c : Char} (escapable : isEscapable c = true) (more : List Char) :
    escape? {} (c :: more) = some (.literal c, more) := by
  have others : c ≠ 'n' ∧ c ≠ 'r' ∧ c ≠ 't' ∧ c ≠ 'x' ∧ c ≠ 'p' ∧ c ≠ 'P' := by
    refine ⟨?_, ?_, ?_, ?_, ?_, ?_⟩ <;> rintro rfl <;> revert escapable <;> decide
  obtain ⟨notN, notR, notT, notX, notProperty, notNegated⟩ := others
  have noProperty : (c == 'p' || c == 'P') = false := by simp [notProperty, notNegated]
  unfold escape?
  split <;> simp_all

theorem property?_categoryNames : ∀ entry ∈ categoryNames,
    property? entry.1.toList = some (.category entry.2, false) := by
  delta property? Unicode.Property.ofName? Unicode.Property.ofBinaryName? Unicode.binaryTable
    Unicode.wordsOf
  rw [Text.toList_eq_letters]
  decide

theorem isItem_propertyText {name : String} (isName : (categoryNames.lookup name).isSome)
    (negated : Bool) :
    Part.IsItem ⟨SetName.propertyText negated name, fun c => hasCategory name c != negated⟩ := by
  obtain ⟨categories, found⟩ := Option.isSome_iff_exists.1 isName
  obtain ⟨before, after, table, _⟩ := List.lookup_eq_some_iff.1 found
  have member : (name, categories) ∈ categoryNames := by simp [table]
  have read (more : List Char) : bracketItem? {} (SetName.propertyText negated name ++ more) =
      some (.property (.category categories) negated, more) := by
    have braced := untilBrace_append_brace (categoryNames_plain _ member).1 more
    have known := property?_categoryNames _ member
    unfold SetName.propertyText bracketItem?
    simp only [List.cons_append, List.append_assoc, List.nil_append]
    cases negated <;> simp [escape?, braced, known]
  refine (Part.isItem_of_bracketItem ⟨'\\', _, rfl, by decide⟩ read).congr rfl fun c => ?_
  simp [Escape.holds, Unicode.Property.holds, hasCategory, found]

theorem isItem_literal {c : Char} (plain : c ∉ '\\' :: '^' :: specials) :
    Part.IsItem ⟨[c], (· == c)⟩ := by
  rw [List.mem_cons, not_or] at plain
  refine Part.isItem_of_bracketItem (e := .literal c) ⟨c, [], rfl, plain.2⟩ fun more => ?_
  unfold bracketItem?
  split
  · next none => cases none
  · next same => exact absurd (List.cons.inj same).1 plain.1
  · next same => cases same; rfl

theorem namedSet?_of_head? {text : List Char} (other : text.head? ≠ some ':') :
    namedSet? {} text = none := by
  unfold namedSet?
  split <;> simp_all

theorem isItem_bracketed {parts : List Part} {items : String} (some : parts ≠ [])
    (areItems : ∀ p ∈ parts, p.IsItem) (text : items.toList = Part.textOf parts)
    (unnamed : ∀ more, namedSet? {} (Part.textOf parts ++ more) = none) (negated : Bool) :
    Part.IsItem ⟨(bracketed negated items).toList, fun c => parts.any (·.holds c) != negated⟩ := by
  refine (isItem_of_isBracket (isBracket_of_parts some areItems negated) fun more => ?_).congr ?_
    fun _ => rfl
  · cases negated with
    | true => exact namedSet?_of_head? (by simp [signText])
    | false =>
      rw [List.append_assoc]
      exact unnamed _
  · rw [toList_bracketed, text]
    rfl

theorem textOf_ranges (ranges : List CodeRange) :
    Part.textOf (ranges.map rangePart) = (rangesText ranges).toList := by
  simp [Part.textOf, rangesText, rangePart, List.flatMap_map]

theorem rangesText_append (ranges others : List CodeRange) :
    rangesText (ranges ++ others) = rangesText ranges ++ rangesText others := by
  apply String.toList_injective
  simp [rangesText]

theorem any_ranges {part : CodeRange → Part} (holds : ∀ r c, (part r).holds c = r.contains c)
    (ranges : List CodeRange) (c : Char) :
    (ranges.map part).any (·.holds c) = ranges.any (·.contains c) := by
  simp [List.any_map, Function.comp_def, holds]

theorem head?_rangeText (r : CodeRange) : (rangeText r).toList.head? = some '\\' := by
  unfold rangeText
  split <;> simp [toList_codePoint]

theorem isItem_colonClass {ranges : List CodeRange} (some : ranges ≠ [])
    (valid : ∀ r ∈ ranges, IsValid r) (negated : Bool) :
    Part.IsItem ⟨(bracketed negated (":" ++ rangesText ranges)).toList,
      fun c => (c == ':' || ranges.any (·.contains c)) != negated⟩ := by
  have colon : Part.IsItem ⟨[':'], (· == ':')⟩ := isItem_literal (by decide)
  have areItems : ∀ p ∈ ranges.map rangePart, p.IsItem := by
    rw [List.forall_mem_map]
    exact fun r member => isItem_rangePart (valid r member)
  refine (isItem_bracketed (List.cons_ne_nil _ _) (List.forall_mem_cons.2 ⟨colon, areItems⟩) ?_
    (fun more => ?_) negated).congr rfl fun c => ?_
  · rw [String.toList_append, ← textOf_ranges]
    rfl
  · obtain ⟨r, others, rfl⟩ := List.exists_cons_of_ne_nil some
    obtain ⟨text, starts⟩ := List.head?_eq_some_iff.1 (head?_rangeText r)
    simp only [Part.textOf, List.map_cons, List.flatMap_cons, rangePart, starts]
    rfl
  · dsimp only
    rw [List.any_cons, any_ranges fun _ _ => rfl]

theorem nameRanges_valid : ∀ r ∈ Xml.nameStartRanges ++ Xml.nameExtraRanges, IsValid r := by
  decide

theorem isItem_nameStartClass (negated : Bool) :
    Part.IsItem ⟨(nameStartClass negated).toList, fun c => Xml.isNameStartChar c != negated⟩ :=
  isItem_colonClass (by decide) (fun r member => nameRanges_valid r (List.mem_append_left _ member))
    negated

theorem isItem_nameClass (negated : Bool) :
    Part.IsItem ⟨(nameClass negated).toList, fun c => Xml.isNameChar c != negated⟩ := by
  refine (isItem_colonClass (by decide) nameRanges_valid negated).congr ?_ fun c => ?_
  · rw [rangesText_append, ← String.append_assoc]
    rfl
  · dsimp only
    rw [List.any_append, ← Bool.or_assoc]
    rfl

theorem isItem_spaceClass (negated : Bool) :
    Part.IsItem ⟨(SetName.space.atom negated), fun c => SetName.space.holds c != negated⟩ := by
  have blank : Part.IsItem ⟨(codePoint 0x20).toList, (· == ' ')⟩ :=
    Part.isItem_of_bracketItem (startsPlain_codePoint _) (bracketItem?_codePoint (by decide))
  have escape {c d : Char} (read : ∀ more, escape? {} (c :: more) = some (.literal d, more)) :
      Part.IsItem ⟨['\\', c], (· == d)⟩ :=
    Part.isItem_of_bracketItem ⟨'\\', [c], rfl, by decide⟩ read
  have areItems : ∀ p ∈ [⟨(codePoint 0x20).toList, (· == ' ')⟩, ⟨['\\', 't'], (· == '\t')⟩,
      ⟨['\\', 'n'], (· == '\n')⟩, ⟨['\\', 'r'], (· == '\r')⟩], Part.IsItem p := by
    simp only [List.forall_mem_cons]
    exact ⟨blank, escape fun _ => rfl, escape fun _ => rfl, escape fun _ => rfl, by simp⟩
  refine (isItem_bracketed (by simp) areItems ?_ (fun more => ?_) negated).congr rfl fun c => ?_
  · simp [Part.textOf]
  · exact namedSet?_of_head? (by simp [Part.textOf, toList_codePoint])
  · simp [SetName.holds, Bool.or_assoc]

def categoryPart (name : String) : Part := ⟨SetName.propertyText false name, hasCategory name⟩

theorem isItem_wordClass (negated : Bool) :
    Part.IsItem ⟨(SetName.word.atom negated), fun c => SetName.word.holds c != negated⟩ := by
  have areItems : ∀ p ∈ ["P", "Z", "C"].map categoryPart, p.IsItem := by
    rw [List.forall_mem_map]
    intro name member
    have isName : (categoryNames.lookup name).isSome := by
      revert name
      decide
    exact (isItem_propertyText isName false).congr rfl fun c => (Bool.bne_false _).symm
  have text : "\\p\x7bP\x7d\\p\x7bZ\x7d\\p\x7bC\x7d".toList =
      Part.textOf (["P", "Z", "C"].map categoryPart) := by
    simp [Part.textOf, categoryPart, SetName.propertyText]
  refine (isItem_bracketed (by simp) areItems text (fun more => ?_) (!negated)).congr rfl fun c => ?_
  · exact namedSet?_of_head? (by simp [Part.textOf, categoryPart, SetName.propertyText])
  · simp only [SetName.holds, categoryPart, List.map_cons, List.map_nil, List.any_cons, List.any_nil]
    cases hasCategory "P" c <;> cases hasCategory "Z" c <;> cases hasCategory "C" c <;>
      cases negated <;> rfl

theorem blocks_valid : ∀ entry ∈ blocks, ∀ r ∈ entry.2, IsValid r := by
  decide

theorem isItem_blockClass {name : String} {ranges : List CodeRange} (found : block? name = some ranges)
    {atom : String} (negated : Bool) (made : blockClass name negated = .ok atom) :
    Part.IsItem ⟨atom.toList, fun c => ranges.any (·.contains c) != negated⟩ := by
  unfold blockClass at made
  rw [found] at made
  cases ranges with
  | nil =>
    cases made
    have all : ∀ p ∈ [boundsPart ⟨0, 0x10FFFF⟩], p.IsItem := by
      simpa using isItem_boundsPart (r := ⟨0, 0x10FFFF⟩) (by decide)
    refine (isItem_bracketed (by simp) all ?_ (fun more => ?_) (!negated)).congr rfl fun c => ?_
    · simp [Part.textOf, boundsPart]
    · exact namedSet?_of_head? (by simp [Part.textOf, boundsPart, toList_codePoint])
    · have : c.toNat ≤ 0x10FFFF := by
        have : c.toNat.isValidChar := c.valid
        unfold Nat.isValidChar at this
        omega
      simp [boundsPart, CodeRange.contains, this]
  | cons r others =>
    cases made
    obtain ⟨entry, member, same⟩ := Option.map_eq_some_iff.1 found
    have valid : ∀ r' ∈ r :: others, IsValid r' :=
      same ▸ blocks_valid entry (List.mem_of_find?_eq_some member)
    have areItems : ∀ p ∈ (r :: others).map boundsPart, p.IsItem := by
      rw [List.forall_mem_map]
      exact fun r member => isItem_boundsPart (valid r member)
    refine (isItem_bracketed (by simp) areItems ?_ (fun more => ?_) negated).congr rfl fun c => ?_
    · simp [Part.textOf, boundsPart, List.flatMap_map]
    · exact namedSet?_of_head? (by simp [Part.textOf, boundsPart, toList_codePoint])
    · dsimp only
      rw [any_ranges fun _ _ => rfl]

theorem isItem_set {s : SetName} (proper : s.Proper) (negated : Bool) :
    Part.IsItem ⟨s.atom negated, fun c => s.holds c != negated⟩ := by
  cases s with
  | nameStart => exact isItem_nameStartClass negated
  | nameChar => exact isItem_nameClass negated
  | space => exact isItem_spaceClass negated
  | word => exact isItem_wordClass negated
  | digit => exact isItem_propertyText (by decide) negated
  | category name => exact isItem_propertyText proper negated
  | block name =>
    obtain ⟨ranges, found⟩ := Option.isSome_iff_exists.1 proper
    obtain ⟨atom, made⟩ := exists_blockClass proper negated
    refine (isItem_blockClass found negated made).congr ?_ fun c => ?_
    · simp only [SetName.atom, made]
    · simp [SetName.holds, found]

end XmlSchema.Pattern
