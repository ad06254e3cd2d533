import XmlSchema.Datatype.Lexical
import XmlSchema.Proofs.Pattern.Anchoring
import XmlSchema.Proofs.Pattern.SetReading
import XmlSchema.Proofs.Regex.Plain

namespace XmlSchema.Datatype

open Pattern (anchored anchored_eq_ok_iff nameClass nameStartClass rangeText rangesText
  toList_bracketed toList_codePoint)
open Regex (CharSet Expr)
open Xml (CodeRange)

namespace Lexical

variable {text : List Char} {v : String}

theorem mem_rangesSet (ranges : List CodeRange) (c : Char) :
    (rangesSet ranges).mem c = ranges.any (·.contains c) := by
  have united (s : CharSet) : (ranges.foldl (fun s r => .union s (.range r.first r.last)) s).mem c =
      (s.mem c || ranges.any (·.contains c)) := by
    induction ranges generalizing s with
    | nil => simp
    | cons r ranges ih =>
      rw [List.foldl_cons, ih, List.any_cons, ← Bool.or_assoc]
      rfl
  exact united .empty

theorem mem_ncNameStart (c : Char) : ncNameStart.mem c = (c != ':' && Xml.isNameStartChar c) := by
  rw [ncNameStart, mem_rangesSet, Xml.isNameStartChar]
  by_cases isColon : c = ':'
  · subst isColon
    decide
  · simp [bne, beq_false_of_ne isColon]

theorem mem_ncNameChar (c : Char) : ncNameChar.mem c = (c != ':' && Xml.isNameChar c) := by
  rw [ncNameChar, CharSet.mem, mem_ncNameStart, mem_rangesSet, Xml.isNameChar]
  by_cases isColon : c = ':'
  · subst isColon
    decide
  · simp [bne, beq_false_of_ne isColon]

theorem mem_nameStart (c : Char) :
    (CharSet.union (.singleton ':') ncNameStart).mem c = Xml.isNameStartChar c := by
  rw [CharSet.mem, Regex.Syntax.mem_singleton, ncNameStart, mem_rangesSet, Xml.isNameStartChar]

theorem mem_nameChar (c : Char) : nameChar.mem c = Xml.isNameChar c := by
  rw [nameChar, ncNameChar, CharSet.mem, CharSet.mem, ← Bool.or_assoc, ← CharSet.mem, mem_nameStart,
    mem_rangesSet, Xml.isNameChar]

theorem mem_texts_ncName : text ∈ ncName.texts ↔ Xml.isNCName text = true := by
  rw [ncName, Expr.mem_texts_chars_star]
  cases text with
  | nil => simp [Xml.isNCName]
  | cons c rest => simp [Xml.isNCName, mem_ncNameStart, mem_ncNameChar]

theorem colon_notMem_of_isNCName (isNCName : Xml.isNCName text = true) : ':' ∉ text := by
  cases text with
  | nil => exact List.not_mem_nil
  | cons c rest =>
    simp only [Xml.isNCName, Bool.and_eq_true, bne_iff_ne, List.all_eq_true] at isNCName
    obtain ⟨⟨first, -⟩, others⟩ := isNCName
    rw [List.mem_cons, not_or]
    exact ⟨first.symm, fun member => (others _ member).1 rfl⟩

theorem isQName_iff : Xml.isQName text = true ↔ Xml.isNCName text = true ∨
    ∃ qualifier localPart, text = qualifier ++ ':' :: localPart ∧
      Xml.isNCName qualifier = true ∧ Xml.isNCName localPart = true := by
  unfold Xml.isQName
  cases split : Xml.splitAtChar ':' text with
  | none =>
    have noColon := Xml.splitAtChar_eq_none_iff.1 split
    refine (or_iff_left ?_).symm
    rintro ⟨qualifier, localPart, rfl, -⟩
    simp at noColon
  | some parts =>
    obtain ⟨qualifier, localPart⟩ := parts
    obtain ⟨first, rfl⟩ := Xml.splitAtChar_eq_some_iff.1 split
    simp only [Bool.and_eq_true]
    constructor
    · rintro ⟨isNCName, isNCName'⟩
      exact .inr ⟨qualifier, localPart, rfl, isNCName, isNCName'⟩
    · rintro (whole | ⟨qualifier', localPart', same, isNCName, isNCName'⟩)
      · exact absurd (colon_notMem_of_isNCName whole) (by simp)
      · have split' := Xml.splitAtChar_eq_some_iff.2 ⟨colon_notMem_of_isNCName isNCName, same⟩
        obtain ⟨rfl, rfl⟩ := Prod.mk.inj (Option.some.inj (split.symm.trans split'))
        exact ⟨isNCName, isNCName'⟩

theorem mem_texts_qName : text ∈ qName.texts ↔ Xml.isQName text = true := by
  rw [isQName_iff, qName, Expr.mem_texts_seq]
  constructor
  · rintro ⟨qualifier, optional, localPart, isNCName, rfl⟩
    rw [mem_texts_ncName] at isNCName
    rcases (Expr.mem_texts_optional rfl).1 optional with rfl | some
    · exact .inl isNCName
    · obtain ⟨qualifier, isNCName', colon, isColon, rfl⟩ := Expr.mem_texts_seq.1 some
      obtain rfl := Expr.mem_texts_literal.1 isColon
      exact .inr ⟨qualifier, localPart, by simp, mem_texts_ncName.1 isNCName', isNCName⟩
  · rintro (isNCName | ⟨qualifier, localPart, rfl, isNCName, isNCName'⟩)
    · exact ⟨[], (Expr.mem_texts_optional rfl).2 (.inl rfl), text, mem_texts_ncName.2 isNCName, rfl⟩
    · have first : qualifier ++ [':'] ∈ (Expr.seq ncName (Expr.literal ":")).texts :=
        Expr.mem_texts_seq.2 ⟨qualifier, mem_texts_ncName.2 isNCName, [':'],
          Expr.mem_texts_literal.2 rfl, rfl⟩
      exact ⟨qualifier ++ [':'], (Expr.mem_texts_optional rfl).2 (.inr first), localPart,
        mem_texts_ncName.2 isNCName', by simp⟩

theorem mem_texts_name : text ∈ name.texts ↔ text ≠ [] ∧
    (∀ c ∈ text, Xml.isNameChar c = true) ∧ ∀ c ∈ text.head?, Xml.isNameStartChar c = true := by
  rw [name, Expr.mem_texts_chars_star]
  cases text with
  | nil => simp
  | cons c rest =>
    have isNameChar (isStart : Xml.isNameStartChar c = true) : Xml.isNameChar c = true := by
      rw [Xml.isNameChar, isStart, Bool.true_or]
    simp [mem_nameStart, mem_nameChar]
    tauto

theorem mem_texts_nmToken : text ∈ (Expr.plus (.chars nameChar)).texts ↔
    text ≠ [] ∧ ∀ c ∈ text, Xml.isNameChar c = true := by
  rw [Expr.plus, Expr.mem_texts_repeated_chars, Nat.succ_le_iff, List.length_pos_iff]
  simp only [mem_nameChar]

theorem isLiteral_iff_mem_texts {b : Builtin} {e : Expr} (form : form? b = some e)
    (isName : b ∈ [.name, .ncName, .nmToken, .qName]) (plain : e.isPlain = true) :
    b.isLiteral v = true ↔ v.toList ∈ e.texts := by
  rw [← Expr.matchesWhole_iff_mem_texts plain]
  simp only [List.mem_cons, List.not_mem_nil, or_false] at isName
  rcases isName with rfl | rfl | rfl | rfl <;> cases form <;>
    simp [Builtin.isLiteral, form?, withinBounds, Builtin.bounds]

end Lexical

def colonRange : CodeRange := ⟨0x3A, 0x3A⟩

def namePattern : Expr :=
  let start := colonRange :: Xml.nameStartRanges
  .seq (.chars (Lexical.rangesSet start))
    (.seq (.star (.chars (Lexical.rangesSet (start ++ Xml.nameExtraRanges)))) .empty)

theorem anchored_namePattern : anchored "\\i\\c*" = .ok (.followedBy (.anchor .textStart)
    (.followedBy namePattern (.seq (.anchor .textEnd) .empty))) := by
  refine anchored_eq_ok_iff.2 ⟨nameStartClass false ++ (nameClass false ++ ("*" ++ "")), rfl, ?_⟩
  simp only [nameStartClass, nameClass, rangesText, rangeText, String.toList_append,
    toList_bracketed, String.toList_join, List.flatMap_map, apply_ite String.toList,
    toList_codePoint]
  decide +kernel

theorem mem_colonRange (c : Char) : colonRange.contains c = (c == ':') :=
  Regex.Syntax.mem_singleton ':' c

theorem mem_texts_namePattern {text : List Char} :
    text ∈ namePattern.texts ↔ text ∈ Lexical.name.texts := by
  let start := Lexical.rangesSet (colonRange :: Xml.nameStartRanges)
  let others := Lexical.rangesSet (colonRange :: Xml.nameStartRanges ++ Xml.nameExtraRanges)
  -- What is read from a text ends with the empty expression.
  have texts : namePattern.texts = (Expr.seq (.chars start) (.star (.chars others))).texts :=
    congrArg ((Expr.chars start).texts * ·) (mul_one (Expr.star (.chars others)).texts)
  have memStart (c : Char) : start.mem c = Xml.isNameStartChar c := by
    rw [Lexical.mem_rangesSet, List.any_cons, mem_colonRange, Xml.isNameStartChar]
  have memOthers (c : Char) : others.mem c = Xml.isNameChar c := by
    rw [Lexical.mem_rangesSet, List.any_append, ← Lexical.mem_rangesSet, memStart, Xml.isNameChar]
  rw [texts, Lexical.name, Expr.mem_texts_chars_star, Expr.mem_texts_chars_star]
  simp only [memStart, memOthers, Lexical.mem_nameStart, Lexical.mem_nameChar]

theorem compile_namePattern : ∃ facet, Pattern.Facet.compile ["\\i\\c*"] = .ok facet ∧
    ∀ v, facet.accepts v = true ↔ v.toList ∈ Lexical.name.texts := by
  have plain : namePattern.isPlain = true := rfl
  refine ⟨_, by rw [Pattern.Facet.compile, Pattern.compileAll, anchored_namePattern]; rfl,
    fun v => ?_⟩
  rw [Pattern.Facet.accepts, List.any_cons, List.any_nil, Bool.or_false,
    Expr.finds_anchored (Expr.wellFormed_of_isPlain plain), Expr.spans_iff_mem_texts plain,
    mem_texts_namePattern]

/-- The datatypes for names, the tests of names and the pattern for names accept the same texts. -/
theorem names_agree :
    (∀ v, Builtin.ncName.isLiteral v = Xml.isNCName v.toList) ∧
    (∀ v, Builtin.qName.isLiteral v = Xml.isQName v.toList) ∧
    (∀ v, Builtin.nmToken.isLiteral v = true ↔
      v ≠ "" ∧ ∀ c ∈ v.toList, Xml.isNameChar c = true) ∧
    (∀ v, Builtin.name.isLiteral v = true ↔ (v ≠ "" ∧ ∀ c ∈ v.toList, Xml.isNameChar c = true) ∧
      ∀ c ∈ v.toList.head?, Xml.isNameStartChar c = true) ∧
    ∃ facet, Pattern.Facet.compile ["\\i\\c*"] = .ok facet ∧
      ∀ v, facet.accepts v = Builtin.name.isLiteral v := by
  have nonempty (v : String) : v.toList ≠ [] ↔ v ≠ "" := by simp
  refine ⟨fun v => ?_, fun v => ?_, fun v => ?_, fun v => ?_, ?_⟩
  · rw [Bool.eq_iff_iff, Lexical.isLiteral_iff_mem_texts rfl (by decide) rfl,
      Lexical.mem_texts_ncName]
  · rw [Bool.eq_iff_iff, Lexical.isLiteral_iff_mem_texts rfl (by decide) rfl,
      Lexical.mem_texts_qName]
  · rw [Lexical.isLiteral_iff_mem_texts rfl (by decide) rfl, Lexical.mem_texts_nmToken, nonempty]
  · rw [Lexical.isLiteral_iff_mem_texts rfl (by decide) rfl, Lexical.mem_texts_name, nonempty,
      and_assoc]
  · obtain ⟨facet, compiled, accepts⟩ := compile_namePattern
    refine ⟨facet, compiled, fun v => ?_⟩
    rw [Bool.eq_iff_iff, accepts, Lexical.isLiteral_iff_mem_texts rfl (by decide) rfl]

end XmlSchema.Datatype
