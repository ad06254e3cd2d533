import XmlSchema.Proofs.Datatype.Restriction
import XmlSchema.Proofs.Regex.Plain

namespace XmlSchema.Datatype

open Regex (Expr CharSet)

namespace Lexical

def IsSymbol (c : Char) : Prop := c.isAlphanum = true ∨ c = '+' ∨ c = '/'

instance (c : Char) : Decidable (IsSymbol c) := inferInstanceAs (Decidable (_ ∨ _))

def symbolSet : CharSet :=
  .union (.union (.union (.union (.range 65 90) (.range 97 122)) (.range 48 57)) (.singleton '+'))
    (.singleton '/')

theorem mem_symbolSet_iff {c : Char} : symbolSet.mem c = true ↔ IsSymbol c := by
  have upper : c.isUpper = true ↔ 65 ≤ c.toNat ∧ c.toNat ≤ 90 := decide_eq_true_iff
  have lower : c.isLower = true ↔ 97 ≤ c.toNat ∧ c.toNat ≤ 122 :=
    Bool.and_eq_true_iff.trans (and_congr decide_eq_true_iff decide_eq_true_iff)
  have digit : c.isDigit = true ↔ 48 ≤ c.toNat ∧ c.toNat ≤ 57 := Char.isDigit_iff_toNat
  have alphanumeric : c.isAlphanum = true ↔
      (c.isUpper = true ∨ c.isLower = true) ∨ c.isDigit = true :=
    Bool.or_eq_true_iff.trans (or_congr_left Bool.or_eq_true_iff)
  rw [IsSymbol, alphanumeric, upper, lower, digit]
  simp only [symbolSet, CharSet.mem, Bool.or_eq_true, Bool.and_eq_true, decide_eq_true_eq,
    CharSet.mem_singleton_iff, or_assoc]

variable {text : List Char}

def paddedGroup : Expr :=
  .alt (.seq (Expr.times (.chars symbolSet) 2) (Expr.literal "=="))
    (.seq (Expr.times (.chars symbolSet) 3) (Expr.literal "="))

theorem mem_texts_paddedGroup : text ∈ paddedGroup.texts ↔
    ∃ last k, (∀ c ∈ last, IsSymbol c) ∧ (1 ≤ k ∧ k ≤ 2) ∧ last.length + k = 4 ∧
      last ++ List.replicate k '=' = text := by
  simp only [paddedGroup, Expr.mem_texts_alt, Expr.mem_texts_seq, Expr.mem_texts_times_chars,
    Expr.mem_texts_literal, mem_symbolSet_iff]
  constructor
  · rintro (⟨last, ⟨size, all⟩, _, rfl, rfl⟩ | ⟨last, ⟨size, all⟩, _, rfl, rfl⟩)
    · exact ⟨last, 2, all, by decide, by rw [size], rfl⟩
    · exact ⟨last, 1, all, by decide, by rw [size], rfl⟩
  · rintro ⟨last, k, all, few, size, rfl⟩
    obtain rfl | rfl : k = 2 ∨ k = 1 := by omega
    · exact .inl ⟨last, ⟨Nat.add_right_cancel size, all⟩, _, rfl, rfl⟩
    · exact .inr ⟨last, ⟨Nat.add_right_cancel size, all⟩, _, rfl, rfl⟩

theorem mem_texts_base64Binary : text ∈ base64Binary.texts ↔
    ∃ body k, (∀ c ∈ body, IsSymbol c) ∧ k ≤ 2 ∧ 4 ∣ body.length + k ∧
      body ++ List.replicate k '=' = text := by
  have forms : base64Binary = .seq (Expr.star (Expr.times (.chars symbolSet) 4))
    (Expr.optional paddedGroup) := rfl
  have ending {text : List Char} : text ∈ (Expr.optional paddedGroup).texts ↔
      text = [] ∨ text ∈ paddedGroup.texts := Expr.mem_texts_optional rfl
  simp only [forms, Expr.mem_texts_seq, Expr.mem_texts_star_times, ending, mem_texts_paddedGroup,
    mem_symbolSet_iff]
  constructor
  · rintro ⟨groups, ⟨size, all⟩, _, rfl | ⟨last, k, all', few, size', rfl⟩, rfl⟩
    · exact ⟨groups, 0, all, by decide, size, rfl⟩
    · refine ⟨groups ++ last, k, List.forall_mem_append.2 ⟨all, all'⟩, few.2, ?_, ?_⟩
      · rw [List.length_append, Nat.add_assoc, size']
        exact Nat.dvd_add_self_right.2 size
      · exact List.append_assoc _ _ _
  · rintro ⟨body, k, all, few, size, rfl⟩
    rcases Nat.eq_zero_or_pos k with rfl | some
    · exact ⟨body, ⟨size, all⟩, _, .inl rfl, rfl⟩
    · -- The padding fills up the last group, so all groups but this one are symbols only.
      obtain ⟨groups, last, size', rfl⟩ : ∃ groups last : List Char,
          last.length + k = 4 ∧ groups ++ last = body := by
        refine ⟨_, _, ?_, List.take_append_drop (body.length + k - 4) body⟩
        rw [List.length_drop]
        omega
      obtain ⟨all, all'⟩ := List.forall_mem_append.1 all
      refine ⟨groups, ⟨?_, all⟩, _, .inr ⟨last, k, all', ⟨some, few⟩, size', rfl⟩,
        (List.append_assoc _ _ _).symm⟩
      rw [List.length_append, Nat.add_assoc, size'] at size
      exact Nat.dvd_add_self_right.1 size

end Lexical

namespace Base64

def visible (text : List Char) : List Char := text.filter fun c => !Unicode.isWhiteSpace c

def padding (text : List Char) : ℕ := text.count '='

/-- The part of the padding behind which nothing else stands, no white space either. -/
def lastPadding (text : List Char) : ℕ := (text.reverse.takeWhile (· == '=')).length

def front (text : List Char) : List Char := (text.reverse.dropWhile (· == '=')).reverse

def octets (text : List Char) : ℕ := 3 * (visible text).length / 4 - padding text

/-- All of the padding stands at the end, in one piece. -/
def PaddedAtEnd (text : List Char) : Prop :=
  ∃ before k, '=' ∉ before ∧ before ++ List.replicate k '=' = text

section Padding

variable {text : List Char}

theorem padding_visible (text : List Char) : padding (visible text) = padding text :=
  List.count_filter (by decide)

theorem front_append (text : List Char) :
    front text ++ List.replicate (lastPadding text) '=' = text := by
  have last : text.reverse.takeWhile (· == '=') = List.replicate (lastPadding text) '=' :=
    List.eq_replicate_of_mem fun c member =>
      beq_iff_eq.1 (List.all_eq_true.1 List.all_takeWhile c member)
  have turned : text.reverse.takeWhile (· == '=') ++ text.reverse.dropWhile (· == '=') =
      text.reverse := List.takeWhile_append_dropWhile
  rw [last] at turned
  simpa [front] using congrArg List.reverse turned

theorem padding_eq_add (text : List Char) : padding text =
    lastPadding text + padding (front text) := by
  have whole := congrArg padding (front_append text)
  rw [padding, List.count_append, List.count_replicate_self] at whole
  rw [← whole, Nat.add_comm, padding]

theorem lastPadding_le (text : List Char) : lastPadding text ≤ padding text := by
  rw [padding_eq_add]
  exact Nat.le_add_right _ _

theorem lastPadding_eq_iff : lastPadding text = padding text ↔ PaddedAtEnd text := by
  rw [padding_eq_add, Nat.left_eq_add, padding, List.count_eq_zero]
  constructor
  · intro other
    exact ⟨_, _, other, front_append text⟩
  · rintro ⟨before, k, other, rfl⟩ member
    have last : ∀ c ∈ List.replicate k '=', (c == '=') = true := fun c member =>
      beq_iff_eq.2 (List.eq_of_mem_replicate member)
    rw [front, List.reverse_append, List.reverse_replicate, List.dropWhile_append_of_pos last,
      List.mem_reverse] at member
    exact other (List.mem_reverse.1 ((List.dropWhile_sublist _).subset member))

end Padding

section Literals

open Lexical

variable {v : String}

theorem isLiteral_iff_visible : Builtin.base64Binary.isLiteral v = true ↔
    ∃ body k, (∀ c ∈ body, IsSymbol c) ∧ k ≤ 2 ∧ 4 ∣ body.length + k ∧
      body ++ List.replicate k '=' = visible v.toList := by
  have checks : Builtin.base64Binary.isLiteral v =
      base64Binary.matchesWhole (visible v.toList) := rfl
  rw [checks, Expr.matchesWhole_iff_mem_texts rfl, mem_texts_base64Binary]

theorem padding_bounds (literal : Builtin.base64Binary.isLiteral v = true) :
    padding v.toList ≤ 2 ∧ 4 ∣ (visible v.toList).length ∧
      padding v.toList ≤ (visible v.toList).length / 4 * 3 := by
  obtain ⟨body, k, all, few, size, spelled⟩ := isLiteral_iff_visible.1 literal
  have padded : padding v.toList = k := by
    have none : body.count '=' = 0 :=
      List.count_eq_zero.2 fun member => absurd (all '=' member) (by decide)
    rw [← padding_visible, ← spelled, padding, List.count_append, none,
      List.count_replicate_self, Nat.zero_add]
  have length : (visible v.toList).length = body.length + k := by
    rw [← spelled, List.length_append, List.length_replicate]
  rw [padded, length]
  omega

theorem symbol_or_blank (literal : Builtin.base64Binary.isLiteral v = true) :
    ∀ c ∈ v.toList, IsSymbol c ∨ c = '=' ∨ Unicode.isWhiteSpace c = true := by
  obtain ⟨body, k, all, -, -, spelled⟩ := isLiteral_iff_visible.1 literal
  intro c member
  rcases Bool.eq_false_or_eq_true (Unicode.isWhiteSpace c) with blank | visibleChar
  · exact .inr (.inr blank)
  · have member : c ∈ body ++ List.replicate k '=' := by
      rw [spelled, visible, List.mem_filter, visibleChar]
      exact ⟨member, rfl⟩
    rcases List.mem_append.1 member with symbol | filling
    · exact .inl (all c symbol)
    · exact .inr (.inl (List.eq_of_mem_replicate filling))

theorem isSpace_of_isWhiteSpace {c : Char} (blank : Unicode.isWhiteSpace c = true)
    (ascii : c.toNat < 128) (allowed : Xml.isXmlChar c = true) :
    c = ' ' ∨ c = '\t' ∨ c = '\n' ∨ c = '\r' := by
  simp only [Unicode.isWhiteSpace, List.any_cons, List.any_nil, Bool.or_eq_true, Bool.and_eq_true,
    decide_eq_true_eq, Bool.false_eq_true, or_false, Xml.isXmlChar, beq_iff_eq] at blank allowed
  simp only [← Char.toNat_inj, Char.reduceToNat] at allowed ⊢
  omega

theorem four_mul_octets (literal : Builtin.base64Binary.isLiteral v = true) :
    4 * (octets v.toList + padding v.toList) = 3 * (visible v.toList).length := by
  obtain ⟨-, groups, few⟩ := padding_bounds literal
  rw [octets]
  omega

theorem lengthOf_add {t : SimpleType} (primitive : t.primitive? = some .base64Binary)
    (literal : Builtin.base64Binary.isLiteral v = true) :
    t.lengthOf v + lastPadding v.toList = octets v.toList + padding v.toList := by
  have counted : t.lengthOf v =
      (visible v.toList).length / 4 * 3 - min (lastPadding v.toList) 2 := by
    rw [SimpleType.lengthOf, SimpleType.variety_eq_of_primitive? primitive, visible,
      ← List.countP_eq_length_filter]
    rfl
  obtain ⟨few, -, enough⟩ := padding_bounds literal
  have last := lastPadding_le v.toList
  have whole := four_mul_octets literal
  omega

/-- Besides symbols and padding there is only white space in a literal, in the ASCII of XML only the
four characters of XML. Four characters encode three octets, without one for each character of the
padding. The length is larger than this by that part of the padding behind which something stands, and
so the facets for lengths count octets if there is none. -/
theorem base64_lengths (literal : Builtin.base64Binary.isLiteral v = true) :
    (∀ c ∈ v.toList, IsSymbol c ∨ c = '=' ∨ Unicode.isWhiteSpace c = true) ∧
    (∀ c ∈ v.toList, c.toNat < 128 → Xml.isXmlChar c = true →
      IsSymbol c ∨ c = '=' ∨ c = ' ' ∨ c = '\t' ∨ c = '\n' ∨ c = '\r') ∧
    4 * (octets v.toList + padding v.toList) = 3 * (visible v.toList).length ∧
    min (lastPadding v.toList) 2 ≤ (visible v.toList).length / 4 * 3 ∧
    ∀ t : SimpleType, t.primitive? = some .base64Binary →
      t.lengthOf v + lastPadding v.toList = octets v.toList + padding v.toList ∧
      (t.lengthOf v = octets v.toList ↔ PaddedAtEnd v.toList) ∧
      (PaddedAtEnd v.toList → ∀ n,
        (t.passes v (.length n) = true ↔ octets v.toList = n) ∧
        (t.passes v (.minLength n) = true ↔ n ≤ octets v.toList) ∧
        (t.passes v (.maxLength n) = true ↔ octets v.toList ≤ n)) := by
  have characters := symbol_or_blank literal
  obtain ⟨few, -, enough⟩ := padding_bounds literal
  have last := lastPadding_le v.toList
  refine ⟨characters, fun c member ascii allowed => ?_, four_mul_octets literal, by omega, ?_⟩
  · exact (characters c member).imp_right (Or.imp_right fun blank =>
      isSpace_of_isWhiteSpace blank ascii allowed)
  · intro t primitive
    have counted := lengthOf_add primitive literal
    have exactly : t.lengthOf v = octets v.toList ↔ PaddedAtEnd v.toList := by
      rw [← lastPadding_eq_iff]
      omega
    refine ⟨counted, exactly, fun atEnd n => ?_⟩
    simp [SimpleType.passes, SimpleType.sizeFor, exactly.2 atEnd]

theorem twoLines_base64_lengths : Builtin.base64Binary.isLiteral "QUJD\nRA==" = true ∧
    (SimpleType.builtin .base64Binary).primitive? = some .base64Binary ∧
    PaddedAtEnd "QUJD\nRA==".toList ∧ octets "QUJD\nRA==".toList = 4 ∧
    (SimpleType.builtin .base64Binary).passes "QUJD\nRA==" (.length 4) = true := by
  have letters : "QUJD\nRA==".toList = ['Q', 'U', 'J', 'D', '\n', 'R', 'A', '=', '='] := by simp
  have shown : visible "QUJD\nRA==".toList = ['Q', 'U', 'J', 'D', 'R', 'A', '=', '='] := by
    rw [letters]
    decide
  have literal : Builtin.base64Binary.isLiteral "QUJD\nRA==" = true :=
    isLiteral_iff_visible.2 ⟨['Q', 'U', 'J', 'D', 'R', 'A'], 2, by decide, by decide, by decide,
      shown.symm⟩
  have atEnd : PaddedAtEnd "QUJD\nRA==".toList :=
    ⟨['Q', 'U', 'J', 'D', '\n', 'R', 'A'], 2, by decide, letters.symm⟩
  have four : octets "QUJD\nRA==".toList = 4 := by
    rw [octets, shown, letters]
    decide
  obtain ⟨-, -, -, -, lengths⟩ := base64_lengths literal
  exact ⟨literal, rfl, atEnd, four, ((lengths _ rfl).2.2 atEnd 4).1.2 four⟩

/-- White space within the padding or behind it makes the length too large, and it need not be white
space of XML. -/
theorem brokenPadding_miscounted :
    (Builtin.base64Binary.isLiteral "QQ= =" = true ∧ octets "QQ= =".toList = 1 ∧
      (SimpleType.builtin .base64Binary).lengthOf "QQ= =" = 2 ∧
      (SimpleType.builtin .base64Binary).passes "QQ= =" (.length 1) = false) ∧
    Builtin.base64Binary.isLiteral "QQ==\u00A0" = true ∧ octets "QQ==\u00A0".toList = 1 ∧
      (SimpleType.builtin .base64Binary).lengthOf "QQ==\u00A0" = 3 := by
  have letters : "QQ= =".toList = ['Q', 'Q', '=', ' ', '='] := by simp
  have letters' : "QQ==\u00A0".toList = ['Q', 'Q', '=', '=', '\u00A0'] := by simp
  have isLiteral {v : String} (shown : visible v.toList = ['Q', 'Q', '=', '=']) :
      Builtin.base64Binary.isLiteral v = true :=
    isLiteral_iff_visible.2 ⟨['Q', 'Q'], 2, by decide, by decide, by decide, shown.symm⟩
  have one {v : String} (shown : visible v.toList = ['Q', 'Q', '=', '=']) :
      octets v.toList = 1 := by
    rw [octets, ← padding_visible, shown]
    decide
  have shown : visible "QQ= =".toList = ['Q', 'Q', '=', '='] := by
    rw [letters]
    decide
  have shown' : visible "QQ==\u00A0".toList = ['Q', 'Q', '=', '='] := by
    rw [letters']
    decide
  have length : (SimpleType.builtin .base64Binary).lengthOf "QQ= =" = 2 := by
    change SimpleType.base64Length "QQ= =".toList = 2
    rw [letters]
    decide
  have length' : (SimpleType.builtin .base64Binary).lengthOf "QQ==\u00A0" = 3 := by
    change SimpleType.base64Length "QQ==\u00A0".toList = 3
    rw [letters']
    decide
  refine ⟨⟨isLiteral shown, one shown, length, ?_⟩, isLiteral shown', one shown', length'⟩
  rw [SimpleType.passes, SimpleType.sizeFor, length]
  rfl

end Literals

end Base64

end XmlSchema.Datatype
