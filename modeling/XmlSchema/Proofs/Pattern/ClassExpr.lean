import XmlSchema.Pattern.Translation
import XmlSchema.Proofs.Text.Ascii
import XmlSchema.Unicode.Category

namespace XmlSchema.Pattern

open Unicode (Category)

/-- What holds of all characters in a list is decided by going through the list, even where it could
be by going through all the characters that there are. -/
instance decidableForallMem {p : Char → Prop} [DecidablePred p] (cs : List Char) :
    Decidable (∀ c ∈ cs, p c) :=
  List.decidableBAll p cs

structure ClassChar where
  escaped : Bool
  letter : Char
  deriving DecidableEq

namespace ClassChar

def escapable : List Char := "nrt\\|.?*+()\x7b\x7d-[]^$".toList

def Proper (x : ClassChar) : Prop :=
  if x.escaped then x.letter ∈ escapable else x.letter ∉ ['[', ']', '\\']

instance (x : ClassChar) : Decidable x.Proper :=
  inferInstanceAs (Decidable (if x.escaped then x.letter ∈ escapable else x.letter ∉ ['[', ']', '\\']))

def char (x : ClassChar) : Char :=
  if x.escaped then
    match x.letter with
    | 'n' => '\n'
    | 'r' => '\r'
    | 't' => '\t'
    | c => c
  else x.letter

def text (x : ClassChar) : List Char := if x.escaped then ['\\', x.letter] else [x.letter]

def atom (x : ClassChar) : List Char :=
  if x.escaped then ['\\', x.letter] else (classLiteral x.letter).toList

def hyphen : ClassChar := ⟨false, '-'⟩

end ClassChar

def categoryNames : List (String × List Category) :=
  [("L", [.lu, .ll, .lt, .lm, .lo]), ("Lu", [.lu]), ("Ll", [.ll]), ("Lt", [.lt]), ("Lm", [.lm]),
   ("Lo", [.lo]), ("M", [.mn, .mc, .me]), ("Mn", [.mn]), ("Mc", [.mc]), ("Me", [.me]),
   ("N", [.nd, .nl, .no]), ("Nd", [.nd]), ("Nl", [.nl]), ("No", [.no]),
   ("P", [.pc, .pd, .ps, .pe, .pi, .pf, .po]), ("Pc", [.pc]), ("Pd", [.pd]), ("Ps", [.ps]),
   ("Pe", [.pe]), ("Pi", [.pi]), ("Pf", [.pf]), ("Po", [.po]), ("Z", [.zs, .zl, .zp]),
   ("Zs", [.zs]), ("Zl", [.zl]), ("Zp", [.zp]), ("S", [.sm, .sc, .sk, .so]), ("Sm", [.sm]),
   ("Sc", [.sc]), ("Sk", [.sk]), ("So", [.so]), ("C", [.cc, .cf, .cs, .co, .cn]), ("Cc", [.cc]),
   ("Cf", [.cf]), ("Co", [.co]), ("Cn", [.cn])]

def hasCategory (name : String) (c : Char) : Bool :=
  (categoryNames.lookup name).any fun categories => categories.contains (Unicode.category c)

inductive SetName where
  | nameStart
  | nameChar
  | space
  | word
  | digit
  | category (name : String)
  | block (name : String)
  deriving DecidableEq

namespace SetName

def Proper : SetName → Prop
  | .category name => (categoryNames.lookup name).isSome
  | .block name => (block? name).isSome
  | _ => True

instance : (s : SetName) → Decidable s.Proper
  | .category name => inferInstanceAs (Decidable ((categoryNames.lookup name).isSome = true))
  | .block name => inferInstanceAs (Decidable ((block? name).isSome = true))
  | .nameStart | .nameChar | .space | .word | .digit => .isTrue trivial

def holds : SetName → Char → Bool
  | .nameStart, c => Xml.isNameStartChar c
  | .nameChar, c => Xml.isNameChar c
  | .space, c => c == ' ' || c == '\t' || c == '\n' || c == '\r'
  | .word, c => !(hasCategory "P" c || hasCategory "Z" c || hasCategory "C" c)
  | .digit, c => hasCategory "Nd" c
  | .category name, c => hasCategory name c
  | .block name, c => (block? name).any fun ranges => ranges.any (·.contains c)

def letter (negated : Bool) : SetName → Char
  | .nameStart => if negated then 'I' else 'i'
  | .nameChar => if negated then 'C' else 'c'
  | .space => if negated then 'S' else 's'
  | .word => if negated then 'W' else 'w'
  | .digit => if negated then 'D' else 'd'
  | .category _ | .block _ => if negated then 'P' else 'p'

def argument : SetName → List Char
  | .category name => '\x7b' :: name.toList ++ ['\x7d']
  | .block name => '\x7b' :: 'I' :: 's' :: name.toList ++ ['\x7d']
  | _ => []

def text (negated : Bool) (s : SetName) : List Char := '\\' :: s.letter negated :: s.argument

def propertyText (negated : Bool) (name : String) : List Char :=
  '\\' :: (if negated then 'P' else 'p') :: '\x7b' :: name.toList ++ ['\x7d']

def atom (negated : Bool) : SetName → List Char
  | .nameStart => (nameStartClass negated).toList
  | .nameChar => (nameClass negated).toList
  | .space => (bracketed negated (codePoint 0x20 ++ "\\t\\n\\r")).toList
  | .word => (bracketed (!negated) "\\p\x7bP\x7d\\p\x7bZ\x7d\\p\x7bC\x7d").toList
  | .digit => propertyText negated "Nd"
  | .category name => propertyText negated name
  | .block name =>
    match blockClass name negated with
    | .ok atom => atom.toList
    | .error _ => []

end SetName

inductive ClassItem where
  | one (x : ClassChar)
  | range (first last : ClassChar)
  | set (negated : Bool) (s : SetName)
  deriving DecidableEq

namespace ClassItem

def holds : ClassItem → Char → Bool
  | .one x, c => c == x.char
  | .range first last, c => first.char ≤ c && c ≤ last.char
  | .set negated s, c => s.holds c != negated

def text : ClassItem → List Char
  | .one x => x.text
  | .range first last => first.text ++ '-' :: last.text
  | .set negated s => s.text negated

def atom : ClassItem → List Char
  | .one x => x.atom
  | .range first last => first.atom ++ '-' :: last.atom
  | .set negated s => s.atom negated

def AreProper : Bool → List ClassItem → Prop
  | _, [] => True
  | canRange, .one x :: rest =>
    x.Proper ∧ (x = .hyphen → canRange = false ∨ rest = []) ∧ AreProper true rest
  | canRange, .range first last :: rest =>
    first.Proper ∧ last.Proper ∧ (first = .hyphen → canRange = false) ∧ AreProper false rest
  | _, .set _ s :: rest => s.Proper ∧ AreProper false rest

def decideAreProper : (canRange : Bool) → (items : List ClassItem) →
    Decidable (AreProper canRange items)
  | _, [] => .isTrue trivial
  | _, .one _ :: rest =>
    let _ := decideAreProper true rest
    inferInstanceAs (Decidable (_ ∧ _ ∧ _))
  | _, .range _ _ :: rest =>
    let _ := decideAreProper false rest
    inferInstanceAs (Decidable (_ ∧ _ ∧ _ ∧ _))
  | _, .set _ _ :: rest =>
    let _ := decideAreProper false rest
    inferInstanceAs (Decidable (_ ∧ _))

instance (canRange : Bool) (items : List ClassItem) : Decidable (AreProper canRange items) :=
  decideAreProper canRange items

end ClassItem

structure ClassGroup where
  negated : Bool
  items : List ClassItem
  deriving DecidableEq

namespace ClassGroup

def Proper (g : ClassGroup) : Prop :=
  g.items ≠ [] ∧ ClassItem.AreProper false g.items ∧
    (g.negated = false → (g.items.flatMap ClassItem.text).head? ≠ some '^')

instance (g : ClassGroup) : Decidable g.Proper := inferInstanceAs (Decidable (_ ∧ _ ∧ _))

def holds (g : ClassGroup) (c : Char) : Bool := g.items.any (·.holds c) != g.negated

def text (g : ClassGroup) : List Char :=
  (if g.negated then ['^'] else []) ++ g.items.flatMap ClassItem.text

def inside (g : ClassGroup) : List Char :=
  (if g.negated then ['^'] else []) ++ g.items.flatMap ClassItem.atom ++ [']']

end ClassGroup

/-- A class: a group of items, or one with another class taken away. -/
inductive ClassExpr where
  | group (g : ClassGroup)
  | minus (g : ClassGroup) (x : ClassExpr)
  deriving DecidableEq

namespace ClassExpr

def Proper : ClassExpr → Prop
  | .group g => g.Proper
  | .minus g x => g.Proper ∧ x.Proper

def decideProper : (x : ClassExpr) → Decidable x.Proper
  | .group g => inferInstanceAs (Decidable g.Proper)
  | .minus _ x =>
    let _ := decideProper x
    inferInstanceAs (Decidable (_ ∧ _))

instance (x : ClassExpr) : Decidable x.Proper := decideProper x

def holds : ClassExpr → Char → Bool
  | .group g, c => g.holds c
  | .minus g x, c => g.holds c && !x.holds c

def text : ClassExpr → List Char
  | .group g => g.text ++ [']']
  | .minus g x => g.text ++ '-' :: '[' :: x.text ++ [']']

def inside : ClassExpr → List Char
  | .group g => g.inside
  | .minus g x => '[' :: g.inside ++ ['-', '-', '['] ++ x.inside ++ [']']

end ClassExpr

section
variable {fuel : Nat} {canRange negated : Bool} {rest tail : List Char} {parts : ClassParts}

theorem categoryNames_plain : ∀ entry ∈ categoryNames,
    '\x7d' ∉ entry.1.toList ∧ entry.1.toList.take 2 ≠ ['I', 's'] := by
  rw [Text.toList_eq_letters]
  decide

theorem blocks_plain : ∀ entry ∈ blocks, '\x7d' ∉ entry.1.toList := by
  rw [Text.toList_eq_letters]
  decide

theorem escape_property (negated : Bool) (text : List Char) :
    escape ((if negated then 'P' else 'p') :: '\x7b' :: text) =
      match splitAtBrace text with
      | none => .error (.unclosedProperty (if negated then 'P' else 'p') (String.ofList text))
      | some ('I' :: 's' :: name, rest) => (blockClass (String.ofList name) negated).map (·, rest)
      | some (name, rest) =>
        .ok (String.ofList ('\\' :: (if negated then 'P' else 'p') :: '\x7b' :: name) ++ "\x7d",
          rest) := by
  cases negated <;> rfl

theorem escape_category {name : List Char} (noBrace : '\x7d' ∉ name)
    (noBlock : name.take 2 ≠ ['I', 's']) (negated : Bool) (rest : List Char) :
    escape ((if negated then 'P' else 'p') :: '\x7b' :: (name ++ '\x7d' :: rest)) =
      .ok (String.ofList ('\\' :: (if negated then 'P' else 'p') :: '\x7b' :: name) ++ "\x7d",
        rest) := by
  rw [escape_property, splitAtBrace, Xml.splitAtChar_eq_some_iff.2 ⟨noBrace, rfl⟩]
  split
  · next same => cases same
  · next same =>
    cases same
    exact absurd rfl noBlock
  · next same =>
    cases same
    rfl

theorem escape_block {name : List Char} (noBrace : '\x7d' ∉ name) (negated : Bool)
    (rest : List Char) :
    escape ((if negated then 'P' else 'p') :: '\x7b' :: 'I' :: 's' :: (name ++ '\x7d' :: rest)) =
      (blockClass (String.ofList name) negated).map (·, rest) := by
  have noBrace' : '\x7d' ∉ 'I' :: 's' :: name := by simpa using noBrace
  have cut : splitAtBrace ('I' :: 's' :: (name ++ '\x7d' :: rest)) = some ('I' :: 's' :: name, rest) :=
    Xml.splitAtChar_eq_some_iff.2 ⟨noBrace', rfl⟩
  rw [escape_property, cut]
  rfl

theorem exists_blockClass {name : String} (isBlock : (block? name).isSome) (negated : Bool) :
    ∃ atom, blockClass name negated = .ok atom := by
  obtain ⟨ranges, found⟩ := Option.isSome_iff_exists.1 isBlock
  unfold blockClass
  rw [found]
  cases ranges <;> exact ⟨_, rfl⟩

theorem not_mem_of_isSome_block? {name : String} (isBlock : (block? name).isSome) :
    '\x7d' ∉ name.toList := by
  obtain ⟨entry, found⟩ := Option.isSome_iff_exists.1 (Option.isSome_map.symm.trans isBlock)
  have same : entry.1 = name := by simpa using List.find?_some found
  rw [← same]
  exact blocks_plain entry (List.mem_of_find?_eq_some found)

theorem escape_set (s : SetName) (proper : s.Proper) (negated : Bool) (rest : List Char) :
    escape (s.letter negated :: (s.argument ++ rest)) =
      .ok (String.ofList (s.atom negated), rest) := by
  cases s with
  | nameStart | nameChar | space | word | digit =>
    cases negated <;> simp only [SetName.atom, String.ofList_toList] <;> rfl
  | category name =>
    obtain ⟨categories, found⟩ := Option.isSome_iff_exists.1 proper
    obtain ⟨before, after, table, _⟩ := List.lookup_eq_some_iff.1 found
    obtain ⟨noBrace, noBlock⟩ := categoryNames_plain (name, categories) (by simp [table])
    simp only [SetName.letter, SetName.argument, List.cons_append, List.append_assoc,
      List.nil_append]
    rw [escape_category noBrace noBlock, SetName.atom, SetName.propertyText, String.ofList_append]
  | block name =>
    obtain ⟨atom, made⟩ := exists_blockClass proper negated
    simp only [SetName.letter, SetName.argument, List.cons_append, List.append_assoc,
      List.nil_append]
    rw [escape_block (not_mem_of_isSome_block? proper), String.ofList_toList, made, SetName.atom, made,
      String.ofList_toList]
    rfl

theorem toList_bracketed (negated : Bool) (items : String) :
    (bracketed negated items).toList =
      '[' :: ((if negated then ['^'] else []) ++ items.toList ++ [']']) := by
  cases negated <;> simp [bracketed]

theorem length_bracketed_ne {items : String} (some : items.toList ≠ []) (negated : Bool) :
    (bracketed negated items).toList.length ≠ 2 := by
  have := List.length_pos_iff.2 some
  rw [toList_bracketed]
  simp only [List.length_cons, List.length_append]
  omega

theorem length_atom_ne (s : SetName) (proper : s.Proper) (negated : Bool) :
    (s.atom negated).length ≠ 2 := by
  cases s with
  | nameStart | space | word => exact length_bracketed_ne (by simp [codePoint]) _
  | nameChar =>
    rw [SetName.atom, nameClass, String.append_assoc]
    exact length_bracketed_ne (by simp) _
  | digit | category name => simp [SetName.atom, SetName.propertyText]
  | block name =>
    obtain ⟨ranges, found⟩ := Option.isSome_iff_exists.1 proper
    simp only [SetName.atom, blockClass, found]
    cases ranges <;> exact length_bracketed_ne (by simp [codePoint]) _

theorem exists_eq_cons {text : Except Fault ClassParts} {item : String}
    (ran : (text >>= fun parts => pure (parts.cons item)) = .ok parts) :
    ∃ parts', text = .ok parts' ∧ parts = parts'.cons item := by
  cases text with
  | error fault => cases ran
  | ok parts' =>
    cases ran
    exact ⟨parts', rfl, rfl⟩

theorem classParts_escape {atom : String} (escaped : escape tail = .ok (atom, rest))
    (ran : classParts fuel canRange ('\\' :: tail) = .ok parts) :
    ∃ fuel' parts', classParts fuel' (atom.length == 2) rest = .ok parts' ∧
      parts = parts'.cons atom := by
  cases fuel with
  | zero => cases ran
  | succ fuel =>
    have unfolded : classParts (fuel + 1) canRange ('\\' :: tail) = escape tail >>= fun read =>
        classParts fuel (read.1.length == 2) read.2 >>= fun parts => pure (parts.cons read.1) := rfl
    rw [unfolded, escaped] at ran
    exact ⟨fuel, exists_eq_cons ran⟩

theorem classParts_letter {c : Char} (plain : c ∉ ['[', ']', '\\', '-'])
    (ran : classParts fuel canRange (c :: rest) = .ok parts) :
    ∃ fuel' parts', classParts fuel' true rest = .ok parts' ∧
      parts = parts'.cons (classLiteral c) := by
  cases fuel with
  | zero => cases ran
  | succ fuel =>
    simp only [List.mem_cons, List.not_mem_nil, or_false, not_or] at plain
    obtain ⟨notOpen, notEnd, notEscape, notHyphen⟩ := plain
    have unfolded : classParts (fuel + 1) canRange (c :: rest) =
        classParts fuel true rest >>= fun parts => pure (parts.cons (classLiteral c)) := by
      rw [classParts]
      all_goals simp_all
    rw [unfolded] at ran
    exact ⟨fuel, exists_eq_cons ran⟩

theorem classParts_succ_hyphen {next : Char} (notOpen : next ≠ '[') (fuel : Nat) (canRange : Bool)
    (rest : List Char) : classParts (fuel + 1) canRange ('-' :: next :: rest) =
      if canRange && next != ']' then
        if next == '\\' then escape rest >>= fun read =>
          classParts fuel false read.2 >>= fun parts => pure (parts.cons ("-" ++ read.1))
        else classParts fuel false rest >>= fun parts =>
          pure (parts.cons ("-" ++ classLiteral next))
      else classParts fuel true (next :: rest) >>= fun parts =>
        pure (parts.cons (classLiteral '-')) := by
  rw [classParts]
  exact notOpen

theorem classParts_hyphen {next : Char} (notOpen : next ≠ '[')
    (noRange : canRange = false ∨ next = ']')
    (ran : classParts fuel canRange ('-' :: next :: rest) = .ok parts) :
    ∃ fuel' parts', classParts fuel' true (next :: rest) = .ok parts' ∧
      parts = parts'.cons (classLiteral '-') := by
  cases fuel with
  | zero => cases ran
  | succ fuel =>
    have cannot : (canRange && next != ']') = false := by
      rcases noRange with rfl | rfl <;> simp
    simp only [classParts_succ_hyphen notOpen, cannot, Bool.false_eq_true, if_false] at ran
    exact ⟨fuel, exists_eq_cons ran⟩

theorem escape_letter {c : Char} (member : c ∈ ClassChar.escapable) (rest : List Char) :
    escape (c :: rest) = .ok (String.ofList ['\\', c], rest) := by
  have others : ∀ d ∈ ClassChar.escapable,
      d ∉ ['i', 'I', 'c', 'C', 's', 'S', 'w', 'W', 'd', 'D', 'p', 'P'] := by decide
  have other := others c member
  simp only [List.mem_cons, List.not_mem_nil, or_false, not_or] at other
  have noProperty : (c == 'p' || c == 'P') = false := by simp [other]
  have allowed := List.contains_iff_mem.2 member
  unfold escape
  split
  case h_12 =>
    rename_i same
    cases same
    rw [noProperty, if_neg (by simp)]
    exact if_pos allowed
  all_goals simp_all

theorem classParts_rangeEnd {x : ClassChar} (proper : x.Proper)
    (ran : classParts fuel true ('-' :: (x.text ++ rest)) = .ok parts) :
    ∃ fuel' parts', classParts fuel' false rest = .ok parts' ∧
      parts = parts'.cons (String.ofList ('-' :: x.atom)) := by
  obtain ⟨escaped, letter⟩ := x
  cases fuel with
  | zero => cases ran
  | succ fuel =>
    cases escaped with
    | true =>
      have member : letter ∈ ClassChar.escapable := proper
      have unfolded : classParts (fuel + 1) true ('-' :: '\\' :: letter :: rest) =
          classParts fuel false rest >>= fun parts =>
            pure (parts.cons ("-" ++ String.ofList ['\\', letter])) := by
        rw [classParts_succ_hyphen (by decide), escape_letter member]
        rfl
      obtain ⟨parts', later, same⟩ := exists_eq_cons (unfolded.symm.trans ran)
      have joined : String.ofList ['-', '\\', letter] = "-" ++ String.ofList ['\\', letter] :=
        String.ofList_cons
      refine ⟨fuel, parts', later, ?_⟩
      rw [same, ← joined]
      rfl
    | false =>
      have plain : letter ∉ ['[', ']', '\\'] := proper
      simp only [List.mem_cons, List.not_mem_nil, or_false, not_or] at plain
      have unfolded : classParts (fuel + 1) true ('-' :: letter :: rest) =
          classParts fuel false rest >>= fun parts =>
            pure (parts.cons ("-" ++ classLiteral letter)) := by
        simp [classParts_succ_hyphen plain.1, plain]
      obtain ⟨parts', later, same⟩ := exists_eq_cons (unfolded.symm.trans ran)
      refine ⟨fuel, parts', later, ?_⟩
      rw [same, ClassChar.atom, if_neg (by simp), String.ofList_cons, String.ofList_toList]
      rfl

theorem classParts_one {x : ClassChar} {next : Char} (proper : x.Proper) (notOpen : next ≠ '[')
    (noRange : x = .hyphen → canRange = false ∨ next = ']')
    (ran : classParts fuel canRange (x.text ++ next :: rest) = .ok parts) :
    ∃ fuel' parts', classParts fuel' true (next :: rest) = .ok parts' ∧
      parts = parts'.cons (String.ofList x.atom) := by
  obtain ⟨escaped, letter⟩ := x
  cases escaped with
  | true =>
    have member : letter ∈ ClassChar.escapable := proper
    obtain ⟨fuel', parts', later, same⟩ := classParts_escape (escape_letter member _) ran
    have short : ((String.ofList ['\\', letter]).length == 2) = true := by
      rw [String.length_ofList]
      rfl
    rw [short] at later
    exact ⟨fuel', parts', later, same⟩
  | false =>
    have plain : letter ∉ ['[', ']', '\\'] := proper
    simp only [ClassChar.text, Bool.false_eq_true, if_false, List.singleton_append] at ran
    rw [ClassChar.atom, if_neg (by simp), String.ofList_toList]
    by_cases isHyphen : letter = '-'
    · subst isHyphen
      exact classParts_hyphen notOpen (noRange rfl) ran
    · refine classParts_letter ?_ ran
      simp only [List.mem_cons, List.not_mem_nil, or_false, not_or] at plain ⊢
      exact ⟨plain.1, plain.2.1, plain.2.2, isHyphen⟩

theorem classParts_hyphen_minus : classParts fuel true ('-' :: '-' :: '[' :: rest) ≠ .ok parts := by
  intro ran
  obtain ⟨fuel', parts', later, _⟩ :=
    classParts_rangeEnd (x := .hyphen) (by simp [ClassChar.Proper, ClassChar.hyphen]) ran
  cases fuel' with
  | zero => cases later
  | succ fuel' => cases later

def EndsItems (tail : List Char) : Prop := ∃ rest, tail = ']' :: rest ∨ tail = '-' :: '[' :: rest

theorem EndsItems.exists_head (ends : EndsItems tail) :
    ∃ next rest, tail = next :: rest ∧ next ≠ '[' := by
  obtain ⟨rest, rfl | rfl⟩ := ends
  · exact ⟨']', rest, rfl, by decide⟩
  · exact ⟨'-', '[' :: rest, rfl, by decide⟩

theorem ClassChar.Proper.exists_head {x : ClassChar} (proper : x.Proper) :
    ∃ next more, x.text = next :: more ∧ next ≠ '[' := by
  obtain ⟨escaped, letter⟩ := x
  cases escaped with
  | true => exact ⟨'\\', [letter], rfl, by decide⟩
  | false =>
    have plain : letter ∉ ['[', ']', '\\'] := proper
    exact ⟨letter, [], rfl, fun same => plain (same ▸ List.mem_cons_self)⟩

theorem exists_head_items {items : List ClassItem} (proper : ClassItem.AreProper canRange items)
    (ends : EndsItems tail) :
    ∃ next rest, items.flatMap ClassItem.text ++ tail = next :: rest ∧ next ≠ '[' := by
  cases items with
  | nil => exact ends.exists_head
  | cons item items =>
    cases item with
    | one x =>
      obtain ⟨next, more, text, other⟩ := proper.1.exists_head
      exact ⟨next, more ++ (items.flatMap ClassItem.text ++ tail), by simp [ClassItem.text, text], other⟩
    | range first last =>
      obtain ⟨next, more, text, other⟩ := proper.1.exists_head
      exact ⟨next, more ++ '-' :: last.text ++ (items.flatMap ClassItem.text ++ tail),
        by simp [ClassItem.text, text], other⟩
    | set negated s =>
      exact ⟨'\\', s.letter negated :: s.argument ++ (items.flatMap ClassItem.text ++ tail),
        by simp [ClassItem.text, SetName.text], by decide⟩

theorem ClassParts.cons_cons (first second : List Char) (parts : ClassParts) :
    (parts.cons (String.ofList second)).cons (String.ofList first) =
      parts.cons (String.ofList (first ++ second)) := by
  simp [ClassParts.cons, String.append_assoc]

theorem classParts_items {items : List ClassItem} (proper : ClassItem.AreProper canRange items)
    (ends : EndsItems tail)
    (ran : classParts fuel canRange (items.flatMap ClassItem.text ++ tail) = .ok parts) :
    ∃ fuel' canRange' parts', classParts fuel' canRange' tail = .ok parts' ∧
      parts = parts'.cons (String.ofList (items.flatMap ClassItem.atom)) := by
  induction items generalizing fuel canRange parts with
  | nil => exact ⟨fuel, canRange, parts, ran, by simp [ClassParts.cons]⟩
  | cons item items ih =>
    rw [List.flatMap_cons, List.append_assoc] at ran
    cases item with
    | one x =>
      obtain ⟨properFirst, hyphen, properRest⟩ := proper
      obtain ⟨next, rest, text, notOpen⟩ := exists_head_items properRest ends
      -- A hyphen that is an item begins no range: none can begin there, or the group ends.
      have noRange : x = .hyphen → canRange = false ∨ next = ']' := by
        rintro rfl
        rcases hyphen rfl with cannot | rfl
        · exact .inl cannot
        · cases canRange with
          | false => exact .inl rfl
          | true =>
            obtain ⟨rest', rfl | rfl⟩ := ends
            · cases text
              exact .inr rfl
            · exact absurd ran classParts_hyphen_minus
      rw [text] at ran
      obtain ⟨fuel₁, parts₁, ran₁, same₁⟩ := classParts_one properFirst notOpen noRange ran
      rw [← text] at ran₁
      obtain ⟨fuel', canRange', parts', ran', same'⟩ := ih properRest ran₁
      refine ⟨fuel', canRange', parts', ran', ?_⟩
      rw [same₁, same', ClassParts.cons_cons]
      rfl
    | range first last =>
      obtain ⟨properFirst, properLast, hyphen, properRest⟩ := proper
      rw [ClassItem.text, List.append_assoc] at ran
      obtain ⟨fuel₁, parts₁, ran₁, same₁⟩ :=
        classParts_one properFirst (by decide) (fun same => .inl (hyphen same)) ran
      obtain ⟨fuel₂, parts₂, ran₂, same₂⟩ := classParts_rangeEnd properLast ran₁
      obtain ⟨fuel', canRange', parts', ran', same'⟩ := ih properRest ran₂
      refine ⟨fuel', canRange', parts', ran', ?_⟩
      rw [same₁, same₂, same', ClassParts.cons_cons, ClassParts.cons_cons]
      simp [ClassItem.atom]
    | set negated s =>
      obtain ⟨properSet, properRest⟩ := proper
      obtain ⟨fuel₁, parts₁, ran₁, same₁⟩ := classParts_escape (escape_set s properSet negated _) ran
      have long : ((String.ofList (s.atom negated)).length == 2) = false := by
        simpa using length_atom_ne s properSet negated
      rw [long] at ran₁
      obtain ⟨fuel', canRange', parts', ran', same'⟩ := ih properRest ran₁
      refine ⟨fuel', canRange', parts', ran', ?_⟩
      rw [same₁, same', ClassParts.cons_cons]
      rfl

theorem negation_text {g : ClassGroup} (proper : g.Proper) (ends : EndsItems tail) :
    negation (g.text ++ tail) = (g.negated, g.items.flatMap ClassItem.text ++ tail) := by
  obtain ⟨_, _, notSign⟩ := proper
  unfold ClassGroup.text
  cases sign : g.negated with
  | true => rfl
  | false =>
    have unsigned : (g.items.flatMap ClassItem.text ++ tail).head? ≠ some '^' := by
      cases inside : g.items.flatMap ClassItem.text with
      | nil => obtain ⟨rest, rfl | rfl⟩ := ends <;> simp
      | cons c others => simpa [inside] using notSign sign
    simp only [Bool.false_eq_true, if_false, List.nil_append]
    unfold negation
    split
    · next same => simp [same] at unsigned
    · rfl

theorem exists_eq_of_bind_eq_ok {α β : Type} {read : Except Fault α} {next : α → Except Fault β}
    {result : β} (ran : (read >>= next) = .ok result) : ∃ a, read = .ok a ∧ next a = .ok result := by
  cases read with
  | error fault => cases ran
  | ok a => exact ⟨a, rfl, ran⟩

theorem classParts_close (ran : classParts fuel canRange (']' :: rest) = .ok parts) :
    parts = ⟨"", none, rest⟩ := by
  cases fuel with
  | zero => cases ran
  | succ fuel =>
    cases ran
    rfl

theorem classParts_subtraction (ran : classParts fuel canRange ('-' :: '[' :: rest) = .ok parts) :
    ∃ fuel' inner subtracted after, classParts fuel' false (negation rest).2 = .ok inner ∧
      inner.close (negation rest).1 = .ok (subtracted, ']' :: after) ∧
      parts = ⟨"", some subtracted, after⟩ := by
  cases fuel with
  | zero => cases ran
  | succ fuel =>
    obtain ⟨inner, readInner, ran⟩ := exists_eq_of_bind_eq_ok ran
    obtain ⟨⟨subtracted, after⟩, closed, ran⟩ := exists_eq_of_bind_eq_ok ran
    dsimp only at ran
    split at ran
    · next after =>
      cases ran
      exact ⟨fuel, inner, subtracted, after, readInner, closed, rfl⟩
    · cases ran

theorem ClassParts.close_cons {items : List Char} {subtracted : Option String} {bracket : String}
    (closed : (ClassParts.cons (String.ofList items) ⟨"", subtracted, tail⟩).close negated =
      .ok (bracket, rest)) :
    rest = tail ∧ bracket.toList = match subtracted with
      | none => '[' :: ((if negated then ['^'] else []) ++ items ++ [']'])
      | some s => '[' :: '[' :: ((if negated then ['^'] else []) ++ items ++ [']']) ++
          '-' :: '-' :: s.toList ++ [']'] := by
  unfold ClassParts.close at closed
  split at closed
  · cases closed
  · dsimp only [ClassParts.cons] at closed
    cases subtracted with
    | none =>
      cases closed
      exact ⟨rfl, by simp [toList_bracketed]⟩
    | some s =>
      cases closed
      exact ⟨rfl, by simp [toList_bracketed]⟩

theorem close_classParts {x : ClassExpr} (proper : x.Proper) {bracket : String}
    (ran : classParts fuel false (negation (x.text ++ tail)).2 = .ok parts)
    (closed : parts.close (negation (x.text ++ tail)).1 = .ok (bracket, rest)) :
    rest = tail ∧ bracket.toList = '[' :: x.inside := by
  induction x generalizing fuel tail parts bracket rest with
  | group g =>
    have ends : EndsItems (']' :: tail) := ⟨tail, .inl rfl⟩
    have text : (ClassExpr.group g).text ++ tail = g.text ++ ']' :: tail := by simp [ClassExpr.text]
    rw [text, negation_text proper ends] at ran closed
    obtain ⟨_, _, _, readEnd, rfl⟩ := classParts_items proper.2.1 ends ran
    cases classParts_close readEnd
    obtain ⟨rfl, same⟩ := ClassParts.close_cons closed
    exact ⟨rfl, same⟩
  | minus g x ih =>
    obtain ⟨properGroup, properOther⟩ := proper
    have ends : EndsItems ('-' :: '[' :: (x.text ++ ']' :: tail)) := ⟨_, .inr rfl⟩
    have text : (ClassExpr.minus g x).text ++ tail =
        g.text ++ '-' :: '[' :: (x.text ++ ']' :: tail) := by
      simp [ClassExpr.text]
    rw [text, negation_text properGroup ends] at ran closed
    obtain ⟨_, _, _, readOther, rfl⟩ := classParts_items properGroup.2.1 ends ran
    obtain ⟨_, inner, subtracted, after, readInner, closedInner, rfl⟩ :=
      classParts_subtraction readOther
    obtain ⟨sameRest, sameInner⟩ := ih properOther readInner closedInner
    cases sameRest
    obtain ⟨rfl, same⟩ := ClassParts.close_cons closed
    refine ⟨rfl, same.trans ?_⟩
    simp [sameInner, ClassExpr.inside, ClassGroup.inside]

theorem classText_text {x : ClassExpr} (proper : x.Proper) {bracket : String}
    (ran : classText (x.text ++ tail) = .ok (bracket, rest)) :
    rest = tail ∧ bracket.toList = '[' :: x.inside := by
  obtain ⟨parts, readParts, closed⟩ := exists_eq_of_bind_eq_ok ran
  exact close_classParts proper readParts closed

end

end XmlSchema.Pattern
