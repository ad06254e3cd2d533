import XmlSchema.Proofs.Pattern.SetReading

namespace XmlSchema.Pattern

open Regex Regex.Syntax

theorem bracketItem?_of_ne {c : Char} (plain : c ≠ '\\') (more : List Char) :
    bracketItem? {} (c :: more) = some (.literal c, more) := by
  unfold bracketItem?
  split
  · next none => cases none
  · next same => exact absurd (List.cons.inj same).1 plain
  · next same => cases same; rfl

theorem escape?_letter {c : Char} (member : c ∈ ClassChar.escapable) (more : List Char) :
    escape? {} (c :: more) = some (.literal (ClassChar.char ⟨true, c⟩), more) := by
  have known : ∀ c ∈ ClassChar.escapable, c = 'n' ∨ c = 'r' ∨ c = 't' ∨
      isEscapable c = true ∧ ClassChar.char ⟨true, c⟩ = c := by
    decide
  rcases known c member with rfl | rfl | rfl | ⟨escapable, same⟩
  · rfl
  · rfl
  · rfl
  · rw [escape?_escapable escapable, same]

def guarded : List Char := "[]\\^-&~".toList

theorem isEscapable_of_mem_guarded : ∀ c ∈ guarded, isEscapable c = true := by
  decide

theorem toList_classLiteral (c : Char) :
    (classLiteral c).toList = if c ∈ guarded then ['\\', c] else [c] := by
  change (if guarded.contains c then String.ofList ['\\', c] else c.toString).toList = _
  by_cases member : c ∈ guarded
  · rw [if_pos member, if_pos (List.contains_iff_mem.2 member), String.toList_ofList]
  · rw [if_neg member, if_neg fun among => member (List.contains_iff_mem.1 among)]
    exact String.toList_singleton c

namespace ClassChar

variable {x : ClassChar}

theorem Proper.atom_cases (proper : x.Proper) :
    (∃ c, x.atom = ['\\', c] ∧ ∀ more, escape? {} (c :: more) = some (.literal x.char, more)) ∨
      x.atom = [x.char] ∧ x.text = [x.char] ∧ x.char ∉ guarded := by
  obtain ⟨escaped, letter⟩ := x
  cases escaped with
  | true => exact .inl ⟨letter, rfl, escape?_letter proper⟩
  | false =>
    rw [atom, if_neg (by simp), toList_classLiteral]
    by_cases member : letter ∈ guarded
    · rw [if_pos member]
      exact .inl ⟨letter, rfl, escape?_escapable (isEscapable_of_mem_guarded letter member)⟩
    · rw [if_neg member]
      exact .inr ⟨rfl, rfl, member⟩

theorem Proper.bracketItem?_atom (proper : x.Proper) (more : List Char) :
    bracketItem? {} (x.atom ++ more) = some (.literal x.char, more) := by
  rcases proper.atom_cases with ⟨c, atom, read⟩ | ⟨atom, _, plain⟩
  · rw [atom]
    exact read more
  · rw [atom]
    exact bracketItem?_of_ne (fun same => plain (by rw [same]; decide)) more

theorem Proper.startsPlain_atom (proper : x.Proper) : StartsPlain x.atom := by
  have special : ∀ c ∈ '^' :: specials, c ∈ guarded := by decide
  rcases proper.atom_cases with ⟨c, atom, _⟩ | ⟨atom, _, plain⟩
  · exact ⟨'\\', [c], atom, by decide⟩
  · exact ⟨x.char, [], atom, fun member => plain (special _ member)⟩

end ClassChar

namespace ClassItem

def part (item : ClassItem) : Part := ⟨item.atom, item.holds⟩

theorem isItem_one {x : ClassChar} (proper : x.Proper) : (part (.one x)).IsItem :=
  Part.isItem_of_bracketItem proper.startsPlain_atom proper.bracketItem?_atom

theorem isItem_range {first last : ClassChar} (properFirst : first.Proper)
    (properLast : last.Proper) : (part (.range first last)).IsItem :=
  Part.isItem_of_bounds properFirst.startsPlain_atom properLast.startsPlain_atom
    properFirst.bracketItem?_atom properLast.bracketItem?_atom

theorem isItem_of_mem {canRange : Bool} {items : List ClassItem} (proper : AreProper canRange items) :
    ∀ p ∈ items.map part, p.IsItem := by
  induction items generalizing canRange with
  | nil => simp
  | cons item items ih =>
    rw [List.map_cons, List.forall_mem_cons]
    cases item with
    | one x => exact ⟨isItem_one proper.1, ih proper.2.2⟩
    | range first last => exact ⟨isItem_range proper.1 proper.2.1, ih proper.2.2.2⟩
    | set negated s => exact ⟨isItem_set proper.1 negated, ih proper.2⟩

end ClassItem

namespace ClassGroup

variable {g : ClassGroup}

theorem isBracket_inside (proper : g.Proper) : IsBracket g.inside g.holds := by
  obtain ⟨some, areProper, _⟩ := proper
  have parts : Part.textOf (g.items.map ClassItem.part) = g.items.flatMap ClassItem.atom := by
    simp [Part.textOf, List.flatMap_map, ClassItem.part]
  have holds : (fun c => (g.items.map ClassItem.part).any (·.holds c) != g.negated) = g.holds := by
    funext c
    simp [ClassGroup.holds, List.any_map, Function.comp_def, ClassItem.part]
  have whole : IsBracket (signText g.negated ++ Part.textOf (g.items.map ClassItem.part) ++ [']'])
      (fun c => (g.items.map ClassItem.part).any (·.holds c) != g.negated) :=
    isBracket_of_parts (by simpa using some) (ClassItem.isItem_of_mem areProper) g.negated
  rw [parts, holds] at whole
  exact whole

/-- A group that is written like the name of a set of characters in a regular expression. -/
def SpellsSet (g : ClassGroup) : Prop :=
  ∃ entry ∈ asciiSets, g.text = ':' :: entry.1.toList ++ [':']

instance (g : ClassGroup) : Decidable g.SpellsSet :=
  inferInstanceAs (Decidable (∃ entry ∈ asciiSets, g.text = ':' :: entry.1.toList ++ [':']))

end ClassGroup

theorem exists_head_set {s : SetName} (proper : s.Proper) (negated : Bool) :
    ∃ c rest, s.atom negated = c :: rest ∧ c ∈ ['\\', '['] := by
  have bracket (negated : Bool) (items : String) :
      ∃ c rest, (bracketed negated items).toList = c :: rest ∧ c ∈ ['\\', '['] :=
    ⟨'[', _, toList_bracketed negated items, by decide⟩
  have property (name : String) :
      ∃ c rest, SetName.propertyText negated name = c :: rest ∧ c ∈ ['\\', '['] :=
    ⟨'\\', _, rfl, by decide⟩
  cases s with
  | nameStart | nameChar | space | word => exact bracket _ _
  | digit => exact property "Nd"
  | category name => exact property name
  | block name =>
    obtain ⟨ranges, found⟩ := Option.isSome_iff_exists.1 proper
    simp only [SetName.atom, blockClass, found]
    cases ranges <;> exact bracket _ _

section
variable {canRange : Bool} {items : List ClassItem} {c : Char} {more rest : List Char}

theorem head_of_atoms (proper : ClassItem.AreProper canRange items)
    (same : items.flatMap ClassItem.atom ++ ']' :: more = c :: rest) :
    c ≠ '^' ∧ (c = ']' → items = []) := by
  cases items with
  | nil =>
    obtain ⟨rfl, _⟩ := List.cons.inj same
    exact ⟨by decide, fun _ => rfl⟩
  | cons item items =>
    obtain ⟨isItem, _⟩ := List.forall_mem_cons.1 (ClassItem.isItem_of_mem proper)
    obtain ⟨start, others, text, _, notEnd, notSign⟩ := isItem.starts
    change item.atom = start :: others at text
    rw [List.flatMap_cons, text] at same
    obtain ⟨rfl, _⟩ := List.cons.inj same
    exact ⟨notSign, fun isEnd => absurd isEnd notEnd⟩

theorem items_of_letter (proper : ClassItem.AreProper canRange items)
    (plain : c ∉ ['\\', '[', ']'])
    (same : items.flatMap ClassItem.atom ++ ']' :: more = c :: rest) :
    (∃ items' canRange', ClassItem.AreProper canRange' items' ∧
      items.flatMap ClassItem.text = c :: items'.flatMap ClassItem.text ∧
      items'.flatMap ClassItem.atom ++ ']' :: more = rest) ∨ rest.head? = some '-' := by
  have letter {x : ClassChar} {after : List Char} (properChar : x.Proper)
      (same : x.atom ++ after = c :: rest) : x.text = [c] ∧ after = rest := by
    rcases properChar.atom_cases with ⟨d, atom, _⟩ | ⟨atom, text, _⟩
    · rw [atom] at same
      exact absurd (List.cons.inj same).1 fun isEscape => plain (isEscape ▸ by decide)
    · rw [atom] at same
      obtain ⟨rfl, later⟩ := List.cons.inj same
      exact ⟨text, later⟩
  cases items with
  | nil => exact absurd (List.cons.inj same).1 fun isEnd => plain (isEnd ▸ by decide)
  | cons item items =>
    rw [List.flatMap_cons, List.append_assoc] at same
    cases item with
    | one x =>
      obtain ⟨text, after⟩ := letter proper.1 same
      exact .inl ⟨items, true, proper.2.2, by rw [List.flatMap_cons, ClassItem.text, text]; rfl, after⟩
    | range first last =>
      rw [ClassItem.atom, List.append_assoc] at same
      obtain ⟨_, rfl⟩ := letter proper.1 same
      exact .inr rfl
    | set negated s =>
      obtain ⟨d, others, atom, special⟩ := exists_head_set proper.1 negated
      rw [ClassItem.atom, atom] at same
      obtain ⟨rfl, _⟩ := List.cons.inj same
      simp only [List.mem_cons, List.not_mem_nil, or_false, not_or] at special plain
      exact absurd special (not_or.2 ⟨plain.1, plain.2.1⟩)

theorem text_of_atoms {letters : List Char} (proper : ClassItem.AreProper canRange items)
    (plain : ∀ c ∈ letters, c ∉ ['\\', '[', ']', '-'])
    (same : items.flatMap ClassItem.atom ++ ']' :: more = letters ++ ']' :: rest) :
    items.flatMap ClassItem.text = letters := by
  induction letters generalizing items canRange with
  | nil =>
    rw [(head_of_atoms proper same).2 rfl]
    rfl
  | cons c letters ih =>
    obtain ⟨plainFirst, plainRest⟩ := List.forall_mem_cons.1 plain
    simp only [List.mem_cons, List.not_mem_nil, or_false, not_or] at plainFirst
    rcases items_of_letter proper (by simp [plainFirst]) same with
      ⟨items', canRange', proper', text, same'⟩ | range
    · rw [text, ih proper' plainRest same']
    · exfalso
      cases letters with
      | nil => simp at range
      | cons d letters =>
        obtain rfl : d = '-' := by simpa using range
        exact plainRest '-' List.mem_cons_self (by decide)

end

theorem setName_plain : ∀ entry ∈ asciiSets, ∀ c ∈ entry.1.toList, c ∉ ['\\', '[', ']', '-'] := by
  decide

theorem ClassGroup.namedSet?_inside {g : ClassGroup} (proper : g.Proper) (unnamed : ¬ g.SpellsSet)
    (more : List Char) : namedSet? {} (g.inside ++ more) = none := by
  obtain ⟨_, areProper, _⟩ := proper
  cases sign : g.negated with
  | true => exact namedSet?_of_head? (by simp [ClassGroup.inside, sign])
  | false =>
    have inside : g.inside ++ more = g.items.flatMap ClassItem.atom ++ ']' :: more := by
      simp [ClassGroup.inside, sign]
    rw [inside]
    unfold namedSet?
    split
    · next rest same =>
      exfalso
      rcases items_of_letter areProper (by decide) same with
        ⟨items', _, proper', _, same'⟩ | range
      · exact (head_of_atoms proper' same').1 rfl
      · cases range
    · next rest _ same =>
      unfold setName?
      split
      · next after named =>
        rw [Option.map_eq_none_iff, asciiSet?, Option.map_eq_none_iff]
        cases found : asciiSets.lookup (String.ofList (rest.takeWhile Char.isLower)) with
        | none => rfl
        | some ranges =>
          obtain ⟨before, others, table, _⟩ := List.lookup_eq_some_iff.1 found
          have member : (String.ofList (rest.takeWhile Char.isLower), ranges) ∈ asciiSets := by
            simp [table]
          -- A name between colons is spelled by characters that stand for themselves, and so is the
          -- group.
          have plain := setName_plain _ member
          have whole : ':' :: rest = ':' :: (rest.takeWhile Char.isLower ++ [':']) ++ ']' :: after := by
            rw [List.cons_append, List.append_assoc, List.singleton_append, ← named,
              List.takeWhile_append_dropWhile]
          rw [whole] at same
          refine absurd ⟨_, member, ?_⟩ unnamed
          rw [ClassGroup.text, sign, text_of_atoms areProper ?_ same]
          · simp
          · simp only [String.toList_ofList] at plain
            intro c among
            rcases List.mem_cons.1 among with rfl | among
            · decide
            · rcases List.mem_append.1 among with among | among
              · exact plain c among
              · rw [List.mem_singleton.1 among]
                decide
      · rfl
    · rfl

namespace ClassExpr

def groups : ClassExpr → List ClassGroup
  | .group g => [g]
  | .minus g x => g :: x.groups

/-- The groups that come to stand in a bracket within another one. -/
def nestedGroups : ClassExpr → List ClassGroup
  | .group _ => []
  | .minus g x => g :: x.groups

theorem nestedGroups_subset (x : ClassExpr) : x.nestedGroups ⊆ x.groups := by
  cases x with
  | group g => exact List.nil_subset _
  | minus g x => exact List.Subset.refl _

variable {x : ClassExpr}

theorem namedSet?_inside (proper : x.Proper) (unnamed : ∀ g ∈ x.groups, ¬ g.SpellsSet)
    (more : List Char) : namedSet? {} (x.inside ++ more) = none := by
  cases x with
  | group g => exact g.namedSet?_inside proper (unnamed g List.mem_cons_self) more
  | minus g x => exact namedSet?_of_head? (by simp [inside])

theorem isBracket_inside (proper : x.Proper) (unnamed : ∀ g ∈ x.nestedGroups, ¬ g.SpellsSet) :
    IsBracket x.inside x.holds := by
  induction x with
  | group g => exact g.isBracket_inside proper
  | minus g x ih =>
    obtain ⟨properGroup, properOther⟩ := proper
    obtain ⟨unnamedGroup, unnamedOther⟩ := List.forall_mem_cons.1 unnamed
    have bracket : IsBracket x.inside x.holds :=
      ih properOther fun g member => unnamedOther g (x.nestedGroups_subset member)
    exact isBracket_diff (g.isBracket_inside properGroup) bracket
      (g.namedSet?_inside properGroup unnamedGroup) (namedSet?_inside properOther unnamedOther)

end ClassExpr

/-- The translation of a class, where a regular expression may have it, denotes the characters that
the class stands for, if no group within it that comes to stand in a bracket within another one is
written like the name of a set. -/
theorem denotes_of_classText {x : ClassExpr} {bracket : String} {tail rest : List Char}
    (proper : x.Proper) (unnamed : ∀ g ∈ x.nestedGroups, ¬ g.SpellsSet)
    (translated : classText (x.text ++ tail) = .ok (bracket, rest)) :
    rest = tail ∧ ∃ inside, bracket.toList = '[' :: inside ∧
      ∀ more set left, Syntax.bracket? {} (inside ++ more) = some (set, left) →
        left = more ∧ ∀ c, set.set.mem c = x.holds c := by
  obtain ⟨rfl, same⟩ := classText_text proper translated
  refine ⟨rfl, x.inside, same, fun more set left read => ?_⟩
  unfold Syntax.bracket? at read
  simp only [Option.bind_eq_bind, Option.bind_eq_some_iff] at read
  obtain ⟨⟨set, left⟩, readRest, _, _, same⟩ := read
  cases same
  exact x.isBracket_inside proper unnamed _ _ _ _ readRest

def layeredClass : ClassExpr :=
  .minus ⟨false, [.range ⟨false, ' '⟩ ⟨false, '~'⟩]⟩
    (.minus ⟨true, [.set false .space, .range ⟨false, '0'⟩ ⟨false, '9'⟩, .one ⟨true, '-'⟩,
        .one ⟨false, '&'⟩]⟩
      (.group ⟨false, [.one ⟨false, ':'⟩, .one ⟨true, '^'⟩, .one .hyphen]⟩))

theorem denotes_of_classText_layeredClass :
    layeredClass.Proper ∧ (∀ g ∈ layeredClass.nestedGroups, ¬ g.SpellsSet) ∧
      ∃ bracket inside set, classText layeredClass.text = .ok (bracket, []) ∧
        bracket.toList = '[' :: inside ∧ Syntax.bracket? {} inside = some (set, []) ∧
        ∀ c, set.set.mem c = layeredClass.holds c := by
  have proper : layeredClass.Proper := by decide
  have unnamed : ∀ g ∈ layeredClass.nestedGroups, ¬ g.SpellsSet := by decide
  have read : ((classText layeredClass.text).toOption.bind fun translated =>
      Syntax.bracket? {} (translated.1.toList.drop 1)).isSome = true := by
    decide +kernel
  cases translated : classText (layeredClass.text ++ []) with
  | error fault =>
    rw [List.append_nil] at translated
    rw [translated] at read
    cases read
  | ok result =>
    obtain ⟨bracket, rest⟩ := result
    obtain ⟨rfl, inside, same, denotes⟩ := denotes_of_classText proper unnamed translated
    rw [List.append_nil] at translated
    rw [translated] at read
    obtain ⟨⟨set, left⟩, found⟩ := Option.isSome_iff_exists.1 read
    have found : Syntax.bracket? {} inside = some (set, left) := by
      simpa [Except.toOption, same] using found
    obtain ⟨rfl, mem⟩ := denotes [] set left (by rw [List.append_nil]; exact found)
    exact ⟨proper, unnamed, bracket, inside, set, translated, same, found, mem⟩

def spelledClass : ClassExpr :=
  .minus ⟨false, ":alpha:".toList.map fun c => .one ⟨false, c⟩⟩ (.group ⟨false, [.one ⟨false, 'b'⟩]⟩)

/-- The characters of `:alpha:`, from which something is taken away, are read as all the letters. -/
theorem not_denotes_of_classText : spelledClass.Proper ∧
    ∃ bracket inside set, classText spelledClass.text = .ok (bracket, []) ∧
      bracket.toList = '[' :: inside ∧ Syntax.bracket? {} inside = some (set, []) ∧
      spelledClass.holds ':' = true ∧ set.set.mem ':' = false ∧
      spelledClass.holds 'c' = false ∧ set.set.mem 'c' = true := by
  refine ⟨by decide, "[[:alpha:]--[b]]", "[:alpha:]--[b]]".toList,
    ⟨.diff ((asciiSet? "alpha").getD .empty) (.singleton 'b'), 3⟩, rfl, by decide, rfl,
    by decide⟩

end XmlSchema.Pattern
