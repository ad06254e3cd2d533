import XmlSchema.Proofs.Regex.Extension

namespace XmlSchema.Regex.Syntax

/-- A stretch of the text of a bracket, with the characters that it stands for. -/
structure Part where
  text : List Char
  holds : Char → Bool

def Escape.holds : Escape → Char → Bool
  | .literal d, c => c == d
  | .property p negated, c => p.holds c != negated

variable {fuel : Nat} {negated : Bool} {b : Bracket} {text more rest : List Char} {c : Char}
  {item nested : Nested} {r : Nested × List Char}

theorem skip_default (text : List Char) : skip {} text = text := rfl

theorem mem_singleton (d c : Char) : (CharSet.singleton d).mem c = (c == d) := by
  have same : c.toNat = d.toNat ↔ c = d := ⟨fun h => Char.toNat_inj.1 h, fun h => h ▸ rfl⟩
  rw [Bool.eq_iff_iff]
  simp only [CharSet.singleton, CharSet.mem, Bool.and_eq_true, decide_eq_true_eq, beq_iff_eq, ← same]
  omega

theorem mem_foldAndNegate (negated : Bool) (s : CharSet) (c : Char) :
    (foldAndNegate {} negated s).mem c = (s.mem c != negated) := by
  cases negated <;> simp [foldAndNegate, foldCase, CharSet.mem]

theorem mem_union (b : Bracket) (c : Char) :
    b.union.set.mem c = b.items.any fun item => item.set.mem c := by
  unfold Bracket.union
  split
  · next none => rw [none]; rfl
  · next only => rw [only, List.any_cons, List.any_nil, Bool.or_false]
  · generalize b.items = items
    induction items with
    | nil => rfl
    | cons item items ih =>
      rw [List.any_cons, ← ih, Bool.or_comm]
      rfl

theorem bracketRange?_single {e : Escape} (first : bracketItem? {} text = some (e, more))
    (alone : more.head? ≠ some '-') (read : bracketRange? {} text = some (item, rest)) :
    rest = more ∧ ∀ c, item.set.mem c = e.holds c := by
  unfold bracketRange? at read
  simp only [first, Option.bind_eq_bind, Option.bind_some, skip_default] at read
  cases more with
  | nil => cases read
  | cons d after =>
    have notHyphen : (d != '-') = true := by simpa using alone
    simp only [notHyphen, Bool.true_or, if_true] at read
    cases e with
    | literal a =>
      simp only [rangeSet?, Nat.le_refl, decide_true, Bool.true_or, Bool.and_self, guard, if_true,
        Option.bind_eq_bind] at read
      cases read
      exact ⟨rfl, mem_singleton a⟩
    | property p negated =>
      cases read
      exact ⟨rfl, mem_foldAndNegate negated (.property p)⟩

theorem bracketRange?_range {first last : Char} {after : List Char}
    (readFirst : bracketItem? {} text = some (.literal first, '-' :: after))
    (readLast : bracketItem? {} after = some (.literal last, more))
    (notEnd : after.head? ≠ some ']') (notHyphen : after.head? ≠ some '-')
    (read : bracketRange? {} text = some (item, rest)) :
    rest = more ∧ ∀ c, item.set.mem c = (decide (first ≤ c) && decide (c ≤ last)) := by
  unfold bracketRange? at read
  have peeked : peek {} after = after.head? := rfl
  simp only [readFirst, Option.bind_eq_bind, Option.bind_some, skip_default, peeked,
    bne_self_eq_false, Bool.or_eq_true, beq_iff_eq, notEnd, notHyphen, readLast] at read
  obtain ⟨set, range, same⟩ := Option.bind_eq_some_iff.1 read
  cases same
  refine ⟨rfl, fun c => ?_⟩
  simp only [rangeSet?, Option.bind_eq_bind, Option.bind_eq_some_iff] at range
  obtain ⟨_, _, same⟩ := range
  cases same
  rfl

def specials : List Char := ['[', ']', '&', '-', '~']

theorem bracketRest?_item (plain : c ∉ specials)
    (read : bracketRest? {} fuel negated b (c :: text) = some r) :
    ∃ fuel' item rest, bracketRange? {} (c :: text) = some (item, rest) ∧
      bracketRest? {} fuel' negated (b.push item) rest = some r := by
  cases fuel with
  | zero => cases read
  | succ fuel =>
    unfold bracketRest? at read
    rw [skip_default] at read
    simp only [specials, List.mem_cons, List.not_mem_nil, or_false, not_or] at plain
    split at read
    · cases read
    · simp_all
    · simp_all
    · simp_all
    · simp_all
    · simp_all
    · obtain ⟨⟨item, rest⟩, range, later⟩ := Option.bind_eq_some_iff.1 read
      exact ⟨fuel, item, rest, range, later⟩

structure Part.IsItem (p : Part) : Prop where
  starts : ∃ c rest, p.text = c :: rest ∧ c ≠ '-' ∧ c ≠ ']' ∧ c ≠ '^'
  reads : ∀ {fuel negated b more r}, more.head? ≠ some '-' →
    bracketRest? {} fuel negated b (p.text ++ more) = some r →
    ∃ fuel' item, bracketRest? {} fuel' negated (b.push item) more = some r ∧
      ∀ c, item.set.mem c = p.holds c

theorem Part.IsItem.congr {p q : Part} (isItem : p.IsItem) (text : q.text = p.text)
    (holds : ∀ c, q.holds c = p.holds c) : q.IsItem := by
  obtain ⟨starts, reads⟩ := isItem
  refine ⟨text ▸ starts, fun notHyphen read => ?_⟩
  rw [text] at read
  obtain ⟨fuel', item, later, mem⟩ := reads notHyphen read
  exact ⟨fuel', item, later, fun c => (mem c).trans (holds c).symm⟩

def StartsPlain (text : List Char) : Prop :=
  ∃ c rest, text = c :: rest ∧ c ∉ '^' :: specials

theorem StartsPlain.head?_ne (starts : StartsPlain text) {c : Char} (special : c ∈ '^' :: specials)
    (more : List Char) : (text ++ more).head? ≠ some c := by
  obtain ⟨d, rest, rfl, plain⟩ := starts
  intro same
  exact plain (Option.some.inj same ▸ special)

theorem Part.isItem_of_bracketRange {p : Part} (starts : StartsPlain p.text)
    (reads : ∀ {more item rest}, more.head? ≠ some '-' →
      bracketRange? {} (p.text ++ more) = some (item, rest) →
      rest = more ∧ ∀ c, item.set.mem c = p.holds c) : p.IsItem := by
  obtain ⟨start, others, text, plain⟩ := starts
  constructor
  · refine ⟨start, others, text, ?_, ?_, ?_⟩ <;> rintro rfl <;> exact plain (by decide)
  · intro fuel negated b more r notHyphen read
    rw [text, List.cons_append] at read
    obtain ⟨fuel', item, rest, range, later⟩ :=
      bracketRest?_item (fun special => plain (List.mem_cons_of_mem _ special)) read
    rw [← List.cons_append, ← text] at range
    obtain ⟨rfl, mem⟩ := reads notHyphen range
    exact ⟨fuel', item, later, mem⟩

theorem Part.isItem_of_bracketItem {text : List Char} {e : Escape} (starts : StartsPlain text)
    (read : ∀ more, bracketItem? {} (text ++ more) = some (e, more)) : Part.IsItem ⟨text, e.holds⟩ :=
  isItem_of_bracketRange starts fun notHyphen range =>
    bracketRange?_single (read _) notHyphen range

theorem Part.isItem_of_bounds {first last : Char} {text text' : List Char} (starts : StartsPlain text)
    (starts' : StartsPlain text')
    (read : ∀ more, bracketItem? {} (text ++ more) = some (.literal first, more))
    (read' : ∀ more, bracketItem? {} (text' ++ more) = some (.literal last, more)) :
    Part.IsItem ⟨text ++ '-' :: text', fun c => decide (first ≤ c) && decide (c ≤ last)⟩ := by
  refine isItem_of_bracketRange ?_ fun {more item rest} _ range => ?_
  · obtain ⟨c, others, rfl, plain⟩ := starts
    exact ⟨c, others ++ '-' :: text', rfl, plain⟩
  · dsimp only at range
    rw [List.append_assoc] at range
    exact bracketRange?_range (read _) (read' more) (starts'.head?_ne (by decide) more)
      (starts'.head?_ne (by decide) more) range

def Part.textOf (parts : List Part) : List Char := parts.flatMap Part.text

theorem head?_textOf {parts : List Part} (items : ∀ p ∈ parts, p.IsItem)
    (notHyphen : more.head? ≠ some '-') : (Part.textOf parts ++ more).head? ≠ some '-' := by
  cases parts with
  | nil => exact notHyphen
  | cons p parts =>
    obtain ⟨c, rest, starts, other, _⟩ := (items p List.mem_cons_self).starts
    simpa [Part.textOf, starts] using other

theorem bracketRest?_parts {parts : List Part} (items : ∀ p ∈ parts, p.IsItem)
    (notHyphen : more.head? ≠ some '-')
    (read : bracketRest? {} fuel negated b (Part.textOf parts ++ more) = some r) :
    ∃ fuel' b', bracketRest? {} fuel' negated b' more = some r ∧ b'.operand = b.operand ∧
      ∀ c, b'.union.set.mem c = (b.union.set.mem c || parts.any (·.holds c)) := by
  induction parts generalizing fuel b with
  | nil => exact ⟨fuel, b, read, rfl, fun c => by simp⟩
  | cons p parts ih =>
    obtain ⟨isItem, isItems⟩ := List.forall_mem_cons.1 items
    rw [Part.textOf, List.flatMap_cons, List.append_assoc] at read
    obtain ⟨fuel₁, item, later, mem⟩ := isItem.reads (head?_textOf isItems notHyphen) read
    obtain ⟨fuel₂, b', last, operand, memAll⟩ := ih isItems later
    refine ⟨fuel₂, b', last, operand, fun c => ?_⟩
    rw [memAll, mem_union, mem_union, Bracket.push, List.any_cons, List.any_cons, mem c]
    cases p.holds c <;> simp

def IsBracket (inside : List Char) (holds : Char → Bool) : Prop :=
  ∀ fuel more nested left,
    bracketRest? {} fuel (bracketStart {} (inside ++ more)).1 (bracketStart {} (inside ++ more)).2.1
      (bracketStart {} (inside ++ more)).2.2 = some (nested, left) →
    left = more ∧ ∀ c, nested.set.mem c = holds c

def signText (negated : Bool) : List Char := if negated then ['^'] else []

theorem bracketStart_of_starts {start : Char} (notHyphen : start ≠ '-') (notEnd : start ≠ ']')
    (notSign : start ≠ '^') (negated : Bool) :
    bracketStart {} (signText negated ++ start :: text) = (negated, {}, start :: text) := by
  have noHyphens : leadingHyphens {} {} (start :: text) = ({}, start :: text) := by
    unfold leadingHyphens
    split
    · next same => exact absurd (List.cons.inj same).1 notHyphen
    · next same => cases same; rfl
    · next same => cases same
  have first (negated : Bool) : bracketFirst {} negated (start :: text) =
      (negated, {}, start :: text) := by
    rw [bracketFirst, noHyphens, if_neg]
    rintro ⟨same, _⟩
    exact notEnd (Option.some.inj same)
  rw [bracketStart_eq]
  simp only [skip_default]
  cases negated with
  | true => exact (if_pos rfl).trans (first true)
  | false => exact (if_neg fun same => notSign (Option.some.inj same)).trans (first false)

theorem bracketRest?_end (read : bracketRest? {} fuel negated b (']' :: more) = some r) :
    r.2 = more ∧ ∀ c, r.1.set.mem c = ((b.close {}).set.mem c != negated) := by
  cases fuel with
  | zero => cases read
  | succ fuel =>
    unfold bracketRest? at read
    cases read
    exact ⟨rfl, fun c => mem_foldAndNegate negated _ c⟩

theorem isBracket_of_parts {parts : List Part} (some : parts ≠ [])
    (items : ∀ p ∈ parts, p.IsItem) (negated : Bool) :
    IsBracket (signText negated ++ Part.textOf parts ++ [']'])
      (fun c => parts.any (·.holds c) != negated) := by
  intro fuel more nested left read
  obtain ⟨p, others, rfl⟩ := List.exists_cons_of_ne_nil some
  obtain ⟨start, rest, starts, notHyphen, notEnd, notSign⟩ := (items p List.mem_cons_self).starts
  have text : signText negated ++ Part.textOf (p :: others) ++ [']'] ++ more =
      signText negated ++ start :: (rest ++ (Part.textOf others ++ ']' :: more)) := by
    simp [Part.textOf, starts]
  have body : start :: (rest ++ (Part.textOf others ++ ']' :: more)) =
      Part.textOf (p :: others) ++ ']' :: more := by
    simp [Part.textOf, starts]
  rw [text, bracketStart_of_starts notHyphen notEnd notSign, body] at read
  obtain ⟨fuel', b', last, operand, mem⟩ := bracketRest?_parts items (by simp) read
  obtain ⟨same, closed⟩ := bracketRest?_end last
  refine ⟨same, fun c => ?_⟩
  have noOperand : b'.close {} = b'.union := by rw [Bracket.close, operand]
  rw [closed, noOperand, mem]
  rfl

theorem bracketRest?_bracket {inside : List Char} {holds : Char → Bool}
    (bracket : IsBracket inside holds) (unnamed : namedSet? {} (inside ++ more) = none)
    (read : bracketRest? {} fuel negated b ('[' :: (inside ++ more)) = some r) :
    ∃ fuel' item, bracketRest? {} fuel' negated (b.push item) more = some r ∧
      ∀ c, item.set.mem c = holds c := by
  cases fuel with
  | zero => cases read
  | succ fuel =>
    unfold bracketRest? at read
    simp only [skip_default, unnamed, Option.bind_eq_bind, Option.bind_eq_some_iff] at read
    obtain ⟨⟨nested, rest⟩, readNested, later⟩ := read
    obtain ⟨rfl, mem⟩ := bracket _ _ _ _ readNested
    exact ⟨fuel, nested, later, mem⟩

theorem isItem_of_isBracket {inside : List Char} {holds : Char → Bool}
    (bracket : IsBracket inside holds) (unnamed : ∀ more, namedSet? {} (inside ++ more) = none) :
    Part.IsItem ⟨'[' :: inside, holds⟩ where
  starts := ⟨'[', inside, rfl, by decide, by decide, by decide⟩
  reads _ read := bracketRest?_bracket bracket (unnamed _) read

theorem bracketRest?_diff (read : bracketRest? {} fuel negated b ('-' :: '-' :: more) = some r) :
    ∃ fuel', bracketRest? {} fuel' negated (b.operator {} .diff) more = some r := by
  cases fuel with
  | zero => cases read
  | succ fuel =>
    unfold bracketRest? at read
    exact ⟨fuel, read⟩

theorem isBracket_diff {inside inside' : List Char} {holds holds' : Char → Bool}
    (bracket : IsBracket inside holds) (bracket' : IsBracket inside' holds')
    (unnamed : ∀ more, namedSet? {} (inside ++ more) = none)
    (unnamed' : ∀ more, namedSet? {} (inside' ++ more) = none) :
    IsBracket ('[' :: inside ++ ['-', '-', '['] ++ inside' ++ [']'])
      (fun c => holds c && !holds' c) := by
  intro fuel more nested left read
  have text : '[' :: inside ++ ['-', '-', '['] ++ inside' ++ [']'] ++ more =
      signText false ++ '[' :: (inside ++ ('-' :: '-' :: '[' :: (inside' ++ (']' :: more)))) := by
    simp [signText]
  rw [text, bracketStart_of_starts (by decide) (by decide) (by decide)] at read
  obtain ⟨_, item, readOperator, mem⟩ := bracketRest?_bracket bracket (unnamed _) read
  obtain ⟨_, readSecond⟩ := bracketRest?_diff readOperator
  obtain ⟨_, item', readEnd, mem'⟩ := bracketRest?_bracket bracket' (unnamed' _) readSecond
  obtain ⟨same, closed⟩ := bracketRest?_end readEnd
  refine ⟨same, fun c => ?_⟩
  rw [closed, Bool.bne_false]
  dsimp only
  rw [← mem, ← mem']
  rfl

end XmlSchema.Regex.Syntax
