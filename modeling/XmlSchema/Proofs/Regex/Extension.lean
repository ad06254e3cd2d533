import Mathlib.Data.Option.Basic
import XmlSchema.Regex.Syntax

namespace XmlSchema.Regex.Syntax

variable {flags : Flags} {text rest s : List Char} {c : Char}

structure IsClosing (s : List Char) : Prop where
  head : ∀ c ∈ s.head?, c = ')'
  oneLine : '\n' ∉ s

def Extended (s rest rest' : List Char) : Prop := rest' = rest ++ s ∨ rest = [] ∧ rest' = []

theorem extended_append (s rest : List Char) : Extended s rest (rest ++ s) := .inl rfl

theorem extended_nil (s : List Char) : Extended s [] [] := .inr ⟨rfl, rfl⟩

theorem skipBlanks_append {inComment : Bool} (read : skipBlanks inComment text = c :: rest) :
    skipBlanks inComment (text ++ s) = c :: (rest ++ s) := by
  fun_induction skipBlanks inComment text with
  | case1 => cases read
  | case2 d text ih => exact ih read
  | case3 inComment d text plain blank ih => simpa [skipBlanks, plain, blank] using ih read
  | case4 inComment d text plain letter sign ih =>
    simpa [skipBlanks, plain, letter, sign] using ih read
  | case5 inComment d text plain letter other =>
    obtain ⟨rfl, rfl⟩ := List.cons.inj read
    simp [skipBlanks, plain, letter, other]

theorem skipBlanks_comment (oneLine : '\n' ∉ s) : skipBlanks true s = [] := by
  induction s with
  | nil => rfl
  | cons d s ih =>
    rw [List.mem_cons, not_or] at oneLine
    obtain ⟨other, oneLine⟩ := oneLine
    have goesOn : (d != '\n') = true := bne_iff_ne.2 (Ne.symm other)
    rw [skipBlanks, if_pos rfl, goesOn]
    exact ih oneLine

theorem skipBlanks_closing (closing : IsClosing s) : skipBlanks false s = s := by
  cases s with
  | nil => rfl
  | cons d s =>
    cases closing.head d rfl
    rfl

theorem skipBlanks_append_of_nil (closing : IsClosing s) {inComment : Bool}
    (nothing : skipBlanks inComment text = []) :
    Extended s [] (skipBlanks inComment (text ++ s)) := by
  fun_induction skipBlanks inComment text with
  | case1 inComment =>
    cases inComment with
    | false => exact .inl (skipBlanks_closing closing)
    -- A comment at the end of the text takes in what follows.
    | true => exact .inr ⟨rfl, skipBlanks_comment closing.oneLine⟩
  | case2 d text ih => exact ih nothing
  | case3 inComment d text plain blank ih => simpa [skipBlanks, plain, blank] using ih nothing
  | case4 inComment d text plain letter sign ih =>
    simpa [skipBlanks, plain, letter, sign] using ih nothing
  | case5 => cases nothing

theorem skip_append (read : skip flags text = c :: rest) :
    skip flags (text ++ s) = c :: (rest ++ s) := by
  unfold skip at read ⊢
  split
  · next verbose =>
    rw [if_pos verbose] at read
    exact skipBlanks_append read
  · next plain =>
    rw [if_neg plain] at read
    rw [read, List.cons_append]

theorem skip_extended (flags : Flags) (closing : IsClosing s) {text' : List Char} (extended : Extended s text text') :
    Extended s (skip flags text) (skip flags text') := by
  rcases extended with rfl | ⟨rfl, rfl⟩
  · cases read : skip flags text with
    | nil =>
      unfold skip at read ⊢
      split at read
      · next verbose =>
        rw [if_pos verbose]
        exact skipBlanks_append_of_nil closing read
      · next plain =>
        rw [if_neg plain, read]
        exact extended_append s []
    | cons c rest =>
      rw [skip_append read]
      exact extended_append s (c :: rest)
  · cases flags.verbose <;> exact .inr ⟨by simp [skip, skipBlanks], by simp [skip, skipBlanks]⟩

theorem peekPastBlanks_append {inComment : Bool} (seen : peekPastBlanks inComment text = some c) :
    peekPastBlanks inComment (text ++ s) = some c := by
  fun_induction peekPastBlanks inComment text with
  | case1 => cases seen
  | case2 inComment d text blank ih =>
    rw [List.cons_append, peekPastBlanks, if_pos blank]
    exact ih seen
  | case3 inComment d text letter sign ih =>
    rw [List.cons_append, peekPastBlanks, if_neg letter, if_pos sign]
    exact ih seen
  | case4 inComment d text letter other lineEnd ih =>
    rw [List.cons_append, peekPastBlanks, if_neg letter, if_neg other, if_pos lineEnd]
    exact ih seen
  | case5 inComment d text letter other inside =>
    rw [List.cons_append, peekPastBlanks, if_neg letter, if_neg other, if_neg inside]
    exact seen

theorem skipBlanks_of_peekPastBlanks {inComment : Bool}
    (unseen : peekPastBlanks inComment text = none) : skipBlanks inComment text = [] := by
  fun_induction peekPastBlanks inComment text with
  | case1 => rfl
  | case2 inComment d text blank ih =>
    rw [Bool.and_eq_true] at blank
    cases inComment with
    | false => simpa [skipBlanks, blank.1] using ih unseen
    | true =>
      have sameLine : (d != '\n') = true := by simpa using blank.2
      simpa [skipBlanks, sameLine] using ih unseen
  | case3 inComment d text letter sign ih =>
    rw [Bool.and_eq_true, Bool.not_eq_true'] at sign
    obtain ⟨rfl, isSign⟩ := sign
    have plain : ¬ Unicode.isWhiteSpace d = true := by simpa using letter
    simpa [skipBlanks, plain, isSign] using ih unseen
  | case4 inComment d text letter other lineEnd ih =>
    rw [Bool.and_eq_true, beq_iff_eq] at lineEnd
    obtain ⟨rfl, rfl⟩ := lineEnd
    exact ih unseen
  | case5 => cases unseen

theorem skip_of_peek (unseen : peek flags text = none) : skip flags text = [] := by
  unfold peek at unseen
  unfold skip
  split
  · next verbose =>
    rw [if_pos verbose] at unseen
    exact skipBlanks_of_peekPastBlanks unseen
  · next plain =>
    rw [if_neg plain] at unseen
    exact List.head?_eq_none_iff.1 unseen

theorem peek_append (seen : peek flags text = some c) : peek flags (text ++ s) = some c := by
  unfold peek at seen ⊢
  split
  · next verbose =>
    rw [if_pos verbose] at seen
    exact peekPastBlanks_append seen
  · next plain =>
    rw [if_neg plain] at seen
    rw [List.head?_append, seen]
    rfl

theorem untilBrace_append {inside : List Char} (read : untilBrace flags text = some (inside, rest)) :
    untilBrace flags (text ++ s) = some (inside, rest ++ s) := by
  fun_induction untilBrace flags text generalizing inside rest with
  | case1 => cases read
  | case2 text =>
    cases read
    rfl
  | case3 c text other blank ih =>
    simp [untilBrace, blank]
    exact ih read
  | case4 c text other letter ih =>
    obtain ⟨⟨inside, rest⟩, further, same⟩ := Option.map_eq_some_iff.1 read
    cases same
    simp [untilBrace, letter, ih further]

theorem IsClosing.head?_append (closing : IsClosing s) {c : Char} (other : c ≠ ')')
    (before : text.head? ≠ some c) : (text ++ s).head? ≠ some c := by
  cases text with
  | nil =>
    intro first
    exact other (closing.head c first)
  | cons d text => exact before

theorem escape?_of_plain (notN : c ≠ 'n') (notR : c ≠ 'r') (notT : c ≠ 't')
    (noBrace : rest.head? ≠ some '\x7b') :
    escape? flags (c :: rest) = if isEscapable c then some (.literal c, rest) else none := by
  unfold escape?
  split <;> simp_all

theorem escape?_append (closing : IsClosing s) {e : Escape}
    (read : escape? flags text = some (e, rest)) :
    escape? flags (text ++ s) = some (e, rest ++ s) := by
  fun_cases escape? flags text with
  | case1 => cases read
  | case2 text | case3 text | case4 text =>
    cases read
    rfl
  | case5 text =>
    simp only [escape?, Option.bind_eq_bind, Option.bind_eq_some_iff] at read
    obtain ⟨⟨digits, after⟩, inside, allowed, hex, c, known, same⟩ := read
    cases same
    simp only [List.cons_append, escape?, Option.bind_eq_bind, untilBrace_append inside,
      Option.bind_some, hex, known]
    rfl
  | case6 p text _ _ _ _ isProperty =>
    simp only [escape?, isProperty, if_true, Option.bind_eq_bind,
      Option.bind_eq_some_iff] at read
    obtain ⟨allowed, unicode, ⟨name, after⟩, inside, ⟨property, negated⟩, known, same⟩ := read
    cases same
    simp only [List.cons_append, escape?, isProperty, if_true,
      Option.bind_eq_bind, unicode, untilBrace_append inside, Option.bind_some, known]
    rfl
  | case7 p text _ _ _ _ other escapable =>
    simp only [escape?, other, escapable, if_true] at read
    cases read
    simp only [List.cons_append, escape?, other, escapable, if_true]
    rfl
  | case8 p text _ _ _ _ other inescapable =>
    simp only [escape?, other, inescapable] at read
    cases read
  | case9 d text notN notR notT _ noBrace escapable =>
    have alone : text.head? ≠ some '\x7b' := by
      intro brace
      obtain ⟨after, rfl⟩ := List.head?_eq_some_iff.1 brace
      exact noBrace after rfl
    rw [escape?_of_plain notN notR notT alone, if_pos escapable] at read
    cases read
    rw [List.cons_append, escape?_of_plain notN notR notT (closing.head?_append (by decide) alone),
      if_pos escapable]
  | case10 d text notN notR notT _ noBrace inescapable =>
    have alone : text.head? ≠ some '\x7b' := by
      intro brace
      obtain ⟨after, rfl⟩ := List.head?_eq_some_iff.1 brace
      exact noBrace after rfl
    rw [escape?_of_plain notN notR notT alone, if_neg inescapable] at read
    cases read

theorem bracketItem?_append (closing : IsClosing s) {e : Escape}
    (read : bracketItem? flags text = some (e, rest)) :
    bracketItem? flags (text ++ s) = some (e, rest ++ s) := by
  fun_cases bracketItem? flags text with
  | case1 => cases read
  | case2 text => exact escape?_append closing read
  | case3 d text notEscape =>
    simp only [bracketItem?] at read
    cases read
    simp only [List.cons_append, bracketItem?]

theorem bracketRange?_append (closing : IsClosing s) {item : Nested}
    (read : bracketRange? flags text = some (item, rest)) :
    bracketRange? flags (text ++ s) = some (item, rest ++ s) := by
  simp only [bracketRange?, Option.bind_eq_bind, Option.bind_eq_some_iff] at read
  obtain ⟨⟨first, afterFirst⟩, isFirst, read⟩ := read
  simp only [bracketRange?, Option.bind_eq_bind, bracketItem?_append closing isFirst,
    Option.bind_some]
  cases next : skip flags afterFirst with
  | nil =>
    simp only [next] at read
    cases read
  | cons c after =>
    simp only [next] at read
    simp only [skip_append next]
    split at read
    · next single =>
      have single' : (c != '-' || peek flags (after ++ s) == some ']' ||
          peek flags (after ++ s) == some '-') = true := by
        simp only [Bool.or_eq_true, beq_iff_eq] at single ⊢
        exact single.imp (Or.imp_right peek_append) peek_append
      rw [if_pos single']
      cases first with
      | literal a =>
        obtain ⟨set, known, same⟩ := Option.bind_eq_some_iff.1 read
        cases same
        simp [known]
      | property p negated =>
        cases read
        rfl
    · next range =>
      obtain ⟨⟨last, afterLast⟩, isLast, read⟩ := Option.bind_eq_some_iff.1 read
      cases start : skip flags after with
      | nil =>
        rw [start] at isLast
        cases isLast
      | cons d others =>
        -- More of the text than the item follows, so looking ahead sees the same character.
        obtain ⟨seen, isSeen⟩ : ∃ seen, peek flags after = some seen := by
          cases look : peek flags after with
          | some seen => exact ⟨seen, rfl⟩
          | none =>
            rw [skip_of_peek look] at start
            cases start
        rw [isSeen] at range
        rw [peek_append isSeen, if_neg range, skip_append start, ← List.cons_append,
          bracketItem?_append closing (start ▸ isLast)]
        cases first with
        | property => cases read
        | literal a =>
          cases last with
          | property => cases read
          | literal b =>
            obtain ⟨set, known, same⟩ := Option.bind_eq_some_iff.1 read
            cases same
            simp [known]

theorem leadingHyphens_append (closing : IsClosing s) (b : Bracket) :
    leadingHyphens flags b (text ++ s) =
      ((leadingHyphens flags b text).1, (leadingHyphens flags b text).2 ++ s) := by
  fun_induction leadingHyphens flags b text with
  | case1 b text ih => exact ih
  | case2 b d text notHyphen blank ih =>
    simp only [List.cons_append, leadingHyphens, blank, if_true]
    exact ih
  | case3 b d text notHyphen other =>
    simp only [List.cons_append, leadingHyphens, other]
    rfl
  | case4 b =>
    cases s with
    | nil => rfl
    | cons d s =>
      cases closing.head d rfl
      simp [leadingHyphens, Unicode.isWhiteSpace]

def bracketFirst (flags : Flags) (negated : Bool) (text : List Char) : Bool × Bracket × List Char :=
  let hyphens := leadingHyphens flags {} text
  if hyphens.2.head? = some ']' ∧ hyphens.1.items.isEmpty then
    (negated, hyphens.1.push ⟨.singleton ']', 0⟩, hyphens.2.tail)
  else (negated, hyphens.1, hyphens.2)

theorem bracketFirst_of_sign {t : List Char} {negated : Bool}
    (sign : (match text with
      | '^' :: rest => (true, skip flags rest)
      | _ => (false, text)) = (negated, t)) :
    (if text.head? = some '^' then bracketFirst flags true (skip flags text.tail)
      else bracketFirst flags false text) = bracketFirst flags negated t := by
  split at sign
  · cases sign
    rfl
  · next unsigned =>
    cases sign
    rw [if_neg]
    intro first
    obtain ⟨rest, rfl⟩ := List.head?_eq_some_iff.1 first
    exact unsigned rest rfl

theorem bracketStart_eq (flags : Flags) (text : List Char) : bracketStart flags text =
    if (skip flags text).head? = some '^' then bracketFirst flags true (skip flags (skip flags text).tail)
    else bracketFirst flags false (skip flags text) := by
  fun_cases bracketStart flags text with
  | case1 t negated u sign b rest hyphens first =>
    rw [bracketFirst_of_sign sign, bracketFirst]
    simp [hyphens, first]
  | case2 t negated u sign b rest hyphens later =>
    rw [bracketFirst_of_sign sign, bracketFirst]
    simp [hyphens, later]
  | case3 t negated u sign b rest other hyphens =>
    rw [bracketFirst_of_sign sign, bracketFirst, if_neg, hyphens]
    rintro ⟨bracket, _⟩
    rw [hyphens] at bracket
    obtain ⟨after, same⟩ := List.head?_eq_some_iff.1 bracket
    exact other after same

theorem head?_append_of_some (first : text.head? = some c) :
    (text ++ s).head? = some c ∧ (text ++ s).tail = text.tail ++ s := by
  obtain ⟨rest, rfl⟩ := List.head?_eq_some_iff.1 first
  exact ⟨rfl, rfl⟩

theorem bracketFirst_extended (closing : IsClosing s) {negated : Bool} {text' : List Char}
    (extended : Extended s text text') {n : Bool} {b : Bracket}
    (start : bracketFirst flags negated text = (n, b, rest)) :
    ∃ rest', bracketFirst flags negated text' = (n, b, rest') ∧ Extended s rest rest' := by
  rcases extended with rfl | ⟨rfl, rfl⟩
  · unfold bracketFirst at start ⊢
    rw [leadingHyphens_append closing]
    dsimp only at start ⊢
    split at start
    · next literal =>
      have bracket := head?_append_of_some (s := s) literal.1
      cases start
      rw [if_pos ⟨bracket.1, literal.2⟩, bracket.2]
      exact ⟨_, rfl, extended_append s _⟩
    · next other =>
      cases start
      rw [if_neg]
      · exact ⟨_, rfl, extended_append s _⟩
      · rintro ⟨bracket, first⟩
        exact closing.head?_append (by decide) (fun bracket => other ⟨bracket, first⟩) bracket
  · refine ⟨rest, start, ?_⟩
    cases start
    exact extended_nil s

theorem bracketStart_extended (closing : IsClosing s) {text' : List Char}
    (extended : Extended s text text') {n : Bool} {b : Bracket}
    (start : bracketStart flags text = (n, b, rest)) :
    ∃ rest', bracketStart flags text' = (n, b, rest') ∧ Extended s rest rest' := by
  rw [bracketStart_eq] at start ⊢
  have skipped := skip_extended flags closing extended
  generalize skip flags text = text at start skipped
  generalize skip flags text' = text' at skipped
  rcases skipped with rfl | ⟨rfl, rfl⟩
  · split at start
    · next sign =>
      have sign' := head?_append_of_some (s := s) sign
      rw [if_pos sign'.1, sign'.2]
      exact bracketFirst_extended closing (skip_extended flags closing (extended_append s _)) start
    · next noSign =>
      rw [if_neg (closing.head?_append (by decide) noSign)]
      exact bracketFirst_extended closing (extended_append s _) start
  · exact bracketFirst_extended closing (extended_nil s) start

theorem bracketRest?_nil (n : Nat) (negated : Bool) (b : Bracket) :
    bracketRest? flags n negated b [] = none := by
  cases n with
  | zero => rfl
  | succ n => simp [bracketRest?, skip, skipBlanks]

theorem dropWhile_append {p : Char → Bool} (others : text.dropWhile p ≠ []) :
    (text ++ s).dropWhile p = text.dropWhile p ++ s := by
  rw [List.dropWhile_append, if_neg (by simpa using others)]

theorem IsClosing.cons_of_append (closing : IsClosing s) (other : c ≠ ')')
    (both : text ++ s = c :: rest) : ∃ before, text = c :: before := by
  cases text with
  | nil => exact absurd (closing.head c (by rw [List.nil_append] at both; rw [both]; rfl)) other
  | cons d text => exact ⟨text, by rw [(List.cons.inj both).1]⟩

theorem IsClosing.not_cons (closing : IsClosing s) (other : c ≠ ')')
    (alone : ∀ rest, text = c :: rest → False) : ∀ rest, text ++ s = c :: rest → False := by
  intro rest both
  obtain ⟨before, same⟩ := closing.cons_of_append other both
  exact alone before same

theorem IsClosing.cons_cons_of_append (closing : IsClosing s) {d : Char} (first : c ≠ ')')
    (second : d ≠ ')') (both : text ++ s = c :: d :: rest) : ∃ before, text = c :: d :: before := by
  obtain ⟨text, rfl⟩ := closing.cons_of_append first both
  obtain ⟨before, rfl⟩ := closing.cons_of_append second (List.cons.inj both).2
  exact ⟨before, rfl⟩

theorem takeWhile_append {p : Char → Bool} (others : text.dropWhile p ≠ []) :
    (text ++ s).takeWhile p = text.takeWhile p := by
  have stops : (text.takeWhile p).length ≠ text.length := by
    intro all
    have parts := congrArg List.length (List.takeWhile_append_dropWhile (p := p) (l := text))
    rw [List.length_append, all] at parts
    exact others (List.eq_nil_of_length_eq_zero (by omega))
  rw [List.takeWhile_append, if_neg stops]

theorem setName?_append (closing : IsClosing s) (negated : Bool) (text : List Char) :
    setName? flags negated (text ++ s) =
      (setName? flags negated text).map fun read => (read.1, read.2 ++ s) := by
  unfold setName?
  cases others : text.dropWhile Char.isLower with
  | nil =>
    have notNamed : ∀ rest, (text ++ s).dropWhile Char.isLower ≠ ':' :: rest := by
      rw [List.dropWhile_append, others, List.isEmpty_nil, if_pos rfl]
      cases s with
      | nil => exact fun _ same => nomatch same
      | cons c s =>
        cases closing.head c rfl
        exact fun _ same => nomatch (List.cons.inj same).1
    split
    · next named => exact absurd named (notNamed _)
    · rfl
  | cons c after =>
    have nonempty : text.dropWhile Char.isLower ≠ [] := others ▸ List.cons_ne_nil c after
    rw [dropWhile_append nonempty, takeWhile_append nonempty, others, List.cons_append]
    split
    · next named =>
      have both : (c :: after) ++ s = ':' :: ']' :: _ := named
      obtain ⟨rest, same⟩ := closing.cons_cons_of_append (by decide) (by decide) both
      rw [List.cons.injEq] at named
      obtain ⟨rfl, named⟩ := named
      obtain ⟨-, rfl⟩ := List.cons.inj same
      obtain ⟨-, rfl⟩ := List.cons.inj named
      cases asciiSet? (String.ofList (text.takeWhile Char.isLower)) <;> rfl
    · next unnamed =>
      split
      · next named =>
        cases named
        exact (unnamed _ rfl).elim
      · rfl

theorem namedSet?_append (closing : IsClosing s) (text : List Char) :
    namedSet? flags (text ++ s) = (namedSet? flags text).map fun read => (read.1, read.2 ++ s) := by
  fun_cases namedSet? flags text with
  | case1 rest => exact setName?_append closing true rest
  | case2 rest unsigned =>
    rw [List.cons_append, namedSet?]
    · exact setName?_append closing false rest
    · exact closing.not_cons (by decide) unsigned
  | case3 =>
    next signed unsigned =>
    rw [namedSet?]
    · rfl
    · intro rest both
      obtain ⟨before, same⟩ := closing.cons_cons_of_append (by decide) (by decide) both
      exact signed before same
    · exact closing.not_cons (by decide) unsigned

theorem bracketRest?_append (closing : IsClosing s) {n m : Nat} (enough : n ≤ m) {negated : Bool}
    {b : Bracket} {item : Nested} (read : bracketRest? flags n negated b text = some (item, rest)) :
    bracketRest? flags m negated b (text ++ s) = some (item, rest ++ s) := by
  induction n generalizing m negated b text item rest with
  | zero => cases read
  | succ n ih =>
    obtain ⟨m, rfl⟩ : ∃ k, m = k + 1 := ⟨m - 1, by omega⟩
    have enough : n ≤ m := Nat.le_of_succ_le_succ enough
    rw [bracketRest?] at read
    split at read
    · cases read
    · next after skipped =>
      have namedAfter := @namedSet?_append flags s closing after
      split at read
      · next set afterSet named =>
        rw [bracketRest?, skip_append skipped]
        simp only [namedAfter, named, Option.map_some]
        exact ih enough read
      · next unnamed =>
        generalize start : bracketStart flags after = first at read
        obtain ⟨inNegated, inside, afterStart⟩ := first
        obtain ⟨⟨nested, afterNested⟩, isNested, read⟩ := Option.bind_eq_some_iff.1 read
        obtain ⟨_, start', extended⟩ := bracketStart_extended closing (extended_append s after) start
        rcases extended with rfl | ⟨rfl, rfl⟩
        · rw [bracketRest?, skip_append skipped]
          simp only [namedAfter, unnamed, Option.map_none, start', ih enough isNested]
          exact ih enough read
        · rw [bracketRest?_nil] at isNested
          cases isNested
    · next after skipped =>
      cases read
      rw [bracketRest?, skip_append skipped]
      rfl
    · next after skipped =>
      rw [bracketRest?, skip_append skipped]
      exact ih enough read
    · next after skipped =>
      rw [bracketRest?, skip_append skipped]
      exact ih enough read
    · next after skipped =>
      rw [bracketRest?, skip_append skipped]
      exact ih enough read
    · next after nonempty noBracket noEnd noInter noDiff noSymmDiff =>
      obtain ⟨⟨item, afterItem⟩, isItem, read⟩ := Option.bind_eq_some_iff.1 read
      have isItem' := bracketRange?_append closing isItem
      have read' := ih enough read
      generalize skipped : skip flags text = start at *
      cases start with
      | nil => exact absurd rfl nonempty
      | cons d start =>
        rw [bracketRest?, skip_append skipped, ← List.cons_append]
        split
        · next none => cases none
        -- The added text begins with a closing parenthesis, so no operator comes about at the seam.
        · next bracket =>
          obtain ⟨_, same⟩ := closing.cons_of_append (by decide) bracket
          exact absurd same (noBracket _)
        · next bracketEnd =>
          obtain ⟨_, same⟩ := closing.cons_of_append (by decide) bracketEnd
          exact absurd same (noEnd _)
        · next inter =>
          obtain ⟨_, same⟩ := closing.cons_cons_of_append (by decide) (by decide) inter
          exact absurd same (noInter _)
        · next diff =>
          obtain ⟨_, same⟩ := closing.cons_cons_of_append (by decide) (by decide) diff
          exact absurd same (noDiff _)
        · next symmDiff =>
          obtain ⟨_, same⟩ := closing.cons_cons_of_append (by decide) (by decide) symmDiff
          exact absurd same (noSymmDiff _)
        · rw [isItem']
          exact read'

theorem bracket?_append (closing : IsClosing s) {item : Nested}
    (read : bracket? flags text = some (item, rest)) :
    bracket? flags (text ++ s) = some (item, rest ++ s) := by
  unfold bracket? at read ⊢
  generalize start : bracketStart flags text = first at read
  obtain ⟨negated, inside, afterStart⟩ := first
  obtain ⟨⟨nested, afterNested⟩, isNested, read⟩ := Option.bind_eq_some_iff.1 read
  obtain ⟨afterStart', start', extended⟩ := bracketStart_extended closing (extended_append s text) start
  have enough : text.length + 1 ≤ (text ++ s).length + 1 := by
    rw [List.length_append]
    omega
  rcases extended with rfl | ⟨rfl, rfl⟩
  · have isNested' := bracketRest?_append closing enough isNested
    simp only [start', isNested', Option.bind_eq_bind, Option.bind_some]
    obtain ⟨allowed, known, same⟩ := Option.bind_eq_some_iff.1 read
    cases same
    simp only [known, Option.bind_some]
    rfl
  · rw [bracketRest?_nil] at isNested
    cases isNested

theorem flagLetters?_append {seen seen' : List Char} {flags' : Flags}
    (read : flagLetters? flags seen text = some (flags', seen', c, rest)) :
    flagLetters? flags seen (text ++ s) = some (flags', seen', c, rest ++ s) := by
  fun_induction flagLetters? flags seen text with
  | case1 => cases read
  | case2 => cases read
  | case3 flags seen d text final complete =>
    cases read
    rw [List.cons_append, flagLetters?, if_pos final, if_neg complete]
  | case4 => cases read
  | case5 flags seen d text other new hyphen ih =>
    rw [List.cons_append, flagLetters?, if_neg other, if_neg new, if_pos hyphen]
    exact ih read
  | case6 flags seen d text other new letter ih =>
    obtain ⟨set, known, read⟩ := Option.bind_eq_some_iff.1 read
    rw [List.cons_append, flagLetters?, if_neg other, if_neg new, if_neg letter]
    simp only [known, Option.bind_eq_bind, Option.bind_some]
    exact ih set read

theorem digits_append (others : (digits flags text).2 ≠ []) :
    digits flags (text ++ s) = ((digits flags text).1, (digits flags text).2 ++ s) := by
  fun_induction digits flags text with
  | case1 => exact absurd rfl others
  | case2 d text digit ds after split ih =>
    rw [split] at ih
    simp only [List.cons_append, digits, digit, if_true, ih others]
  | case3 d text other blank ih =>
    rw [List.cons_append, digits, if_neg other, if_pos blank]
    exact ih others
  | case4 d text other letter => rw [List.cons_append, digits, if_neg other, if_neg letter]

theorem count?_append {n : Nat} (read : count? flags text = some (n, c :: rest)) :
    count? flags (text ++ s) = some (n, c :: rest ++ s) := by
  simp only [count?, Option.bind_eq_bind, Option.bind_eq_some_iff] at read
  obtain ⟨given, nonempty, small, bound, same⟩ := read
  obtain ⟨value, after⟩ := Prod.mk.inj (Option.some.inj same)
  rw [value] at bound
  have others : (digits flags (text.dropWhile Unicode.isWhiteSpace)).2 ≠ [] := by
    intro none
    rw [none] at after
    cases after
  have text' : text.dropWhile Unicode.isWhiteSpace ≠ [] := by
    intro none
    rw [none] at others
    exact others rfl
  have followed : (digits flags (text.dropWhile Unicode.isWhiteSpace)).2.dropWhile
      Unicode.isWhiteSpace ≠ [] := by
    rw [after]
    exact List.cons_ne_nil _ _
  simp only [count?, dropWhile_append text', digits_append others, Option.bind_eq_bind, nonempty,
    bound, Option.bind_some, value, dropWhile_append followed, after]
  rfl

theorem count?_nil : count? flags [] = none := rfl

theorem count?_brace (rest : List Char) : count? flags ('\x7d' :: rest) = none := by
  have letter : Unicode.isWhiteSpace '\x7d' = false := rfl
  have noDigit : Char.isDigit '\x7d' = false := rfl
  have none : digits flags ('\x7d' :: rest) = ([], '\x7d' :: rest) := by
    simp [digits, letter, noDigit]
  have start : ('\x7d' :: rest).dropWhile Unicode.isWhiteSpace = '\x7d' :: rest := rfl
  simp only [count?, start, none]
  rfl

theorem count?_skip_append {n : Nat} (read : count? flags (skip flags text) = some (n, c :: rest)) :
    count? flags (skip flags (text ++ s)) = some (n, c :: rest ++ s) := by
  cases start : skip flags text with
  | nil =>
    rw [start, count?_nil] at read
    cases read
  | cons d after =>
    rw [skip_append start, ← List.cons_append]
    exact count?_append (start ▸ read)

theorem bounds?_append {min : Nat} {max : Option Nat}
    (read : bounds? flags text = some (min, max, rest)) :
    bounds? flags (text ++ s) = some (min, max, rest ++ s) := by
  unfold bounds? at read ⊢
  obtain ⟨⟨low, after⟩, isLow, read⟩ := Option.bind_eq_some_iff.1 read
  dsimp only at read
  split at read
  · next after =>
    cases read
    simp only [count?_skip_append isLow, Option.bind_eq_bind, Option.bind_some]
    rfl
  · next after =>
    simp only [count?_skip_append isLow, Option.bind_eq_bind, Option.bind_some, List.cons_append]
    split at read
    · next skipped =>
      cases read
      simp only [skip_append skipped]
      rfl
    · next unlimited =>
      obtain ⟨⟨high, afterHigh⟩, isHigh, read⟩ := Option.bind_eq_some_iff.1 read
      obtain ⟨ordered, known, read⟩ := Option.bind_eq_some_iff.1 read
      dsimp only at read known
      split at read
      · next last =>
        cases read
        have isHigh' := count?_skip_append (s := s) isHigh
        split
        · next skipped =>
          rw [skipped, count?_brace] at isHigh'
          cases isHigh'
        · simp only [isHigh', known, Option.bind_some]
          rfl
      · cases read
  · cases read

theorem skipLazy_append (closing : IsClosing s) (text : List Char) :
    skipLazy (text ++ s) = skipLazy text ++ s := by
  have lazy_of_plain : ∀ text : List Char, text.head? ≠ some '?' → skipLazy text = text := by
    intro text plain
    unfold skipLazy
    split
    · exact absurd rfl plain
    · rfl
  by_cases lazy : text.head? = some '?'
  · obtain ⟨rest, rfl⟩ := List.head?_eq_some_iff.1 lazy
    rfl
  · rw [lazy_of_plain text lazy, lazy_of_plain _ (closing.head?_append (by decide) lazy)]

theorem primitive?_append (closing : IsClosing s) {e : Expr}
    (read : primitive? flags text = some (e, rest)) :
    primitive? flags (text ++ s) = some (e, rest ++ s) := by
  fun_cases primitive? flags text with
  | case1 => cases read
  | case2 text =>
    obtain ⟨⟨escape, after⟩, isEscape, same⟩ := Option.map_eq_some_iff.1 read
    simp only [List.cons_append, primitive?, escape?_append closing isEscape, Option.map_some]
    cases escape <;> cases same <;> rfl
  | case3 text =>
    obtain ⟨e, known, same⟩ := Option.map_eq_some_iff.1 read
    cases same
    simp [primitive?, known]
  | case4 text | case5 text =>
    cases read
    rfl
  | case6 d text =>
    simp only [primitive?, Option.some.injEq, Prod.mk.injEq] at read
    obtain ⟨rfl, rfl⟩ := read
    simp [primitive?]

theorem groupName?_append {name : List Char} (read : groupName? text = some (name, rest)) :
    groupName? (text ++ s) = some (name, rest ++ s) := by
  fun_induction groupName? text generalizing name rest with
  | case1 => cases read
  | case2 text =>
    cases read
    rfl
  | case3 d text other ih =>
    obtain ⟨⟨name, after⟩, further, same⟩ := Option.map_eq_some_iff.1 read
    cases same
    simp [groupName?, ih further]

structure State.Extended (s : List Char) (st st' : State) : Prop where
  flags : st'.flags = st.flags
  names : st'.names = st.names
  text : Syntax.Extended s st.text st'.text

inductive Opening.Extended (s : List Char) : Opening → Opening → Prop
  | group {st st' : State} (extended : st.Extended s st') : Opening.Extended s (.group st) (.group st')
  | flags {st st' : State} (extended : st.Extended s st') : Opening.Extended s (.flags st) (.flags st')

theorem namedGroup?_extended {st st' : State} (extended : st.Extended s st') {o : Opening}
    (read : namedGroup? st text = some o) :
    ∃ o', namedGroup? st' (text ++ s) = some o' ∧ o.Extended s o' := by
  obtain ⟨⟨name, after⟩, isName, read⟩ := Option.bind_eq_some_iff.1 read
  obtain ⟨c, first, read⟩ := Option.bind_eq_some_iff.1 read
  obtain ⟨allowed, known, same⟩ := Option.bind_eq_some_iff.1 read
  cases same
  refine ⟨.group { st' with text := after ++ s, names := name :: st'.names }, ?_, .group ⟨?_, ?_, ?_⟩⟩
  · simp only [namedGroup?, groupName?_append isName, extended.names, Option.bind_eq_bind,
      Option.bind_some, first, known]
    rfl
  · exact extended.flags
  · exact congrArg (name :: ·) extended.names
  · exact extended_append s after

theorem opening?_extended (closing : IsClosing s) {st st' : State} (extended : st.Extended s st')
    {text' : List Char} (more : Syntax.Extended s text text') {o : Opening}
    (read : opening? st text = some o) :
    ∃ o', opening? st' text' = some o' ∧ o.Extended s o' := by
  have skipped := skip_extended st.flags closing more
  unfold opening? at read ⊢
  rw [extended.flags]
  generalize skip st.flags text = t at read skipped
  generalize skip st.flags text' = t' at skipped
  rcases skipped with rfl | ⟨rfl, rfl⟩
  · split at read
    · cases read
    · cases read
    · cases read
    · cases read
    · next after => exact namedGroup?_extended extended read
    · next after noEqual noBang =>
      have noEqual' := closing.not_cons (by decide) noEqual
      have noBang' := closing.not_cons (by decide) noBang
      simp only [List.cons_append]
      exact namedGroup?_extended extended read
    · next after noEqual noBang _ _ noName noAngle =>
      have noEqual' := closing.not_cons (by decide) noEqual
      have noBang' := closing.not_cons (by decide) noBang
      have noAngle' := closing.not_cons (by decide) noAngle
      have noName' : ∀ rest, after ++ s = 'P' :: '<' :: rest → False := by
        intro rest both
        obtain ⟨before, same⟩ := closing.cons_cons_of_append (by decide) (by decide) both
        exact noName before same
      rw [List.cons_append]
      split
      · next both => exact (noEqual' _ (List.cons.inj both).2).elim
      · next both => exact (noBang' _ (List.cons.inj both).2).elim
      · next both => exact (noAngle' _ (List.cons.inj both).2).elim
      · next both => exact (noAngle' _ (List.cons.inj both).2).elim
      · next both => exact (noName' _ (List.cons.inj both).2).elim
      · next both => exact (noAngle' _ (List.cons.inj both).2).elim
      · next both =>
        obtain ⟨_, rfl⟩ := List.cons.inj both
        split at read
        · next set letters rest flags =>
          cases read
          rw [flagLetters?_append flags]
          exact ⟨_, rfl, .group ⟨rfl, extended.names, extended_append s rest⟩⟩
        · next set letter letters rest flags =>
          cases read
          rw [flagLetters?_append flags]
          exact ⟨_, rfl, .flags ⟨rfl, extended.names, extended_append s rest⟩⟩
        · cases read
      · next plain => exact (plain _ rfl).elim
    · next noSign =>
      have noSign' := closing.not_cons (by decide) noSign
      cases read
      split
      case h_8 => exact ⟨_, rfl, .group ⟨rfl, extended.names, extended_append s _⟩⟩
      all_goals next both => exact (noSign' _ both).elim
  · cases read
    exact ⟨_, rfl, .group ⟨rfl, extended.names, extended_nil s⟩⟩

theorem skipLazy_extended (closing : IsClosing s) {text' : List Char}
    (extended : Extended s text text') : Extended s (skipLazy text) (skipLazy text') := by
  rcases extended with rfl | ⟨rfl, rfl⟩
  · rw [skipLazy_append closing]
    exact extended_append s _
  · exact extended_nil s

theorem State.Extended.of_text {text' : List Char} (more : Syntax.Extended s text text') (flags : Flags)
    (names : List (List Char)) : State.Extended s ⟨text, flags, names⟩ ⟨text', flags, names⟩ :=
  ⟨rfl, rfl, more⟩

/-- With `n` steps, what is read is the same, whatever closing text follows and whatever further
steps are allowed. -/
def StaysRead (s : List Char) (n : Nat) : Prop :=
  ∀ {m : Nat}, n ≤ m → ∀ {st st' : State}, st.Extended s st' →
    ∀ {branches pieces : List Piece} {piece : Piece} {final : State},
      branches? n st branches pieces = some (piece, final) →
        ∃ final', branches? m st' branches pieces = some (piece, final') ∧ final.Extended s final'

theorem StaysRead.repeated {n m : Nat} (stays : StaysRead s n) (enough : n ≤ m)
    (closing : IsClosing s) {rest' : List Char} (more : Syntax.Extended s rest rest')
    {names : List (List Char)} {branches : List Piece} {pieces? : Option (List Piece)}
    {piece : Piece} {final : State}
    (read : (pieces?.bind fun pieces =>
      branches? n ⟨skipLazy rest, flags, names⟩ branches pieces) = some (piece, final)) :
    ∃ final', (pieces?.bind fun pieces =>
      branches? m ⟨skipLazy rest', flags, names⟩ branches pieces) = some (piece, final') ∧
        final.Extended s final' := by
  obtain ⟨pieces, rfl, read⟩ := Option.bind_eq_some_iff.1 read
  exact stays enough (.of_text (skipLazy_extended closing more) flags names) read

theorem StaysRead.group {n m : Nat} (stays : StaysRead s n) (enough : n ≤ m)
    {inner inner' after : State} (extended : inner.Extended s inner') {inside : Piece}
    (read : branches? n inner [] [] = some (inside, after)) (closes : after.text = ')' :: rest) :
    ∃ after', branches? m inner' [] [] = some (inside, after') ∧
      after'.text = ')' :: (rest ++ s) ∧ after'.names = after.names := by
  obtain ⟨after', read', further⟩ := stays enough extended read
  refine ⟨after', read', ?_, further.names⟩
  rcases further.text with more | ⟨none, _⟩
  · rw [more, closes, List.cons_append]
  · rw [none] at closes
    cases closes

theorem branches?_extended (closing : IsClosing s) (n : Nat) : StaysRead s n := by
  induction n with
  | zero =>
    intro _ _ _ _ _ _ _ _ _ read
    cases read
  | succ n ih =>
    intro m enough st st' extended branches pieces piece final read
    obtain ⟨m, rfl⟩ : ∃ k, m = k + 1 := ⟨m - 1, by omega⟩
    have enough : n ≤ m := Nat.le_of_succ_le_succ enough
    obtain ⟨text, _, _⟩ := st
    obtain ⟨text', flags, names⟩ := st'
    obtain ⟨rfl, rfl, more⟩ := extended
    have skipped := skip_extended flags closing more
    unfold branches? at read ⊢
    dsimp only at read skipped ⊢
    generalize skip flags text = t at read skipped
    generalize skip flags text' = t' at skipped
    rcases skipped with rfl | ⟨rfl, rfl⟩
    · split at read
      · cases read
        cases s with
        | nil => exact ⟨_, rfl, .of_text (extended_nil []) flags names⟩
        | cons c s =>
          cases closing.head c rfl
          exact ⟨_, rfl, .of_text (extended_append _ []) flags names⟩
      · next rest =>
        cases read
        exact ⟨_, rfl, .of_text (extended_append s _) flags names⟩
      · next rest => exact ih enough (.of_text (extended_append s rest) flags names) read
      · next rest => exact ih.repeated enough closing (extended_append s rest) read
      · next rest => exact ih.repeated enough closing (extended_append s rest) read
      · next rest => exact ih.repeated enough closing (extended_append s rest) read
      · next rest =>
        obtain ⟨⟨min, max, after⟩, bounds, read⟩ := Option.bind_eq_some_iff.1 read
        simp only [List.cons_append, bounds?_append bounds, Option.bind_eq_bind, Option.bind_some]
        exact ih.repeated enough closing
          (skip_extended flags closing (extended_append s after)) read
      · next rest =>
        obtain ⟨⟨nested, after⟩, bracket, read⟩ := Option.bind_eq_some_iff.1 read
        simp only [List.cons_append, bracket?_append closing bracket, Option.bind_eq_bind,
          Option.bind_some]
        exact ih enough (.of_text (extended_append s after) flags names) read
      · next rest =>
        obtain ⟨opening, opened, read⟩ := Option.bind_eq_some_iff.1 read
        obtain ⟨opening', opened', related⟩ := opening?_extended closing
          (.of_text more flags names) (extended_append s rest) opened
        simp only [List.cons_append, opened', Option.bind_eq_bind, Option.bind_some]
        cases related with
        | flags inner => exact ih enough inner read
        | group inner =>
          obtain ⟨⟨inside, after⟩, isInside, read⟩ := Option.bind_eq_some_iff.1 read
          dsimp only at read
          split at read
          · next rest closes =>
            obtain ⟨after', isInside', closes', same⟩ := ih.group enough inner isInside closes
            simp only [isInside', Option.bind_some, closes', same]
            exact ih enough (.of_text (extended_append s rest) flags after.names) read
          · cases read
      · next nonempty noEnd noBranch noOptional noStar noPlus noBounds noBracket noGroup =>
        obtain ⟨⟨e, after⟩, primitive, read⟩ := Option.bind_eq_some_iff.1 read
        have primitive' := primitive?_append closing primitive
        have read' := ih enough (.of_text (extended_append s after) flags names) read
        cases t with
        | nil => exact absurd rfl nonempty
        | cons c t =>
          rw [List.cons_append] at primitive' ⊢
          split
          · next none => cases none
          case h_10 =>
            simp only [primitive', Option.bind_eq_bind, Option.bind_some]
            exact read'
          -- The first character is still that of the text, so no operator comes up.
          all_goals
            next both =>
              obtain ⟨rfl, -⟩ := List.cons.inj both
              simp_all
    · cases read
      exact ⟨_, rfl, .of_text (extended_nil s) flags names⟩

end XmlSchema.Regex.Syntax
