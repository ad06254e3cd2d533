import XmlSchema.Proofs.Regex.Extension
import XmlSchema.Proofs.Regex.Language

namespace XmlSchema.Regex.Syntax

variable {flags : Flags} {text rest : List Char} {e : Expr}

theorem primitive?_wellFormed (read : primitive? flags text = some (e, rest)) : e.WellFormed := by
  fun_cases primitive? flags text with
  | case1 => cases read
  | case2 text =>
    obtain ⟨⟨escape, after⟩, _, same⟩ := Option.map_eq_some_iff.1 read
    cases escape <;> cases same <;> trivial
  | case3 text =>
    obtain ⟨e, known, same⟩ := Option.map_eq_some_iff.1 read
    cases same
    obtain ⟨allowed, _, same⟩ := Option.bind_eq_some_iff.1 known
    cases same
    trivial
  | case4 text | case5 text =>
    cases read
    trivial
  | case6 c text =>
    simp only [primitive?, Option.some.injEq, Prod.mk.injEq] at read
    obtain ⟨rfl, _⟩ := read
    trivial

theorem bounds?_ordered {min : Nat} {max : Option Nat}
    (read : bounds? flags text = some (min, max, rest)) : ∀ m ∈ max, min ≤ m := by
  obtain ⟨⟨low, after⟩, _, read⟩ := Option.bind_eq_some_iff.1 read
  dsimp only at read
  split at read
  · cases read
    rintro m ⟨⟩
    exact Nat.le_refl _
  · split at read
    · cases read
      rintro m ⟨⟩
    · obtain ⟨⟨high, afterHigh⟩, _, read⟩ := Option.bind_eq_some_iff.1 read
      obtain ⟨ordered, known, read⟩ := Option.bind_eq_some_iff.1 read
      dsimp only at read known
      split at read
      · cases read
        rintro m ⟨⟩
        exact (Option.guard_eq_some' _).1 known
      · cases read
  · cases read

def AllWellFormed (pieces : List Piece) : Prop := ∀ piece ∈ pieces, piece.expr.WellFormed

theorem AllWellFormed.cons {piece : Piece} {pieces : List Piece} (first : piece.expr.WellFormed)
    (others : AllWellFormed pieces) : AllWellFormed (piece :: pieces) :=
  List.forall_mem_cons.2 ⟨first, others⟩

theorem repeatLast?_wellFormed {pieces repeated : List Piece} {min : Nat} {max : Option Nat}
    (wf : AllWellFormed pieces) (ordered : ∀ m ∈ max, min ≤ m)
    (known : repeatLast? pieces min max = some repeated) : AllWellFormed repeated := by
  cases pieces with
  | nil => cases known
  | cons piece pieces =>
    obtain ⟨first, others⟩ := List.forall_mem_cons.1 wf
    simp only [repeatLast?] at known
    split at known
    · cases known
    · cases known
      exact .cons ⟨first, ordered⟩ others

theorem sequence_wellFormed {pieces : List Piece} (wf : AllWellFormed pieces) :
    (sequence pieces).expr.WellFormed := by
  have folded : ∀ {pieces e}, AllWellFormed pieces → e.WellFormed →
      (pieces.foldl (fun e piece => Expr.followedBy piece.expr e) e).WellFormed := by
    intro pieces
    induction pieces with
    | nil => exact fun _ wfe => wfe
    | cons piece pieces ih =>
      intro e wf wfe
      obtain ⟨first, others⟩ := List.forall_mem_cons.1 wf
      exact ih others (Expr.wellFormed_followedBy first wfe)
  unfold sequence
  split
  · trivial
  · next piece => exact wf piece List.mem_cons_self
  · exact folded wf trivial

theorem alternation_wellFormed {last : Piece} {branches : List Piece} (first : last.expr.WellFormed)
    (wf : AllWellFormed branches) : (alternation last branches).expr.WellFormed := by
  have folded : ∀ {branches : List Piece} {e}, AllWellFormed branches → e.WellFormed →
      (branches.foldl (fun e branch => Expr.alt branch.expr e) e).WellFormed := by
    intro branches
    induction branches with
    | nil => exact fun _ wfe => wfe
    | cons branch branches ih =>
      intro e wf wfe
      obtain ⟨first, others⟩ := List.forall_mem_cons.1 wf
      exact ih others ⟨first, wfe⟩
  unfold alternation
  split
  · exact first
  · exact folded wf first

theorem branches?_wellFormed {n : Nat} {st final : State} {branches pieces : List Piece}
    {piece : Piece} (wfb : AllWellFormed branches) (wfp : AllWellFormed pieces)
    (read : branches? n st branches pieces = some (piece, final)) : piece.expr.WellFormed := by
  induction n generalizing st branches pieces piece final with
  | zero => cases read
  | succ n ih =>
    have sequenced := sequence_wellFormed wfp
    have none : AllWellFormed [] := fun _ member => absurd member List.not_mem_nil
    unfold branches? at read
    split at read
    · cases read
      exact alternation_wellFormed sequenced wfb
    · cases read
      exact alternation_wellFormed sequenced wfb
    · exact ih (.cons sequenced wfb) none read
    · obtain ⟨repeated, known, read⟩ := Option.bind_eq_some_iff.1 read
      exact ih wfb (repeatLast?_wellFormed wfp (by rintro m ⟨⟩; exact Nat.zero_le _) known) read
    · obtain ⟨repeated, known, read⟩ := Option.bind_eq_some_iff.1 read
      exact ih wfb (repeatLast?_wellFormed wfp (by rintro m ⟨⟩) known) read
    · obtain ⟨repeated, known, read⟩ := Option.bind_eq_some_iff.1 read
      exact ih wfb (repeatLast?_wellFormed wfp (by rintro m ⟨⟩) known) read
    · obtain ⟨⟨min, max, after⟩, bounds, read⟩ := Option.bind_eq_some_iff.1 read
      obtain ⟨repeated, known, read⟩ := Option.bind_eq_some_iff.1 read
      exact ih wfb (repeatLast?_wellFormed wfp (bounds?_ordered bounds) known) read
    · obtain ⟨⟨nested, after⟩, _, read⟩ := Option.bind_eq_some_iff.1 read
      refine ih wfb ?_ read
      exact .cons trivial wfp
    · obtain ⟨opening, _, read⟩ := Option.bind_eq_some_iff.1 read
      cases opening with
      | flags inner =>
        refine ih wfb ?_ read
        exact .cons trivial wfp
      | group inner =>
        obtain ⟨⟨inside, after⟩, isInside, read⟩ := Option.bind_eq_some_iff.1 read
        have wfi := ih none none isInside
        dsimp only at read
        split at read
        · refine ih wfb ?_ read
          exact .cons wfi wfp
        · cases read
    · obtain ⟨⟨e, after⟩, primitive, read⟩ := Option.bind_eq_some_iff.1 read
      refine ih wfb ?_ read
      exact .cons (primitive?_wellFormed primitive) wfp

theorem parse?_eq_some {text : List Char} {e : Expr} : parse? text = some e ↔ ∃ piece final,
    branches? (text.length + 1) { text, flags := {} } [] [] = some (piece, final) ∧
      final.text = [] ∧ piece.depth ≤ nestingLimit ∧ piece.expr = e := by
  constructor
  · intro read
    obtain ⟨⟨piece, final⟩, isPiece, read⟩ := Option.bind_eq_some_iff.1 read
    obtain ⟨allowed, known, same⟩ := Option.bind_eq_some_iff.1 read
    have complete := (Option.guard_eq_some' _).1 known
    rw [Bool.and_eq_true, List.isEmpty_iff, decide_eq_true_iff] at complete
    exact ⟨piece, final, isPiece, complete.1, complete.2, Option.some.inj same⟩
  · rintro ⟨piece, final, isPiece, complete, shallow, rfl⟩
    have allowed : (final.text.isEmpty && decide (piece.depth ≤ nestingLimit)) = true := by
      simp [complete, shallow]
    simp only [parse?, isPiece, Option.bind_eq_bind, Option.bind_some,
      (Option.guard_eq_some' ()).2 allowed]
    rfl

theorem branches?_closed {text : List Char} {piece : Piece} {final : State} {n : Nat} {s : List Char}
    (read : branches? (text.length + 1) { text, flags := {} } [] [] = some (piece, final))
    (complete : final.text = []) (closing : IsClosing s) (enough : text.length + 1 ≤ n) :
    ∃ final', branches? n { text := text ++ s, flags := {} } [] [] = some (piece, final') ∧
      (final'.text = s ∨ final'.text = []) := by
  obtain ⟨final', read', further⟩ :=
    branches?_extended closing _ enough (.of_text (extended_append s text) {} []) read
  refine ⟨final', read', ?_⟩
  rcases further.text with more | ⟨_, none⟩
  · rw [complete] at more
    exact .inl more
  · exact .inr none

theorem branches?_textStart (n : Nat) (rest : List Char) (names : List (List Char))
    (branches pieces : List Piece) :
    branches? (n + 1) { text := '^' :: rest, flags := {}, names } branches pieces =
      branches? n { text := rest, flags := {}, names } branches
        (⟨.anchor .textStart, 0, false⟩ :: pieces) :=
  rfl

theorem branches?_textEnd (n : Nat) (names : List (List Char)) (branches pieces : List Piece) :
    branches? (n + 2) { text := ['$'], flags := {}, names } branches pieces =
      some (alternation (sequence (⟨.anchor .textEnd, 0, false⟩ :: pieces)) branches,
        { text := [], flags := {}, names }) :=
  rfl

theorem branches?_group (n : Nat) (rest : List Char) (names : List (List Char))
    (branches pieces : List Piece) :
    branches? (n + 1) { text := '(' :: '?' :: ':' :: rest, flags := {}, names } branches pieces =
      (branches? n { text := rest, flags := {}, names } [] []).bind fun (inside, after) =>
        match after.text with
        | ')' :: rest => branches? n { text := rest, flags := {}, names := after.names } branches
          (⟨inside.expr, 1 + inside.depth, false⟩ :: pieces)
        | _ => none :=
  rfl

theorem parse?_anchored {text : List Char} {e p : Expr} (alone : parse? text = some e)
    (anchored : parse? ('^' :: '(' :: '?' :: ':' :: (text ++ [')', '$'])) = some p) :
    p = .followedBy (.anchor .textStart) (.followedBy e (.seq (.anchor .textEnd) .empty)) := by
  obtain ⟨piece, final, isPiece, complete, _, rfl⟩ := parse?_eq_some.1 alone
  obtain ⟨whole, last, isWhole, _, _, rfl⟩ := parse?_eq_some.1 anchored
  have closing : IsClosing [')', '$'] := ⟨by rintro c ⟨⟩; rfl, by decide⟩
  have enough : text.length + 1 ≤ text.length + 5 := Nat.add_le_add_left (by decide) _
  obtain ⟨after, inside, left⟩ := branches?_closed isPiece complete closing enough
  have size : ('^' :: '(' :: '?' :: ':' :: (text ++ [')', '$'])).length + 1 = text.length + 7 := by
    simp
  rw [size, branches?_textStart, branches?_group, inside, Option.bind_some] at isWhole
  rcases left with left | left
  · simp only [left, branches?_textEnd (text.length + 3)] at isWhole
    cases isWhole
    rfl
  · simp only [left] at isWhole
    cases isWhole

theorem parse?_wellFormed {text : List Char} {e : Expr} (read : parse? text = some e) :
    e.WellFormed := by
  obtain ⟨piece, final, isPiece, _, _, rfl⟩ := parse?_eq_some.1 read
  have none : AllWellFormed [] := fun _ member => absurd member List.not_mem_nil
  exact branches?_wellFormed none none isPiece

end XmlSchema.Regex.Syntax
