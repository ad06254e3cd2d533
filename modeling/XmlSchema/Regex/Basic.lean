import XmlSchema.Unicode.Property

/-!
# Regular expressions

Expressions with bounded repetition and anchors, and their matching by partial derivatives: the
derivatives of an expression by a character are the expressions that remain to be matched once
it has read that character.
-/

/-!
## Sets of characters

The sets that the brackets of regular expressions denote, kept as the expression that describes
them, with membership as their meaning.
-/

namespace XmlSchema.Regex

inductive CharSet where
  | empty
  | range (first last : Nat)
  | property (p : Unicode.Property)
  | compl (s : CharSet)
  | union (s t : CharSet)
  | inter (s t : CharSet)
  | diff (s t : CharSet)
  | symmDiff (s t : CharSet)
  | folded (s : CharSet)
  | foldedAscii (s : CharSet)
  deriving DecidableEq, Repr

def asciiCaseVariants (c : Char) : List Char :=
  if c.isUpper then [c, c.toLower] else if c.isLower then [c, c.toUpper] else [c]

namespace CharSet

def mem : CharSet → Char → Bool
  | .empty, _ => false
  | .range first last, c => first ≤ c.toNat && c.toNat ≤ last
  | .property p, c => p.holds c
  | .compl s, c => !s.mem c
  | .union s t, c => s.mem c || t.mem c
  | .inter s t, c => s.mem c && t.mem c
  | .diff s t, c => s.mem c && !t.mem c
  | .symmDiff s t, c => s.mem c != t.mem c
  | .folded s, c => (Unicode.caseVariants c).any fun d => s.mem d
  | .foldedAscii s, c => (asciiCaseVariants c).any fun d => s.mem d

def singleton (c : Char) : CharSet := .range c.toNat c.toNat

def avoidsHighBytes (s : CharSet) : Bool :=
  (List.range 0x80).all fun n => !s.mem (Char.ofNat (0x80 + n))

end CharSet

end XmlSchema.Regex

/-! ## Expressions -/

namespace XmlSchema.Regex

inductive Anchor where
  | textStart
  | textEnd
  | lineStart
  | lineEnd
  /-- As `lineStart`, with a carriage return, a line feed or both as the end of a line. -/
  | lineStartCrlf
  | lineEndCrlf
  deriving DecidableEq, Repr

def Anchor.holds (before after : Option Char) : Anchor → Bool
  | .textStart => before.isNone
  | .textEnd => after.isNone
  | .lineStart => before.isNone || before == some '\n'
  | .lineEnd => after.isNone || after == some '\n'
  | .lineStartCrlf =>
    before.isNone || before == some '\n' || (before == some '\r' && after != some '\n')
  | .lineEndCrlf =>
    after.isNone || after == some '\r' || (after == some '\n' && before != some '\r')

inductive Expr where
  | empty
  | chars (s : CharSet)
  | anchor (a : Anchor)
  | seq (a b : Expr)
  | alt (a b : Expr)
  | repeated (a : Expr) (min : Nat) (max : Option Nat)
  deriving DecidableEq, Repr

namespace Expr

def star (e : Expr) : Expr := .repeated e 0 none

def plus (e : Expr) : Expr := .repeated e 1 none

def optional (e : Expr) : Expr := .repeated e 0 (some 1)

def times (e : Expr) (n : Nat) : Expr := .repeated e n (some n)

def sequence : List Expr → Expr
  | [] => .empty
  | [e] => e
  | e :: es => .seq e (sequence es)

def oneOf (e : Expr) (es : List Expr) : Expr := es.foldl .alt e

def literal (text : String) : Expr :=
  sequence (text.toList.map fun c => .chars (.singleton c))

def between (first last : Char) : Expr := .chars (.range first.toNat last.toNat)

def anyOf (chars : String) : Expr :=
  .chars (chars.toList.foldl (fun s c => .union s (.singleton c)) .empty)

def followedBy : Expr → Expr → Expr
  | .empty, b => b
  | a, b => .seq a b

def matchesEmpty (before after : Option Char) : Expr → Bool
  | .empty => true
  | .chars _ => false
  | .anchor a => a.holds before after
  | .seq a b => a.matchesEmpty before after && b.matchesEmpty before after
  | .alt a b => a.matchesEmpty before after || b.matchesEmpty before after
  | .repeated a min _ => min == 0 || a.matchesEmpty before after

/-- What remains to be matched after a character that follows `before`. -/
def derivatives (before : Option Char) (c : Char) : Expr → List Expr
  | .empty => []
  | .chars s => if s.mem c then [.empty] else []
  | .anchor _ => []
  | .seq a b =>
    (a.derivatives before c).map (·.followedBy b) ++
      if a.matchesEmpty before (some c) then b.derivatives before c else []
  | .alt a b => a.derivatives before c ++ b.derivatives before c
  | .repeated a min max =>
    if max == some 0 then []
    else
      -- rounds that match the empty text here may be taken first, as many as are needed
      let rest := Expr.repeated a (if a.matchesEmpty before (some c) then 0 else min - 1)
        (max.map (· - 1))
      (a.derivatives before c).map (·.followedBy rest)

def matchesFrom (before : Option Char) (active : List Expr) : List Char → Bool
  | [] => active.any fun a => a.matchesEmpty before none
  | c :: rest =>
    matchesFrom (some c) (active.flatMap fun a => a.derivatives before c).eraseDups rest

def matchesWhole (e : Expr) (text : List Char) : Bool :=
  matchesFrom none [e] text

/-- Whether an expression matches somewhere in a text. `active` holds what remains of the matches
that started before. -/
def findsFrom (e : Expr) (before : Option Char) (active : List Expr) : List Char → Bool
  | [] => (e :: active).any fun a => a.matchesEmpty before none
  | c :: rest =>
    let active := (e :: active).eraseDups
    active.any (fun a => a.matchesEmpty before (some c)) ||
      findsFrom e (some c) (active.flatMap fun a => a.derivatives before c).eraseDups rest

def finds (e : Expr) (text : List Char) : Bool :=
  e.findsFrom none [] text

end Expr

end XmlSchema.Regex
