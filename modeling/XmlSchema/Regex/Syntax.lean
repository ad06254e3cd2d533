import XmlSchema.Regex.Basic
import XmlSchema.Xml.Name

/-!
# The notation of regular expressions

`parse?` reads a regular expression: literals, bracketed classes with set operators, groups with
flags, alternation, repetition and anchors. It refuses what the notation does not allow, with no
word on the reason.

Brackets nest, and so do groups: both are read by recursion, with a bound on the depth of the
recursion that the length of the text provides. A further limit on the nesting of the expression
itself is part of the notation.
-/

namespace XmlSchema.Regex

structure Flags where
  caseInsensitive : Bool := false
  multiLine : Bool := false
  dotAll : Bool := false
  crlf : Bool := false
  /-- Characters beyond ASCII and their properties are known. -/
  unicode : Bool := true
  verbose : Bool := false
  deriving DecidableEq, Repr

namespace Syntax

def nestingLimit : Nat := 250

def skipBlanks (inComment : Bool) : List Char → List Char
  | [] => []
  | c :: rest =>
    if inComment then skipBlanks (c != '\n') rest
    else if Unicode.isWhiteSpace c then skipBlanks false rest
    else if c == '#' then skipBlanks true rest
    else c :: rest

def skip (flags : Flags) (text : List Char) : List Char :=
  if flags.verbose then skipBlanks false text else text

def peekPastBlanks (inComment : Bool) : List Char → Option Char
  | [] => none
  | c :: rest =>
    if Unicode.isWhiteSpace c && !(inComment && c == '\n') then peekPastBlanks inComment rest
    else if !inComment && c == '#' then peekPastBlanks true rest
    else if inComment && c == '\n' then peekPastBlanks false rest
    else some c

def peek (flags : Flags) (text : List Char) : Option Char :=
  if flags.verbose then peekPastBlanks false text else text.head?

def untilBrace (flags : Flags) : List Char → Option (List Char × List Char)
  | [] => none
  | '\x7d' :: rest => some ([], rest)
  | c :: rest =>
    if flags.verbose && Unicode.isWhiteSpace c then untilBrace flags rest
    else (untilBrace flags rest).map fun (inside, rest) => (c :: inside, rest)

inductive Escape where
  | literal (c : Char)
  | property (p : Unicode.Property) (negated : Bool)

def isEscapable (c : Char) : Bool :=
  c.toNat < 0x80 && !c.isAlphanum && c != '<' && c != '>'

def charOf? (n : Nat) : Option Char :=
  if n < 0xD800 ∨ (0xDFFF < n ∧ n < 0x110000) then some (Char.ofNat n) else none

def splitAtUnequal : List Char → Option (List Char × List Char)
  | '!' :: '=' :: rest => some ([], rest)
  | c :: rest => (splitAtUnequal rest).map fun (before, after) => (c :: before, after)
  | [] => none

def property? (inside : List Char) : Option (Unicode.Property × Bool) :=
  match splitAtUnequal inside with
  | some (name, value) => (Unicode.Property.ofNameValue? name value).map (·, true)
  | none =>
    match Xml.splitAtChar ':' inside <|> Xml.splitAtChar '=' inside with
    | some (name, value) => (Unicode.Property.ofNameValue? name value).map (·, false)
    | none => (Unicode.Property.ofName? inside).map (·, false)

def escape? (flags : Flags) : List Char → Option (Escape × List Char)
  | [] => none
  | 'n' :: rest => some (.literal '\n', rest)
  | 'r' :: rest => some (.literal '\r', rest)
  | 't' :: rest => some (.literal '\t', rest)
  | 'x' :: '\x7b' :: rest => do
    let (digits, rest) ← untilBrace flags rest
    guard (!digits.isEmpty && digits.all fun c => c.isDigit || ('a' ≤ c.toLower && c.toLower ≤ 'f'))
    let c ← charOf? (Unicode.hexValue digits)
    pure (.literal c, rest)
  | p :: '\x7b' :: rest =>
    if p == 'p' || p == 'P' then do
      guard flags.unicode
      let (inside, rest) ← untilBrace flags rest
      let (property, negated) ← property? inside
      pure (.property property (negated != (p == 'P')), rest)
    else if isEscapable p then some (.literal p, '\x7b' :: rest)
    else none
  | c :: rest => if isEscapable c then some (.literal c, rest) else none

def foldCase (flags : Flags) (s : CharSet) : CharSet :=
  if flags.caseInsensitive then
    if flags.unicode then .folded s else .foldedAscii s
  else s

def foldAndNegate (flags : Flags) (negated : Bool) (s : CharSet) : CharSet :=
  let s := foldCase flags s
  if negated then .compl s else s

/-! ## Brackets -/

/-- The operators between the sets of a bracket. They associate to the left. -/
inductive SetOperator where
  | inter
  | diff
  | symmDiff

def SetOperator.apply : SetOperator → CharSet → CharSet → CharSet
  | .inter, s, t => .inter s t
  | .diff, s, t => .diff s t
  | .symmDiff, s, t => .symmDiff s t

structure Nested where
  set : CharSet
  depth : Nat

/-- The part of a bracket that has been read: the operand before the last operator, and the items
after it, the last one first. -/
structure Bracket where
  operand : Option (SetOperator × Nested) := none
  items : List Nested := []

namespace Bracket

def push (b : Bracket) (item : Nested) : Bracket :=
  { b with items := item :: b.items }

def union (b : Bracket) : Nested :=
  match b.items with
  | [] => ⟨.empty, 0⟩
  | [item] => item
  | items =>
    ⟨items.foldr (fun item s => .union s item.set) .empty,
      1 + items.foldl (fun d item => max d item.depth) 0⟩

def close (flags : Flags) (b : Bracket) : Nested :=
  match b.operand with
  | none => b.union
  | some (op, left) =>
    let right := b.union
    ⟨op.apply (foldCase flags left.set) (foldCase flags right.set), 1 + max left.depth right.depth⟩

def operator (flags : Flags) (b : Bracket) (op : SetOperator) : Bracket :=
  { operand := some (op, b.close flags) }

end Bracket

def bracketItem? (flags : Flags) : List Char → Option (Escape × List Char)
  | [] => none
  | '\\' :: rest => escape? flags rest
  | c :: rest => some (.literal c, rest)

def rangeSet? (flags : Flags) (first last : Char) : Option CharSet := do
  guard (first.toNat ≤ last.toNat && (flags.unicode || last.toNat < 0x80))
  pure (.range first.toNat last.toNat)

def bracketRange? (flags : Flags) (text : List Char) : Option (Nested × List Char) := do
  let (first, rest) ← bracketItem? flags text
  let rest := skip flags rest
  match rest with
  | [] => none
  | c :: after =>
    if c != '-' || peek flags after == some ']' || peek flags after == some '-' then
      match first with
      | .literal c => pure (⟨← rangeSet? flags c c, 0⟩, rest)
      | .property p negated => pure (⟨foldAndNegate flags negated (.property p), 0⟩, rest)
    else
      let (last, rest) ← bracketItem? flags (skip flags after)
      match first, last with
      | .literal a, .literal b => pure (⟨← rangeSet? flags a b, 0⟩, rest)
      | _, _ => none

def leadingHyphens (flags : Flags) (b : Bracket) : List Char → Bracket × List Char
  | '-' :: rest => leadingHyphens flags (b.push ⟨.singleton '-', 0⟩) rest
  | c :: rest =>
    if flags.verbose && Unicode.isWhiteSpace c then leadingHyphens flags b rest
    else (b, c :: rest)
  | [] => (b, [])

/-- Reads the start of a bracket: its negation, and hyphens and a closing bracket that stand for
themselves there. -/
def bracketStart (flags : Flags) (text : List Char) : Bool × Bracket × List Char :=
  let text := skip flags text
  let (negated, text) := match text with
    | '^' :: rest => (true, skip flags rest)
    | _ => (false, text)
  match leadingHyphens flags {} text with
  | (b, ']' :: rest) =>
    if b.items.isEmpty then (negated, b.push ⟨.singleton ']', 0⟩, rest) else (negated, b, ']' :: rest)
  | (b, rest) => (negated, b, rest)

def asciiSets : List (String × List (Char × Char)) :=
  [("alnum", [('0', '9'), ('A', 'Z'), ('a', 'z')]), ("alpha", [('A', 'Z'), ('a', 'z')]),
   ("ascii", [('\x00', '\x7f')]), ("blank", [('\t', '\t'), (' ', ' ')]),
   ("cntrl", [('\x00', '\x1f'), ('\x7f', '\x7f')]), ("digit", [('0', '9')]),
   ("graph", [('!', '~')]), ("lower", [('a', 'z')]), ("print", [(' ', '~')]),
   ("punct", [('!', '/'), (':', '@'), ('[', '\x60'), ('\x7b', '~')]),
   ("space", [('\t', '\r'), (' ', ' ')]), ("upper", [('A', 'Z')]),
   ("word", [('0', '9'), ('A', 'Z'), ('_', '_'), ('a', 'z')]),
   ("xdigit", [('0', '9'), ('A', 'F'), ('a', 'f')])]

def asciiSet? (name : String) : Option CharSet :=
  (asciiSets.lookup name).map fun ranges =>
    ranges.foldr (fun r s => .union (.range r.1.toNat r.2.toNat) s) .empty

def setName? (flags : Flags) (negated : Bool) (text : List Char) : Option (CharSet × List Char) :=
  match text.dropWhile Char.isLower with
  | ':' :: ']' :: rest =>
    (asciiSet? (String.ofList (text.takeWhile Char.isLower))).map fun set =>
      (foldAndNegate flags negated set, rest)
  | _ => none

def namedSet? (flags : Flags) : List Char → Option (CharSet × List Char)
  | ':' :: '^' :: rest => setName? flags true rest
  | ':' :: rest => setName? flags false rest
  | _ => none

/-- Reads the rest of a bracket. A bracket in it may be a named set; one that is not is read as any
other bracket. -/
def bracketRest? (flags : Flags) : Nat → Bool → Bracket → List Char → Option (Nested × List Char)
  | 0, _, _, _ => none
  | fuel + 1, negated, b, text =>
    match skip flags text with
    | [] => none
    | '[' :: rest =>
      match namedSet? flags rest with
      | some (set, rest) => bracketRest? flags fuel negated (b.push ⟨set, 0⟩) rest
      | none => do
        let (inNegated, inside, rest) := bracketStart flags rest
        let (nested, rest) ← bracketRest? flags fuel inNegated inside rest
        bracketRest? flags fuel negated (b.push nested) rest
    | ']' :: rest =>
      let whole := b.close flags
      some (⟨foldAndNegate flags negated whole.set, 1 + whole.depth⟩, rest)
    | '&' :: '&' :: rest => bracketRest? flags fuel negated (b.operator flags .inter) rest
    | '-' :: '-' :: rest => bracketRest? flags fuel negated (b.operator flags .diff) rest
    | '~' :: '~' :: rest => bracketRest? flags fuel negated (b.operator flags .symmDiff) rest
    | text => do
      let (item, rest) ← bracketRange? flags text
      bracketRest? flags fuel negated (b.push item) rest

def bracket? (flags : Flags) (text : List Char) : Option (Nested × List Char) := do
  let (negated, inside, rest) := bracketStart flags text
  let (nested, rest) ← bracketRest? flags (text.length + 1) negated inside rest
  guard (flags.unicode || nested.set.avoidsHighBytes)
  pure (nested, rest)

/-! ## Flags and repetition -/

def setFlag? (flags : Flags) (value : Bool) : Char → Option Flags
  | 'i' => some { flags with caseInsensitive := value }
  | 'm' => some { flags with multiLine := value }
  | 's' => some { flags with dotAll := value }
  | 'R' => some { flags with crlf := value }
  | 'u' => some { flags with unicode := value }
  | 'x' => some { flags with verbose := value }
  | 'U' => some flags
  | _ => none

/-- Reads letters of flags up to a colon or a closing parenthesis, which is returned as well.
`seen` holds the letters before; no letter comes twice, and a hyphen, after which flags are
cleared, does not come last. -/
def flagLetters? (flags : Flags) (seen : List Char) :
    List Char → Option (Flags × List Char × Char × List Char)
  | [] => none
  | c :: rest =>
    if c == ':' || c == ')' then
      if seen.head? == some '-' then none else some (flags, seen, c, rest)
    else if seen.contains c then none
    else if c == '-' then flagLetters? flags ('-' :: seen) rest
    else do
      let flags ← setFlag? flags (!seen.contains '-') c
      flagLetters? flags (c :: seen) rest

def digits (flags : Flags) : List Char → List Char × List Char
  | [] => ([], [])
  | c :: rest =>
    if c.isDigit then
      let (ds, rest) := digits flags rest
      (c :: ds, rest)
    else if flags.verbose && Unicode.isWhiteSpace c then digits flags rest
    else ([], c :: rest)

def count? (flags : Flags) (text : List Char) : Option (Nat × List Char) := do
  let (ds, rest) := digits flags (text.dropWhile Unicode.isWhiteSpace)
  guard (!ds.isEmpty)
  let n := ds.foldl (fun n c => 10 * n + (c.toNat - '0'.toNat)) 0
  guard (n < Nat.pow 2 32)
  pure (n, rest.dropWhile Unicode.isWhiteSpace)

def bounds? (flags : Flags) (text : List Char) : Option (Nat × Option Nat × List Char) := do
  let (min, rest) ← count? flags (skip flags text)
  match rest with
  | '\x7d' :: rest => pure (min, some min, rest)
  | ',' :: rest =>
    match skip flags rest with
    | '\x7d' :: rest => pure (min, none, rest)
    | rest => do
      let (max, rest) ← count? flags rest
      guard (min ≤ max)
      match rest with
      | '\x7d' :: rest => pure (min, some max, rest)
      | _ => none
  | _ => none

/-- Drops the question mark that makes a repetition prefer few rounds: what matches stays. -/
def skipLazy : List Char → List Char
  | '?' :: rest => rest
  | text => text

/-! ## Groups and branches -/

structure Piece where
  expr : Expr
  depth : Nat
  /-- A change of flags is no expression that could be repeated. -/
  isFlags : Bool := false

structure State where
  text : List Char
  flags : Flags
  names : List (List Char) := []

def sequence (pieces : List Piece) : Piece :=
  match pieces with
  | [] => ⟨.empty, 0, false⟩
  | [piece] => { piece with isFlags := false }
  | pieces =>
    ⟨pieces.foldl (fun e piece => Expr.followedBy piece.expr e) .empty,
      1 + pieces.foldl (fun d piece => max d piece.depth) 0, false⟩

def alternation (last : Piece) (branches : List Piece) : Piece :=
  match branches with
  | [] => last
  | branches =>
    ⟨branches.foldl (fun e branch => .alt branch.expr e) last.expr,
      1 + branches.foldl (fun d branch => max d branch.depth) last.depth, false⟩

def literal (flags : Flags) (c : Char) : Expr := .chars (foldCase flags (.singleton c))

def dot? (flags : Flags) : Option Expr := do
  guard flags.unicode
  let lineEnds := if flags.crlf then CharSet.union (.singleton '\n') (.singleton '\r')
    else .singleton '\n'
  pure (.chars (.compl (if flags.dotAll then .empty else lineEnds)))

def primitive? (flags : Flags) : List Char → Option (Expr × List Char)
  | [] => none
  | '\\' :: rest =>
    (escape? flags rest).map fun
      | (.literal c, rest) => (literal flags c, rest)
      | (.property p negated, rest) => (.chars (foldAndNegate flags negated (.property p)), rest)
  | '.' :: rest => (dot? flags).map (·, rest)
  | '^' :: rest =>
    some (.anchor (if flags.multiLine then
      (if flags.crlf then .lineStartCrlf else .lineStart) else .textStart), rest)
  | '$' :: rest =>
    some (.anchor (if flags.multiLine then
      (if flags.crlf then .lineEndCrlf else .lineEnd) else .textEnd), rest)
  | c :: rest => some (literal flags c, rest)

def isNameChar (isFirst : Bool) (c : Char) : Bool :=
  let alphabetic := ((Unicode.Property.ofBinaryName? "alphabetic").map (·.holds c)).getD false
  c == '_' || alphabetic ||
    (!isFirst && (c == '.' || c == '[' || c == ']' ||
      (Unicode.Property.category [.nd, .nl, .no]).holds c))

def groupName? : List Char → Option (List Char × List Char)
  | [] => none
  | '>' :: rest => some ([], rest)
  | c :: rest => (groupName? rest).map fun (name, rest) => (c :: name, rest)

inductive Opening where
  | group (state : State)
  | flags (state : State)

def namedGroup? (state : State) (text : List Char) : Option Opening := do
  let (name, rest) ← groupName? text
  let c ← name.head?
  guard (isNameChar true c && name.tail.all (isNameChar false) && !state.names.contains name)
  pure (.group { state with text := rest, names := name :: state.names })

def opening? (state : State) (text : List Char) : Option Opening :=
  match skip state.flags text with
  | '?' :: '=' :: _ => none
  | '?' :: '!' :: _ => none
  | '?' :: '<' :: '=' :: _ => none
  | '?' :: '<' :: '!' :: _ => none
  | '?' :: 'P' :: '<' :: rest => namedGroup? state rest
  | '?' :: '<' :: rest => namedGroup? state rest
  | '?' :: rest =>
    match flagLetters? state.flags [] rest with
    | some (flags, _, ':', rest) => some (.group { state with text := rest, flags })
    | some (flags, _ :: _, ')', rest) => some (.flags { state with text := rest, flags })
    | _ => none
  | rest => some (.group { state with text := rest })

def repeatLast? (pieces : List Piece) (min : Nat) (max : Option Nat) : Option (List Piece) :=
  match pieces with
  | piece :: rest =>
    if piece.isFlags then none
    else some (⟨.repeated piece.expr min max, 1 + piece.depth, false⟩ :: rest)
  | [] => none

/-- Reads the branches of a group up to its end, a closing parenthesis or the end of the text.
`branches` and `pieces` hold what has been read of them, the last one first. -/
def branches? : Nat → State → List Piece → List Piece → Option (Piece × State)
  | 0, _, _, _ => none
  | fuel + 1, state, branches, pieces =>
    let finish text := some (alternation (sequence pieces) branches, { state with text })
    let go text pieces := branches? fuel { state with text } branches pieces
    match skip state.flags state.text with
    | [] => finish []
    | ')' :: rest => finish (')' :: rest)
    | '|' :: rest => branches? fuel { state with text := rest } (sequence pieces :: branches) []
    | '?' :: rest => do go (skipLazy rest) (← repeatLast? pieces 0 (some 1))
    | '*' :: rest => do go (skipLazy rest) (← repeatLast? pieces 0 none)
    | '+' :: rest => do go (skipLazy rest) (← repeatLast? pieces 1 none)
    | '\x7b' :: rest => do
      let (min, max, rest) ← bounds? state.flags rest
      go (skipLazy (skip state.flags rest)) (← repeatLast? pieces min max)
    | '[' :: rest => do
      let (nested, rest) ← bracket? state.flags rest
      go rest (⟨.chars nested.set, nested.depth, false⟩ :: pieces)
    | '(' :: rest => do
      match ← opening? state rest with
      | .flags inner => branches? fuel inner branches (⟨.empty, 0, true⟩ :: pieces)
      | .group inner => do
        let (piece, after) ← branches? fuel inner [] []
        match after.text with
        | ')' :: rest =>
          branches? fuel { text := rest, flags := state.flags, names := after.names } branches
            (⟨piece.expr, 1 + piece.depth, false⟩ :: pieces)
        | _ => none
    | text => do
      let (expr, rest) ← primitive? state.flags text
      go rest (⟨expr, 0, false⟩ :: pieces)

end Syntax

def parse? (text : List Char) : Option Expr := do
  let (piece, state) ← Syntax.branches? (text.length + 1) { text, flags := {} } [] []
  guard (state.text.isEmpty && piece.depth ≤ Syntax.nestingLimit)
  pure piece.expr

end XmlSchema.Regex
