import XmlSchema.Unicode.Property

namespace XmlSchema.Text

def trimChars (text : List Char) : List Char :=
  ((text.dropWhile Unicode.isWhiteSpace).reverse.dropWhile Unicode.isWhiteSpace).reverse

def trim (text : String) : String := String.ofList (trimChars text.toList)

def cutWhere (p : Char → Bool) : List Char → List (List Char)
  | [] => [[]]
  | c :: rest =>
    match cutWhere p rest with
    | [] => [[c]]
    | part :: parts => if p c then [] :: part :: parts else (c :: part) :: parts

def cutAt (separator : Char) (text : String) : List String :=
  (cutWhere (· == separator) text.toList).map String.ofList

def words (text : String) : List String :=
  ((cutWhere Unicode.isWhiteSpace text.toList).filter (!·.isEmpty)).map String.ofList

def occursIn (part : List Char) : List Char → Bool
  | [] => part.isEmpty
  | c :: rest => part.isPrefixOf (c :: rest) || occursIn part rest

def naturalBelow? (bound : Nat) (text : String) : Option Nat :=
  let digits := match text.toList with
    | '+' :: rest => rest
    | cs => cs
  if digits.isEmpty || !digits.all Char.isDigit then none
  else
    let n := digits.foldl (fun n c => 10 * n + (c.toNat - '0'.toNat)) 0
    if n < bound then some n else none

abbrev Scan (α : Type) := List Char → Option (α × List Char)

namespace Scan

def literal (expected : String) : Scan Unit := fun text =>
  let expected := expected.toList
  if expected.isPrefixOf text then some ((), text.drop expected.length) else none

/-- Reads some items with commas between them, up to a character that closes the list. What `skip`
takes away may stand around the items. The list may end here if `mayClose` is set, and after a comma
if `trailing` is. -/
def items {α : Type} (skip : List Char → List Char) (item : Scan α) (close : Char)
    (trailing : Bool) : Nat → Bool → Scan (List α)
  | 0, _, _ => none
  | fuel + 1, mayClose, text =>
    let text := skip text
    if mayClose && text.head? == some close then some ([], text.tail)
    else do
      let (first, rest) ← item text
      match skip rest with
      | [] => none
      | c :: rest =>
        if c == close then some ([first], rest)
        else if c == ',' then do
          let (more, rest) ← items skip item close trailing fuel trailing rest
          some (first :: more, rest)
        else none

def list {α : Type} (skip : List Char → List Char) (item : Scan α) (close : Char)
    (trailing : Bool) : Scan (List α) := fun text =>
  items skip item close trailing (text.length + 1) true text

end Scan

def hexDigit? (c : Char) : Option Nat :=
  if c.isDigit then some (c.toNat - '0'.toNat)
  else if 'a' ≤ c ∧ c ≤ 'f' then some (c.toNat - 'a'.toNat + 10)
  else if 'A' ≤ c ∧ c ≤ 'F' then some (c.toNat - 'A'.toNat + 10)
  else none

def hexNumber? (digits : List Char) : Option Nat :=
  digits.foldlM (fun n c => (hexDigit? c).map (16 * n + ·)) 0

def charOfNumber? (n : Nat) : Option Char :=
  if n.isValidChar then some (Char.ofNat n) else none

end XmlSchema.Text
