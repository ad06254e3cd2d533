import XmlSchema.Text.Utf8
import XmlSchema.Xml.Name

namespace XmlSchema.Instance

inductive NumberFault where
  | sign
  | noDigits
  | invalidDigit
  | tooLarge
  | zero
  | notCharacter (number : Nat)
  deriving DecidableEq, Repr

def NumberFault.message : NumberFault → String
  | .sign => "unexpected number sign"
  | .noDigits => "cannot parse integer from empty string"
  | .invalidDigit => "invalid digit found in string"
  | .tooLarge => "number too large to fit in target type"
  | .zero => "0x0 character is not permitted in XML"
  | .notCharacter number => s!"`{number}` is not a valid codepoint"

inductive ReferenceFault where
  | unterminated (first last : Nat)
  | unknownEntity (first last : Nat) (name : String)
  | number (fault : NumberFault)
  deriving DecidableEq, Repr

def ReferenceFault.message : ReferenceFault → String
  | .unterminated first last =>
    s!"Error while escaping character at range {first}..{last}: Cannot find ';' after '&'"
  | .unknownEntity first last name => s!"at {first}..{last}: unrecognized entity `{name}`"
  | .number fault => "invalid character reference: " ++ fault.message

def digitValue? (base : Nat) (c : Char) : Option Nat :=
  let value? :=
    if c.isDigit then some (c.toNat - '0'.toNat)
    else if 'a' ≤ c && c ≤ 'f' then some (c.toNat - 'a'.toNat + 10)
    else if 'A' ≤ c && c ≤ 'F' then some (c.toNat - 'A'.toNat + 10)
    else none
  value?.filter (· < base)

def numberBound : Nat := Nat.pow 2 32

def digitsFrom (base : Nat) : Nat → List Char → Except NumberFault Nat
  | value, [] => .ok value
  | value, c :: rest =>
    match digitValue? base c with
    | none => .error .invalidDigit
    | some digit =>
      let value := value * base + digit
      if value < numberBound then digitsFrom base value rest else .error .tooLarge

def number (base : Nat) : List Char → Except NumberFault Nat
  | [] => .error .noDigits
  | c :: rest => if c == '+' || c == '-' then .error .sign else digitsFrom base 0 (c :: rest)

def numbered (text : List Char) : Except NumberFault Char := do
  let n ← match text with
    | 'x' :: digits => number 16 digits
    | digits => number 10 digits
  if n = 0 then throw .zero
  else if n.isValidChar then pure (Char.ofNat n)
  else throw (.notCharacter n)

def entity? (name : List Char) : Option Char :=
  match String.ofList name with
  | "lt" => some '<'
  | "gt" => some '>'
  | "amp" => some '&'
  | "apos" => some '\''
  | "quot" => some '"'
  | _ => none

def byteSize (text : List Char) : Nat := text.foldl (fun n c => n + c.utf8Size) 0

def referenced (first : Nat) (text : List Char) : Except ReferenceFault Char :=
  match text with
  | '#' :: digits => (numbered digits).mapError .number
  | name => match entity? name with
    | some c => .ok c
    | none => .error (.unknownEntity first (first + byteSize name) (String.ofList name))

structure OpenReference where
  position : Nat
  reversed : List Char

/-- Replaces the references in a text. The position is the number of bytes that have been read, and
the accumulator holds the characters that have been found, in reverse. -/
def replaceFrom (position : Nat) (opened : Option OpenReference) (acc : List Char) :
    List Char → Except ReferenceFault (List Char)
  | [] => match opened with
    | none => .ok acc.reverse
    | some r => .error (.unterminated r.position position)
  | c :: rest =>
    let after := position + c.utf8Size
    match opened with
    | none =>
      if c == '&' then replaceFrom after (some ⟨position, []⟩) acc rest
      else replaceFrom after none (c :: acc) rest
    | some r =>
      if c == '&' then .error (.unterminated r.position (position + byteSize (c :: rest)))
      else if c == ';' then
        match referenced (r.position + 1) r.reversed.reverse with
        | .ok d => replaceFrom after none (d :: acc) rest
        | .error fault => .error fault
      else replaceFrom after (some ⟨r.position, c :: r.reversed⟩) acc rest

def replaceReferences (text : String) : Except ReferenceFault String :=
  (replaceFrom 0 none [] text.toList).map String.ofList

end XmlSchema.Instance
