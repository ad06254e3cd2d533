import XmlSchema.Text.Basic
import XmlSchema.Text.Json

namespace XmlSchema.Json

open Text (Scan)

def isBlank (c : Char) : Bool := c == ' ' || c == '\t' || c == '\n' || c == '\r'

def skipBlanks (text : List Char) : List Char := text.dropWhile isBlank

def shortEscape? : Char → Option Char
  | '"' => some '"'
  | '\\' => some '\\'
  | '/' => some '/'
  | 'b' => some '\x08'
  | 'f' => some '\x0c'
  | 'n' => some '\n'
  | 'r' => some '\r'
  | 't' => some '\t'
  | _ => none

def ofSurrogates? (high low : Nat) : Option Char :=
  if 0xD800 ≤ high ∧ high < 0xDC00 ∧ 0xDC00 ≤ low ∧ low < 0xE000 then
    Text.charOfNumber? (0x10000 + (high - 0xD800) * 0x400 + (low - 0xDC00))
  else none

/-- The rest of a string after its opening quote. Characters beyond the first plane are escaped as
surrogate pairs, and no half of a pair stands alone. -/
def stringRest : Scan (List Char)
  | '"' :: rest => some ([], rest)
  | '\\' :: 'u' :: a :: b :: c :: d :: rest => do
    let n ← Text.hexNumber? [a, b, c, d]
    match Text.charOfNumber? n, rest with
    | some char, rest => (stringRest rest).map fun (cs, rest) => (char :: cs, rest)
    | none, '\\' :: 'u' :: e :: f :: g :: h :: rest => do
      let char ← ofSurrogates? n (← Text.hexNumber? [e, f, g, h])
      (stringRest rest).map fun (cs, rest) => (char :: cs, rest)
    | none, _ => none
  | '\\' :: c :: rest => do
    let char ← shortEscape? c
    (stringRest rest).map fun (cs, rest) => (char :: cs, rest)
  | c :: rest =>
    if c.toNat < 0x20 || c == '\\' then none
    else (stringRest rest).map fun (cs, rest) => (c :: cs, rest)
  | [] => none

def quotedText : Scan String
  | '"' :: rest => (stringRest rest).map fun (cs, rest) => (String.ofList cs, rest)
  | _ => none

def digits : Scan (List Char) := fun text =>
  let found := text.takeWhile Char.isDigit
  if found.isEmpty then none else some (found, text.drop found.length)

def wholePart : Scan (List Char)
  | '0' :: rest => some (['0'], rest)
  | text => digits text

def fractionPart : Scan (List Char)
  | '.' :: rest => (digits rest).map fun (ds, rest) => ('.' :: ds, rest)
  | text => some ([], text)

def exponentPart : Scan (List Char)
  | [] => some ([], [])
  | c :: rest =>
    if c == 'e' || c == 'E' then
      let (sign, rest) := match rest with
        | '+' :: rest => (['+'], rest)
        | '-' :: rest => (['-'], rest)
        | rest => ([], rest)
      (digits rest).map fun (ds, rest) => (c :: sign ++ ds, rest)
    else some ([], c :: rest)

def numberText : Scan String := fun text => do
  let (sign, rest) := match text with
    | '-' :: rest => (['-'], rest)
    | rest => ([], rest)
  let (whole, rest) ← wholePart rest
  let (fraction, rest) ← fractionPart rest
  let (exponent, rest) ← exponentPart rest
  some (String.ofList (sign ++ whole ++ fraction ++ exponent), rest)

def member (value : Scan Json) : Scan (String × Json) := fun text => do
  let (name, rest) ← quotedText text
  let ((), rest) ← Scan.literal ":" (skipBlanks rest)
  let (v, rest) ← value (skipBlanks rest)
  some ((name, v), rest)

def value : Nat → Scan Json
  | 0, _ => none
  | fuel + 1, text =>
    match text with
    | [] => none
    | '"' :: _ => (quotedText text).map fun (s, rest) => (.string s, rest)
    | '[' :: rest =>
      (Scan.list skipBlanks (value fuel) ']' false rest).map fun (vs, rest) => (.array vs, rest)
    | '\x7b' :: rest =>
      (Scan.list skipBlanks (member (value fuel)) '\x7d' false rest).map fun (ms, rest) =>
        (.object ms, rest)
    | 'n' :: _ => (Scan.literal "null" text).map fun ((), rest) => (.null, rest)
    | 't' :: _ => (Scan.literal "true" text).map fun ((), rest) => (.bool true, rest)
    | 'f' :: _ => (Scan.literal "false" text).map fun ((), rest) => (.bool false, rest)
    | _ => (numberText text).map fun (n, rest) => (.number n, rest)

def parse? (text : String) : Option Json := do
  let text := text.toList
  let (v, rest) ← value (text.length + 1) (skipBlanks text)
  if (skipBlanks rest).isEmpty then some v else none

end XmlSchema.Json
