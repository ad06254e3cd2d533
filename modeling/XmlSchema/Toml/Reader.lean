import XmlSchema.Toml.Basic

namespace XmlSchema.Toml

open Text (Scan)

def isLineChar (c : Char) : Bool :=
  c == '\t' || (0x20 ≤ c.toNat && c.toNat != 0x7F)

def isBlank (c : Char) : Bool := c == ' ' || c == '\t'

def shortEscape? : Char → Option Char
  | 'b' => some '\x08'
  | 't' => some '\t'
  | 'n' => some '\n'
  | 'f' => some '\x0c'
  | 'r' => some '\r'
  | 'e' => some '\x1b'
  | '"' => some '"'
  | '\\' => some '\\'
  | _ => none

def named? (digits : List Char) : Option Char := do Text.charOfNumber? (← Text.hexNumber? digits)

def before (c : Char) (read : Option (List Char × List Char)) : Option (List Char × List Char) :=
  read.map fun (cs, rest) => (c :: cs, rest)

def basicRest : Scan (List Char)
  | '"' :: rest => some ([], rest)
  | '\\' :: 'x' :: a :: b :: rest => do before (← named? [a, b]) (basicRest rest)
  | '\\' :: 'u' :: a :: b :: c :: d :: rest => do before (← named? [a, b, c, d]) (basicRest rest)
  | '\\' :: 'U' :: a :: b :: c :: d :: e :: f :: g :: h :: rest => do
    before (← named? [a, b, c, d, e, f, g, h]) (basicRest rest)
  | '\\' :: c :: rest => do before (← shortEscape? c) (basicRest rest)
  | c :: rest => if isLineChar c && c != '\\' then before c (basicRest rest) else none
  | [] => none

def literalRest : Scan (List Char)
  | '\'' :: rest => some ([], rest)
  | c :: rest => if isLineChar c then before c (literalRest rest) else none
  | [] => none

def startsLine (text : List Char) : Bool :=
  match text.dropWhile isBlank with
  | '\n' :: _ => true
  | '\r' :: '\n' :: _ => true
  | _ => false

/-- The rest of a text in threefold double quotes. Up to two quotes may stand before the three that
close it. `joining` is set after a backslash at the end of a line, which takes away all white space
that follows. -/
def longBasicRest : Bool → Scan (List Char)
  | _, '"' :: '"' :: '"' :: '"' :: '"' :: rest => some (['"', '"'], rest)
  | _, '"' :: '"' :: '"' :: '"' :: rest => some (['"'], rest)
  | _, '"' :: '"' :: '"' :: rest => some ([], rest)
  | _, '\\' :: 'x' :: a :: b :: rest => do before (← named? [a, b]) (longBasicRest false rest)
  | _, '\\' :: 'u' :: a :: b :: c :: d :: rest => do
    before (← named? [a, b, c, d]) (longBasicRest false rest)
  | _, '\\' :: 'U' :: a :: b :: c :: d :: e :: f :: g :: h :: rest => do
    before (← named? [a, b, c, d, e, f, g, h]) (longBasicRest false rest)
  | _, '\\' :: c :: rest =>
    match shortEscape? c with
    | some char => before char (longBasicRest false rest)
    | none => if startsLine (c :: rest) then longBasicRest true (c :: rest) else none
  | joining, '\r' :: '\n' :: rest =>
    if joining then longBasicRest true rest
    else before '\r' (before '\n' (longBasicRest false rest))
  | joining, c :: rest =>
    if joining && (isBlank c || c == '\n') then longBasicRest true rest
    else if (isLineChar c && c != '\\') || c == '\n' then before c (longBasicRest false rest)
    else none
  | _, [] => none

def longLiteralRest : Scan (List Char)
  | '\'' :: '\'' :: '\'' :: '\'' :: '\'' :: rest => some (['\'', '\''], rest)
  | '\'' :: '\'' :: '\'' :: '\'' :: rest => some (['\''], rest)
  | '\'' :: '\'' :: '\'' :: rest => some ([], rest)
  | '\r' :: '\n' :: rest => before '\r' (before '\n' (longLiteralRest rest))
  | c :: rest => if isLineChar c || c == '\n' then before c (longLiteralRest rest) else none
  | [] => none

def skipLineEnd : List Char → List Char
  | '\n' :: rest => rest
  | '\r' :: '\n' :: rest => rest
  | text => text

def shortQuotation : Scan String := fun text =>
  (match text with
    | '"' :: rest => basicRest rest
    | '\'' :: rest => literalRest rest
    | _ => none).map fun (cs, rest) => (String.ofList cs, rest)

def quotation : Scan String := fun text =>
  match text with
  | '"' :: '"' :: '"' :: rest =>
    (longBasicRest false (skipLineEnd rest)).map fun (cs, rest) => (String.ofList cs, rest)
  | '\'' :: '\'' :: '\'' :: rest =>
    (longLiteralRest (skipLineEnd rest)).map fun (cs, rest) => (String.ofList cs, rest)
  | text => shortQuotation text

def skipBlanks (text : List Char) : List Char := text.dropWhile isBlank

def skipComment : List Char → List Char
  | '#' :: rest => rest.dropWhile isLineChar
  | text => text

def skipLines : Nat → List Char → List Char
  | 0, text => text
  | fuel + 1, text =>
    match skipComment (skipBlanks text) with
    | '\n' :: rest => skipLines fuel rest
    | '\r' :: '\n' :: rest => skipLines fuel rest
    | text => text

def skipAll (text : List Char) : List Char := skipLines text.length text

def isKeyChar (c : Char) : Bool := c.isAlphanum || c == '_' || c == '-'

def simpleKey : Scan String := fun text =>
  let name := text.takeWhile isKeyChar
  if name.isEmpty then shortQuotation text
  else some (String.ofList name, text.drop name.length)

def keys : Nat → Scan (List String)
  | 0, _ => none
  | fuel + 1, text => do
    let (key, rest) ← simpleKey (skipBlanks text)
    match skipBlanks rest with
    | '.' :: rest => (keys fuel rest).map fun (more, rest) => (key :: more, rest)
    | rest => some ([key], rest)

def dottedKey : Scan (List String) := fun text => keys text.length text

def entry (value : Scan Toml) : Scan (List String × Toml) := fun text => do
  let (path, rest) ← dottedKey text
  let ((), rest) ← Scan.literal "=" rest
  let (v, rest) ← value (skipBlanks rest)
  some ((path, v), rest)

def value : Nat → Scan Toml
  | 0, _ => none
  | depth + 1, text =>
    match text with
    | '"' :: _ => (quotation text).map fun (s, rest) => (.string s, rest)
    | '\'' :: _ => (quotation text).map fun (s, rest) => (.string s, rest)
    | '[' :: rest =>
      (Scan.list skipAll (value depth) ']' true rest).map fun (vs, rest) => (.array false vs, rest)
    | '\x7b' :: rest => do
      let (entries, rest) ← Scan.list skipAll (entry (value depth)) '\x7d' true rest
      some (.table .inline (← insertAll entries []), rest)
    | _ => do
      let (w, rest) ← word text
      some (← ofWord? w, rest)

def maxDepth : Nat := 80

def header : Scan Section := fun text =>
  match text with
  | '[' :: '[' :: rest => do
    let (path, rest) ← dottedKey rest
    let ((), rest) ← Scan.literal "]]" rest
    some ({ keys := path, repeats := true, entries := [] }, rest)
  | '[' :: rest => do
    let (path, rest) ← dottedKey rest
    let ((), rest) ← Scan.literal "]" rest
    some ({ keys := path, repeats := false, entries := [] }, rest)
  | _ => none

def lineEnd : Scan Unit := fun text =>
  match skipComment (skipBlanks text) with
  | [] => some ((), [])
  | '\n' :: rest => some ((), rest)
  | '\r' :: '\n' :: rest => some ((), rest)
  | _ => none

def entries : Nat → Scan (List (List String × Toml))
  | 0, _ => none
  | fuel + 1, text =>
    match skipAll text with
    | [] => some ([], [])
    | '[' :: rest => some ([], '[' :: rest)
    | text => do
      let (first, rest) ← entry (value (maxDepth + 1)) text
      let ((), rest) ← lineEnd rest
      (entries fuel rest).map fun (more, rest) => (first :: more, rest)

def sections : Nat → List Char → Option (List Section)
  | 0, _ => none
  | fuel + 1, text =>
    if text.isEmpty then some []
    else do
      let (s, rest) ← header text
      let ((), rest) ← lineEnd rest
      let (found, rest) ← entries (rest.length + 1) rest
      (sections fuel rest).map ({ s with entries := found } :: ·)

def parse? (text : String) : Option Toml := do
  let text := match text.toList with
    | '\uFEFF' :: rest => rest
    | text => text
  let (first, rest) ← entries (text.length + 1) text
  (document first (← sections (rest.length + 1) rest)).map (Toml.table .header)

end XmlSchema.Toml
