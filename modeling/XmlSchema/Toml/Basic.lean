import XmlSchema.Text.Basic

namespace XmlSchema

inductive Toml.Origin where
  | header
  | nested
  | dotted
  | inline
  deriving DecidableEq, Repr

inductive Toml where
  | boolean (b : Bool)
  | integer (n : Int)
  | float (text : String)
  | moment (text : String)
  | string (s : String)
  | array (ofTables : Bool) (items : List Toml)
  | table (origin : Toml.Origin) (fields : List (String × Toml))

namespace Toml

abbrev Fields := List (String × Toml)

def setField (key : String) (value : Toml) : Fields → Fields
  | [] => [(key, value)]
  | (k, v) :: rest => if k == key then (key, value) :: rest else (k, v) :: setField key value rest

inductive Way where
  | header
  | dotted
  deriving DecidableEq, Repr

def Way.origin : Way → Origin
  | .header => .nested
  | .dotted => .dotted

/-- Whether a way may lead through a table. Keys with dots stay out of tables with a header of their
own, and nothing is added to a value in braces. -/
def Way.passes : Way → Origin → Bool
  | _, .inline => false
  | .header, _ => true
  | .dotted, origin => origin == .nested || origin == .dotted

/-- Changes the table at the end of some keys. Tables that are missing on the way are added, and in
an array of tables the way leads to the last one. -/
def within (way : Way) (change : Origin → Fields → Option Fields) :
    List String → Origin → Fields → Option Fields
  | [], origin, fields => change origin fields
  | key :: keys, _, fields => do
    let value ← match fields.lookup key with
      | none => (within way change keys way.origin []).map (Toml.table way.origin)
      | some (.table origin inner) =>
        if way.passes origin then (within way change keys origin inner).map (Toml.table origin)
        else none
      | some (.array true items) =>
        match items.getLast? with
        | some (.table origin inner) =>
          (within way change keys origin inner).map fun inner =>
            Toml.array true (items.dropLast ++ [Toml.table origin inner])
        | _ => none
      | some _ => none
    some (setField key value fields)

/-- Adds a field to a table. A table at the end of a key with dots must have come to be by such keys
alone. -/
def insert (keys : List String) (value : Toml) (fields : Fields) : Option Fields := do
  let key ← keys.getLast?
  let path := keys.dropLast
  within .dotted
    (fun origin fields =>
      if (!path.isEmpty && origin != .dotted) || fields.any (·.1 == key) then none
      else some (fields ++ [(key, value)]))
    path .header fields

def insertAll (entries : List (List String × Toml)) (fields : Fields) : Option Fields :=
  entries.foldlM (fun fields (keys, value) => insert keys value fields) fields

structure Section where
  keys : List String
  repeats : Bool
  entries : List (List String × Toml)

/-- Adds a section to a document. The header of a table may follow those of the tables inside of it,
but it stands only once. -/
def Section.addTo (s : Section) (fields : Fields) : Option Fields := do
  let key ← s.keys.getLast?
  within .header
    (fun _ fields =>
      if s.repeats then do
        let added ← insertAll s.entries []
        match fields.lookup key with
        | none => some (setField key (.array true [.table .header added]) fields)
        | some (.array true items) =>
          some (setField key (.array true (items ++ [.table .header added])) fields)
        | some _ => none
      else do
        let given ← match fields.lookup key with
          | none => some []
          | some (.table .nested given) => some given
          | some _ => none
        let all ← insertAll s.entries given
        some (setField key (.table .header all) fields))
    s.keys.dropLast .header fields

def document (entries : List (List String × Toml)) (sections : List Section) : Option Fields := do
  sections.foldlM (fun fields s => s.addTo fields) (← insertAll entries [])

end Toml

end XmlSchema

namespace XmlSchema.Toml

open Text (Scan)

def groupedDigits? (isDigit : Char → Bool) (word : List Char) : Option (List Char) :=
  let groups := Text.cutWhere (· == '_') word
  if groups.all (fun group => !group.isEmpty && group.all isDigit) then some groups.flatten else none

def numberOf (base : Nat) (digits : List Char) : Nat :=
  digits.foldl (fun n c => base * n + (Text.hexDigit? c).getD 0) 0

def splitSign : List Char → Bool × List Char
  | '-' :: rest => (true, rest)
  | '+' :: rest => (false, rest)
  | word => (false, word)

/-- The digits of a whole decimal number. It does not start with a zero unless it is zero. -/
def wholeDigits? (word : List Char) : Option (List Char) := do
  match ← groupedDigits? Char.isDigit word with
  | '0' :: _ :: _ => none
  | digits => some digits

def integer? (word : List Char) : Option Int :=
  match word with
  | '0' :: 'x' :: digits =>
    (groupedDigits? (fun c => (Text.hexDigit? c).isSome) digits).map (Int.ofNat ∘ numberOf 16)
  | '0' :: 'o' :: digits =>
    (groupedDigits? (fun c => '0' ≤ c && c ≤ '7') digits).map (Int.ofNat ∘ numberOf 8)
  | '0' :: 'b' :: digits =>
    (groupedDigits? (fun c => c == '0' || c == '1') digits).map (Int.ofNat ∘ numberOf 2)
  | word =>
    let (negative, digits) := splitSign word
    (wholeDigits? digits).map fun digits =>
      let n : Int := numberOf 10 digits
      if negative then -n else n

def isFractionOrExponent (word : List Char) : Bool :=
  let isMark (c : Char) := c == 'e' || c == 'E'
  let isGroup (digits : List Char) := (groupedDigits? Char.isDigit digits).isSome
  let fraction := word.takeWhile (!isMark ·)
  let exponent := word.drop fraction.length
  !word.isEmpty &&
    (match fraction with
      | [] => true
      | '.' :: digits => isGroup digits
      | _ => false) &&
    (match exponent with
      | [] => true
      | _ :: power => isGroup (splitSign power).2)

def isFloat (word : List Char) : Bool :=
  let unsigned := (splitSign word).2
  let whole := unsigned.takeWhile fun c => c != '.' && c != 'e' && c != 'E'
  unsigned == "inf".toList || unsigned == "nan".toList ||
    ((wholeDigits? whole).isSome && isFractionOrExponent (unsigned.drop whole.length))

def digitsOf (count : Nat) : Scan Nat := fun text =>
  let digits := text.take count
  if digits.length = count ∧ digits.all Char.isDigit then
    some (numberOf 10 digits, text.drop count)
  else none

def daysOf (year month : Nat) : Nat :=
  if month = 2 then
    if year % 4 = 0 ∧ (year % 100 ≠ 0 ∨ year % 400 = 0) then 29 else 28
  else if month = 4 ∨ month = 6 ∨ month = 9 ∨ month = 11 then 30
  else 31

def date : Scan Unit := fun text => do
  let (year, text) ← digitsOf 4 text
  let ((), text) ← Scan.literal "-" text
  let (month, text) ← digitsOf 2 text
  let ((), text) ← Scan.literal "-" text
  let (day, text) ← digitsOf 2 text
  if 1 ≤ month ∧ month ≤ 12 ∧ 1 ≤ day ∧ day ≤ daysOf year month then some ((), text) else none

def seconds : Scan Unit
  | ':' :: text => do
    let (second, text) ← digitsOf 2 text
    if 60 < second then none
    else match text with
      | '.' :: text =>
        let fraction := text.takeWhile Char.isDigit
        if fraction.isEmpty then none else some ((), text.drop fraction.length)
      | text => some ((), text)
  | text => some ((), text)

def time : Scan Unit := fun text => do
  let (hour, text) ← digitsOf 2 text
  let ((), text) ← Scan.literal ":" text
  let (minute, text) ← digitsOf 2 text
  if hour < 24 ∧ minute < 60 then seconds text else none

def isOffset : List Char → Bool
  | [] => true
  | [c] => c == 'Z' || c == 'z'
  | sign :: text =>
    (sign == '+' || sign == '-') &&
      ((do
        let (hour, text) ← digitsOf 2 text
        let ((), text) ← Scan.literal ":" text
        let (minute, text) ← digitsOf 2 text
        some (hour < 24 && minute < 60 && text.isEmpty)).getD false)

def isMoment (text : List Char) : Bool :=
  match date text with
  | some (_, []) => true
  | some (_, c :: rest) =>
    (c == 'T' || c == 't' || c == ' ') &&
      (match time rest with
        | some (_, rest) => isOffset rest
        | none => false)
  | none =>
    match time text with
    | some (_, rest) => rest.isEmpty
    | none => false

def isWordChar (c : Char) : Bool :=
  c.isAlphanum || c == '+' || c == '-' || c == '.' || c == ':' || c == '_'

def word : Scan (List Char) := fun text =>
  let first := text.takeWhile isWordChar
  match date first, text.drop first.length with
  | some (_, []), ' ' :: d :: rest =>
    if d.isDigit then
      let second := (d :: rest).takeWhile isWordChar
      some (first ++ ' ' :: second, (d :: rest).drop second.length)
    else some (first, ' ' :: d :: rest)
  | _, rest => some (first, rest)

def ofWord? (word : List Char) : Option Toml :=
  if word == "true".toList then some (.boolean true)
  else if word == "false".toList then some (.boolean false)
  else match integer? word with
    | some n => some (.integer n)
    | none =>
      if isFloat word then some (.float (String.ofList word))
      else if isMoment word then some (.moment (String.ofList word))
      else none

end XmlSchema.Toml
