import XmlSchema.Datatype.Builtin
import XmlSchema.Regex.Basic
import XmlSchema.Xml.Name

namespace XmlSchema.Datatype

/-- A decimal literal without the zeros that do not count. -/
structure Decimal where
  negative : Bool
  whole : List Char
  fraction : List Char
  deriving DecidableEq, Repr

namespace Decimal

def dropTrailingZeros (digits : List Char) : List Char :=
  (digits.reverse.dropWhile (· == '0')).reverse

def ofUnsigned? (negative : Bool) (text : List Char) : Option Decimal :=
  let (whole, fraction) := (Xml.splitAtChar '.' text).getD (text, [])
  if whole.all Char.isDigit && fraction.all Char.isDigit then
    let whole := whole.dropWhile (· == '0')
    let fraction := dropTrailingZeros fraction
    some ⟨negative && !(whole.isEmpty && fraction.isEmpty), whole, fraction⟩
  else none

/-- Reads a literal: a sign, digits, a point and digits, any of which may be missing, but not all
of them. -/
def ofText? : List Char → Option Decimal
  | [] => none
  | '-' :: rest => ofUnsigned? true rest
  | '+' :: rest => ofUnsigned? false rest
  | text => ofUnsigned? false text

def compareDigits : List Char → List Char → Ordering
  | [], [] => .eq
  | [], _ :: _ => .lt
  | _ :: _, [] => .gt
  | a :: as, b :: bs => (compare a.toNat b.toNat).then (compareDigits as bs)

def compareMagnitude (a b : Decimal) : Ordering :=
  ((compare a.whole.length b.whole.length).then (compareDigits a.whole b.whole)).then
    (compareDigits a.fraction b.fraction)

def order (a b : Decimal) : Ordering :=
  match a.negative, b.negative with
  | false, true => .gt
  | true, false => .lt
  | false, false => compareMagnitude a b
  | true, true => (compareMagnitude a b).swap

end Decimal

def compareDecimal? (a b : String) : Option Ordering := do
  let a ← Decimal.ofText? a.toList
  let b ← Decimal.ofText? b.toList
  pure (a.order b)

/-- The digits that a decimal literal has before and after the point, a single zero before the
point included. -/
def decimalDigits (value : String) : Nat × Nat :=
  match Decimal.ofText? value.toList with
  | some d => (max d.whole.length 1, d.fraction.length)
  | none => (0, 0)

open Regex (Expr CharSet)

namespace Lexical

def digit : Expr := .chars (.property (.category [.nd]))

def rangesSet (ranges : List Xml.CodeRange) : CharSet :=
  ranges.foldl (fun s r => .union s (.range r.first r.last)) .empty

def ncNameStart : CharSet := rangesSet Xml.nameStartRanges

def ncNameChar : CharSet := .union ncNameStart (rangesSet Xml.nameExtraRanges)

def ncName : Expr := .seq (.chars ncNameStart) (Expr.star (.chars ncNameChar))

def nameChar : CharSet := .union (.singleton ':') ncNameChar

def name : Expr :=
  .seq (.chars (.union (.singleton ':') ncNameStart)) (Expr.star (.chars nameChar))

def qName : Expr := .seq (Expr.optional (.seq ncName (Expr.literal ":"))) ncName

def language : Expr :=
  let letter := CharSet.union (.range 'a'.toNat 'z'.toNat) (.range 'A'.toNat 'Z'.toNat)
  .seq (.repeated (.chars letter) 1 (some 8))
    (Expr.star (.seq (Expr.literal "-")
      (.repeated (.chars (.union letter (.range '0'.toNat '9'.toNat))) 1 (some 8))))

def boolean : Expr :=
  Expr.oneOf (Expr.literal "true") [Expr.literal "false", Expr.literal "1", Expr.literal "0"]

def sign : Expr := Expr.optional (Expr.anyOf "+-")

def unsignedDecimal : Expr :=
  .alt (.seq (Expr.plus digit) (Expr.optional (.seq (Expr.literal ".") (Expr.star digit))))
    (.seq (Expr.literal ".") (Expr.plus digit))

def decimal : Expr := .seq sign unsignedDecimal

def integer : Expr := .seq sign (Expr.plus digit)

def float : Expr :=
  Expr.oneOf
    (Expr.sequence [sign, unsignedDecimal,
      Expr.optional (Expr.sequence [Expr.anyOf "eE", sign, Expr.plus digit])])
    [.seq sign (Expr.literal "INF"), Expr.literal "NaN"]

def units (letter : String) : Expr :=
  Expr.optional (.seq (Expr.plus digit) (Expr.literal letter))

def fraction (digit : Expr) : Expr :=
  Expr.optional (.seq (Expr.literal ".") (Expr.plus digit))

def duration : Expr :=
  Expr.sequence [Expr.optional (Expr.literal "-"), Expr.literal "P", units "Y", units "M", units "D",
    Expr.optional (Expr.sequence [Expr.literal "T", units "H", units "M",
      Expr.optional (Expr.sequence [Expr.plus digit, fraction digit, Expr.literal "S"])])]

/-- A year of at least four digits, and no zero in front of more. -/
def year : Expr :=
  .seq (Expr.optional (Expr.literal "-"))
    (.alt (.seq (Expr.between '1' '9') (.repeated digit 4 none)) (Expr.times digit 4))

def month : Expr :=
  .alt (.seq (Expr.literal "0") (Expr.between '1' '9'))
    (.seq (Expr.literal "1") (Expr.between '0' '2'))

def day : Expr :=
  Expr.oneOf (.seq (Expr.literal "0") (Expr.between '1' '9'))
    [.seq (Expr.anyOf "12") digit, .seq (Expr.literal "3") (Expr.anyOf "01")]

def sixtieth : Expr := .seq (Expr.between '0' '5') digit

def time : Expr :=
  .alt
    (Expr.sequence [.alt (.seq (Expr.anyOf "01") digit) (.seq (Expr.literal "2") (Expr.between '0' '3')),
      Expr.literal ":", sixtieth, Expr.literal ":", sixtieth, fraction digit])
    (.seq (Expr.literal "24:00:00") (fraction (Expr.literal "0")))

def timeZone : Expr :=
  Expr.optional (.alt (Expr.literal "Z")
    (Expr.sequence [Expr.anyOf "+-",
      .alt (.seq (Expr.literal "0") digit) (.seq (Expr.literal "1") (Expr.between '0' '4')),
      Expr.literal ":", sixtieth]))

def yearMonthDay : Expr :=
  Expr.sequence [year, Expr.literal "-", month, Expr.literal "-", day]

def hexBinary : Expr :=
  let hexDigit := Expr.chars (.union (.union (.range '0'.toNat '9'.toNat)
    (.range 'a'.toNat 'f'.toNat)) (.range 'A'.toNat 'F'.toNat))
  Expr.star (Expr.times hexDigit 2)

def base64Binary : Expr :=
  let symbol := Expr.chars (.union (.union (.union (.union (.range 'A'.toNat 'Z'.toNat)
    (.range 'a'.toNat 'z'.toNat)) (.range '0'.toNat '9'.toNat)) (.singleton '+')) (.singleton '/'))
  .seq (Expr.star (Expr.times symbol 4))
    (Expr.optional (.alt (.seq (Expr.times symbol 2) (Expr.literal "=="))
      (.seq (Expr.times symbol 3) (Expr.literal "="))))

def form? : Builtin → Option Expr
  | .anySimpleType | .string | .normalizedString | .token | .anyUri => none
  | .language => some language
  | .name => some name
  | .ncName | .id | .idRef | .entity => some ncName
  | .nmToken => some (Expr.plus (.chars nameChar))
  | .qName | .notationName => some qName
  | .boolean => some boolean
  | .decimal => some decimal
  | .integer | .nonPositiveInteger | .negativeInteger | .long | .int | .short | .byte
  | .nonNegativeInteger | .unsignedLong | .unsignedInt | .unsignedShort | .unsignedByte
  | .positiveInteger => some integer
  | .float | .double => some float
  | .duration => some duration
  | .dateTime => some (Expr.sequence [yearMonthDay, Expr.literal "T", time, timeZone])
  | .date => some (.seq yearMonthDay timeZone)
  | .time => some (.seq time timeZone)
  | .gYear => some (.seq year timeZone)
  | .gYearMonth => some (Expr.sequence [year, Expr.literal "-", month, timeZone])
  | .gMonth => some (Expr.sequence [Expr.literal "--", month, timeZone])
  | .gMonthDay => some (Expr.sequence [Expr.literal "--", month, Expr.literal "-", day, timeZone])
  | .gDay => some (Expr.sequence [Expr.literal "---", day, timeZone])
  | .hexBinary => some hexBinary
  | .base64Binary => some base64Binary

def number? (digits : List Char) : Option Nat :=
  if digits.isEmpty || !digits.all Char.isDigit then none
  else some (digits.foldl (fun n c => 10 * n + (c.toNat - '0'.toNat)) 0)

def daysIn (year month : Nat) : Nat :=
  if month = 2 then
    if (year % 4 = 0 ∧ year % 100 ≠ 0) ∨ year % 400 = 0 then 29 else 28
  else if month = 4 ∨ month = 6 ∨ month = 9 ∨ month = 11 then 30
  else 31

def maxYear : Nat := Nat.pow 2 63 - 1

/-- Whether the day at the start of a date exists. The leap rule looks at the year without its
sign. -/
def dayExists (date : List Char) : Bool :=
  match Xml.splitAtChar '-' (date.dropWhile (· == '-')) with
  | none => false
  | some (year, rest) =>
    match Xml.splitAtChar '-' rest with
    | none => false
    | some (month, rest) =>
      match number? year, number? month, number? (rest.take 2) with
      | some year, some month, some day => year ≤ maxYear && day ≤ daysIn year month
      | _, _, _ => false

def withinBounds (type : Builtin) (value : String) : Bool :=
  let (least, greatest) := type.bounds
  (least.all fun bound => (compareDecimal? value bound).any (· != .lt)) &&
    greatest.all fun bound => (compareDecimal? value bound).any (· != .gt)

def endsIn (value : List Char) (c : Char) : Bool :=
  value.getLast? == some c

end Lexical

def Builtin.isLiteral (type : Builtin) (value : String) : Bool :=
  let text := value.toList
  let wellFormed (text : List Char) := (Lexical.form? type).all fun e => e.matchesWhole text
  match type with
  | .base64Binary => wellFormed (text.filter fun c => !Unicode.isWhiteSpace c)
  | .duration => wellFormed text && !Lexical.endsIn text 'P' && !Lexical.endsIn text 'T'
  | .date | .dateTime => wellFormed text && Lexical.dayExists text
  | type => wellFormed text && Lexical.withinBounds type value

end XmlSchema.Datatype
