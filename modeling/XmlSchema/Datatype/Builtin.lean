namespace XmlSchema.Datatype

def isBlank (c : Char) : Bool :=
  c == ' ' || c == '\t' || c == '\n' || c == '\x0c' || c == '\r'

def words : List Char → List (List Char)
  | [] => []
  | [c] => if isBlank c then [] else [[c]]
  | c :: d :: rest =>
    if isBlank c then words (d :: rest)
    else if isBlank d then [c] :: words (d :: rest)
    else match words (d :: rest) with
      | [] => [[c]]
      | word :: more => (c :: word) :: more

def tokens (value : String) : List String :=
  (words value.toList).map String.ofList

inductive WhiteSpace where
  | preserve
  | replace
  | collapse
  deriving DecidableEq, Repr

namespace WhiteSpace

def name : WhiteSpace → String
  | .preserve => "preserve"
  | .replace => "replace"
  | .collapse => "collapse"

def ofName? : String → Option WhiteSpace
  | "preserve" => some .preserve
  | "replace" => some .replace
  | "collapse" => some .collapse
  | _ => none

def apply (mode : WhiteSpace) (value : String) : String :=
  match mode with
  | .preserve => value
  | .replace =>
    String.ofList (value.toList.map fun c => if c == '\t' || c == '\n' || c == '\r' then ' ' else c)
  | .collapse => " ".intercalate (tokens value)

end WhiteSpace

inductive Builtin where
  | anySimpleType
  | string
  | normalizedString
  | token
  | language
  | name
  | ncName
  | nmToken
  | id
  | idRef
  | entity
  | qName
  | notationName
  | anyUri
  | boolean
  | decimal
  | integer
  | nonPositiveInteger
  | negativeInteger
  | long
  | int
  | short
  | byte
  | nonNegativeInteger
  | unsignedLong
  | unsignedInt
  | unsignedShort
  | unsignedByte
  | positiveInteger
  | float
  | double
  | duration
  | dateTime
  | date
  | time
  | gYear
  | gYearMonth
  | gMonth
  | gMonthDay
  | gDay
  | hexBinary
  | base64Binary
  deriving DecidableEq, Repr

namespace Builtin

def all : List Builtin :=
  [anySimpleType, string, normalizedString, token, language, name, ncName, nmToken, id, idRef,
   entity, qName, notationName, anyUri, boolean, decimal, integer, nonPositiveInteger,
   negativeInteger, long, int, short, byte, nonNegativeInteger, unsignedLong, unsignedInt,
   unsignedShort, unsignedByte, positiveInteger, float, double, duration, dateTime, date, time,
   gYear, gYearMonth, gMonth, gMonthDay, gDay, hexBinary, base64Binary]

def localName : Builtin → String
  | anySimpleType => "anySimpleType"
  | string => "string"
  | normalizedString => "normalizedString"
  | token => "token"
  | language => "language"
  | name => "Name"
  | ncName => "NCName"
  | nmToken => "NMTOKEN"
  | id => "ID"
  | idRef => "IDREF"
  | entity => "ENTITY"
  | qName => "QName"
  | notationName => "NOTATION"
  | anyUri => "anyURI"
  | boolean => "boolean"
  | decimal => "decimal"
  | integer => "integer"
  | nonPositiveInteger => "nonPositiveInteger"
  | negativeInteger => "negativeInteger"
  | long => "long"
  | int => "int"
  | short => "short"
  | byte => "byte"
  | nonNegativeInteger => "nonNegativeInteger"
  | unsignedLong => "unsignedLong"
  | unsignedInt => "unsignedInt"
  | unsignedShort => "unsignedShort"
  | unsignedByte => "unsignedByte"
  | positiveInteger => "positiveInteger"
  | float => "float"
  | double => "double"
  | duration => "duration"
  | dateTime => "dateTime"
  | date => "date"
  | time => "time"
  | gYear => "gYear"
  | gYearMonth => "gYearMonth"
  | gMonth => "gMonth"
  | gMonthDay => "gMonthDay"
  | gDay => "gDay"
  | hexBinary => "hexBinary"
  | base64Binary => "base64Binary"

def ofName? (text : String) : Option Builtin :=
  all.find? (·.localName == text)

def listItem? : String → Option Builtin
  | "NMTOKENS" => some nmToken
  | "IDREFS" => some idRef
  | "ENTITIES" => some entity
  | _ => none

def whiteSpace : Builtin → WhiteSpace
  | string | anySimpleType => .preserve
  | normalizedString => .replace
  | _ => .collapse

def isDecimal : Builtin → Bool
  | decimal | integer | nonPositiveInteger | negativeInteger | long | int | short | byte
  | nonNegativeInteger | unsignedLong | unsignedInt | unsignedShort | unsignedByte
  | positiveInteger => true
  | _ => false

def isFloat : Builtin → Bool
  | float | double => true
  | _ => false

/-- The types of dates, times and durations, whose values are compared as texts. -/
def isTemporal : Builtin → Bool
  | duration | dateTime | date | time | gYear | gYearMonth | gMonth | gMonthDay | gDay => true
  | _ => false

def bounds : Builtin → Option String × Option String
  | nonPositiveInteger => (none, some "0")
  | negativeInteger => (none, some "-1")
  | long => (some "-9223372036854775808", some "9223372036854775807")
  | int => (some "-2147483648", some "2147483647")
  | short => (some "-32768", some "32767")
  | byte => (some "-128", some "127")
  | nonNegativeInteger => (some "0", none)
  | unsignedLong => (some "0", some "18446744073709551615")
  | unsignedInt => (some "0", some "4294967295")
  | unsignedShort => (some "0", some "65535")
  | unsignedByte => (some "0", some "255")
  | positiveInteger => (some "1", none)
  | _ => (none, none)

end Builtin

end XmlSchema.Datatype
