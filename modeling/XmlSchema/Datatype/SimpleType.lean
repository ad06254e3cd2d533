import XmlSchema.Datatype.Lexical
import XmlSchema.Number.Binary64
import XmlSchema.Pattern.Facet

/-!
# Simple types

A simple type is a built-in datatype, a list or a union of simple types, with the facets of all
steps of its derivation. `SimpleType.validate` checks a value in three steps: its white space is
treated, then it must be a literal of the datatype (or its words must be valid items, or some
member must admit it), and then it must pass every facet.
-/

namespace XmlSchema.Datatype

inductive Facet where
  | length (n : Nat)
  | minLength (n : Nat)
  | maxLength (n : Nat)
  | pattern (p : Pattern.Facet)
  | enumeration (values : List String)
  | minInclusive (bound : String)
  | maxInclusive (bound : String)
  | minExclusive (bound : String)
  | maxExclusive (bound : String)
  | totalDigits (n : Nat)
  | fractionDigits (n : Nat)

inductive Variety (τ : Type) where
  | atomic (type : Builtin)
  | list (item : τ)
  | union (members : List τ)

/-- A simple type, with the facets of every step of its derivation. -/
structure SimpleType where
  name : Option String
  variety : Variety SimpleType
  whiteSpace : WhiteSpace
  facets : List Facet

inductive ValueFault where
  | notLiteral (value : String) (type : Builtin)
  | notInUnion (value typeName : String)
  | facet (facet : Facet) (value typeName : String) (size : Nat)

def anonymousName : String := "#AnonType"

def ValueFault.message : ValueFault → String
  | .notLiteral value type =>
    s!"cvc-datatype-valid.1.2.1: '{value}' is not a valid value for '{type.localName}'."
  | .notInUnion value typeName =>
    s!"cvc-datatype-valid.1.2.3: '{value}' is not a valid value of union type '{typeName}'."
  | .facet (.length n) value typeName size =>
    s!"cvc-length-valid: Value '{value}' with length = '{size}' is not facet-valid with respect to length '{n}' for type '{typeName}'."
  | .facet (.minLength n) value typeName size =>
    s!"cvc-minLength-valid: Value '{value}' with length = '{size}' is not facet-valid with respect to minLength '{n}' for type '{typeName}'."
  | .facet (.maxLength n) value typeName size =>
    s!"cvc-maxLength-valid: Value '{value}' with length = '{size}' is not facet-valid with respect to maxLength '{n}' for type '{typeName}'."
  | .facet (.pattern p) value typeName _ =>
    let sources := "|".intercalate p.sources
    s!"cvc-pattern-valid: Value '{value}' is not facet-valid with respect to pattern '{sources}' for type '{typeName}'."
  | .facet (.enumeration values) value _ _ =>
    let listed := ", ".intercalate values
    s!"cvc-enumeration-valid: Value '{value}' is not facet-valid with respect to enumeration '[{listed}]'. It must be a value from the enumeration."
  | .facet (.minInclusive bound) value typeName _ =>
    s!"cvc-minInclusive-valid: Value '{value}' is not facet-valid with respect to minInclusive '{bound}' for type '{typeName}'."
  | .facet (.maxInclusive bound) value typeName _ =>
    s!"cvc-maxInclusive-valid: Value '{value}' is not facet-valid with respect to maxInclusive '{bound}' for type '{typeName}'."
  | .facet (.minExclusive bound) value typeName _ =>
    s!"cvc-minExclusive-valid: Value '{value}' is not facet-valid with respect to minExclusive '{bound}' for type '{typeName}'."
  | .facet (.maxExclusive bound) value typeName _ =>
    s!"cvc-maxExclusive-valid: Value '{value}' is not facet-valid with respect to maxExclusive '{bound}' for type '{typeName}'."
  | .facet (.totalDigits n) value _ size =>
    s!"cvc-totalDigits-valid: Value '{value}' has {size} total digits, but the number of total digits has been limited to {n}."
  | .facet (.fractionDigits n) value _ size =>
    s!"cvc-fractionDigits-valid: Value '{value}' has {size} fraction digits, but the number of fraction digits has been limited to {n}."

def floatOf? (value : String) : Option Number.Binary64 :=
  Number.Binary64.ofText? value.toList

def Builtin.compare? (type : Builtin) (value bound : String) : Option Ordering :=
  if type.isDecimal then compareDecimal? value bound
  else if type.isFloat then do (← floatOf? value).compare? (← floatOf? bound)
  else if type.isTemporal then some (Ord.compare value bound)
  else none

namespace SimpleType

def builtin (type : Builtin) : SimpleType :=
  { name := some type.localName, variety := .atomic type, whiteSpace := type.whiteSpace, facets := [] }

/-- A built-in list type, whose values have at least one item. -/
def builtinList (name : String) (item : Builtin) : SimpleType :=
  { name := some name, variety := .list (builtin item), whiteSpace := .collapse,
    facets := [.minLength 1] }

def listOf (name : Option String) (item : SimpleType) : SimpleType :=
  { name, variety := .list item, whiteSpace := .collapse, facets := [] }

def unionOf (name : Option String) (members : List SimpleType) : SimpleType :=
  { name, variety := .union members, whiteSpace := .collapse, facets := [] }

def restrict (base : SimpleType) (name : Option String) (whiteSpace : Option WhiteSpace)
    (facets : List Facet) : SimpleType :=
  { name, variety := base.variety, whiteSpace := whiteSpace.getD base.whiteSpace,
    facets := base.facets ++ facets }

def displayName (t : SimpleType) : String := t.name.getD anonymousName

/-- The built-in datatype that a type restricts, unless it is a list or a union. -/
def primitive? (t : SimpleType) : Option Builtin :=
  match t.variety with
  | .atomic type => some type
  | _ => none

def base64Length (value : List Char) : Nat :=
  let symbols := value.countP fun c => !Unicode.isWhiteSpace c
  let padding := (value.reverse.takeWhile (· == '=')).length
  symbols / 4 * 3 - min padding 2

def lengthOf (t : SimpleType) (value : String) : Nat :=
  match t.variety with
  | .list _ => (tokens value).length
  | .atomic .hexBinary => value.utf8ByteSize / 2
  | .atomic .base64Binary => base64Length value.toList
  | _ => value.length

def compare? (t : SimpleType) (value bound : String) : Option Ordering := do
  (← t.primitive?).compare? value bound

/-- Whether two literals stand for the same value: numbers are compared, other values are as they
are written. -/
def valuesEqual (t : SimpleType) (value candidate : String) : Bool :=
  match t.primitive? with
  | some type =>
    if type.isDecimal || type.isFloat then type.compare? value candidate == some .eq
    else value == candidate
  | none => value == candidate

def sizeFor (t : SimpleType) (value : String) : Facet → Nat
  | .length _ | .minLength _ | .maxLength _ => t.lengthOf value
  | .totalDigits _ =>
    let (whole, fraction) := decimalDigits value
    whole + fraction
  | .fractionDigits _ => (decimalDigits value).2
  | _ => 0

/-- Whether a value passes a facet. A bound that cannot be compared with the value is passed. -/
def passes (t : SimpleType) (value : String) (facet : Facet) : Bool :=
  match facet with
  | .length n => t.sizeFor value facet == n
  | .minLength n => n ≤ t.sizeFor value facet
  | .maxLength n => t.sizeFor value facet ≤ n
  | .pattern p => p.accepts value
  | .enumeration values => values.any (t.valuesEqual value)
  | .minInclusive bound => t.compare? value bound != some .lt
  | .maxInclusive bound => t.compare? value bound != some .gt
  | .minExclusive bound =>
    t.compare? value bound != some .lt && t.compare? value bound != some .eq
  | .maxExclusive bound =>
    t.compare? value bound != some .gt && t.compare? value bound != some .eq
  | .totalDigits n => t.sizeFor value facet ≤ n
  | .fractionDigits n => t.sizeFor value facet ≤ n

def facetFault? (t : SimpleType) (value : String) : Option ValueFault :=
  (t.facets.find? fun facet => !t.passes value facet).map fun facet =>
    .facet facet value t.displayName (t.sizeFor value facet)

mutual

/-- Validates a value. The result is the value after its white space has been treated. -/
def validate (raw : String) : SimpleType → Except ValueFault String
  | ⟨name, variety, whiteSpace, facets⟩ => do
    let value := whiteSpace.apply raw
    match variety with
    | .atomic type =>
      if !type.isLiteral value then throw (.notLiteral value type)
    | .list item => (tokens value).forM fun token => do
      let _ ← item.validate token
    | .union members =>
      if !admittedByAny value members then throw (.notInUnion value (name.getD anonymousName))
    match facetFault? ⟨name, variety, whiteSpace, facets⟩ value with
    | some fault => throw fault
    | none => pure value

def admittedByAny (value : String) : List SimpleType → Bool
  | [] => false
  | member :: members => (member.validate value).isOk || admittedByAny value members

end

end SimpleType

end XmlSchema.Datatype
