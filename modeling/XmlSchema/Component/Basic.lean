import XmlSchema.ContentModel.Constraint
import XmlSchema.Datatype.SimpleType

namespace XmlSchema.Component

open ContentModel (Particle Violation)
open Datatype (SimpleType Builtin)

/-- Where a type is defined. Two of them are the same type only if they are defined at the same
place. -/
structure Site where
  source : String
  document : String
  /-- The number of elements in front of the definition in its document. -/
  position : Nat
  deriving DecidableEq, Repr

/-- What tells types apart, also those without names. -/
inductive TypeKey where
  | builtin (localName : String)
  | defined (site : Site)
  deriving DecidableEq, Repr

inductive Derivation where
  | extension
  | restriction
  deriving DecidableEq, Repr

def Derivation.word : Derivation → String
  | .extension => "extension"
  | .restriction => "restriction"

structure AttributeDecl where
  name : QName
  type : SimpleType
  default? : Option String
  fixed? : Option String

structure AttributeUse where
  decl : AttributeDecl
  required : Bool

structure AttributeGroup where
  attributes : List AttributeUse
  wildcard : Option Wildcard

inductive ContentType (δ : Type) where
  | empty
  | simple (type : SimpleType)
  | elementOnly (model : ContentModel δ)
  | mixed (model : ContentModel δ)

structure ComplexType (δ : Type) where
  key : TypeKey
  name : Option QName
  /-- The name of the type that this one derives from. -/
  base : Option (QName × Derivation)
  isAbstract : Bool
  particle : Option (Particle δ)
  mixed : Bool
  content : ContentType δ
  attributes : List AttributeUse
  attributeWildcard : Option Wildcard
  violations : List Violation

inductive TypeDefinition (δ : Type) where
  | simple (type : SimpleType)
  | anyType
  | complex (type : ComplexType δ)

inductive TypeRef (δ : Type) where
  | named (name : QName)
  | inline (key : TypeKey) (definition : TypeDefinition δ)

structure ElementDecl where
  name : QName
  type : TypeRef ElementDecl
  nillable : Bool
  default? : Option String
  fixed? : Option String
  isAbstract : Bool

namespace ComplexType
variable {δ : Type}

def anyWildcard : Wildcard := { constraint := .any, process := .lax }

def anyType : ComplexType δ where
  key := .builtin "anyType"
  name := none
  base := none
  isAbstract := false
  particle := some (.anyNumber anyWildcard)
  mixed := true
  content := .mixed ((ContentModel.build (.anyNumber anyWildcard)).toOption.getD .empty)
  attributes := []
  attributeWildcard := some anyWildcard
  violations := []

def displayName (t : ComplexType δ) : String :=
  (t.name.map (·.localName)).getD Datatype.anonymousName

/-- Whether two types are one and the same. -/
def same (t other : ComplexType δ) : Bool := t.key == other.key && t.name == other.name

@[simp] theorem same_self (t : ComplexType δ) : t.same t = true := by
  simp [same]

def attribute? (t : ComplexType δ) (name : QName) : Option AttributeUse :=
  t.attributes.find? fun a => a.decl.name == name

end ComplexType

namespace TypeDefinition
variable {δ : Type}

def displayName : TypeDefinition δ → String
  | .simple t => t.displayName
  | .anyType => Datatype.anonymousName
  | .complex t => t.displayName

def name? : TypeDefinition δ → Option QName
  | .complex t => t.name
  | _ => none

def complex? : TypeDefinition δ → Option (ComplexType δ)
  | .simple _ => none
  | .anyType => some .anyType
  | .complex t => some t

def builtin? (localName : String) : Option (TypeDefinition δ) :=
  if localName == "anyType" then some .anyType
  else match Builtin.ofName? localName with
    | some type => some (.simple (.builtin type))
    | none => (Builtin.listItem? localName).map fun item => .simple (.builtinList localName item)

end TypeDefinition

def TypeRef.identity {δ : Type} : TypeRef δ → QName ⊕ TypeKey
  | .named name => .inl name
  | .inline key _ => .inr key

def TypeRef.anyType {δ : Type} : TypeRef δ := .inline (.builtin "anyType") .anyType

end XmlSchema.Component
