import XmlSchema.Component.Grammar
import XmlSchema.Component.Symbol
import XmlSchema.Schema.Document

namespace XmlSchema.Schema

open Component
open ContentModel (Particle)
open Datatype (SimpleType)
open Xml (Element)

inductive ComponentKind where
  | element
  | type
  | attribute
  | group
  | attributeGroup
  deriving DecidableEq, Repr

def ComponentKind.ofElementName? : String → Option ComponentKind
  | "element" => some .element
  | "simpleType" | "complexType" => some .type
  | "attribute" => some .attribute
  | "group" => some .group
  | "attributeGroup" => some .attributeGroup
  | _ => none

structure ComponentKey where
  kind : ComponentKind
  name : QName
  deriving DecidableEq, Repr

structure Definition where
  document : Document
  element : Element

/-- The documents of a unit, with the grammars that have been compiled before. -/
structure CompilationUnit where
  documents : List Document
  pool : Pool
  index : List (ComponentKey × Definition)

namespace CompilationUnit

def definitionsOf (document : Document) : List (ComponentKey × Definition) :=
  (schemaChildren document.root).filterMap fun child => do
    let kind ← ComponentKind.ofElementName? child.name.localName
    let name ← child.attribute? "name"
    pure (⟨kind, ⟨document.target, name⟩⟩, ⟨document, child⟩)

def ofDocuments (documents : List Document) (pool : Pool) : CompilationUnit :=
  { documents, pool, index := documents.flatMap definitionsOf }

def definition? (unit : CompilationUnit) (kind : ComponentKind) (name : QName) : Option Definition :=
  unit.index.lookup ⟨kind, name⟩

end CompilationUnit

/-- A body that has been begun, and the components in whose bodies this was done. -/
structure Begun where
  key : ComponentKey
  inProgress : List ComponentKey
  deriving DecidableEq, Repr

structure CompilerState where
  symbols : SymbolTable := {}
  simpleTypes : List (QName × SimpleType) := []
  complexTypes : List (QName × ComplexType ElementDecl) := []
  groups : List (QName × Particle ElementDecl) := []
  attributeGroups : List (QName × AttributeGroup) := []
  attributes : List (QName × AttributeDecl) := []
  /-- All bodies that have been begun, the latest first. Compilation makes no use of them. -/
  begun : List Begun := []

/-- A step of compilation. It may fail, and keeps the names that came up even then. -/
abbrev Compile := ExceptT SchemaError (StateM CompilerState)

namespace Compile

def intern (name : String) : Compile Unit :=
  modify fun st => { st with symbols := (st.symbols.intern name).2 }

def internName (name : QName) : Compile QName := do
  intern name.ns
  intern name.localName
  pure name

def note (inProgress : List ComponentKey) (key : ComponentKey) : Compile Unit :=
  modify fun st => { st with begun := ⟨key, inProgress⟩ :: st.begun }

def malformed {α : Type} (document : Document) (e : Element) (fault : ComponentFault) : Compile α :=
  throw (.malformed document.systemId (.component e.line fault))

def unresolved {α : Type} (document : Document) (e : Element) (name : QName) (kind : String) :
    Compile α :=
  throw (.unresolvedReference document.systemId (.component e.line (.unresolved name kind)))

end Compile

end XmlSchema.Schema
