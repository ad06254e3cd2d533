import XmlSchema.Schema.Definition

/-!
# Resolving names

What the names in the definitions of a unit stand for: built-in types, components of the unit, which
are compiled when their name first comes up, and components that have been compiled before. A
definition must not refer to itself, directly or through others.
-/

namespace XmlSchema.Schema

open Component
open ContentModel (Particle Term)
open Datatype (SimpleType)
open Xml (Element)
open Compile (malformed unresolved)

namespace CompilationUnit

/-- Compiles a definition, unless it is being compiled already. -/
def enter {α : Type} (inProgress : List ComponentKey) (key : ComponentKey) (definition : Definition)
    (compile : Compile α) : Compile α :=
  if inProgress.contains key then
    malformed definition.document definition.element (.circular key.name.localName)
  else do
    Compile.note inProgress key
    compile

def earlierSimpleType (unit : CompilationUnit) (d : Document) (e : Element) (name : QName) :
    Compile SimpleType :=
  match unit.pool.type? name with
  | some (.simple type) => pure type
  | some definition =>
    match definition.complex? with
    | some { content := .simple type, .. } => pure type
    | _ => malformed d e (.notSimple name.localName)
  | none => unresolved d e name "simpleType definition"

def simpleType (unit : CompilationUnit) (inner : ComponentKey → Names)
    (inProgress : List ComponentKey) (d : Document) (e : Element) (name : QName) :
    Compile SimpleType := do
  if name.ns == schemaNamespace then
    match (TypeDefinition.builtin? name.localName : Option (TypeDefinition ElementDecl)) with
    | some (.simple type) => pure type
    | some _ => malformed d e .anyTypeNotSimple
    | none => malformed d e (.unknownBuiltin name.localName)
  else match (← get).simpleTypes.lookup name with
    | some type => pure type
    | none =>
      match unit.definition? .type name with
      | none => unit.earlierSimpleType d e name
      | some definition => do
        if definition.element.name.localName != "simpleType" then
          malformed d e (.notSimple name.localName)
        let key : ComponentKey := ⟨.type, name⟩
        let type ← enter inProgress key definition
          (Definition.simpleTypeOf (inner key) definition.document definition.element
            (some name.localName))
        modify fun st => { st with simpleTypes := (name, type) :: st.simpleTypes }
        pure type

def complexType (unit : CompilationUnit) (inner : ComponentKey → Names)
    (inProgress : List ComponentKey) (d : Document) (e : Element) (name : QName) :
    Compile (ComplexType ElementDecl) := do
  if name.ns == schemaNamespace then
    match (TypeDefinition.builtin? name.localName).bind TypeDefinition.complex? with
    | some type => pure type
    | none => malformed d e (.builtinNotComplex name.localName)
  else match (← get).complexTypes.lookup name with
    | some type => pure type
    | none =>
      match unit.definition? .type name with
      | none =>
        match unit.pool.type? name with
        | some definition =>
          match definition.complex? with
          | some type => pure type
          | none => malformed d e (.notComplex name.localName)
        | none => unresolved d e name "type definition"
      | some definition => do
        if definition.element.name.localName != "complexType" then
          malformed d e (.notComplex name.localName)
        let key : ComponentKey := ⟨.type, name⟩
        let type ← enter inProgress key definition do
          Definition.complexType (inner key) definition.document
            (Definition.depthBelow definition.element) definition.element
            (some (← Compile.internName name))
        modify fun st => { st with complexTypes := (name, type) :: st.complexTypes }
        pure type

def type (unit : CompilationUnit) (inner : ComponentKey → Names) (inProgress : List ComponentKey)
    (d : Document) (e : Element) (name : QName) : Compile (TypeDefinition ElementDecl) :=
  if name.ns == schemaNamespace then
    match TypeDefinition.builtin? name.localName with
    | some definition => pure definition
    | none => malformed d e (.unknownBuiltin name.localName)
  else match unit.definition? .type name with
    | some definition =>
      if definition.element.name.localName == "complexType" then do
        pure (.complex (← unit.complexType inner inProgress d e name))
      else do pure (.simple (← unit.simpleType inner inProgress d e name))
    | none =>
      match unit.pool.type? name with
      | some definition => pure definition
      | none => unresolved d e name "type definition"

def group (unit : CompilationUnit) (inner : ComponentKey → Names) (inProgress : List ComponentKey)
    (d : Document) (e : Element) (name : QName) : Compile (Particle ElementDecl) := do
  match (← get).groups.lookup name with
  | some particle => pure particle
  | none =>
    match unit.definition? .group name with
    | none =>
      match unit.pool.group? name with
      | some particle => pure particle
      | none => unresolved d e name "group"
    | some ⟨document, element⟩ => do
      let key : ComponentKey := ⟨.group, name⟩
      let term : Term ElementDecl ← enter inProgress key ⟨document, element⟩ do
        let model? := (schemaChildren element).find? fun c =>
          c.name.localName == "all" || c.name.localName == "choice" || c.name.localName == "sequence"
        match model? with
        | none => malformed document element (.groupWithoutModel name.localName)
        | some model =>
          let particles ← (schemaChildren model).mapM
            (Definition.particle (inner key) document (Definition.depthBelow model))
          let particles := particles.filterMap id
          pure (match model.name.localName with
            | "sequence" => .sequence particles
            | "choice" => .choice particles
            | _ => .all particles)
      let particle := Particle.once term
      modify fun st => { st with groups := (name, particle) :: st.groups }
      pure particle

def attributeGroup (unit : CompilationUnit) (inner : ComponentKey → Names)
    (inProgress : List ComponentKey) (d : Document) (e : Element) (name : QName) :
    Compile AttributeGroup := do
  match (← get).attributeGroups.lookup name with
  | some group => pure group
  | none =>
    match unit.definition? .attributeGroup name with
    | none =>
      match unit.pool.attributeGroup? name with
      | some group => pure group
      | none => unresolved d e name "attributeGroup"
    | some definition => do
      let key : ComponentKey := ⟨.attributeGroup, name⟩
      let set ← enter inProgress key definition
        (Definition.attributes (inner key) definition.document definition.element {})
      let group : AttributeGroup := { attributes := set.uses, wildcard := set.wildcard }
      modify fun st => { st with attributeGroups := (name, group) :: st.attributeGroups }
      pure group

/-- The global attribute of a name. The attributes of XML itself need no declaration. -/
def attributeDecl (unit : CompilationUnit) (names : Names) (inProgress : List ComponentKey)
    (d : Document) (e : Element) (name : QName) : Compile AttributeDecl := do
  if name.ns == xmlNamespace then
    pure { name := ← Compile.internName name, type := .builtin .string, default? := none,
           fixed? := none }
  else match (← get).attributes.lookup name with
    | some decl => pure decl
    | none =>
      match unit.definition? .attribute name with
      | none =>
        match unit.pool.attribute? name with
        | some decl => pure decl
        | none => unresolved d e name "attribute declaration"
      | some definition => do
        Compile.note inProgress ⟨.attribute, name⟩
        let decl ← Definition.attributeDecl names definition.document definition.element true
        modify fun st => { st with attributes := (name, decl) :: st.attributes }
        pure decl

def isElement (unit : CompilationUnit) (name : QName) : Bool :=
  (unit.definition? .element name).isSome || (unit.pool.element? name).isSome

def isType (unit : CompilationUnit) (name : QName) : Bool :=
  (unit.definition? .type name).isSome || (unit.pool.type? name).isSome

/-- How the names in a unit are resolved inside of the definitions of some components. No more
definitions nest than the unit has components. -/
def namesWithin (unit : CompilationUnit) : Nat → List ComponentKey → Names
  | 0, _ =>
    let fault {α : Type} (d : Document) (e : Element) (_ : QName) : Compile α :=
      malformed d e .unfinished
    { isElement := unit.isElement, isType := unit.isType, simpleType := fault, complexType := fault
      type := fault, group := fault, attributeGroup := fault, attributeDecl := fault }
  | nesting + 1, inProgress =>
    let inner (key : ComponentKey) : Names := namesWithin unit nesting (key :: inProgress)
    { isElement := unit.isElement
      isType := unit.isType
      simpleType := unit.simpleType inner inProgress
      complexType := unit.complexType inner inProgress
      type := unit.type inner inProgress
      group := unit.group inner inProgress
      attributeGroup := unit.attributeGroup inner inProgress
      attributeDecl := unit.attributeDecl (namesWithin unit nesting inProgress) inProgress }

def names (unit : CompilationUnit) : Names :=
  unit.namesWithin (2 * unit.index.length + 2) []

/-! ## Grammars -/

/-- Adds what an element at the top of a document defines to a grammar. A name that is taken is left
as it is. -/
def addComponent (names : Names) (d : Document) (e : Element) (localName : String)
    (g : Grammar) : Compile Grammar := do
  let name : QName := ⟨d.target, localName⟩
  match e.name.localName with
  | "element" =>
    if g.elements.contains localName then pure g
    else do
      let decl ← Definition.elementDecl names d (Definition.depthBelow e) e true
      pure { g with elements := g.elements.insertNew localName decl }
  | "simpleType" =>
    if g.types.contains localName then pure g
    else do
      let type ← names.simpleType d e name
      pure { g with types := g.types.insertNew localName (.simple type) }
  | "complexType" =>
    if g.types.contains localName then pure g
    else do
      let type ← names.complexType d e name
      pure { g with types := g.types.insertNew localName (.complex type) }
  | "attribute" =>
    if g.attributes.contains localName then pure g
    else do
      let decl ← names.attributeDecl d e name
      pure { g with attributes := g.attributes.insertNew localName decl }
  | "group" =>
    if g.groups.contains localName then pure g
    else do
      let particle ← names.group d e name
      pure { g with groups := g.groups.insertNew localName particle }
  | "attributeGroup" =>
    if g.attributeGroups.contains localName then pure g
    else do
      let group ← names.attributeGroup d e name
      pure { g with attributeGroups := g.attributeGroups.insertNew localName group }
  | _ => pure g

def addComponents (names : Names) (d : Document) : List Element → Grammar → Compile Grammar
  | [], g => pure g
  | e :: rest, g => do
    let g ←
      if e.name.localName == "import" then do
        let ns := (e.attribute? "namespace").getD ""
        Compile.intern ns
        pure { g with imports := addMissing g.imports [ns] }
      else match e.attribute? "name" with
        | none => pure g
        | some localName => do
          Compile.intern localName
          addComponent names d e localName g
    addComponents names d rest g

def replaceGrammar (g : Grammar) : List Grammar → List Grammar
  | [] => [g]
  | h :: rest => if h.target == g.target then g :: rest else h :: replaceGrammar g rest

def addDocuments (names : Names) : List Document → List Grammar → Compile (List Grammar)
  | [], grammars => pure grammars
  | d :: rest, grammars => do
    let g ← match grammars.find? fun g => g.target == d.target with
      | some g => pure { g with systemIds := addMissing g.systemIds [d.systemId] }
      | none => do
        Compile.intern d.target
        pure { target := d.target, systemIds := [d.systemId] }
    let g ← addComponents names d (schemaChildren d.root) g
    addDocuments names rest (replaceGrammar g grammars)

def compile (unit : CompilationUnit) : Compile (List Grammar) :=
  addDocuments unit.names unit.documents []

end CompilationUnit

end XmlSchema.Schema
