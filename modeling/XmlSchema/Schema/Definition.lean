import XmlSchema.Component.Basic
import XmlSchema.Schema.Compiler

/-!
# Definitions

The meaning of the elements of a schema document: types, declarations, particles and attributes.
What a definition refers to by name is looked up through `Names`; how the names are resolved does
not matter here.

Definitions nest, and the functions below follow them down with a bound on the depth that the height
of the document provides.
-/

/-!
## Attribute sets

The attributes that a complex type or an attribute group collects. No two of them have one name: a
later one takes the place of an earlier one.
-/

namespace XmlSchema.Schema

open Component

structure AttributeSet where
  uses : List AttributeUse := []
  wildcard : Option Wildcard := none

namespace AttributeSet

def inherited {δ : Type} (base : ComplexType δ) : AttributeSet :=
  { uses := base.attributes, wildcard := base.attributeWildcard }

def upsertInto (use : AttributeUse) : List AttributeUse → List AttributeUse
  | [] => [use]
  | other :: rest =>
    if other.decl.name == use.decl.name then use :: rest else other :: upsertInto use rest

def upsert (set : AttributeSet) (use : AttributeUse) : AttributeSet :=
  { set with uses := upsertInto use set.uses }

def erase (set : AttributeSet) (name : QName) : AttributeSet :=
  { set with uses := set.uses.filter fun use => use.decl.name != name }

/-- Adds the attributes of a group. Its wildcard counts if there is none yet. -/
def addGroup (set : AttributeSet) (group : AttributeGroup) : AttributeSet :=
  let added := group.attributes.foldl upsert set
  { added with wildcard := set.wildcard <|> group.wildcard }

end AttributeSet

end XmlSchema.Schema

/-! ## Resolution of names -/

namespace XmlSchema.Schema

open Component
open ContentModel (Particle Term Violation)
open Datatype (Facet SimpleType WhiteSpace)
open Xml (Element)

/-- How names are resolved. A document and an element of it stand for the place to blame. -/
structure Names where
  isElement : QName → Bool
  isType : QName → Bool
  simpleType : Document → Element → QName → Compile SimpleType
  complexType : Document → Element → QName → Compile (ComplexType ElementDecl)
  type : Document → Element → QName → Compile (TypeDefinition ElementDecl)
  group : Document → Element → QName → Compile (Particle ElementDecl)
  attributeGroup : Document → Element → QName → Compile AttributeGroup
  attributeDecl : Document → Element → QName → Compile AttributeDecl

namespace Definition

open Compile (internName malformed unresolved)

/-! ## Names and occurrence -/

def qName (d : Document) (e : Element) (value : String) : Compile QName := do
  let value := Text.trim value
  let (label, localName) := match Xml.splitAtChar ':' value.toList with
    | some (label, localName) => (some (String.ofList label), String.ofList localName)
    | none => (none, value)
  let ns ← match e.namespaceOf? label with
    | some ns => pure ns
    | none => if label.isSome then malformed d e (.undeclaredPrefix value) else pure ""
  pure ⟨if ns.isEmpty && d.adopted then d.target else ns, localName⟩

def reference (d : Document) (e : Element) (given : String) : Compile QName :=
  match e.attribute? given with
  | some value => qName d e value
  | none => malformed d e (.missingAttribute given)

def occurrence (d : Document) (e : Element) (value : String) : Compile Nat :=
  match Text.naturalBelow? (Nat.pow 2 32) (Text.trim value) with
  | some n => pure n
  | none => malformed d e (.badOccurrence value)

def occurs (d : Document) (e : Element) : Compile (Nat × Option Nat) := do
  let min ← match e.attribute? "minOccurs" with
    | some value => occurrence d e value
    | none => pure 1
  let max ← match (e.attribute? "maxOccurs").map Text.trim with
    | none => pure (some 1)
    | some value => if value == "unbounded" then pure none else do pure (some (← occurrence d e value))
  if max.any (· < min) then malformed d e .boundsInverted
  pure (min, max)

def isQualified (e : Element) (qualifiedByDefault : Bool) : Bool :=
  match e.attribute? "form" with
  | some form => form == "qualified"
  | none => qualifiedByDefault

def constraint (d : Document) (value : String) : NamespaceConstraint :=
  if value == "##any" then .any
  else if value == "##other" then .other d.target
  else .among ((Datatype.tokens value).map fun token =>
    if token == "##targetNamespace" then d.target else if token == "##local" then "" else token)

def wildcard (d : Document) (e : Element) : Compile Wildcard := do
  let constraint := constraint d (Text.trim ((e.attribute? "namespace").getD "##any"))
  match constraint with
  | .any => pure ()
  | .other target => Compile.intern target
  | .among namespaces => namespaces.forM Compile.intern
  let process := match e.attribute? "processContents" with
    | some "lax" => .lax
    | some "skip" => .skip
    | _ => .strict
  pure { constraint, process }

/-! ## Simple types -/

structure FacetList where
  whiteSpace : Option WhiteSpace := none
  /-- In the order of the document, patterns and enumerations left out. -/
  facets : List Facet := []
  patterns : List String := []
  enumeration : List String := []

def addFacet (d : Document) (e : Element) (value : String) (list : FacetList) : Compile FacetList :=
  let kind := e.name.localName
  let add (facet : Facet) : FacetList := { list with facets := list.facets ++ [facet] }
  let count (facet : Nat → Facet) : Compile FacetList :=
    match Text.naturalBelow? (Nat.pow 2 64) (Text.trim value) with
    | some n => pure (add (facet n))
    | none => malformed d e (.badFacet kind value)
  match kind with
  | "enumeration" => pure { list with enumeration := list.enumeration ++ [value] }
  | "pattern" => pure { list with patterns := list.patterns ++ [value] }
  | "length" => count .length
  | "minLength" => count .minLength
  | "maxLength" => count .maxLength
  | "totalDigits" => count .totalDigits
  | "fractionDigits" => count .fractionDigits
  | "minInclusive" => pure (add (.minInclusive (Text.trim value)))
  | "maxInclusive" => pure (add (.maxInclusive (Text.trim value)))
  | "minExclusive" => pure (add (.minExclusive (Text.trim value)))
  | "maxExclusive" => pure (add (.maxExclusive (Text.trim value)))
  | "whiteSpace" =>
    match WhiteSpace.ofName? (Text.trim value) with
    | some whiteSpace => pure { list with whiteSpace := some whiteSpace }
    | none => malformed d e (.badWhiteSpace value)
  | _ => pure list

def collectFacets (d : Document) : List Element → FacetList → Compile FacetList
  | [], list => pure list
  | e :: rest, list => do
    match e.attribute? "value" with
    | some value => collectFacets d rest (← addFacet d e value list)
    | none => collectFacets d rest list

/-- The facets of a restriction, its patterns and its enumeration last. -/
def facets (d : Document) (restriction : Element) : Compile (Option WhiteSpace × List Facet) := do
  let list ← collectFacets d (schemaChildren restriction) {}
  let patterns ←
    if list.patterns.isEmpty then pure []
    else match Pattern.Facet.compile list.patterns with
      | .ok facet => pure [Facet.pattern facet]
      | .error (source, fault) => throw (.invalidPattern d.systemId source (.pattern fault))
  let enumeration := if list.enumeration.isEmpty then [] else [Facet.enumeration list.enumeration]
  pure (list.whiteSpace, list.facets ++ patterns ++ enumeration)

def simpleType (names : Names) (d : Document) : Nat → Element → Option String → Compile SimpleType
  | 0, e, _ => malformed d e .unfinished
  | depth + 1, e, name =>
    let named (place : Element) (value : String) : Compile SimpleType := do
      names.simpleType d place (← qName d place value)
    match schemaChild? e "restriction", schemaChild? e "list", schemaChild? e "union" with
    | some restriction, _, _ => do
      let base ← match restriction.attribute? "base", schemaChild? restriction "simpleType" with
        | some base, _ => named restriction base
        | none, some inline => simpleType names d depth inline none
        | none, none => malformed d restriction .restrictionWithoutBase
      let (whiteSpace, facets) ← facets d restriction
      pure (base.restrict name whiteSpace facets)
    | none, some list, _ => do
      let item ← match list.attribute? "itemType", schemaChild? list "simpleType" with
        | some item, _ => named list item
        | none, some inline => simpleType names d depth inline none
        | none, none => malformed d list .listWithoutItem
      pure (.listOf name item)
    | none, none, some union => do
      let byName ← (Datatype.tokens ((union.attribute? "memberTypes").getD "")).mapM (named union)
      let inPlace ← ((schemaChildren union).filter (·.name.localName == "simpleType")).mapM
        fun inline => simpleType names d depth inline none
      if byName.isEmpty && inPlace.isEmpty then malformed d union .unionWithoutMembers
      pure (.unionOf name (byName ++ inPlace))
    | none, none, none => malformed d e .noVariety

def simpleTypeOf (names : Names) (d : Document) (e : Element) (name : Option String) :
    Compile SimpleType :=
  simpleType names d e.height e name

/-! ## Attributes -/

def attributeDecl (names : Names) (d : Document) (e : Element) (isGlobal : Bool) :
    Compile AttributeDecl := do
  match e.attribute? "name" with
  | none => malformed d e .namelessAttribute
  | some localName =>
    let ns := if isGlobal || isQualified e d.attributesQualified then d.target else ""
    let type ← match e.attribute? "type", schemaChild? e "simpleType" with
      | some type, _ => do names.simpleType d e (← qName d e type)
      | none, some inline => simpleTypeOf names d inline none
      | none, none => pure (.builtin .anySimpleType)
    pure { name := ← internName ⟨ns, localName⟩, type, default? := e.attribute? "default",
           fixed? := e.attribute? "fixed" }

def attributeUse (names : Names) (d : Document) (e : Element) : Compile AttributeDecl :=
  match e.attribute? "ref" with
  | none => attributeDecl names d e false
  | some ref => do
    let decl ← names.attributeDecl d e (← qName d e ref)
    let default? := e.attribute? "default"
    let fixed? := e.attribute? "fixed"
    pure (if default?.isNone && fixed?.isNone then decl else { decl with default?, fixed? })

def attributesFrom (names : Names) (d : Document) :
    List Element → AttributeSet → Compile AttributeSet
  | [], set => pure set
  | e :: rest, set => do
    let set ← match e.name.localName with
      | "attribute" => do
        let usage := e.attribute? "use"
        let decl ← attributeUse names d e
        pure (if usage == some "prohibited" then set.erase decl.name
          else set.upsert { decl, required := usage == some "required" })
      | "attributeGroup" => do
        pure (set.addGroup (← names.attributeGroup d e (← reference d e "ref")))
      | "anyAttribute" => do pure { set with wildcard := some (← wildcard d e) }
      | _ => pure set
    attributesFrom names d rest set

def attributes (names : Names) (d : Document) (parent : Element) (set : AttributeSet) :
    Compile AttributeSet :=
  attributesFrom names d (schemaChildren parent) set

/-! ## Complex types and particles -/

def derivation? (content : Element) : Option (Element × Derivation) :=
  match schemaChild? content "extension", schemaChild? content "restriction" with
  | some e, _ => some (e, .extension)
  | none, some e => some (e, .restriction)
  | none, none => none

def contentChild? (e : Element) : Option Element :=
  (schemaChildren e).find? fun c =>
    c.name.localName == "group" || c.name.localName == "all" || c.name.localName == "choice" ||
      c.name.localName == "sequence"

/-- The reference to a type. Whether it is a type of the unit is all that is checked. -/
def typeRef (names : Names) (d : Document) (e : Element) (name : QName) :
    Compile (TypeRef ElementDecl) :=
  if name.ns == schemaNamespace then
    match TypeDefinition.builtin? name.localName with
    | some definition => pure (.inline (.builtin name.localName) definition)
    | none => malformed d e (.unknownBuiltin name.localName)
  else if names.isType name then do pure (.named (← internName name))
  else unresolved d e name "type definition"

def restrictionViolation? (typeName : String) (model : ContentModel ElementDecl)
    (base : ComplexType ElementDecl) : Option Violation :=
  let admitted := match base.content with
    | .elementOnly baseModel | .mixed baseModel => model.elementNames.all baseModel.admits
    | _ => model.elementNames.isEmpty
  if admitted then none else some (.notRestriction typeName)

/-- The particle of an extension: what the base takes, and then what is added. -/
def extendedParticle (inherited own : Option (Particle ElementDecl)) :
    Option (Particle ElementDecl) :=
  match inherited, own with
  | none, own => own
  | some inherited, none => some inherited
  | some inherited, some own => some (.once (.sequence [inherited, own]))

/-- What the body of a complex type comes to, before its content model is built. -/
structure Body where
  base : Option (QName × Derivation) := none
  mixed : Bool
  particle : Option (Particle ElementDecl) := none
  simple : Option SimpleType := none
  attributes : AttributeSet := {}
  restricted : Option (ComplexType ElementDecl) := none

def simpleContent (names : Names) (d : Document) (typeName : String) (mixed : Bool)
    (content : Element) : Compile Body := do
  match derivation? content with
  | none => malformed d content .simpleContentWithoutDerivation
  | some (step, derivation) =>
    let baseName ← reference d step "base"
    let (set, baseType) ← match ← names.type d step baseName with
      | .simple type => pure (({} : AttributeSet), type)
      | definition =>
        match definition.complex? with
        | some t =>
          match t.content with
          | .simple type => pure (.inherited t, type)
          | _ => malformed d step (.baseWithoutSimpleContent baseName.localName)
        | none => malformed d step (.baseWithoutSimpleContent baseName.localName)
    let type ← match derivation with
      | .extension => pure baseType
      | .restriction => do
        let (whiteSpace, facets) ← facets d step
        pure (baseType.restrict (some typeName) whiteSpace facets)
    let attributes ← attributes names d step set
    pure { base := some (← internName baseName, derivation), mixed, simple := some type, attributes }

def contentType (d : Document) (e : Element) (typeName : String) (body : Body) :
    Compile (ContentType ElementDecl × List Violation) :=
  match body.particle with
  | none => pure (if body.mixed then .mixed .empty else .empty, [])
  | some particle =>
    match ContentModel.build particle with
    | .error .tooLarge =>
      throw (.unsupported d.systemId (.component e.line (.model typeName .tooLarge)))
    | .error fault => malformed d e (.model typeName fault)
    | .ok model =>
      let violations := model.ambiguity?.toList ++
        (ContentModel.inconsistency? (fun decl => decl.type.identity) typeName model).toList ++
        (body.restricted.bind (restrictionViolation? typeName model)).toList
      pure (if body.mixed then .mixed model else .elementOnly model, violations)

def keyOf (d : Document) (e : Element) : TypeKey := .defined ⟨d.source, d.systemId, e.position⟩

def ofBody (d : Document) (e : Element) (name : Option QName) (typeName : String) (body : Body) :
    Compile (ComplexType ElementDecl) := do
  let (content, violations) ← match body.simple with
    | some type => pure (.simple type, [])
    | none => contentType d e typeName body
  pure { key := keyOf d e, name, base := body.base, isAbstract := isTrue e "abstract",
         particle := body.particle, mixed := body.mixed, content, attributes := body.attributes.uses,
         attributeWildcard := body.attributes.wildcard, violations }

mutual

def elementDecl (names : Names) (d : Document) : Nat → Element → Bool → Compile ElementDecl
  | 0, e, _ => malformed d e .unfinished
  | depth + 1, e, isGlobal =>
    match e.attribute? "name" with
    | none => malformed d e .namelessElement
    | some localName => do
      let ns := if isGlobal || isQualified e d.elementsQualified then d.target else ""
      let type ← match e.attribute? "type", schemaChild? e "complexType",
          schemaChild? e "simpleType" with
        | some type, _, _ => do typeRef names d e (← qName d e type)
        | none, some inline, _ => do
          pure (.inline (keyOf d inline) (.complex (← complexType names d depth inline none)))
        | none, none, some inline => do
          pure (.inline (keyOf d inline) (.simple (← simpleTypeOf names d inline none)))
        | none, none, none => pure .anyType
      pure { name := ← internName ⟨ns, localName⟩, type, nillable := isTrue e "nillable",
             default? := e.attribute? "default", fixed? := e.attribute? "fixed",
             isAbstract := isTrue e "abstract" }

def particle (names : Names) (d : Document) :
    Nat → Element → Compile (Option (Particle ElementDecl))
  | 0, e => malformed d e .unfinished
  | depth + 1, e => do
    let (min, max) ← occurs d e
    let repeated (term : Term ElementDecl) : Option (Particle ElementDecl) := some { min, max, term }
    match e.name.localName with
    | "element" =>
      match e.attribute? "ref" with
      | some ref => do
        let name ← qName d e ref
        if names.isElement name then
          pure (repeated (.element { name := ← internName name, declaration := none }))
        else unresolved d e name "element declaration"
      | none => do
        let decl ← elementDecl names d depth e false
        pure (repeated (.element { name := decl.name, declaration := some decl }))
    | "any" => do pure (repeated (.wildcard (← wildcard d e)))
    | "group" => do
      let group ← names.group d e (← reference d e "ref")
      pure (repeated group.term)
    | "sequence" => do
      pure (repeated (.sequence ((← (schemaChildren e).mapM (particle names d depth)).filterMap id)))
    | "choice" => do
      pure (repeated (.choice ((← (schemaChildren e).mapM (particle names d depth)).filterMap id)))
    | "all" => do
      pure (repeated (.all ((← (schemaChildren e).mapM (particle names d depth)).filterMap id)))
    | _ => pure none

def complexType (names : Names) (d : Document) :
    Nat → Element → Option QName → Compile (ComplexType ElementDecl)
  | 0, e, _ => malformed d e .unfinished
  | depth + 1, e, name => do
    let typeName := (name.map (·.localName)).getD Datatype.anonymousName
    let mixed := isTrue e "mixed"
    let body ← match schemaChild? e "simpleContent", schemaChild? e "complexContent" with
      | some content, _ => simpleContent names d typeName mixed content
      | none, some content => do
        let mixed := if (content.attribute? "mixed").isSome then isTrue content "mixed" else mixed
        match derivation? content with
        | none => malformed d content .complexContentWithoutDerivation
        | some (step, derivation) => do
          let baseName ← reference d step "base"
          let baseType ← names.complexType d step baseName
          let own ← match contentChild? step with
            | some child => particle names d depth child
            | none => pure none
          let attributes ← attributes names d step (.inherited baseType)
          let base := some (← internName baseName, derivation)
          pure (match derivation with
            | .extension =>
              { base, mixed, particle := extendedParticle baseType.particle own, attributes : Body }
            | .restriction =>
              { base, mixed, particle := own, attributes, restricted := some baseType })
      | none, none => do
        let particle ← match contentChild? e with
          | some child => particle names d depth child
          | none => pure none
        pure { mixed, particle, attributes := ← attributes names d e {} }
    ofBody d e name typeName body

end

/-- A depth that no definition below an element exceeds. -/
def depthBelow (e : Element) : Nat := 2 * e.height + 1

end Definition

end XmlSchema.Schema
