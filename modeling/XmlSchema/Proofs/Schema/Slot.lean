import XmlSchema.Proofs.Component.Pool
import XmlSchema.Proofs.Schema.Uniform

namespace XmlSchema.Schema

open Component
open ContentModel (Particle Term)
open Datatype (SimpleType)
open Xml (Element)
open Compile (malformed note unresolved)

inductive Slot where
  | simpleType (name : QName)
  | complexType (name : QName)
  | group (name : QName)
  | attributeGroup (name : QName)
  | attribute (name : QName)

namespace Slot

abbrev Value : Slot → Type
  | .simpleType _ => SimpleType
  | .complexType _ => ComplexType ElementDecl
  | .group _ => Particle ElementDecl
  | .attributeGroup _ => AttributeGroup
  | .attribute _ => AttributeDecl

def key : Slot → ComponentKey
  | .simpleType name | .complexType name => ⟨.type, name⟩
  | .group name => ⟨.group, name⟩
  | .attributeGroup name => ⟨.attributeGroup, name⟩
  | .attribute name => ⟨.attribute, name⟩

def admits (definition : Definition) : Slot → Bool
  | .simpleType _ => definition.element.name.localName == "simpleType"
  | .complexType _ => definition.element.name.localName == "complexType"
  | _ => true

def isGuarded : Slot → Bool
  | .attribute _ => false
  | _ => true

theorem isGuarded_iff {slot : Slot} : slot.isGuarded = true ↔ slot.key.kind ≠ .attribute := by
  cases slot <;> simp [isGuarded, key]

def groupParticle (names : Names) (definition : Definition) (name : QName) :
    Compile (Particle ElementDecl) :=
  let model? := (schemaChildren definition.element).find? fun c =>
    c.name.localName == "all" || c.name.localName == "choice" || c.name.localName == "sequence"
  match model? with
  | none => malformed definition.document definition.element (.groupWithoutModel name.localName)
  | some model => do
    let particles ← (schemaChildren model).mapM
      (Definition.particle names definition.document (Definition.depthBelow model))
    let particles := particles.filterMap id
    pure (Particle.once (match model.name.localName with
      | "sequence" => .sequence particles
      | "choice" => .choice particles
      | _ => .all particles))

def body (definition : Definition) (names : Names) : (slot : Slot) → Compile slot.Value
  | .simpleType name =>
    Definition.simpleTypeOf names definition.document definition.element (some name.localName)
  | .complexType name => do
    let name ← Compile.internName name
    Definition.complexType names definition.document (Definition.depthBelow definition.element)
      definition.element (some name)
  | .group name => groupParticle names definition name
  | .attributeGroup _ => do
    let set ← Definition.attributes names definition.document definition.element {}
    pure { attributes := set.uses, wildcard := set.wildcard : AttributeGroup }
  | .attribute _ => Definition.attributeDecl names definition.document definition.element true

variable {stops : Prop}

theorem uniform_groupParticle (definition : Definition) (name : QName) :
    Uniform stops fun names => groupParticle names definition name := by
  unfold groupParticle
  dsimp only
  split
  · exact .malformed _ _ False.elim
  · next model _ =>
    have deep := Definition.deep_depthBelow model
    refine .bind (.mapM fun child member => ?_) fun _ => .pure _
    have less := height_lt_of_mem_schemaChildren member
    exact Definition.uniform_particle_of_deep _ _ _ (.inr (by omega))

theorem uniform_body (definition : Definition) (slot : Slot) :
    Uniform stops fun names => slot.body definition names := by
  cases slot with
  | simpleType name => exact Definition.uniform_simpleTypeOf _ _ _
  | complexType name =>
    exact .bind (.internName _) fun _ =>
      Definition.uniform_complexType_of_deep _ _ _ _ (.inr (Definition.deep_depthBelow _))
  | group name => exact uniform_groupParticle _ _
  | attributeGroup name => exact .bind (Definition.uniform_attributes _ _ _) fun _ => .pure _
  | «attribute» name => exact Definition.uniform_attributeDecl _ _ _

end Slot

namespace CompilerState

def stored (st : CompilerState) : (slot : Slot) → Option slot.Value
  | .simpleType name => st.simpleTypes.lookup name
  | .complexType name => st.complexTypes.lookup name
  | .group name => st.groups.lookup name
  | .attributeGroup name => st.attributeGroups.lookup name
  | .attribute name => st.attributes.lookup name

def keep (st : CompilerState) : (slot : Slot) → slot.Value → CompilerState
  | .simpleType name, (type : SimpleType) =>
    { st with simpleTypes := (name, type) :: st.simpleTypes }
  | .complexType name, (type : ComplexType ElementDecl) =>
    { st with complexTypes := (name, type) :: st.complexTypes }
  | .group name, (particle : Particle ElementDecl) =>
    { st with groups := (name, particle) :: st.groups }
  | .attributeGroup name, (group : AttributeGroup) =>
    { st with attributeGroups := (name, group) :: st.attributeGroups }
  | .attribute name, (decl : AttributeDecl) =>
    { st with attributes := (name, decl) :: st.attributes }

theorem stored_keep_self (st : CompilerState) (slot : Slot) (value : slot.Value) :
    (st.keep slot value).stored slot = some value := by
  cases slot <;> exact (lookup_cons_eq _ _ _ _).trans (if_pos rfl)

theorem stored_keep_of_ne (st : CompilerState) {slot other : Slot} (value : slot.Value)
    (different : other ≠ slot) : (st.keep slot value).stored other = st.stored other := by
  cases slot <;> cases other <;> first
    | rfl
    | simp only [stored, keep]
      exact (lookup_cons_eq _ _ _ _).trans (if_neg fun same => different (congrArg _ same))

/-- The names that have come up and the bodies that have been begun are never read. -/
theorem stored_unread (st : CompilerState) (symbols : SymbolTable) (begun : List Begun)
    (slot : Slot) : CompilerState.stored { st with symbols, begun } slot = st.stored slot := by
  cases slot <;> rfl

theorem begun_keep (st : CompilerState) (slot : Slot) (value : slot.Value) :
    (st.keep slot value).begun = st.begun := by
  cases slot <;> rfl

@[simp] theorem stored_initial (symbols : SymbolTable) (slot : Slot) :
    CompilerState.stored { symbols } slot = none := by
  cases slot <;> rfl

end CompilerState

inductive Origin (α : Type) where
  | settled (answer : Compile α)
  | slot (d : Document) (e : Element) (slot : Slot) (view : slot.Value → α)

namespace CompilationUnit

variable (unit : CompilationUnit)

def origin : (q : Query) → Origin q.Answer
  | .isElement d e name =>
    .settled (if unit.isElement name then pure () else unresolved d e name "element declaration")
  | .isType d e name =>
    .settled (if unit.isType name then pure () else unresolved d e name "type definition")
  | .simpleType d e name =>
    if name.ns == schemaNamespace then
      .settled (match (TypeDefinition.builtin? name.localName :
          Option (TypeDefinition ElementDecl)) with
        | some (.simple type) => pure type
        | some _ => malformed d e .anyTypeNotSimple
        | none => malformed d e (.unknownBuiltin name.localName))
    else .slot d e (.simpleType name) id
  | .complexType d e name =>
    if name.ns == schemaNamespace then
      .settled (match (TypeDefinition.builtin? name.localName).bind TypeDefinition.complex? with
        | some type => pure type
        | none => malformed d e (.builtinNotComplex name.localName))
    else .slot d e (.complexType name) id
  | .type d e name =>
    if name.ns == schemaNamespace then
      .settled (match TypeDefinition.builtin? name.localName with
        | some definition => pure definition
        | none => malformed d e (.unknownBuiltin name.localName))
    else match unit.definition? .type name with
      | some definition =>
        if definition.element.name.localName == "complexType" then
          .slot d e (.complexType name) TypeDefinition.complex
        else .slot d e (.simpleType name) TypeDefinition.simple
      | none =>
        .settled (match unit.pool.type? name with
          | some definition => pure definition
          | none => unresolved d e name "type definition")
  | .group d e name => .slot d e (.group name) id
  | .attributeGroup d e name => .slot d e (.attributeGroup name) id
  | .attributeDecl d e name =>
    if name.ns == xmlNamespace then
      .settled do
        let name ← Compile.internName name
        pure { name, type := .builtin .string, default? := none, fixed? := none : AttributeDecl }
    else .slot d e (.attribute name) id

def definitionOf? (slot : Slot) : Option Definition :=
  (unit.definition? slot.key.kind slot.key.name).filter fun definition => slot.admits definition

def elsewhere (d : Document) (e : Element) : (slot : Slot) → Compile slot.Value
  | .simpleType name =>
    if (unit.definition? .type name).isSome then malformed d e (.notSimple name.localName)
    else unit.earlierSimpleType d e name
  | .complexType name =>
    if (unit.definition? .type name).isSome then malformed d e (.notComplex name.localName)
    else match unit.pool.type? name with
      | some definition =>
        match definition.complex? with
        | some type => pure type
        | none => malformed d e (.notComplex name.localName)
      | none => unresolved d e name "type definition"
  | .group name =>
    match unit.pool.group? name with
    | some particle => pure particle
    | none => unresolved d e name "group"
  | .attributeGroup name =>
    match unit.pool.attributeGroup? name with
    | some group => pure group
    | none => unresolved d e name "attributeGroup"
  | .attribute name =>
    match unit.pool.attribute? name with
    | some decl => pure decl
    | none => unresolved d e name "attribute declaration"

def fill (inner : Names) (inProgress : List ComponentKey) (slot : Slot) (definition : Definition) :
    Compile slot.Value :=
  if slot.isGuarded then enter inProgress slot.key definition (slot.body definition inner)
  else do
    note inProgress slot.key
    slot.body definition inner

def fetch (inner : Names) (inProgress : List ComponentKey) (d : Document) (e : Element)
    (slot : Slot) : Compile slot.Value := do
  match (← get).stored slot with
  | some value => pure value
  | none =>
    match unit.definitionOf? slot with
    | none => unit.elsewhere d e slot
    | some definition => do
      let value ← fill inner inProgress slot definition
      modify fun st => st.keep slot value
      pure value

def inside (inProgress : List ComponentKey) (slot : Slot) : List ComponentKey :=
  if slot.isGuarded then slot.key :: inProgress else inProgress

theorem suffix_inside {inProgress : List ComponentKey} {slot : Slot} :
    inProgress <:+ inside inProgress slot := by
  unfold inside
  split
  · exact List.suffix_cons _ _
  · exact List.suffix_refl _

variable {unit} {nesting : Nat} {inProgress : List ComponentKey} {d : Document} {e : Element}
  {name : QName}

theorem definitionOf?_eq_none {slot : Slot}
    (undefined : unit.definition? slot.key.kind slot.key.name = none) :
    unit.definitionOf? slot = none := by
  rw [definitionOf?, undefined, Option.filter_none]

theorem definitionOf?_eq_some {slot : Slot} {definition : Definition}
    (defined : unit.definition? slot.key.kind slot.key.name = some definition) :
    unit.definitionOf? slot = if slot.admits definition then some definition else none := by
  rw [definitionOf?, defined, Option.filter_some]

theorem simpleType_eq_fetch (inner : ComponentKey → Names) (foreign : name.ns ≠ schemaNamespace) :
    unit.simpleType inner inProgress d e name =
      unit.fetch (inner ⟨.type, name⟩) inProgress d e (.simpleType name) := by
  unfold simpleType fetch
  simp only [beq_iff_eq, foreign, if_false]
  congr 1
  funext st
  have stored : st.stored (.simpleType name) = st.simpleTypes.lookup name := rfl
  rw [stored]
  cases st.simpleTypes.lookup name with
  | some type => rfl
  | none =>
    cases defined : unit.definition? .type name with
    | none =>
      rw [definitionOf?_eq_none defined]
      simp only [elsewhere, defined, Option.isSome_none, Bool.false_eq_true, if_false]
    | some definition =>
      rw [definitionOf?_eq_some defined]
      by_cases fits : definition.element.name.localName = "simpleType"
      · simp only [Slot.admits, fits, bne_self_eq_false, beq_self_eq_true, if_true,
          Bool.false_eq_true, if_false]
        rfl
      · simp only [Slot.admits, fits, bne_iff_ne, ne_eq, not_false_iff, beq_iff_eq, if_true,
          if_false, elsewhere, defined, Option.isSome_some]
        rfl

theorem complexType_eq_fetch (inner : ComponentKey → Names) (foreign : name.ns ≠ schemaNamespace) :
    unit.complexType inner inProgress d e name =
      unit.fetch (inner ⟨.type, name⟩) inProgress d e (.complexType name) := by
  unfold complexType fetch
  simp only [beq_iff_eq, foreign, if_false]
  congr 1
  funext st
  have stored : st.stored (.complexType name) = st.complexTypes.lookup name := rfl
  rw [stored]
  cases st.complexTypes.lookup name with
  | some type => rfl
  | none =>
    cases defined : unit.definition? .type name with
    | none =>
      rw [definitionOf?_eq_none defined]
      exact (if_neg (by simp only [defined, Option.isSome_none, Bool.false_eq_true,
        not_false_iff])).symm
    | some definition =>
      rw [definitionOf?_eq_some defined]
      by_cases fits : definition.element.name.localName = "complexType"
      · simp only [Slot.admits, fits, bne_self_eq_false, beq_self_eq_true, if_true,
          Bool.false_eq_true, if_false]
        rfl
      · simp only [Slot.admits, fits, bne_iff_ne, ne_eq, not_false_iff, beq_iff_eq, if_true,
          if_false, elsewhere, defined, Option.isSome_some]
        rfl

theorem group_eq_fetch (inner : ComponentKey → Names) :
    unit.group inner inProgress d e name =
      unit.fetch (inner ⟨.group, name⟩) inProgress d e (.group name) := by
  unfold group fetch
  congr 1
  funext st
  have stored : st.stored (.group name) = st.groups.lookup name := rfl
  rw [stored]
  cases st.groups.lookup name with
  | some particle => rfl
  | none =>
    cases defined : unit.definition? .group name with
    | none =>
      rw [definitionOf?_eq_none defined]
      rfl
    | some definition =>
      rw [definitionOf?_eq_some defined]
      simp only [Slot.admits, if_true, fill, Slot.isGuarded, Slot.body, Slot.groupParticle, enter,
        Slot.key]
      by_cases entered : inProgress.contains ⟨.group, name⟩ = true
      · simp only [entered, if_true]
        rfl
      · simp only [entered, Bool.false_eq_true, if_false]
        cases (schemaChildren definition.element).find? fun c =>
            c.name.localName == "all" || c.name.localName == "choice" ||
              c.name.localName == "sequence" with
        | none => rfl
        | some model =>
          simp only [bind_assoc, pure_bind]
          rfl

theorem attributeGroup_eq_fetch (inner : ComponentKey → Names) :
    unit.attributeGroup inner inProgress d e name =
      unit.fetch (inner ⟨.attributeGroup, name⟩) inProgress d e (.attributeGroup name) := by
  unfold attributeGroup fetch
  congr 1
  funext st
  have stored : st.stored (.attributeGroup name) = st.attributeGroups.lookup name := rfl
  rw [stored]
  cases st.attributeGroups.lookup name with
  | some group => rfl
  | none =>
    cases defined : unit.definition? .attributeGroup name with
    | none =>
      rw [definitionOf?_eq_none defined]
      rfl
    | some definition =>
      rw [definitionOf?_eq_some defined]
      simp only [Slot.admits, if_true, fill, Slot.isGuarded, Slot.body, enter, Slot.key]
      by_cases entered : inProgress.contains ⟨.attributeGroup, name⟩ = true
      · simp only [entered, if_true]
        rfl
      · simp only [entered, Bool.false_eq_true, if_false, bind_assoc, pure_bind]
        rfl

theorem attributeDecl_eq_fetch (names : Names) (foreign : name.ns ≠ xmlNamespace) :
    unit.attributeDecl names inProgress d e name =
      unit.fetch names inProgress d e (.attribute name) := by
  unfold attributeDecl fetch
  simp only [beq_iff_eq, foreign, if_false]
  congr 1
  funext st
  have stored : st.stored (.attribute name) = st.attributes.lookup name := rfl
  rw [stored]
  cases st.attributes.lookup name with
  | some decl => rfl
  | none =>
    cases defined : unit.definition? .attribute name with
    | none =>
      rw [definitionOf?_eq_none defined]
      rfl
    | some definition =>
      rw [definitionOf?_eq_some defined]
      rfl

theorem ask_namesWithin (q : Query) :
    (unit.namesWithin (nesting + 1) inProgress).ask q =
      match unit.origin q with
      | .settled answer => answer
      | .slot d e slot view =>
        view <$> unit.fetch (unit.namesWithin nesting (inside inProgress slot)) inProgress d e slot := by
  cases q with
  | isElement d e name => rfl
  | isType d e name => rfl
  | simpleType d e name =>
    rw [ask_simpleType]
    by_cases builtIn : name.ns = schemaNamespace
    · simp only [simpleType, origin, builtIn, beq_self_eq_true, if_true]
      rfl
    · rw [simpleType_eq_fetch _ builtIn]
      simp only [origin, beq_iff_eq, builtIn, if_false]
      exact (id_map _).symm
  | complexType d e name =>
    rw [ask_complexType]
    by_cases builtIn : name.ns = schemaNamespace
    · simp only [complexType, origin, builtIn, beq_self_eq_true, if_true]
      rfl
    · rw [complexType_eq_fetch _ builtIn]
      simp only [origin, beq_iff_eq, builtIn, if_false]
      exact (id_map _).symm
  | type d e name =>
    rw [ask_type]
    by_cases builtIn : name.ns = schemaNamespace
    · simp only [type, origin, builtIn, beq_self_eq_true, if_true]
      rfl
    · simp only [type, origin, beq_iff_eq, builtIn, if_false]
      cases unit.definition? .type name with
      | none => rfl
      | some definition =>
        by_cases complex : definition.element.name.localName = "complexType"
        · simp only [complex, if_true, complexType_eq_fetch _ builtIn]
          rfl
        · simp only [complex, if_false, simpleType_eq_fetch _ builtIn]
          rfl
  | group d e name =>
    rw [ask_group, group_eq_fetch]
    exact (id_map _).symm
  | attributeGroup d e name =>
    rw [ask_attributeGroup, attributeGroup_eq_fetch]
    exact (id_map _).symm
  | attributeDecl d e name =>
    rw [ask_attributeDecl]
    by_cases builtIn : name.ns = xmlNamespace
    · simp only [attributeDecl, origin, builtIn, beq_self_eq_true, if_true]
      rfl
    · rw [attributeDecl_eq_fetch _ builtIn]
      simp only [origin, beq_iff_eq, builtIn, if_false]
      exact (id_map _).symm

end CompilationUnit

def Slot.IsForeign : Slot → Prop
  | .simpleType name | .complexType name => name.ns ≠ schemaNamespace
  | .attribute name => name.ns ≠ xmlNamespace
  | _ => True

theorem CompilationUnit.isForeign_of_origin {unit : CompilationUnit} {q : Query} {d : Document}
    {e : Element} {slot : Slot} {view : slot.Value → q.Answer}
    (comes : unit.origin q = .slot d e slot view) : slot.IsForeign := by
  cases q with
  | simpleType d e name | complexType d e name | attributeDecl d e name =>
    simp only [origin] at comes
    split at comes
    · cases comes
    · next foreign =>
      cases comes
      simpa [Slot.IsForeign] using foreign
  | type d e name =>
    simp only [origin] at comes
    split at comes
    · cases comes
    · next foreign =>
      split at comes
      · split at comes <;>
        · cases comes
          simpa [Slot.IsForeign] using foreign
      · cases comes
  | group d e name | attributeGroup d e name =>
    cases comes
    trivial
  | isElement d e name | isType d e name => cases comes

end XmlSchema.Schema
