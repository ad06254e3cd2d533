import XmlSchema.Proofs.Schema.Lenient
import XmlSchema.Proofs.Schema.UnitOrder

namespace XmlSchema.Schema

open Component
open Datatype (SimpleType)
open Xml (Element)
open Compile

def Slot.global : (slot : Slot) → slot.Value → Global slot.key.kind
  | .simpleType _, (type : SimpleType) => TypeDefinition.simple type
  | .complexType _, (type : ComplexType ElementDecl) => TypeDefinition.complex type
  | .group _, value | .attributeGroup _, value | .attribute _, value => value

namespace CompilationUnit

variable {unit : CompilationUnit} {n m : Nat} {d : Document} {e : Element} {names : Names}

def ComesTo (unit : CompilationUnit) (kind : ComponentKind) (name : QName) (value : Global kind) :
    Prop :=
  ∃ definition, unit.definition? kind name = some definition ∧ ∃ n,
    (globalOf (unit.lenient n) definition.document definition.element name.localName kind).Gives
      value

theorem ComesTo.unique {kind : ComponentKind} {name : QName} {value other : Global kind}
    (comes : unit.ComesTo kind name value) (comesOther : unit.ComesTo kind name other) :
    value = other := by
  obtain ⟨definition, found, n, gives⟩ := comes
  obtain ⟨definition', found', m, gives'⟩ := comesOther
  obtain rfl : definition = definition' := Option.some.inj (found.symm.trans found')
  have uniform := uniform_globalOf definition.document definition.element name.localName kind
  exact (gives_lenient_mono_of_uniform uniform (Nat.le_max_left n m) gives).unique
    (gives_lenient_mono_of_uniform uniform (Nat.le_max_right n m) gives')

theorem mem_of_definition? {docs : List Document} {pool : Pool} {kind : ComponentKind}
    {name : QName} {definition : Definition}
    (found : (ofDocuments docs pool).definition? kind name = some definition) :
    definition.document ∈ docs ∧ definition.document.target = name.ns ∧
      definition.element ∈ schemaChildren definition.document.root ∧
        Declares definition.element kind name.localName := by
  obtain ⟨before, after, index, _⟩ := List.lookup_eq_some_iff.1 found
  have member : (⟨kind, name⟩, definition) ∈ docs.flatMap definitionsOf := by
    change docs.flatMap definitionsOf = _ at index
    simp [index]
  obtain ⟨d, among, entry⟩ := List.mem_flatMap.1 member
  obtain ⟨rfl, isChild, target, declares⟩ := mem_definitionsOf.1 entry
  exact ⟨among, target.symm, isChild, declares⟩

def FindsByName (unit : CompilationUnit) : Prop :=
  ∀ kind name definition, unit.definition? kind name = some definition →
    definition.document.target = name.ns ∧ Declares definition.element kind name.localName

theorem findsByName_ofDocuments (docs : List Document) (pool : Pool) :
    (ofDocuments docs pool).FindsByName := fun _ _ _ found =>
  have ⟨_, target, _, declares⟩ := mem_of_definition? found
  ⟨target, declares⟩

theorem origin_simpleType {name : QName} (isForeign : name.ns ≠ schemaNamespace) :
    unit.origin (.simpleType d e name) = .slot d e (.simpleType name) id := by
  simp only [origin, beq_iff_eq, isForeign, if_false]

theorem origin_complexType {name : QName} (isForeign : name.ns ≠ schemaNamespace) :
    unit.origin (.complexType d e name) = .slot d e (.complexType name) id := by
  simp only [origin, beq_iff_eq, isForeign, if_false]

theorem origin_attributeDecl {name : QName} (isForeign : name.ns ≠ xmlNamespace) :
    unit.origin (.attributeDecl d e name) = .slot d e (.attribute name) id := by
  simp only [origin, beq_iff_eq, isForeign, if_false]

theorem origin_type_of_simple {name : QName} {definition : Definition}
    (isForeign : name.ns ≠ schemaNamespace)
    (found : unit.definitionOf? (.simpleType name) = some definition) :
    unit.origin (.type d e name) = .slot d e (.simpleType name) TypeDefinition.simple := by
  obtain ⟨defined, admits⟩ := Option.filter_eq_some_iff.1 found
  have defined : unit.definition? .type name = some definition := defined
  have isSimple : definition.element.name.localName = "simpleType" := by
    simpa [Slot.admits] using admits
  simp [origin, isForeign, defined, isSimple]

theorem origin_type_of_complex {name : QName} {definition : Definition}
    (isForeign : name.ns ≠ schemaNamespace)
    (found : unit.definitionOf? (.complexType name) = some definition) :
    unit.origin (.type d e name) = .slot d e (.complexType name) TypeDefinition.complex := by
  obtain ⟨defined, admits⟩ := Option.filter_eq_some_iff.1 found
  have defined : unit.definition? .type name = some definition := defined
  have isComplex : definition.element.name.localName = "complexType" := by
    simpa [Slot.admits] using admits
  simp [origin, isForeign, defined, isComplex]

theorem ask_lenient_of_definition {q : Query} {slot : Slot} {view : slot.Value → q.Answer}
    {definition : Definition} (comes : unit.origin q = .slot d e slot view)
    (found : unit.definitionOf? slot = some definition) :
    (unit.lenient (n + 1)).ask q = view <$> slot.body definition (unit.lenient n) := by
  rw [ask_lenient, lenientAnswer, comes]
  exact congrArg (view <$> ·) (lenientFresh_of_definition found)

theorem globalOf_eq_body {slot : Slot} {definition : Definition} (finds : unit.FindsByName)
    (isForeign : slot.IsForeign) (found : unit.definitionOf? slot = some definition) :
    globalOf (unit.lenient (n + 1)) definition.document definition.element slot.key.name.localName
      slot.key.kind = slot.global <$> slot.body definition (unit.lenient n) := by
  obtain ⟨defined, admits⟩ := Option.filter_eq_some_iff.1 found
  obtain ⟨target, _⟩ := finds _ _ _ defined
  have named : (⟨definition.document.target, slot.key.name.localName⟩ : QName) = slot.key.name := by
    rw [target]
  cases slot with
  | simpleType name =>
    have isSimple : definition.element.name.localName = "simpleType" := by
      simpa [Slot.admits] using admits
    simp only [Slot.key] at named ⊢
    simp only [globalOf, isSimple, if_true, named]
    exact congrArg (TypeDefinition.simple <$> ·)
      ((ask_lenient_of_definition (origin_simpleType isForeign) found).trans (id_map _))
  | complexType name =>
    have isComplex : definition.element.name.localName = "complexType" := by
      simpa [Slot.admits] using admits
    simp only [Slot.key] at named ⊢
    simp only [globalOf, isComplex, String.reduceEq, if_false, named]
    exact congrArg (TypeDefinition.complex <$> ·)
      ((ask_lenient_of_definition (origin_complexType isForeign) found).trans (id_map _))
  | group name =>
    simp only [Slot.key] at named ⊢
    simp only [globalOf, named]
    have comes : unit.origin (.group definition.document definition.element name) =
        .slot definition.document definition.element (.group name) id := rfl
    exact ask_lenient_of_definition comes found
  | attributeGroup name =>
    simp only [Slot.key] at named ⊢
    simp only [globalOf, named]
    have comes : unit.origin (.attributeGroup definition.document definition.element name) =
        .slot definition.document definition.element (.attributeGroup name) id := rfl
    exact ask_lenient_of_definition comes found
  | «attribute» name =>
    simp only [Slot.key] at named ⊢
    simp only [globalOf, named]
    exact ask_lenient_of_definition (origin_attributeDecl isForeign) found

theorem global_injective (slot : Slot) {value other : slot.Value}
    (same : slot.global value = slot.global other) : value = other := by
  cases slot with
  | simpleType name => exact TypeDefinition.simple.inj same
  | complexType name => exact TypeDefinition.complex.inj same
  | _ => exact same

theorem admits_of_gives {slot : Slot} {definition : Definition} {value : slot.Value}
    (declares : Declares definition.element slot.key.kind slot.key.name.localName)
    (stateless : names.Stateless)
    (gives : (globalOf names definition.document definition.element slot.key.name.localName
      slot.key.kind).Gives (slot.global value)) : slot.admits definition = true := by
  cases slot with
  | simpleType name =>
    by_cases isSimple : definition.element.name.localName = "simpleType"
    · simpa [Slot.admits] using isSimple
    · simp only [Slot.key, globalOf, isSimple, if_false] at gives
      obtain ⟨type, _, same⟩ := (stateless (.complexType _ _ _)).gives_map_iff.1 gives
      cases same
  | complexType name =>
    by_cases isSimple : definition.element.name.localName = "simpleType"
    · simp only [Slot.key, globalOf, isSimple, if_true] at gives
      obtain ⟨type, _, same⟩ := (stateless (.simpleType _ _ _)).gives_map_iff.1 gives
      cases same
    · have isType := declares.1
      unfold ComponentKind.ofElementName? at isType
      split at isType <;> simp_all [Slot.admits, Slot.key]
  | _ => rfl

theorem comesTo_iff_means (finds : unit.FindsByName) {slot : Slot} (isForeign : slot.IsForeign)
    {value : slot.Value} :
    unit.ComesTo slot.key.kind slot.key.name (slot.global value) ↔
      ∃ n, unit.MeansLeniently n slot value := by
  constructor
  · rintro ⟨definition, defined, n, gives⟩
    obtain ⟨_, declares⟩ := finds _ _ _ defined
    have found : unit.definitionOf? slot = some definition :=
      Option.filter_eq_some_iff.2 ⟨defined, admits_of_gives declares (stateless_lenient n) gives⟩
    have later := gives_lenient_mono_of_uniform (uniform_globalOf _ _ _ _) (Nat.le_succ n) gives
    have body : (slot.body definition (unit.lenient n)).Stateless :=
      (slot.uniform_body definition).stateless (stateless_lenient n)
    rw [globalOf_eq_body finds isForeign found] at later
    obtain ⟨other, givesOther, same⟩ := body.gives_map_iff.1 later
    obtain rfl := global_injective slot same
    exact ⟨n, definition, found, givesOther⟩
  · rintro ⟨n, definition, found, gives⟩
    have body : (slot.body definition (unit.lenient n)).Stateless :=
      (slot.uniform_body definition).stateless (stateless_lenient n)
    refine ⟨definition, (Option.filter_eq_some_iff.1 found).1, n + 1, ?_⟩
    rw [globalOf_eq_body finds isForeign found]
    exact body.gives_map_iff.2 ⟨value, gives, rfl⟩

theorem ComesTo.type {name : QName} {value : TypeDefinition ElementDecl}
    (comes : unit.ComesTo .type name value) :
    (∃ type, value = .simple type) ∨ ∃ type, value = .complex type := by
  obtain ⟨definition, _, n, gives⟩ := comes
  simp only [globalOf] at gives
  split at gives
  · obtain ⟨type, _, same⟩ := (stateless_lenient n (.simpleType _ _ _)).gives_map_iff.1 gives
    exact .inl ⟨type, same.symm⟩
  · obtain ⟨type, _, same⟩ := (stateless_lenient n (.complexType _ _ _)).gives_map_iff.1 gives
    exact .inr ⟨type, same.symm⟩

theorem ask_type_of_comesTo (finds : unit.FindsByName) {name : QName}
    (isForeign : name.ns ≠ schemaNamespace) {value : TypeDefinition ElementDecl}
    (comes : unit.ComesTo .type name value) :
    ∃ n, ((unit.lenient n).ask (.type d e name)).Gives value := by
  rcases comes.type with ⟨type, rfl⟩ | ⟨type, rfl⟩
  · obtain ⟨n, definition, found, gives⟩ :=
      (@comesTo_iff_means unit finds (.simpleType name) isForeign type).1 comes
    refine ⟨n + 1, ?_⟩
    rw [ask_lenient_of_definition (origin_type_of_simple isForeign found) found]
    exact (((Slot.simpleType name).uniform_body definition).stateless
      (stateless_lenient n)).gives_map_iff.2 ⟨type, gives, rfl⟩
  · obtain ⟨n, definition, found, gives⟩ :=
      (@comesTo_iff_means unit finds (.complexType name) isForeign type).1 comes
    refine ⟨n + 1, ?_⟩
    rw [ask_lenient_of_definition (origin_type_of_complex isForeign found) found]
    exact (((Slot.complexType name).uniform_body definition).stateless
      (stateless_lenient n)).gives_map_iff.2 ⟨type, gives, rfl⟩

theorem ComesTo.builtin (finds : unit.FindsByName) {name : QName}
    (builtIn : name.ns = schemaNamespace) {value : TypeDefinition ElementDecl}
    (comes : unit.ComesTo .type name value) :
    (TypeDefinition.builtin? name.localName : Option (TypeDefinition ElementDecl)).isSome := by
  obtain ⟨definition, defined, n, gives⟩ := comes
  obtain ⟨target, _⟩ := finds _ _ _ defined
  have stateless : (unit.lenient n).Stateless := stateless_lenient n
  simp only [globalOf] at gives
  split at gives
  · obtain ⟨type, given, _⟩ := (stateless (.simpleType _ _ _)).gives_map_iff.1 gives
    have settled := gives_lenient_succ n (.simpleType _ _ _) type given
    simp only [ask_lenient, lenientAnswer, origin, target, builtIn, beq_self_eq_true, if_true]
      at settled
    split at settled
    · next isType => rw [isType]; rfl
    all_goals exact absurd settled not_gives_throw
  · obtain ⟨type, given, _⟩ := (stateless (.complexType _ _ _)).gives_map_iff.1 gives
    have settled := gives_lenient_succ n (.complexType _ _ _) type given
    simp only [ask_lenient, lenientAnswer, origin, target, builtIn, beq_self_eq_true, if_true]
      at settled
    split at settled
    · next isType =>
      obtain ⟨type, isBuiltIn, _⟩ := Option.bind_eq_some_iff.1 isType
      rw [isBuiltIn]
      rfl
    · exact absurd settled not_gives_throw

theorem gives_isElement {name : QName} {answer : (Query.isElement d e name).Answer} :
    (names.ask (.isElement d e name)).Gives answer ↔ names.isElement name = true := by
  rw [Names.ask]
  cases names.isElement name with
  | true => exact ⟨fun _ => rfl, fun _ _ => rfl⟩
  | false => exact iff_of_false not_gives_throw Bool.false_ne_true

theorem gives_isType {name : QName} {answer : (Query.isType d e name).Answer} :
    (names.ask (.isType d e name)).Gives answer ↔ names.isType name = true := by
  rw [Names.ask]
  cases names.isType name with
  | true => exact ⟨fun _ => rfl, fun _ _ => rfl⟩
  | false => exact iff_of_false not_gives_throw Bool.false_ne_true

theorem exists_gives_of_uniform {α : Type} {f : Names → Compile α} (uniform : Uniform True f)
    (stateless : names.Stateless)
    (answers : ∀ q answer, (names.ask q).Gives answer → ∃ n, ((unit.lenient n).ask q).Gives answer)
    {a : α} (gives : (f names).Gives a) : ∃ n, (f (unit.lenient n)).Gives a := by
  have runStateless (program : Program α) := program.uniform.stateless stateless
  obtain ⟨program, -, runs⟩ := uniform
  simp only [runs] at gives ⊢
  clear runs
  induction program with
  | result b | fail fault => exact ⟨0, gives⟩
  | intern name rest ih =>
    obtain ⟨_, _, givesRest⟩ :=
      ((stateless_modify _).gives_bind_iff fun _ => runStateless rest).1 gives
    obtain ⟨n, holds⟩ := ih givesRest
    exact ⟨n, Gives.bind (fun _ => rfl) holds⟩
  | ask q rest ih =>
    obtain ⟨answer, answered, givesRest⟩ :=
      ((stateless q).gives_bind_iff fun answer => runStateless (rest answer)).1 gives
    obtain ⟨n, first⟩ := answers q answer answered
    obtain ⟨m, later⟩ := ih answer givesRest
    -- The answer and what is done with it may need different depths.
    exact ⟨max n m, (gives_lenient_mono (Nat.le_max_left n m) q answer first).bind
      (gives_lenient_mono_of_uniform (rest answer).uniform (Nat.le_max_right n m) later)⟩

end CompilationUnit

end XmlSchema.Schema
