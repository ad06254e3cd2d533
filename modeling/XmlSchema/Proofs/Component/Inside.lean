import XmlSchema.Proofs.Component.Reference

namespace XmlSchema.Component

open ContentModel (Particle ElementTerm Term)
open Datatype (SimpleType)

inductive ComplexType.HasTerm (t : ComplexType ElementDecl) (x : ElementTerm ElementDecl) : Prop
  | ofParticle {p : Particle ElementDecl} (given : t.particle = some p) (member : x ∈ p.elements)
  | ofModel {model : ContentModel ElementDecl} (content : t.content.model? = some model)
      (member : x ∈ model.elements)

namespace Part

def AllTypes (P : ComplexType ElementDecl → Prop) (part : Part) : Prop :=
  ∀ definition t, Relation.ReflTransGen Contains part (.type definition) →
    TypeDefinition.complex? definition = some t → P t

variable {P : ComplexType ElementDecl → Prop} {part : Part}

theorem allTypes_iff :
    part.AllTypes P ↔
      (∀ definition t, part = .type definition → definition.complex? = some t → P t) ∧
        ∀ inner, part.Contains inner → inner.AllTypes P := by
  constructor
  · intro all
    exact ⟨fun definition t same => all definition t (same ▸ .refl),
      fun inner contains definition t path => all definition t (path.head contains)⟩
  · rintro ⟨here, inside⟩ definition t path complex
    rcases path.cases_head with same | ⟨next, contains, rest⟩
    · exact here definition t same complex
    · exact inside next contains definition t rest complex

theorem allTypes_declaration {decl : ElementDecl}
    (type : ∀ key definition, decl.type = .inline key definition →
      (Part.type definition).AllTypes P) : (Part.declaration decl).AllTypes P := by
  refine allTypes_iff.2 ⟨fun _ _ same => (nomatch same), fun inner contains => ?_⟩
  cases contains with
  | inlineType given => exact type _ _ given

theorem allTypes_term {x : ElementTerm ElementDecl}
    (declared : ∀ decl, x.declaration = some decl → (Part.declaration decl).AllTypes P) :
    (Part.term x).AllTypes P := by
  refine allTypes_iff.2 ⟨fun _ _ same => (nomatch same), fun inner contains => ?_⟩
  cases contains with
  | localDeclaration given => exact declared _ given

theorem allTypes_simple {type : SimpleType} : (Part.type (.simple type)).AllTypes P := by
  refine allTypes_iff.2 ⟨?_, fun inner contains => ?_⟩
  · rintro _ _ ⟨⟩ ⟨⟩
  · cases contains with
    | ofParticle complex | ofModel complex => cases complex

theorem allTypes_type_iff {definition : TypeDefinition ElementDecl} {t : ComplexType ElementDecl}
    (complex : definition.complex? = some t) :
    (Part.type definition).AllTypes P ↔ P t ∧ ∀ x, t.HasTerm x → (Part.term x).AllTypes P := by
  rw [allTypes_iff]
  constructor
  · rintro ⟨here, inside⟩
    refine ⟨here definition t rfl complex, fun x has => ?_⟩
    cases has with
    | ofParticle given member => exact inside _ (.ofParticle complex given member)
    | ofModel given member => exact inside _ (.ofModel complex given member)
  · rintro ⟨here, inside⟩
    refine ⟨?_, fun inner contains => ?_⟩
    · rintro _ t' ⟨⟩ complex'
      exact Option.some.inj (complex.symm.trans complex') ▸ here
    · cases contains with
      | ofParticle complex' given member =>
        obtain rfl := Option.some.inj (complex.symm.trans complex')
        exact inside _ (.ofParticle given member)
      | ofModel complex' given member =>
        obtain rfl := Option.some.inj (complex.symm.trans complex')
        exact inside _ (.ofModel given member)

theorem AllTypes.mono {P' : ComplexType ElementDecl → Prop} (all : part.AllTypes P)
    (implies : ∀ t, P t → P' t) : part.AllTypes P' :=
  fun definition t path complex => implies t (all definition t path complex)

end Part

variable {P : ComplexType ElementDecl → Prop}

def ParticleAllTypes (P : ComplexType ElementDecl → Prop) (p : Particle ElementDecl) : Prop :=
  ∀ x ∈ p.elements, (Part.term x).AllTypes P

theorem particleAllTypes_element {min : Nat} {max : Option Nat} {x : ElementTerm ElementDecl}
    (all : (Part.term x).AllTypes P) : ParticleAllTypes P ⟨min, max, .element x⟩ := by
  intro y member
  obtain rfl : y = x := by simpa [Particle.elements, Term.elements] using member
  exact all

theorem particleAllTypes_wildcard {min : Nat} {max : Option Nat} {w : Wildcard} :
    ParticleAllTypes P ⟨min, max, .wildcard w⟩ := by
  intro x member
  simp [Particle.elements, Term.elements] at member

theorem ParticleAllTypes.occurring {p : Particle ElementDecl} (all : ParticleAllTypes P p)
    (min : Nat) (max : Option Nat) : ParticleAllTypes P ⟨min, max, p.term⟩ := by
  obtain ⟨_, _, _⟩ := p
  exact all

theorem not_hasTerm_anyType {x : ElementTerm ElementDecl} : ¬ ComplexType.HasTerm .anyType x := by
  have none : x ∉ (Particle.anyNumber ComplexType.anyWildcard : Particle ElementDecl).elements := by
    simp [Particle.anyNumber, Particle.elements, Term.elements]
  rintro (⟨given, member⟩ | ⟨content, member⟩)
  · cases given
    exact none member
  · cases content
    cases built : ContentModel.build (.anyNumber ComplexType.anyWildcard) with
    | error fault =>
      rw [built] at member
      cases member
    | ok model =>
      rw [built] at member
      exact none (ContentModel.mem_elements_of_build built member)

theorem allTypes_anyType (any : P .anyType) : (Part.type .anyType).AllTypes P :=
  (Part.allTypes_type_iff rfl).2 ⟨any, fun _ has => absurd has not_hasTerm_anyType⟩

theorem allTypes_builtin (any : P .anyType) {localName : String}
    {definition : TypeDefinition ElementDecl}
    (found : TypeDefinition.builtin? localName = some definition) :
    (Part.type definition).AllTypes P := by
  unfold TypeDefinition.builtin? at found
  split at found
  · cases found
    exact allTypes_anyType any
  · split at found
    · cases found
      exact Part.allTypes_simple
    · obtain ⟨item, _, rfl⟩ := Option.map_eq_some_iff.1 found
      exact Part.allTypes_simple

inductive Pool.Holds (pool : Pool) : Part → Prop
  | element {name : QName} {decl : ElementDecl} (found : pool.element? name = some decl) :
      pool.Holds (.declaration decl)
  | type {name : QName} {definition : TypeDefinition ElementDecl}
      (found : pool.type? name = some definition) : pool.Holds (.type definition)
  | group {name : QName} {p : Particle ElementDecl} {x : ElementTerm ElementDecl}
      (found : pool.group? name = some p) (member : x ∈ p.elements) : pool.Holds (.term x)

def Pool.HasComplexType (pool : Pool) (t : ComplexType ElementDecl) : Prop :=
  ∃ part definition, pool.Holds part ∧
    Relation.ReflTransGen Part.Contains part (.type definition) ∧ definition.complex? = some t

theorem Pool.forall_hasComplexType_iff {pool : Pool} :
    (∀ t, pool.HasComplexType t → P t) ↔ ∀ part, pool.Holds part → part.AllTypes P :=
  ⟨fun all part holds definition t path complex => all t ⟨part, definition, holds, path, complex⟩,
    fun all t ⟨part, definition, holds, path, complex⟩ => all part holds definition t path complex⟩

theorem Pool.allTypes_of_empty (any : P .anyType) {part : Part} (holds : Pool.Holds {} part) :
    part.AllTypes P := by
  cases holds with
  | element found => simp [Pool.element?, Pool.grammar?] at found
  | @type name definition found =>
    by_cases builtIn : name.ns = schemaNamespace
    · simp only [Pool.type?, builtIn, beq_self_eq_true, if_true] at found
      exact allTypes_builtin any found
    · simp [Pool.type?, builtIn, Pool.grammar?] at found
  | group found => simp [Pool.group?, Pool.grammar?] at found

end XmlSchema.Component
