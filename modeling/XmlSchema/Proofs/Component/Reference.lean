import Mathlib.Logic.Relation
import XmlSchema.Proofs.Component.Pool
import XmlSchema.Proofs.ContentModel.Labels

namespace XmlSchema.Component

open ContentModel (Particle ElementTerm Term)
open Datatype (SimpleType)

structure Known where
  type : QName → Prop
  element : QName → Prop

def Pool.known (pool : Pool) : Known where
  type name := (pool.type? name).isSome
  element name := (pool.element? name).isSome

def ContentType.model? {δ : Type} : ContentType δ → Option (ContentModel δ)
  | .empty | .simple _ => none
  | .elementOnly model | .mixed model => some model

inductive Part where
  | declaration (decl : ElementDecl)
  | type (definition : TypeDefinition ElementDecl)
  | term (e : ElementTerm ElementDecl)

namespace Part

inductive Contains : Part → Part → Prop
  | inlineType {decl : ElementDecl} {key : TypeKey} {definition : TypeDefinition ElementDecl}
      (given : decl.type = .inline key definition) :
      Contains (.declaration decl) (.type definition)
  | ofParticle {definition : TypeDefinition ElementDecl} {type : ComplexType ElementDecl}
      {p : Particle ElementDecl} {e : ElementTerm ElementDecl}
      (complex : definition.complex? = some type) (particle : type.particle = some p)
      (member : e ∈ p.elements) : Contains (.type definition) (.term e)
  | ofModel {definition : TypeDefinition ElementDecl} {type : ComplexType ElementDecl}
      {model : ContentModel ElementDecl} {e : ElementTerm ElementDecl}
      (complex : definition.complex? = some type) (content : type.content.model? = some model)
      (member : e ∈ model.elements) : Contains (.type definition) (.term e)
  | localDeclaration {e : ElementTerm ElementDecl} {decl : ElementDecl}
      (declared : e.declaration = some decl) : Contains (.term e) (.declaration decl)

def Resolves (known : Known) : Part → Prop
  | .declaration decl => ∀ name, decl.type = .named name → known.type name
  | .type definition => ∀ type, definition.complex? = some type →
      ∀ name derivation, type.base = some (name, derivation) → known.type name
  | .term e => e.declaration = none → known.element e.name

def Closed (known : Known) (part : Part) : Prop :=
  ∀ inner, Relation.ReflTransGen Contains part inner → inner.Resolves known

variable {known more : Known} {part : Part}

theorem closed_iff :
    part.Closed known ↔ part.Resolves known ∧ ∀ inner, part.Contains inner → inner.Closed known := by
  constructor
  · intro closed
    exact ⟨closed part .refl, fun inner contains within path => closed within (path.head contains)⟩
  · rintro ⟨resolves, closed⟩ inner path
    rcases path.cases_head with rfl | ⟨next, contains, rest⟩
    · exact resolves
    · exact closed next contains inner rest

theorem Resolves.mono (types : ∀ name, known.type name → more.type name)
    (elements : ∀ name, known.element name → more.element name) (resolves : part.Resolves known) :
    part.Resolves more := by
  cases part with
  | declaration decl => exact fun name given => types name (resolves name given)
  | type definition =>
    exact fun type complex name derivation base =>
      types name (resolves type complex name derivation base)
  | term e => exact fun isGlobal => elements e.name (resolves isGlobal)

theorem Closed.mono (types : ∀ name, known.type name → more.type name)
    (elements : ∀ name, known.element name → more.element name) (closed : part.Closed known) :
    part.Closed more :=
  fun inner path => (closed inner path).mono types elements

end Part

def ParticleClosed (known : Known) (p : Particle ElementDecl) : Prop :=
  ∀ e ∈ p.elements, (Part.term e).Closed known

variable {known : Known}

def TypeRefClosed (known : Known) : TypeRef ElementDecl → Prop
  | .named name => known.type name
  | .inline _ definition => (Part.type definition).Closed known

theorem closed_declaration {decl : ElementDecl} (closed : TypeRefClosed known decl.type) :
    (Part.declaration decl).Closed known := by
  refine Part.closed_iff.2 ⟨fun name given => ?_, fun inner contains => ?_⟩
  · rw [given] at closed
    exact closed
  · cases contains with
    | inlineType given =>
      rw [given] at closed
      exact closed

theorem closed_localTerm {name : QName} {decl : ElementDecl}
    (closed : (Part.declaration decl).Closed known) :
    (Part.term ⟨name, some decl⟩).Closed known := by
  refine Part.closed_iff.2 ⟨(nomatch ·), fun inner contains => ?_⟩
  cases contains with
  | localDeclaration declared =>
    cases declared
    exact closed

theorem closed_globalTerm {name : QName} (isKnown : known.element name) :
    (Part.term ⟨name, none⟩).Closed known := by
  refine Part.closed_iff.2 ⟨fun _ => isKnown, fun inner contains => ?_⟩
  cases contains with
  | localDeclaration declared => cases declared

theorem particleClosed_element {min : Nat} {max : Option Nat} {e : ElementTerm ElementDecl}
    (closed : (Part.term e).Closed known) : ParticleClosed known ⟨min, max, .element e⟩ := by
  intro e' member
  obtain rfl : e' = e := by simpa [Particle.elements, Term.elements] using member
  exact closed

theorem particleClosed_wildcard {min : Nat} {max : Option Nat} {w : Wildcard} :
    ParticleClosed known ⟨min, max, .wildcard w⟩ := by
  intro e member
  simp [Particle.elements, Term.elements] at member

theorem closed_of_mem_allElements {children : List (Particle ElementDecl)}
    (closed : ∀ p ∈ children, ParticleClosed known p) {e : ElementTerm ElementDecl}
    (member : e ∈ ContentModel.allElements children) : (Part.term e).Closed known := by
  obtain ⟨p, memberOf, member⟩ := ContentModel.mem_allElements.1 member
  exact closed p memberOf e member

theorem ParticleClosed.occurring {p : Particle ElementDecl} (closed : ParticleClosed known p)
    (min : Nat) (max : Option Nat) : ParticleClosed known ⟨min, max, p.term⟩ := by
  obtain ⟨_, _, _⟩ := p
  exact closed

theorem closed_simple {type : SimpleType} : (Part.type (.simple type)).Closed known := by
  refine Part.closed_iff.2 ⟨?_, fun inner contains => ?_⟩
  · intro _ complex
    cases complex
  · cases contains with
    | ofParticle complex | ofModel complex => cases complex

theorem closed_complex {type : ComplexType ElementDecl}
    (base : ∀ name derivation, type.base = some (name, derivation) → known.type name)
    (particle : ∀ p, type.particle = some p → ParticleClosed known p)
    (model : ∀ model, type.content.model? = some model → ∀ e ∈ model.elements,
      (Part.term e).Closed known) : (Part.type (.complex type)).Closed known := by
  refine Part.closed_iff.2 ⟨fun _ complex => ?_, fun inner contains => ?_⟩
  · cases complex
    exact base
  · cases contains with
    | ofParticle complex given member =>
      cases complex
      exact particle _ given _ member
    | ofModel complex given member =>
      cases complex
      exact model _ given _ member

theorem Part.Closed.ofComplex? {definition : TypeDefinition ElementDecl}
    {type : ComplexType ElementDecl} (closed : (Part.type definition).Closed known)
    (complex : definition.complex? = some type) : (Part.type (.complex type)).Closed known := by
  obtain ⟨resolves, inside⟩ := Part.closed_iff.1 closed
  refine closed_complex (resolves type complex) (fun p given e member => ?_)
    (fun model given e member => ?_)
  · exact inside _ (.ofParticle complex given member)
  · exact inside _ (.ofModel complex given member)

theorem Part.Closed.particle {type : ComplexType ElementDecl} {p : Particle ElementDecl}
    (closed : (Part.type (.complex type)).Closed known) (given : type.particle = some p) :
    ParticleClosed known p :=
  fun _ member => (Part.closed_iff.1 closed).2 _ (.ofParticle rfl given member)

theorem closed_of_build {p : Particle ElementDecl} {model : ContentModel ElementDecl}
    (closed : ParticleClosed known p) (built : ContentModel.build p = .ok model)
    {e : ElementTerm ElementDecl} (member : e ∈ model.elements) : (Part.term e).Closed known :=
  closed e (ContentModel.mem_elements_of_build built member)

theorem closed_anyType : (Part.type .anyType).Closed known := by
  have wildcards : ParticleClosed known (.anyNumber ComplexType.anyWildcard) :=
    particleClosed_wildcard
  have complex : (Part.type (.complex .anyType)).Closed known := by
    refine closed_complex (fun _ _ base => nomatch base) (fun p given => ?_)
      (fun model given e member => ?_)
    · cases given
      exact wildcards
    · cases given
      cases built : ContentModel.build (.anyNumber ComplexType.anyWildcard) with
      | error fault =>
        rw [built] at member
        cases member
      | ok model =>
        rw [built] at member
        exact closed_of_build wildcards built member
  obtain ⟨resolves, inside⟩ := Part.closed_iff.1 complex
  refine Part.closed_iff.2 ⟨resolves, fun inner contains => ?_⟩
  cases contains with
  | ofParticle complex given member =>
    cases complex
    exact inside _ (.ofParticle rfl given member)
  | ofModel complex given member =>
    cases complex
    exact inside _ (.ofModel rfl given member)

theorem closed_builtin {localName : String} {definition : TypeDefinition ElementDecl}
    (found : TypeDefinition.builtin? localName = some definition) :
    (Part.type definition).Closed known := by
  unfold TypeDefinition.builtin? at found
  split at found
  · cases found
    exact closed_anyType
  · split at found
    · cases found
      exact closed_simple
    · obtain ⟨item, _, rfl⟩ := Option.map_eq_some_iff.1 found
      exact closed_simple

/-- The parts of the components of a grammar that may refer to others. -/
inductive Grammar.Has (g : Grammar) : Part → Prop
  | element {name : String} {decl : ElementDecl} (member : (name, decl) ∈ g.elements.entries) :
      g.Has (.declaration decl)
  | type {name : String} {definition : TypeDefinition ElementDecl}
      (member : (name, definition) ∈ g.types.entries) : g.Has (.type definition)
  | group {name : String} {p : Particle ElementDecl} {e : ElementTerm ElementDecl}
      (member : (name, p) ∈ g.groups.entries) (element : e ∈ p.elements) : g.Has (.term e)

def Grammar.Closed (known : Known) (g : Grammar) : Prop := ∀ part, g.Has part → part.Closed known

theorem Grammar.Closed.merge {g h : Grammar} (closed : g.Closed known) (closedNew : h.Closed known) :
    (g.merge h).Closed known := by
  intro part has
  cases has with
  | element member =>
    rcases Table.mem_merge member with member | member
    · exact closed _ (.element member)
    · exact closedNew _ (.element member)
  | type member =>
    rcases Table.mem_merge member with member | member
    · exact closed _ (.type member)
    · exact closedNew _ (.type member)
  | group member element =>
    rcases Table.mem_merge member with member | member
    · exact closed _ (.group member element)
    · exact closedNew _ (.group member element)

def Pool.Closed (known : Known) (pool : Pool) : Prop := ∀ g ∈ pool.grammars, g.Closed known

namespace Pool

variable {pool : Pool} {name : QName}

theorem Closed.insert {g : Grammar} (closed : pool.Closed known) (closedNew : g.Closed known) :
    (pool.insert g).Closed known := by
  intro h member
  rcases mem_insert member with known | rfl | ⟨old, known, rfl⟩
  · exact closed h known
  · exact closedNew
  · exact (closed old known).merge closedNew

theorem Closed.element? {decl : ElementDecl} (closed : pool.Closed known)
    (found : pool.element? name = some decl) : (Part.declaration decl).Closed known := by
  obtain ⟨g, grammar, entry⟩ := Option.bind_eq_some_iff.1 found
  exact closed g (mem_of_grammar? grammar) _ (.element (Table.mem_of_get? entry))

theorem Closed.type? {definition : TypeDefinition ElementDecl} (closed : pool.Closed known)
    (found : pool.type? name = some definition) : (Part.type definition).Closed known := by
  unfold Pool.type? at found
  split at found
  · exact closed_builtin found
  · obtain ⟨g, grammar, entry⟩ := Option.bind_eq_some_iff.1 found
    exact closed g (mem_of_grammar? grammar) _ (.type (Table.mem_of_get? entry))

theorem Closed.group? {p : Particle ElementDecl} (closed : pool.Closed known)
    (found : pool.group? name = some p) : ParticleClosed known p := by
  obtain ⟨g, grammar, entry⟩ := Option.bind_eq_some_iff.1 found
  exact fun e member => closed g (mem_of_grammar? grammar) _ (.group (Table.mem_of_get? entry) member)

end Pool

end XmlSchema.Component
