import XmlSchema.Proofs.Component.Reference
import XmlSchema.Proofs.Schema.Uniform
import XmlSchema.Proofs.Schema.Yield

namespace XmlSchema.Schema

open Component
open ContentModel (Particle ElementTerm Term allElements)
open Datatype (SimpleType)
open Xml (Element)
open Compile

structure CompilerState.Closed (known : Known) (st : CompilerState) : Prop where
  complexType : ∀ name type, st.complexTypes.lookup name = some type →
    known.type name ∧ (Part.type (.complex type)).Closed known
  group : ∀ name p, st.groups.lookup name = some p → ParticleClosed known p

namespace CompilerState

variable {known : Known} {st : CompilerState} {name : QName}

theorem Closed.addComplexType (closed : st.Closed known) {type : ComplexType ElementDecl}
    (isKnown : known.type name) (closedType : (Part.type (.complex type)).Closed known) :
    CompilerState.Closed known { st with complexTypes := (name, type) :: st.complexTypes } := by
  refine ⟨fun other result cached => ?_, closed.group⟩
  simp only [lookup_cons_eq] at cached
  split at cached
  · next same =>
    cases cached
    exact ⟨same ▸ isKnown, closedType⟩
  · exact closed.complexType other result cached

theorem Closed.addGroup (closed : st.Closed known) {p : Particle ElementDecl}
    (closedGroup : ParticleClosed known p) :
    CompilerState.Closed known { st with groups := (name, p) :: st.groups } := by
  refine ⟨closed.complexType, fun other result cached => ?_⟩
  simp only [lookup_cons_eq] at cached
  split at cached
  · cases cached
    exact closedGroup
  · exact closed.group other result cached

end CompilerState

theorem ignoresUnread_closed (known : Known) : IgnoresUnread (CompilerState.Closed known) :=
  fun _ _ _ closed => ⟨closed.complexType, closed.group⟩

def Query.Closed (known : Known) : (q : Query) → q.Answer → Prop
  | .isElement _ _ name, _ => known.element name
  | .isType _ _ name, _ => name.ns ≠ schemaNamespace → known.type name
  | .complexType _ _ name, (t : ComplexType ElementDecl) =>
      known.type name ∧ (Part.type (.complex t)).Closed known
  | .type _ _ name, (_ : TypeDefinition ElementDecl) => known.type name
  | .group .., (p : Particle ElementDecl) => ParticleClosed known p
  | .simpleType .., _ | .attributeGroup .., _ | .attributeDecl .., _ => True

def Names.AnswersClosed (known : Known) (names : Names) : Prop :=
  ∀ q, Yields (CompilerState.Closed known) (names.ask q) (q.Closed known)

variable {known : Known} {names : Names}

theorem closed_initial (symbols : SymbolTable) : CompilerState.Closed known { symbols } :=
  ⟨fun _ _ found => (nomatch found), fun _ _ found => (nomatch found)⟩

theorem Names.AnswersClosed.isElement (closed : names.AnswersClosed known) (d : Document)
    (e : Element) {name : QName} (isElement : names.isElement name = true) : known.element name := by
  have ran : (names.ask (.isElement d e name)).run {} = (.ok (), {}) := by
    simp only [Names.ask, isElement, if_true]
    rfl
  exact (closed _ _ _ _ (closed_initial {}) ran).2

theorem Names.AnswersClosed.isType (closed : names.AnswersClosed known) (d : Document)
    (e : Element) {name : QName} (isType : names.isType name = true)
    (foreign : name.ns ≠ schemaNamespace) : known.type name := by
  have ran : (names.ask (.isType d e name)).run {} = (.ok (), {}) := by
    simp only [Names.ask, isType, if_true]
    rfl
  exact (closed _ _ _ _ (closed_initial {}) ran).2 foreign

namespace Definition

theorem keeps {α : Type} {f : Names → Compile α} (uniform : Uniform True f)
    (closed : names.AnswersClosed known) :
    Yields (CompilerState.Closed known) (f names) fun _ => True :=
  uniform.yields (ignoresUnread_closed known) fun q => (closed q).mono fun _ _ => trivial

theorem yields_typeRef (closed : names.AnswersClosed known) (d : Document) (e : Element)
    (name : QName) :
    Yields (CompilerState.Closed known) (typeRef names d e name) (TypeRefClosed known) := by
  unfold typeRef
  split
  · cases found : TypeDefinition.builtin? name.localName with
    | none => exact yields_throw _
    | some definition => exact yields_pure (closed_builtin found)
  · next foreign =>
    split
    · next isType =>
      have isKnown := closed.isType d e isType (by simpa using foreign)
      exact (yields_internName (ignoresUnread_closed known) name).bind fun _ same =>
        yields_pure (same ▸ isKnown)
    · exact yields_throw _

structure Body.Closed (known : Known) (body : Body) : Prop where
  base : ∀ name derivation, body.base = some (name, derivation) → known.type name
  particle : ∀ p, body.particle = some p → ParticleClosed known p

theorem yields_simpleBody (closed : names.AnswersClosed known) (d : Document)
    (typeName : String) (mixed : Bool) (step : Element) (derivation : Derivation) {base : QName}
    (isKnown : known.type base) (set : AttributeSet) (baseType : SimpleType) :
    Yields (CompilerState.Closed known)
      (simpleBody names d typeName mixed step derivation base set baseType) (Body.Closed known) := by
  have body (name : QName) (same : name = base) (type : SimpleType) (set : AttributeSet) :
      Body.Closed known
        { base := some (name, derivation), mixed, simple := some type, attributes := set } := by
    refine ⟨?_, ?_⟩
    · intro name _ equal
      cases equal
      exact same ▸ isKnown
    · intro p equal
      cases equal
  have named (type : SimpleType) := (keeps (uniform_attributes d step set) closed).bind
    fun attributes _ => (yields_internName (ignoresUnread_closed known) base).bind
      fun name same => yields_pure (body name same type attributes)
  unfold simpleBody
  cases derivation with
  | extension => exact (yields_pure trivial).bind fun _ (_ : True) => named _
  | restriction =>
    exact (keeps (uniform_facets _ _) closed).bind fun _ _ =>
      (yields_pure trivial).bind fun _ (_ : True) => named _

theorem yields_simpleContent (closed : names.AnswersClosed known) (d : Document)
    (typeName : String) (mixed : Bool) (content : Element) :
    Yields (CompilerState.Closed known) (simpleContent names d typeName mixed content)
      (Body.Closed known) := by
  unfold simpleContent
  split
  · exact yields_throw _
  · next step derivation _ =>
    have derived {base : QName} (isKnown : known.type base) :=
      yields_simpleBody closed d typeName mixed step derivation isKnown
    refine (keeps (uniform_reference _ _ _) closed).bind fun base _ =>
      Yields.bind (closed (.type d step base)) fun definition isKnown => ?_
    simp only [Query.Closed] at isKnown
    dsimp only
    split
    · exact (yields_pure trivial).bind fun _ (_ : True) => derived isKnown _ _
    · split
      · split
        · exact (yields_pure trivial).bind fun _ (_ : True) => derived isKnown _ _
        · exact (yields_throw _).bind fun _ (_ : True) => derived isKnown _ _
      · exact (yields_throw _).bind fun _ (_ : True) => derived isKnown _ _

theorem yields_contentType (d : Document) (e : Element) (typeName : String) (body : Body)
    (particle : ∀ p, body.particle = some p → ParticleClosed known p) :
    Yields (CompilerState.Closed known) (contentType d e typeName body) fun result =>
      ∀ model, result.1.model? = some model → ∀ e ∈ model.elements,
        (Part.term e).Closed known := by
  unfold contentType
  split
  · refine yields_pure fun model given e member => ?_
    split at given <;> cases given
    cases member
  · next p given =>
    cases built : ContentModel.build p with
    | error fault => cases fault <;> exact yields_throw _
    | ok model =>
      refine yields_pure fun model' given' e member => ?_
      dsimp only at given'
      split at given' <;> cases given' <;> exact closed_of_build (particle p given) built member

theorem yields_ofBody (d : Document) (e : Element) (name : Option QName) (typeName : String)
    {body : Body} (closed : body.Closed known) :
    Yields (CompilerState.Closed known) (ofBody d e name typeName body) fun type =>
      (Part.type (.complex type)).Closed known := by
  unfold ofBody
  dsimp only
  split
  · exact Yields.bind (P := fun result => result.1.model? = none) (yields_pure rfl)
      fun result simple => yields_pure (closed_complex closed.base closed.particle
        fun model given => by
          rw [simple] at given
          cases given)
  · exact (yields_contentType d e typeName body closed.particle).bind fun result elements =>
      yields_pure (closed_complex closed.base closed.particle elements)

theorem closed_extendedParticle {inherited own : Option (Particle ElementDecl)}
    (closed : ∀ p, inherited = some p → ParticleClosed known p)
    (closedOwn : ∀ p, own = some p → ParticleClosed known p) :
    ∀ p, extendedParticle inherited own = some p → ParticleClosed known p := by
  intro p extended
  match inherited, own with
  | none, own => exact closedOwn p extended
  | some inherited, none => exact closed p extended
  | some inherited, some own =>
    cases extended
    have both : ∀ q ∈ [inherited, own], ParticleClosed known q := by
      simp [closed inherited rfl, closedOwn own rfl]
    exact fun e member => closed_of_mem_allElements both member

mutual

theorem yields_elementDecl (closed : names.AnswersClosed known) (d : Document) :
    (depth : Nat) → (e : Element) → (isGlobal : Bool) →
    Yields (CompilerState.Closed known) (elementDecl names d depth e isGlobal) fun decl =>
      (Part.declaration decl).Closed known
  | 0, _, _ => yields_throw _
  | depth + 1, e, isGlobal => by
      have declared (ns localName : String) (type : TypeRef ElementDecl)
          (closedType : TypeRefClosed known type) : Yields (CompilerState.Closed known) (do
            pure { name := ← internName ⟨ns, localName⟩, type, nillable := isTrue e "nillable",
                   default? := e.attribute? "default", fixed? := e.attribute? "fixed",
                   isAbstract := isTrue e "abstract" })
            fun decl => (Part.declaration decl).Closed known :=
        (yields_internName (ignoresUnread_closed known) _).bind fun _ _ =>
          yields_pure (closed_declaration closedType)
      simp only [elementDecl]
      split
      · exact yields_throw _
      · split
        · exact (keeps (uniform_qName _ _ _) closed).bind fun name _ =>
            (yields_typeRef closed d e name).bind (declared _ _)
        · exact (yields_complexType closed d depth _ _).bind fun _ closedType =>
            Yields.bind (yields_pure closedType) (declared _ _)
        · exact (keeps (uniform_simpleTypeOf _ _ _) closed).bind fun _ _ =>
            Yields.bind (yields_pure closed_simple) (declared _ _)
        · exact Yields.bind (yields_pure closed_anyType) (declared _ _)

theorem yields_particle (closed : names.AnswersClosed known) (d : Document) :
    (depth : Nat) → (e : Element) →
    Yields (CompilerState.Closed known) (particle names d depth e) fun p? =>
      ∀ p, p? = some p → ParticleClosed known p
  | 0, _ => yields_throw _
  | depth + 1, e => by
      have occurring (min : Nat) (max : Option Nat) {term : Term ElementDecl}
          (closedTerm : ParticleClosed known ⟨min, max, term⟩) :
          Yields (CompilerState.Closed known) (pure (some ⟨min, max, term⟩))
            fun p? => ∀ p, p? = some p → ParticleClosed known p :=
        yields_pure fun p equal => by
          cases equal
          exact closedTerm
      have children (es : List Element) : Yields (CompilerState.Closed known)
          (es.mapM (particle names d depth)) fun ps =>
            ∀ e ∈ allElements (ps.filterMap id), (Part.term e).Closed known :=
        (yields_mapM es (yields_particle closed d depth)).mono fun ps closedAll e member =>
          closed_of_mem_allElements (fun p among => by
            obtain ⟨p?, given, equal⟩ := List.mem_filterMap.1 among
            exact closedAll p? given p equal) member
      simp only [particle]
      refine (keeps (uniform_occurs _ _) closed).bind fun bounds _ => ?_
      split
      · split
        · refine (keeps (uniform_qName _ _ _) closed).bind fun name _ => ?_
          split
          · next isElement =>
            exact (yields_internName (ignoresUnread_closed known) name).bind fun _ same =>
              occurring _ _ (particleClosed_element
                (closed_globalTerm (same ▸ closed.isElement d e isElement)))
          · exact yields_throw _
        · exact (yields_elementDecl closed d depth _ _).bind fun decl closedDecl =>
            occurring _ _ (particleClosed_element (closed_localTerm closedDecl))
      · exact (keeps (uniform_wildcard _ _) closed).bind fun _ _ =>
          occurring _ _ particleClosed_wildcard
      · exact (keeps (uniform_reference _ _ _) closed).bind fun name _ =>
          Yields.bind (closed (.group d e name)) fun p closedGroup => by
            simp only [Query.Closed] at closedGroup
            exact occurring _ _ (closedGroup.occurring _ _)
      · exact (children _).bind fun _ closedAll => occurring _ _ closedAll
      · exact (children _).bind fun _ closedAll => occurring _ _ closedAll
      · exact (children _).bind fun _ closedAll => occurring _ _ closedAll
      · exact yields_pure (fun _ equal => nomatch equal)

theorem yields_complexType (closed : names.AnswersClosed known) (d : Document) :
    (depth : Nat) → (e : Element) → (name : Option QName) →
    Yields (CompilerState.Closed known) (complexType names d depth e name) fun type =>
      (Part.type (.complex type)).Closed known
  | 0, _, _ => yields_throw _
  | depth + 1, e, name => by
      have derived (step : Element) (typeName : String) (mixed : Bool) (derivation : Derivation)
          {baseName : QName} (isKnown : known.type baseName) {baseType : ComplexType ElementDecl}
          (closedBase : (Part.type (.complex baseType)).Closed known)
          (own : Option (Particle ElementDecl))
          (closedOwn : ∀ p, own = some p → ParticleClosed known p) :
          Yields (CompilerState.Closed known) (do
            let attributes ← attributes names d step (.inherited baseType)
            let base := some (← internName baseName, derivation)
            let body ← pure (match derivation with
              | .extension =>
                { base, mixed, particle := extendedParticle baseType.particle own,
                  attributes : Body }
              | .restriction =>
                { base, mixed, particle := own, attributes, restricted := some baseType })
            ofBody d e name typeName body)
            fun type => (Part.type (.complex type)).Closed known := by
        refine (keeps (uniform_attributes _ _ _) closed).bind fun _ _ =>
          (yields_internName (ignoresUnread_closed known) _).bind fun result same =>
            Yields.bind (P := Body.Closed known) (yields_pure ?_)
              fun _ closedBody => yields_ofBody _ _ _ _ closedBody
        have base : ∀ name by', some (result, derivation) = some (name, by') → known.type name := by
          intro name _ equal
          cases equal
          exact same ▸ isKnown
        cases derivation with
        | extension =>
          exact ⟨base, closed_extendedParticle (fun p given => closedBase.particle given) closedOwn⟩
        | restriction => exact ⟨base, closedOwn⟩
      have plain (typeName : String) (mixed : Bool) (own : Option (Particle ElementDecl))
          (closedOwn : ∀ p, own = some p → ParticleClosed known p) :
          Yields (CompilerState.Closed known) (do
            let attributes ← attributes names d e {}
            let body ← pure { mixed, particle := own, attributes : Body }
            ofBody d e name typeName body)
            fun type => (Part.type (.complex type)).Closed known :=
        (keeps (uniform_attributes _ _ _) closed).bind fun _ _ =>
          Yields.bind (P := Body.Closed known)
            (yields_pure ⟨fun _ _ equal => (nomatch equal), closedOwn⟩)
            fun _ closedBody => yields_ofBody _ _ _ _ closedBody
      simp only [complexType]
      split
      · exact (yields_simpleContent closed _ _ _ _).bind fun _ closedBody =>
          yields_ofBody _ _ _ _ closedBody
      · split
        · exact (yields_throw _).bind fun _ closedBody => yields_ofBody _ _ _ _ closedBody
        · refine (keeps (uniform_reference _ _ _) closed).bind fun baseName _ =>
            Yields.bind (closed (.complexType d _ baseName)) fun baseType base => ?_
          simp only [Query.Closed] at base
          split
          · exact (yields_particle closed d depth _).bind (derived _ _ _ _ base.1 base.2)
          · exact Yields.bind (yields_pure fun _ equal => (nomatch equal))
              (derived _ _ _ _ base.1 base.2)
      · split
        · exact (yields_particle closed d depth _).bind (plain _ _)
        · exact Yields.bind (yields_pure fun _ equal => (nomatch equal)) (plain _ _)

end

end Definition

end XmlSchema.Schema
