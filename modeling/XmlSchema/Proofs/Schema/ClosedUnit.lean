import XmlSchema.Proofs.Schema.Closed

namespace XmlSchema.Schema

open Component
open ContentModel (Particle Term allElements)
open Datatype (SimpleType)
open Xml (Element)
open Compile Definition

namespace CompilationUnit

def known (unit : CompilationUnit) : Known where
  type name :=
    if name.ns = schemaNamespace then
      (TypeDefinition.builtin? name.localName : Option (TypeDefinition ElementDecl)).isSome
    else unit.isType name
  element name := unit.isElement name

variable {unit : CompilationUnit} {inner : ComponentKey → Names} {inProgress : List ComponentKey}
  {d : Document} {e : Element} {name : QName}

theorem known_type_of_pool (isSome : (unit.pool.type? name).isSome) : unit.known.type name := by
  simp only [known]
  split
  · next builtIn => simpa [Pool.type?, builtIn] using isSome
  · simp [isType, isSome]

theorem known_type_of_definition {definition : Definition} (foreign : name.ns ≠ schemaNamespace)
    (defined : unit.definition? .type name = some definition) : unit.known.type name := by
  simp [known, foreign, isType, defined]

variable {inv : CompilerState → Prop}

theorem yields_enter {α : Type} {key : ComponentKey} {definition : Definition} {c : Compile α}
    {post : α → Prop} (ignores : IgnoresUnread inv) (yields : Yields inv c post) :
    Yields inv (enter inProgress key definition c) post := by
  unfold enter
  split
  · exact yields_throw _
  · exact (yields_note ignores inProgress key).bind fun _ _ => yields

theorem yields_earlierSimpleType :
    Yields inv (unit.earlierSimpleType d e name) fun _ => True := by
  unfold earlierSimpleType
  split
  · exact yields_pure trivial
  · split
    · exact yields_pure trivial
    · exact yields_throw _
  · exact yields_throw _

variable {limit : Known}

theorem yields_simpleType (closed : ∀ key, (inner key).AnswersClosed limit) :
    Yields (CompilerState.Closed limit) (unit.simpleType inner inProgress d e name)
      fun _ => True := by
  unfold simpleType
  split
  · split
    · exact yields_pure trivial
    · exact yields_throw _
    · exact yields_throw _
  · refine yields_get fun st _ => ?_
    split
    · exact yields_pure trivial
    · split
      · exact yields_earlierSimpleType
      · next definition _ =>
        have compiled : Yields (CompilerState.Closed limit) (do
            let key : ComponentKey := ⟨.type, name⟩
            let type ← enter inProgress key definition
              (Definition.simpleTypeOf (inner key) definition.document definition.element
                (some name.localName))
            modify fun st => { st with simpleTypes := (name, type) :: st.simpleTypes }
            pure type) fun _ => True :=
          (yields_enter (ignoresUnread_closed _)
            (keeps (uniform_simpleTypeOf _ _ _) (closed _))).bind fun _ _ =>
              (yields_modify fun st closedState => ⟨closedState.complexType, closedState.group⟩).bind
                fun _ _ => yields_pure trivial
        split
        · exact (yields_throw _).bind fun _ (_ : True) => compiled
        · exact compiled

theorem yields_complexType (pool : unit.pool.Closed unit.known)
    (closed : ∀ key, (inner key).AnswersClosed unit.known) :
    Yields (CompilerState.Closed unit.known) (unit.complexType inner inProgress d e name)
      fun type => unit.known.type name ∧ (Part.type (.complex type)).Closed unit.known := by
  unfold complexType
  split
  · next builtIn =>
    have builtIn : name.ns = schemaNamespace := by simpa using builtIn
    split
    · next type found =>
      obtain ⟨definition, known, complex⟩ := Option.bind_eq_some_iff.1 found
      exact yields_pure ⟨by simp [CompilationUnit.known, builtIn, known],
        (closed_builtin known).ofComplex? complex⟩
    · exact yields_throw _
  · next foreign =>
    have foreign : name.ns ≠ schemaNamespace := by simpa using foreign
    refine yields_get fun st closedState => ?_
    split
    · next type cached => exact yields_pure (closedState.complexType name type cached)
    · split
      · split
        · next definition found =>
          split
          · next type complex =>
            exact yields_pure ⟨known_type_of_pool (by simp [found]),
              (pool.type? found).ofComplex? complex⟩
          · exact yields_throw _
        · exact yields_throw _
      · next definition defined =>
        have isKnown := known_type_of_definition foreign defined
        have compiled : Yields (CompilerState.Closed unit.known) (do
            let key : ComponentKey := ⟨.type, name⟩
            let type ← enter inProgress key definition do
              Definition.complexType (inner key) definition.document
                (Definition.depthBelow definition.element) definition.element
                (some (← Compile.internName name))
            modify fun st => { st with complexTypes := (name, type) :: st.complexTypes }
            pure type)
            fun type => unit.known.type name ∧ (Part.type (.complex type)).Closed unit.known := by
          refine (yields_enter (ignoresUnread_closed _)
            ((yields_internName (ignoresUnread_closed _) _).bind fun _ _ =>
              Definition.yields_complexType (closed _) _ _ _ _)).bind fun type closedType => ?_
          exact (yields_modify fun st closedState =>
            closedState.addComplexType isKnown closedType).bind fun _ _ =>
              yields_pure ⟨isKnown, closedType⟩
        split
        · exact (yields_throw _).bind fun _ (_ : True) => compiled
        · exact compiled

theorem yields_type (pool : unit.pool.Closed unit.known)
    (closed : ∀ key, (inner key).AnswersClosed unit.known) :
    Yields (CompilerState.Closed unit.known) (unit.type inner inProgress d e name)
      fun _ => unit.known.type name := by
  unfold type
  split
  · next builtIn =>
    have builtIn : name.ns = schemaNamespace := by simpa using builtIn
    split
    · next known => exact yields_pure (by simp [CompilationUnit.known, builtIn, known])
    · exact yields_throw _
  · next foreign =>
    have foreign : name.ns ≠ schemaNamespace := by simpa using foreign
    split
    · next definition defined =>
      have isKnown := known_type_of_definition foreign defined
      split
      · exact (yields_complexType pool closed).bind fun _ _ => yields_pure isKnown
      · exact (yields_simpleType closed).bind fun _ _ => yields_pure isKnown
    · split
      · next found => exact yields_pure (known_type_of_pool (by simp [found]))
      · exact yields_throw _

theorem yields_group (pool : unit.pool.Closed unit.known)
    (closed : ∀ key, (inner key).AnswersClosed unit.known) :
    Yields (CompilerState.Closed unit.known) (unit.group inner inProgress d e name)
      (ParticleClosed unit.known) := by
  unfold group
  refine yields_get fun st closedState => ?_
  split
  · next p cached => exact yields_pure (closedState.group name p cached)
  · split
    · split
      · next p found => exact yields_pure (pool.group? found)
      · exact yields_throw _
    · next document element _ =>
      have kept (particle : Particle ElementDecl)
          (closedGroup : ParticleClosed unit.known particle) :
          Yields (CompilerState.Closed unit.known) (do
            modify fun st : CompilerState => { st with groups := (name, particle) :: st.groups }
            pure particle) (ParticleClosed unit.known) :=
        (yields_modify fun st closedState => closedState.addGroup closedGroup).bind fun _ _ =>
          yields_pure closedGroup
      refine Yields.bind (P := fun term => ParticleClosed unit.known (.once term))
        (yields_enter (ignoresUnread_closed _) ?_) fun term closedTerm => kept _ closedTerm
      dsimp only
      split
      · exact yields_throw _
      · next model _ =>
        refine (yields_mapM _ (yields_particle (closed _) document _)).bind fun ps closedAll => ?_
        have closedTerms : ∀ e ∈ allElements (ps.filterMap id), (Part.term e).Closed unit.known :=
          fun e member => closed_of_mem_allElements (fun p among => by
            obtain ⟨p?, given, equal⟩ := List.mem_filterMap.1 among
            exact closedAll p? given p equal) member
        refine yields_pure ?_
        split <;> exact closedTerms

theorem yields_attributeGroup (closed : ∀ key, (inner key).AnswersClosed limit) :
    Yields (CompilerState.Closed limit) (unit.attributeGroup inner inProgress d e name)
      fun _ => True := by
  unfold attributeGroup
  refine yields_get fun st _ => ?_
  split
  · exact yields_pure trivial
  · split
    · split
      · exact yields_pure trivial
      · exact yields_throw _
    · exact (yields_enter (ignoresUnread_closed _)
        (keeps (uniform_attributes _ _ _) (closed _))).bind fun _ _ =>
          (yields_modify fun st closedState => ⟨closedState.complexType, closedState.group⟩).bind
            fun _ _ => yields_pure trivial

theorem yields_attributeDecl {names : Names} (closed : names.AnswersClosed limit) :
    Yields (CompilerState.Closed limit) (unit.attributeDecl names inProgress d e name) fun _ => True := by
  unfold attributeDecl
  split
  · exact (yields_internName (ignoresUnread_closed _) _).bind fun _ _ => yields_pure trivial
  · refine yields_get fun st _ => ?_
    split
    · exact yields_pure trivial
    · split
      · split
        · exact yields_pure trivial
        · exact yields_throw _
      · exact (yields_note (ignoresUnread_closed _) _ _).bind fun _ _ =>
          (keeps (uniform_attributeDecl _ _ _) closed).bind fun _ _ =>
          (yields_modify fun st closedState => ⟨closedState.complexType, closedState.group⟩).bind
            fun _ _ => yields_pure trivial

theorem yields_isType (nesting : Nat) :
    Yields inv ((unit.namesWithin nesting inProgress).ask (.isType d e name))
      (Query.Closed unit.known (.isType d e name)) := by
  simp only [Names.ask, isType_namesWithin]
  split
  · next isType => exact yields_pure fun foreign => by simpa [known, foreign] using isType
  · exact yields_throw _

theorem yields_isElement (nesting : Nat) :
    Yields inv ((unit.namesWithin nesting inProgress).ask (.isElement d e name))
      (Query.Closed unit.known (.isElement d e name)) := by
  simp only [Names.ask, isElement_namesWithin]
  split
  · next isElement => exact yields_pure isElement
  · exact yields_throw _

theorem answersClosed_namesWithin (pool : unit.pool.Closed unit.known) (nesting : Nat)
    (inProgress : List ComponentKey) :
    (unit.namesWithin nesting inProgress).AnswersClosed unit.known := by
  induction nesting generalizing inProgress with
  | zero =>
    intro q
    cases q with
    | isElement d e name => exact yields_isElement 0
    | isType d e name => exact yields_isType 0
    | _ => exact yields_throw _
  | succ nesting ih =>
    have inner (key : ComponentKey) := ih (key :: inProgress)
    intro q
    cases q with
    | isElement d e name => exact yields_isElement (nesting + 1)
    | isType d e name => exact yields_isType (nesting + 1)
    | simpleType d e name =>
      rw [ask_simpleType]
      exact yields_simpleType inner
    | complexType d e name =>
      rw [ask_complexType]
      exact yields_complexType pool inner
    | type d e name =>
      rw [ask_type]
      exact yields_type pool inner
    | group d e name =>
      rw [ask_group]
      exact yields_group pool inner
    | attributeGroup d e name =>
      rw [ask_attributeGroup]
      exact yields_attributeGroup inner
    | attributeDecl d e name =>
      rw [ask_attributeDecl]
      exact yields_attributeDecl (ih inProgress)

theorem closed_addElement {known : Known} {g : Grammar} {localName : String} {decl : ElementDecl}
    (closed : g.Closed known) (closedDecl : (Part.declaration decl).Closed known) :
    Grammar.Closed known { g with elements := g.elements.insertNew localName decl } := by
  intro part has
  cases has with
  | element member =>
    rcases Table.mem_insertNew member with old | new
    · exact closed _ (.element old)
    · cases new
      exact closedDecl
  | type member => exact closed _ (.type member)
  | group member element => exact closed _ (.group member element)

theorem closed_addType {known : Known} {g : Grammar} {localName : String}
    {definition : TypeDefinition ElementDecl} (closed : g.Closed known)
    (closedType : (Part.type definition).Closed known) :
    Grammar.Closed known { g with types := g.types.insertNew localName definition } := by
  intro part has
  cases has with
  | element member => exact closed _ (.element member)
  | type member =>
    rcases Table.mem_insertNew member with old | new
    · exact closed _ (.type old)
    · cases new
      exact closedType
  | group member element => exact closed _ (.group member element)

theorem closed_addGroup {known : Known} {g : Grammar} {localName : String}
    {p : Particle ElementDecl} (closed : g.Closed known) (closedGroup : ParticleClosed known p) :
    Grammar.Closed known { g with groups := g.groups.insertNew localName p } := by
  intro part has
  cases has with
  | element member => exact closed _ (.element member)
  | type member => exact closed _ (.type member)
  | group member element =>
    rcases Table.mem_insertNew member with old | new
    · exact closed _ (.group old element)
    · cases new
      exact closedGroup _ element

theorem closed_of_same {known : Known} {g h : Grammar} (closed : g.Closed known)
    (elements : h.elements = g.elements) (types : h.types = g.types) (groups : h.groups = g.groups) :
    h.Closed known := by
  intro part has
  cases has with
  | element member => exact closed _ (.element (elements ▸ member))
  | type member => exact closed _ (.type (types ▸ member))
  | group member element => exact closed _ (.group (groups ▸ member) element)

theorem yields_addComponent (pool : unit.pool.Closed unit.known) (localName : String) {g : Grammar}
    (closed : g.Closed unit.known) :
    Yields (CompilerState.Closed unit.known) (addComponent unit.names d e localName g)
      (Grammar.Closed unit.known) := by
  have answers : unit.names.AnswersClosed unit.known := answersClosed_namesWithin pool _ _
  unfold addComponent
  dsimp only
  split
  · split
    · exact yields_pure closed
    · exact (yields_elementDecl answers _ _ _ _).bind fun _ closedDecl =>
        yields_pure (closed_addElement closed closedDecl)
  · split
    · exact yields_pure closed
    · exact Yields.bind (answers (.simpleType d e ⟨d.target, localName⟩)) fun _ _ =>
        yields_pure (closed_addType closed closed_simple)
  · split
    · exact yields_pure closed
    · exact Yields.bind (answers (.complexType d e ⟨d.target, localName⟩)) fun _ closedType =>
        yields_pure (closed_addType closed closedType.2)
  · split
    · exact yields_pure closed
    · exact Yields.bind (answers (.attributeDecl d e ⟨d.target, localName⟩)) fun _ _ =>
        yields_pure (closed_of_same closed rfl rfl rfl)
  · split
    · exact yields_pure closed
    · exact Yields.bind (answers (.group d e ⟨d.target, localName⟩)) fun _ closedGroup =>
        yields_pure (closed_addGroup closed closedGroup)
  · split
    · exact yields_pure closed
    · exact Yields.bind (answers (.attributeGroup d e ⟨d.target, localName⟩)) fun _ _ =>
        yields_pure (closed_of_same closed rfl rfl rfl)
  · exact yields_pure closed

theorem yields_addComponents (pool : unit.pool.Closed unit.known) (es : List Element) {g : Grammar}
    (closed : g.Closed unit.known) :
    Yields (CompilerState.Closed unit.known) (addComponents unit.names d es g)
      (Grammar.Closed unit.known) := by
  induction es generalizing g with
  | nil => exact yields_pure closed
  | cons e es ih =>
    have interned (name : String) := yields_intern (ignoresUnread_closed unit.known) name
    unfold addComponents
    dsimp only
    split
    · exact (interned _).bind fun _ _ => Yields.bind (P := Grammar.Closed unit.known)
        (yields_pure (closed_of_same closed rfl rfl rfl)) fun _ closed => ih closed
    · split
      · exact (yields_pure closed).bind fun _ closed => ih closed
      · exact (interned _).bind fun _ _ => (yields_addComponent pool _ closed).bind
          fun _ closed => ih closed

theorem mem_replaceGrammar {g h : Grammar} {grammars : List Grammar}
    (member : h ∈ replaceGrammar g grammars) : h = g ∨ h ∈ grammars := by
  induction grammars with
  | nil => simpa [replaceGrammar] using member
  | cons k rest ih =>
    unfold replaceGrammar at member
    split at member
    · exact (List.mem_cons.1 member).imp id (List.mem_cons_of_mem _)
    · rcases List.mem_cons.1 member with rfl | member
      · exact .inr List.mem_cons_self
      · exact (ih member).imp id (List.mem_cons_of_mem _)

theorem yields_addDocuments (pool : unit.pool.Closed unit.known) (ds : List Document)
    {grammars : List Grammar} (closed : ∀ g ∈ grammars, g.Closed unit.known) :
    Yields (CompilerState.Closed unit.known) (addDocuments unit.names ds grammars)
      fun grammars => ∀ g ∈ grammars, g.Closed unit.known := by
  induction ds generalizing grammars with
  | nil => exact yields_pure closed
  | cons d ds ih =>
    have added {g : Grammar} (closedGrammar : g.Closed unit.known) :
        Yields (CompilerState.Closed unit.known) (do
          let g ← addComponents unit.names d (schemaChildren d.root) g
          addDocuments unit.names ds (replaceGrammar g grammars))
          fun grammars => ∀ g ∈ grammars, g.Closed unit.known :=
      (yields_addComponents pool _ closedGrammar).bind fun g closedGrammar =>
        ih fun h member => by
          rcases mem_replaceGrammar member with rfl | member
          · exact closedGrammar
          · exact closed h member
    unfold addDocuments
    dsimp only
    split
    · next g found =>
      have closedGrammar := closed g (List.mem_of_find?_eq_some found)
      exact Yields.bind (P := Grammar.Closed unit.known)
        (yields_pure (closed_of_same closedGrammar rfl rfl rfl)) fun _ closed => added closed
    · refine (yields_intern (ignoresUnread_closed _) _).bind fun _ _ =>
        Yields.bind (P := Grammar.Closed unit.known) (yields_pure ?_) fun _ closed => added closed
      intro part has
      cases has with
      | element member | type member | group member => cases member

theorem yields_compile (pool : unit.pool.Closed unit.known) :
    Yields (CompilerState.Closed unit.known) unit.compile
      fun grammars => ∀ g ∈ grammars, g.Closed unit.known :=
  yields_addDocuments pool _ fun _ member => nomatch member

end CompilationUnit

end XmlSchema.Schema
