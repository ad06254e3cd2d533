import XmlSchema.Proofs.ContentModel.Concatenation
import XmlSchema.Proofs.Schema.Extension

namespace XmlSchema.Component.ComplexType

open Validation (complexDemands)

variable (t : ComplexType ElementDecl)

def HasSimpleContent : Prop := ∃ type, t.content = .simple type

instance : Decidable t.HasSimpleContent :=
  match content : t.content with
  | .simple type => isTrue ⟨type, content⟩
  | .empty | .elementOnly _ | .mixed _ => isFalse (by simp [HasSimpleContent, content])

/-- Elements of a complex type may have children of some names. -/
def Takes (names : List QName) : Prop :=
  ∀ decl, (complexDemands decl t).1.admits names = true

def PermitsText : Prop := ∀ decl text, (complexDemands decl t).2.admits text = true

def anyDecl : ElementDecl :=
  { name := ⟨"", ""⟩, type := .anyType, nillable := false, default? := none, fixed? := none,
    isAbstract := false }

variable {t}

theorem takes_iff_anyDecl {names : List QName} :
    t.Takes names ↔ (complexDemands anyDecl t).1.admits names = true := by
  refine ⟨fun takes => takes anyDecl, fun admits decl => ?_⟩
  unfold complexDemands at admits ⊢
  cases content : t.content <;> simpa [content] using admits

instance (t : ComplexType ElementDecl) (names : List QName) : Decidable (t.Takes names) :=
  decidable_of_iff _ takes_iff_anyDecl.symm

theorem takes_iff (names : List QName) :
    t.Takes names ↔
      match t.content with
      | .empty | .simple _ => names = []
      | .elementOnly model | .mixed model => model.accepts names = true := by
  rw [takes_iff_anyDecl, complexDemands]
  cases t.content <;> simp [Validation.ChildDemand.admits]

theorem permitsText_of_mixed {model : ContentModel ElementDecl}
    (content : t.content = .mixed model) : t.PermitsText := by
  intro decl text
  simp [complexDemands, content, Validation.TextDemand.admits]

theorem not_permitsText_of_blank (blank : (complexDemands anyDecl t).2 = .blank) :
    ¬t.PermitsText := by
  intro permits
  have admits := permits anyDecl "a"
  rw [blank] at admits
  exact absurd admits (by decide)

end XmlSchema.Component.ComplexType

namespace XmlSchema.Component.Pool

variable {pool larger : Pool} {part : Part}

theorem Holds.mono (holds : pool.Holds part) (within : pool.Within larger) : larger.Holds part := by
  cases holds with
  | element found => exact .element (within.element? found)
  | type found => exact .type (within.type? found)
  | group found member => exact .group (within.group? found) member

end XmlSchema.Component.Pool

namespace XmlSchema.Schema

open Component
open ContentModel (Particle)
open Datatype (SimpleType)
open Xml (Element)
open Compile

namespace Definition

def Coherent (t : ComplexType ElementDecl) : Prop :=
  t.HasSimpleContent ∨ contentOf? t.mixed t.particle = some t.content

theorem coherent_anyType : Coherent .anyType := by
  right
  have built : (ContentModel.build
      (.anyNumber ComplexType.anyWildcard : Particle ElementDecl)).toOption.isSome := by rfl
  obtain ⟨model, made⟩ := Option.isSome_iff_exists.1 built
  simp [ComplexType.anyType, contentOf?, made]

theorem yields_ofBody_coherent {d : Document} {e : Element} {name : Option QName}
    {typeName : String} (b : Body) :
    Yields (fun _ => True) (ofBody d e name typeName b) Coherent := by
  intro st t after _ ran
  refine ⟨trivial, ?_⟩
  unfold ofBody at ran
  dsimp only at ran
  split at ran
  · cases ran
    exact .inl ⟨_, rfl⟩
  · obtain ⟨⟨content, violations⟩, _, ranContent, ran⟩ := run_bind_eq_ok ran
    cases ran
    exact .inr (contentType_eq_ok ranContent)

theorem yields_complexType_coherent (names : Names) (d : Document) (depth : Nat) (e : Element)
    (name : Option QName) : Yields (fun _ => True) (complexType names d depth e name) Coherent := by
  cases depth with
  | zero => exact yields_throw _
  | succ depth =>
    simp only [complexType]
    split
    · exact yields_rest yields_ofBody_coherent
    · split
      · exact yields_rest yields_ofBody_coherent
      · refine yields_rest fun _ => yields_rest fun _ => ?_
        split <;>
          exact yields_rest fun _ => yields_rest fun _ => yields_rest fun _ =>
            yields_rest yields_ofBody_coherent
    · split <;> exact yields_rest fun _ => yields_rest fun _ => yields_rest yields_ofBody_coherent

inductive HasOwnParticle (names : Names) (d : Document) (step : Element) :
    Option (Particle ElementDecl) → Prop
  | absent (noChild : contentChild? step = none) : HasOwnParticle names d step none
  | written {child : Element} {own : Particle ElementDecl}
      (found : contentChild? step = some child)
      (gives : (particle names d (depthBelow child) child).Gives (some own)) :
      HasOwnParticle names d step (some own)

inductive ExtendsComplex (names : Names) (d : Document) (e : Element) (base : QName)
    (parent : ComplexType ElementDecl) : Bool → Option (Particle ElementDecl) → Prop
  | written {content step : Element} {own : Option (Particle ElementDecl)}
      (noSimple : schemaChild? e "simpleContent" = none)
      (found : schemaChild? e "complexContent" = some content)
      (derives : derivation? content = some (step, .extension))
      (named : (reference d step "base").Gives base)
      (means : (names.complexType d step base).Gives parent)
      (particle : HasOwnParticle names d step own) :
      ExtendsComplex names d e base parent
        (if (content.attribute? "mixed").isSome then isTrue content "mixed" else isTrue e "mixed")
        own

variable {names : Names} {d : Document} {e step : Element} {depth : Nat} {name : Option QName}
  {base : QName} {t parent : ComplexType ElementDecl} {own : Option (Particle ElementDecl)}

theorem ExtendsComplex.derives {mixed : Bool}
    (extension : ExtendsComplex names d e base parent mixed own) :
    ∃ step, Derives names d e step (some (base, .extension)) (some parent) := by
  obtain ⟨noSimple, found, derives, named, means, _⟩ := extension
  exact ⟨_, .fromComplex noSimple found derives named means⟩

theorem yields_particle_isSome {child : Element} (found : contentChild? step = some child) :
    Yields (fun _ => True) (particle names d (depth + 1) child) fun own => own.isSome := by
  have kind := List.find?_some found
  simp only [Bool.or_eq_true, beq_iff_eq] at kind
  simp only [particle]
  refine yields_rest fun bounds => ?_
  rcases kind with ((kind | kind) | kind) | kind <;> simp only [kind]
  · exact yields_rest fun _ => yields_rest fun _ => yields_pure rfl
  all_goals exact yields_rest fun _ => yields_pure rfl

theorem hasOwnParticle_of_gives (deep : 2 * step.height ≤ depth)
    (gives : (ownParticle names d depth step).Gives own) : HasOwnParticle names d step own := by
  unfold ownParticle at gives
  split at gives
  · next child found =>
    have less := height_lt_of_contentChild? found
    rw [particle_eq_of_deep names d depth (depthBelow child) child (by omega)
      (deep_depthBelow child)] at gives
    obtain ⟨q, rfl⟩ := Option.isSome_iff_exists.1 (gives.post (yields_particle_isSome found))
    exact .written found gives
  · next absent =>
    obtain rfl := gives_pure.1 gives
    exact .absent absent

theorem yields_simpleBody_isSome {typeName : String} {mixed : Bool} {derivation : Derivation}
    {set : AttributeSet} {type : SimpleType} :
    Yields (fun _ => True) (simpleBody names d typeName mixed step derivation base set type)
      (·.simple.isSome) := by
  unfold simpleBody
  cases derivation with
  | extension =>
    exact yields_rest fun _ => yields_rest fun _ => yields_rest fun _ => yields_pure rfl
  | restriction =>
    exact yields_rest fun _ => yields_rest fun _ => yields_rest fun _ => yields_rest fun _ =>
      yields_pure rfl

theorem yields_simpleContent_isSome {typeName : String} {mixed : Bool} {content : Element} :
    Yields (fun _ => True) (simpleContent names d typeName mixed content) (·.simple.isSome) := by
  unfold simpleContent
  split
  · exact yields_throw _
  · refine yields_rest fun _ => yields_rest fun _ => ?_
    dsimp only
    split
    · exact yields_rest fun _ => yields_simpleBody_isSome
    · split
      · split <;> exact yields_rest fun _ => yields_simpleBody_isSome
      · exact yields_rest fun _ => yields_simpleBody_isSome

theorem ofBody_keeps {typeName : String} {b : Body} {st after : CompilerState}
    (ran : (ofBody d e name typeName b).run st = (.ok t, after)) :
    t.base = b.base ∧ t.mixed = b.mixed ∧ t.particle = b.particle ∧
      (b.simple.isSome → t.HasSimpleContent) := by
  unfold ofBody at ran
  dsimp only at ran
  split at ran
  · cases ran
    exact ⟨rfl, rfl, rfl, fun _ => ⟨_, rfl⟩⟩
  · next notSimple =>
    obtain ⟨_, _, _, ran⟩ := run_bind_eq_ok ran
    cases ran
    exact ⟨rfl, rfl, rfl, fun simple => by simp [notSimple] at simple⟩

theorem exists_step_of_complexContent (stateless : names.Stateless) {content : Element}
    {derivation : Derivation} (noSimple : schemaChild? e "simpleContent" = none)
    (found : schemaChild? e "complexContent" = some content)
    (derives : derivation? content = some (step, derivation))
    (gives : (complexType names d (depthBelow e) e name).Gives t) :
    ∃ base parent own, (reference d step "base").Gives base ∧
      (names.complexType d step base).Gives parent ∧ HasOwnParticle names d step own ∧
      t.base = some (base, derivation) ∧
      t.mixed = (if (content.attribute? "mixed").isSome then isTrue content "mixed"
        else isTrue e "mixed") ∧
      (derivation = .extension → t.particle = extendedParticle parent.particle own) ∧
      contentOf? t.mixed t.particle = some t.content := by
  obtain ⟨_, ran⟩ := gives.run {}
  rw [depthBelow, complexType_eq_of_complexContent noSimple found derives] at ran
  obtain ⟨base, named, _, ran⟩ :=
    ((uniform_reference d step _).stateless stateless).exists_gives ran
  obtain ⟨parent, means, _, ran⟩ := (stateless (.complexType d step base)).exists_gives ran
  obtain ⟨own, givesOwn, _, ran⟩ := (stateless_ownParticle stateless).exists_gives ran
  obtain ⟨_, _, _, ran⟩ := run_bind_eq_ok ran
  obtain ⟨_, ran⟩ := run_internName_bind_eq_ok ran
  obtain ⟨isBase, isMixed, isParticle, _⟩ := ofBody_keeps ran
  have below := height_lt_of_schemaChild? found
  have belowContent := height_lt_of_derivation? derives
  refine ⟨base, parent, own, named, means, hasOwnParticle_of_gives (by omega) givesOwn, ?_, ?_, ?_, ?_⟩
  · cases derivation <;> exact isBase
  · cases derivation <;> exact isMixed
  · rintro rfl
    exact isParticle
  · rw [isMixed, isParticle]
    refine (ofBody_eq_ok ?_ ran).1
    cases derivation <;> rfl

theorem HasOwnParticle.unique {other : Option (Particle ElementDecl)}
    (has : HasOwnParticle names d step own) (hasOther : HasOwnParticle names d step other) :
    own = other := by
  cases has with
  | absent noChild =>
    cases hasOther with
    | absent => rfl
    | written found => exact nomatch noChild.symm.trans found
  | written found gives =>
    cases hasOther with
    | absent noChild => exact nomatch noChild.symm.trans found
    | written foundOther givesOther =>
      obtain rfl := Option.some.inj (found.symm.trans foundOther)
      exact gives.unique givesOther

theorem ExtendsComplex.makes {mixed : Bool}
    (extension : ExtendsComplex names d e base parent mixed own) (stateless : names.Stateless)
    (gives : (complexType names d (depthBelow e) e name).Gives t) :
    t.particle = extendedParticle parent.particle own ∧
      contentOf? t.mixed t.particle = some t.content := by
  obtain ⟨noSimple, found, derives, named, means, particle⟩ := extension
  obtain ⟨_, _, _, named', means', particle', _, _, isParticle, content⟩ :=
    exists_step_of_complexContent stateless noSimple found derives gives
  obtain rfl := named.unique named'
  obtain rfl := means.unique means'
  obtain rfl := particle.unique particle'
  exact ⟨isParticle rfl, content⟩

theorem exists_extendsComplex (stateless : names.Stateless)
    (gives : (complexType names d (depthBelow e) e name).Gives t)
    (extended : t.base = some (base, .extension)) (complex : ¬t.HasSimpleContent) :
    ∃ parent own, ExtendsComplex names d e base parent t.mixed own := by
  obtain ⟨_, ran⟩ := gives.run {}
  cases noSimple : schemaChild? e "simpleContent" with
  | some content =>
    simp only [depthBelow, complexType, noSimple] at ran
    obtain ⟨b, _, ranContent, ran⟩ := run_bind_eq_ok ran
    have isSimple := (yields_simpleContent_isSome _ _ _ trivial ranContent).2
    exact absurd ((ofBody_keeps ran).2.2.2 isSimple) complex
  | none =>
    cases found : schemaChild? e "complexContent" with
    | none =>
      have plain : HasBody e (isTrue e "mixed") (schemaChildren e) := ⟨noSimple, found, rfl, rfl⟩
      rw [depthBelow, plain.complexType_eq] at ran
      obtain ⟨_, _, _, ran⟩ := run_bind_eq_ok ran
      obtain ⟨_, _, _, ran⟩ := run_bind_eq_ok ran
      rw [(ofBody_keeps ran).1] at extended
      cases extended
    | some content =>
      cases derives : derivation? content with
      | none =>
        simp only [depthBelow, complexType, noSimple, found, derives] at ran
        cases ran
      | some steps =>
        obtain ⟨step, derivation⟩ := steps
        obtain ⟨name, parent, own, named, means, particle, isBase, isMixed, _⟩ :=
          exists_step_of_complexContent stateless noSimple found derives gives
        have same : (base, Derivation.extension) = (name, derivation) :=
          Option.some.inj (extended.symm.trans isBase)
        obtain ⟨rfl, rfl⟩ := Prod.mk.inj same
        rw [isMixed]
        exact ⟨parent, own, .written noSimple found derives named means particle⟩

def Admits : Option (Particle ElementDecl) → List QName → Prop
  | none, names => names = []
  | some p, names => ∃ model, ContentModel.build p = .ok model ∧ model.accepts names = true

theorem accepts_empty_iff (children : List QName) :
    (.empty : ContentModel ElementDecl).accepts children = true ↔ children = [] := by
  cases children with
  | nil => exact iff_of_true rfl rfl
  | cons name children => exact iff_of_false (nomatch ·) (nomatch ·)

theorem contentOf?_cases {mixed : Bool} {p? : Option (Particle ElementDecl)}
    {content : ContentType ElementDecl} (made : contentOf? mixed p? = some content) :
    (p? = none ∧ content = if mixed then .mixed .empty else .empty) ∨
      ∃ p model, p? = some p ∧ ContentModel.build p = .ok model ∧
        content = if mixed then .mixed model else .elementOnly model := by
  cases p? with
  | none => exact .inl ⟨rfl, (Option.some.inj made).symm⟩
  | some p =>
    obtain ⟨model, found, rfl⟩ := Option.map_eq_some_iff.1 made
    cases built : ContentModel.build p with
    | error fault => simp [built, Except.toOption] at found
    | ok result =>
      obtain rfl : result = model := by simpa [built, Except.toOption] using found
      exact .inr ⟨p, result, rfl, built, rfl⟩

theorem takes_iff (made : contentOf? t.mixed t.particle = some t.content) (children : List QName) :
    t.Takes children ↔ Admits t.particle children := by
  rw [ComplexType.takes_iff]
  rcases contentOf?_cases made with ⟨particle, content⟩ | ⟨p, model, particle, built, content⟩
  · cases mixed : t.mixed <;> simp [content, mixed, particle, Admits, accepts_empty_iff]
  · cases mixed : t.mixed <;> simp [content, mixed, particle, Admits, built]

theorem permitsText_iff (made : contentOf? t.mixed t.particle = some t.content) :
    t.PermitsText ↔ t.mixed = true := by
  cases mixed : t.mixed with
  | true =>
    refine iff_of_true ?_ rfl
    rcases contentOf?_cases made with ⟨_, content⟩ | ⟨_, _, _, _, content⟩ <;>
      rw [mixed, if_pos rfl] at content <;> exact ComplexType.permitsText_of_mixed content
  | false =>
    refine iff_of_false (ComplexType.not_permitsText_of_blank ?_) Bool.false_ne_true
    rcases contentOf?_cases made with ⟨_, content⟩ | ⟨_, _, _, _, content⟩ <;>
      simp [Validation.complexDemands, content, mixed]

def KeepsBoth (inherited? : Option (Particle ElementDecl)) (own : Particle ElementDecl) : Prop :=
  ∀ inherited, inherited? = some inherited → ¬inherited.IsDroppedAll ∧ ¬own.IsDroppedAll

section Added

variable {inherited? : Option (Particle ElementDecl)} {added : Particle ElementDecl} {mixed : Bool}
  {content : ContentType ElementDecl}

theorem admits_extendedParticle
    (made : contentOf? mixed (extendedParticle inherited? (some added)) = some content)
    (keeps : KeepsBoth inherited? added) :
    ∃ model, ContentModel.build added = .ok model ∧ ∀ children,
      Admits (extendedParticle inherited? (some added)) children ↔
        ∃ u v, children = u ++ v ∧ Admits inherited? u ∧ model.accepts v = true := by
  rcases contentOf?_cases made with ⟨absent, _⟩ | ⟨p, whole, extended, built, _⟩
  · cases inherited? <;> cases absent
  cases inherited? with
  | none =>
    obtain rfl : added = p := Option.some.inj extended
    exact ⟨whole, built, fun children => by simp [Admits, extendedParticle, built]⟩
  | some inherited =>
    obtain ⟨keepsFirst, keepsRest⟩ := keeps inherited rfl
    obtain rfl := Option.some.inj extended
    obtain ⟨exists_rest, accepts⟩ := ContentModel.accepts_concatenation_iff built
    obtain ⟨rest, builtRest⟩ := exists_rest keepsRest
    refine ⟨rest, builtRest, fun children => ?_⟩
    simp [Admits, extendedParticle, built, accepts, Particle.TakesWithin, keepsFirst, keepsRest,
      builtRest]

theorem admits_extendedParticle_within {inherited : Particle ElementDecl}
    (made : contentOf? mixed (extendedParticle (some inherited) (some added)) = some content)
    (children : List QName) :
    Admits (extendedParticle (some inherited) (some added)) children ↔
      ∃ u v, children = u ++ v ∧ inherited.TakesWithin u ∧ added.TakesWithin v := by
  rcases contentOf?_cases made with ⟨absent, _⟩ | ⟨p, whole, extended, built, _⟩
  · cases absent
  obtain rfl := Option.some.inj extended
  simp [Admits, extendedParticle, built, (ContentModel.accepts_concatenation_iff built).2]

end Added

end Definition

open Definition
open CompilationUnit (ofDocuments)

/-- A complex type is written as an extension of a complex type in a schema set: in an element of a
document, which is compiled when some of the grammars are there. -/
inductive IsComplexExtension (lib : Library) (loaded : List LoadedSource) (pool : Pool)
    (t : ComplexType ElementDecl) (base : QName) (parent : ComplexType ElementDecl)
    (own : Option (Particle ElementDecl)) : Prop
  | written {docs : List Document} {before : Pool} {n : Nat} {name : Option QName} {d : Document}
      {e : Element} (unit : UnitOf lib loaded docs) (within : before.Within pool) (member : d ∈ docs)
      (has : d.Has e)
      (gives : (complexType ((ofDocuments docs before).plain n) d (depthBelow e) e name).Gives t)
      (extension : ExtendsComplex ((ofDocuments docs before).plain n) d e base parent t.mixed own)
      (inPool : ¬(ofDocuments docs before).DefinesAnew base →
        ∃ definition, pool.type? base = some definition ∧ definition.complex? = some parent)

variable {lib : Library} {loaded : List LoadedSource} {pool larger : Pool}
  {t parent : ComplexType ElementDecl} {base : QName} {own : Option (Particle ElementDecl)}

theorem IsComplexExtension.mono (extension : IsComplexExtension lib loaded pool t base parent own)
    (within : pool.Within larger) : IsComplexExtension lib loaded larger t base parent own := by
  obtain ⟨unit, before, member, has, gives, written, inPool⟩ := extension
  refine .written unit (before.trans within) member has gives written fun once => ?_
  obtain ⟨definition, found, complex⟩ := inPool once
  exact ⟨definition, within.type? found, complex⟩

/-- A complex type is written so if it extends one with complex content. -/
def ExtendsInSchema (lib : Library) (loaded : List LoadedSource) (pool : Pool)
    (t : ComplexType ElementDecl) : Prop :=
  ∀ base, t.base = some (base, .extension) → ¬t.HasSimpleContent →
    ∃ parent own, IsComplexExtension lib loaded pool t base parent own

theorem ExtendsInSchema.mono (written : ExtendsInSchema lib loaded pool t)
    (within : pool.Within larger) : ExtendsInSchema lib loaded larger t := by
  intro base extended complex
  obtain ⟨parent, own, extension⟩ := written base extended complex
  exact ⟨parent, own, extension.mono within⟩

theorem coherent_holdsInUnit {docs : List Document} {before : Pool}
    (coherent : ∀ part, before.Holds part → part.AllTypes Coherent) :
    CompilationUnit.HoldsInUnit Coherent docs before :=
  ⟨coherent, coherent_anyType,
    fun d _ _ e name _ _ gives => gives.post (yields_complexType_coherent _ d _ e name)⟩

theorem coherent_keptBySources :
    KeptBySources lib loaded fun pool => ∀ t, pool.HasComplexType t → Coherent t := by
  intro docs pool symbols grammars st _ holds ran
  rw [Pool.forall_hasComplexType_iff] at holds ⊢
  exact fun part held => (coherent_holdsInUnit holds).allTypes_of_compile ran part held

section Unit

variable {docs : List Document} {before : Pool} {symbols : SymbolTable} {grammars : List Grammar}
  {st : CompilerState} {n : Nat} {d : Document} {e : Element} {name : Option QName}

theorem exists_isComplexExtension_of_gives (unit : UnitOf lib loaded docs)
    (ran : (ofDocuments docs before).compile.run { symbols } = (.ok grammars, st))
    (member : d ∈ docs) (has : d.Has e)
    (gives : (complexType ((ofDocuments docs before).plain n) d (depthBelow e) e name).Gives t)
    (extended : t.base = some (base, .extension)) (complex : ¬t.HasSimpleContent) :
    ∃ parent own,
      IsComplexExtension lib loaded (grammars.foldl Pool.insert before) t base parent own ∧
      (¬(ofDocuments docs before).DefinesAnew base → ∃ definition,
        (grammars.foldl Pool.insert before).type? base = some definition ∧
          definition.complex? = some parent) := by
  obtain ⟨parent, own, extension⟩ :=
    exists_extendsComplex (CompilationUnit.stateless_plain n) gives extended complex
  obtain ⟨step, derives⟩ := extension.derives
  have inPool (once : ¬(ofDocuments docs before).DefinesAnew base) :=
    CompilationUnit.exists_type?_of_derives ran once derives
  exact ⟨parent, own, .written unit (.foldl_insert before grammars) member has gives extension inPool,
    inPool⟩

theorem exists_isComplexExtension_of_first (unit : UnitOf lib loaded docs)
    (ran : (ofDocuments docs {}).compile.run { symbols } = (.ok grammars, st))
    (has : (grammars.foldl Pool.insert {}).HasComplexType t)
    (extended : t.base = some (base, .extension)) (complex : ¬t.HasSimpleContent)
    (foreign : base.ns ≠ schemaNamespace) :
    ∃ parent own, IsComplexExtension lib loaded (grammars.foldl Pool.insert {}) t base parent own ∧
      ((grammars.foldl Pool.insert {}).type? base).bind TypeDefinition.complex? = some parent := by
  have holdsInUnit : CompilationUnit.HoldsInUnit (fun t => ∀ base,
      t.base = some (base, .extension) → ¬t.HasSimpleContent → base.ns ≠ schemaNamespace →
        ∃ parent own, IsComplexExtension lib loaded (grammars.foldl Pool.insert {}) t base parent own ∧
          ((grammars.foldl Pool.insert {}).type? base).bind TypeDefinition.complex? = some parent)
      docs {} := by
    refine ⟨fun part held => Pool.allTypes_of_empty (fun _ extended => (nomatch extended)) held,
      fun _ extended => (nomatch extended), ?_⟩
    intro d member n e name t has gives base extended complex foreign
    obtain ⟨parent, own, extension, inPool⟩ :=
      exists_isComplexExtension_of_gives unit ran member has gives extended complex
    have once : ¬(ofDocuments docs {}).DefinesAnew base := fun anew => by
      simpa [ofDocuments, Pool.type?, foreign, Pool.grammar?] using anew.2
    obtain ⟨definition, found, isComplex⟩ := inPool once
    exact ⟨parent, own, extension, by rw [found]; exact isComplex⟩
  have all := Pool.forall_hasComplexType_iff.2 fun part held => holdsInUnit.allTypes_of_compile ran part held
  exact all t has base extended complex foreign

end Unit

theorem extendsInSchema_keptBySources :
    KeptBySources lib loaded fun pool =>
      ∀ t, pool.HasComplexType t → ExtendsInSchema lib loaded pool t := by
  intro docs pool symbols grammars st unit holds ran
  have within := Pool.Within.foldl_insert pool grammars
  rw [Pool.forall_hasComplexType_iff] at holds ⊢
  have holdsInUnit : CompilationUnit.HoldsInUnit
      (ExtendsInSchema lib loaded (grammars.foldl Pool.insert pool)) docs pool := by
    refine ⟨fun part held => (holds part held).mono fun _ written => written.mono within,
      fun _ extended => (nomatch extended), ?_⟩
    intro d member n e name t has gives base extended complex
    obtain ⟨parent, own, extension, _⟩ :=
      exists_isComplexExtension_of_gives unit ran member has gives extended complex
    exact ⟨parent, own, extension⟩
  exact fun part held => holdsInUnit.allTypes_of_compile ran part held

theorem IsComplexExtension.content (extension : IsComplexExtension lib loaded pool t base parent own)
    (coherent : ∀ t, pool.HasComplexType t → Coherent t) :
    t.particle = extendedParticle parent.particle own ∧
      contentOf? t.mixed t.particle = some t.content ∧ Coherent parent := by
  obtain @⟨docs, before, n, _, d, _, _, within, member, _, gives, written, _⟩ := extension
  obtain ⟨particle, content⟩ := written.makes (CompilationUnit.stateless_plain n) gives
  have coherentBefore : ∀ part, before.Holds part → part.AllTypes Coherent := fun part held =>
    Pool.forall_hasComplexType_iff.1 coherent part (held.mono within)
  obtain ⟨step, derives⟩ := written.derives
  have ofParent := derives.parent ((coherent_holdsInUnit coherentBefore).inDocuments n d member)
  exact ⟨particle, content, ((Part.allTypes_type_iff rfl).1 ofParent).1⟩

section Compiled

variable {files : Files.Tree} {discover : Bool} {identity : String} {sources : List Source}
  {bundle : Bundle}

theorem coherent_of_compile (compiled : compile files discover identity sources = .ok bundle) :
    ∀ t, bundle.pool.HasComplexType t → Coherent t := by
  obtain ⟨_, loaded, _, _, _, loads, _⟩ := compile_eq_ok_iff.1 compiled
  have start : ∀ t, Pool.HasComplexType {} t → Coherent t :=
    Pool.forall_hasComplexType_iff.2 fun part held => Pool.allTypes_of_empty coherent_anyType held
  have kept : KeptBySources (libraryOf files discover loaded) loaded fun pool =>
      ∀ t, pool.HasComplexType t → Coherent t := coherent_keptBySources
  exact compile_of_keptBySources kept start loads compiled

theorem extendsInSchema_of_compile {loaded : List LoadedSource}
    (compiled : compile files discover identity sources = .ok bundle)
    (loads : loadAll files sources = .ok loaded) :
    ∀ t, bundle.pool.HasComplexType t →
      ExtendsInSchema (libraryOf files discover loaded) loaded bundle.pool t := by
  have start : ∀ t, Pool.HasComplexType {} t →
      ExtendsInSchema (libraryOf files discover loaded) loaded {} t :=
    Pool.forall_hasComplexType_iff.2 fun part held =>
      Pool.allTypes_of_empty (fun _ extended => nomatch extended) held
  exact compile_of_keptBySources extendsInSchema_keptBySources start loads compiled

/-- An extension has the children of its base, but text among them only if it is mixed itself. -/
structure InheritsChildren (parent t : ComplexType ElementDecl) : Prop where
  takes_iff : ∀ children, t.Takes children ↔ parent.Takes children
  permitsText_iff : t.PermitsText ↔ t.mixed = true
  parent_permitsText_iff : parent.PermitsText ↔ parent.mixed = true
  content_eq : t.mixed = parent.mixed → t.content = parent.content

/-- In a compiled schema set, a complex type that extends one with complex content, and adds no
particle, takes the children that its base takes. Whether it permits text is up to its own flag. -/
theorem inheritsChildren_of_extension
    (compiled : compile files discover identity sources = .ok bundle) :
    ∃ loaded, loadAll files sources = .ok loaded ∧ ∀ t, bundle.pool.HasComplexType t →
      ExtendsInSchema (libraryOf files discover loaded) loaded bundle.pool t ∧
        ∀ base parent,
          IsComplexExtension (libraryOf files discover loaded) loaded bundle.pool t base parent none →
          ¬parent.HasSimpleContent → InheritsChildren parent t := by
  obtain ⟨_, loaded, _, _, _, loads, _⟩ := compile_eq_ok_iff.1 compiled
  refine ⟨loaded, loads, fun t has => ⟨extendsInSchema_of_compile compiled loads t has, ?_⟩⟩
  intro base parent extension complex
  obtain ⟨particle, content, coherent⟩ := extension.content (coherent_of_compile compiled)
  have contentOfParent := coherent.resolve_left complex
  have same : t.particle = parent.particle := by
    rw [particle]
    cases parent.particle <;> rfl
  refine ⟨fun children => ?_, permitsText_iff content, permitsText_iff contentOfParent,
    fun mixed => ?_⟩
  · rw [takes_iff content, takes_iff contentOfParent, same]
  · rw [same, mixed] at content
    exact Option.some.inj (content.symm.trans contentOfParent)

/-- An extension takes the children of its base, and then what a particle takes that it adds. -/
structure AddsChildren (parent t : ComplexType ElementDecl) (added : Particle ElementDecl) :
    Prop where
  takes_iff : KeepsBoth parent.particle added →
    ∃ model, ContentModel.build added = .ok model ∧ ∀ children,
      t.Takes children ↔ ∃ u v, children = u ++ v ∧ parent.Takes u ∧ model.accepts v = true
  parent_takes_iff : parent.particle = none → ∀ children, parent.Takes children ↔ children = []
  takes_iff_within : ∀ inherited, parent.particle = some inherited → ∀ children,
    t.Takes children ↔
      ∃ u v, children = u ++ v ∧ inherited.TakesWithin u ∧ added.TakesWithin v

/-- In a compiled schema set, a complex type that extends one with complex content, and adds a
particle, takes the children that its base takes and then those that the content model of the particle
takes, unless one of the two is an `all` group that may not occur. -/
theorem addsChildren_of_extension
    (compiled : compile files discover identity sources = .ok bundle) :
    ∃ loaded, loadAll files sources = .ok loaded ∧ ∀ t, bundle.pool.HasComplexType t →
      ExtendsInSchema (libraryOf files discover loaded) loaded bundle.pool t ∧
        ∀ base parent added,
          IsComplexExtension (libraryOf files discover loaded) loaded bundle.pool t base parent
            (some added) →
          ¬parent.HasSimpleContent → AddsChildren parent t added := by
  obtain ⟨_, loaded, _, _, _, loads, _⟩ := compile_eq_ok_iff.1 compiled
  refine ⟨loaded, loads, fun t has => ⟨extendsInSchema_of_compile compiled loads t has, ?_⟩⟩
  intro base parent added extension complex
  obtain ⟨particle, content, coherent⟩ := extension.content (coherent_of_compile compiled)
  have contentOfParent := coherent.resolve_left complex
  have made := content
  rw [particle] at made
  refine ⟨fun keeps => ?_, fun noParticle children => ?_, fun inherited isInherited children => ?_⟩
  · obtain ⟨model, built, admits⟩ := admits_extendedParticle made keeps
    refine ⟨model, built, fun children => ?_⟩
    simp only [takes_iff content, takes_iff contentOfParent, particle, admits]
  · rw [takes_iff contentOfParent, noParticle, Admits]
  · rw [isInherited] at made particle
    rw [takes_iff content, particle, admits_extendedParticle_within made]

end Compiled

def extendedText : String :=
  "<s:schema xmlns:s='http://www.w3.org/2001/XMLSchema'><s:complexType name='Item' mixed='true'>
<s:sequence><s:element name='a'/></s:sequence></s:complexType><s:complexType name='Copy'>
<s:complexContent><s:extension base='Item'/></s:complexContent></s:complexType>
<s:complexType name='Pair'><s:complexContent><s:extension base='Copy'><s:sequence>
<s:element name='b'/></s:sequence></s:extension></s:complexContent></s:complexType>
<s:complexType name='None'><s:all minOccurs='0' maxOccurs='0'><s:element name='a'/></s:all>
</s:complexType><s:complexType name='Some'><s:complexContent><s:extension base='None'><s:sequence/>
</s:extension></s:complexContent></s:complexType></s:schema>"

def extendedSource : Source := { systemId := "extended.xsd", content := some extendedText }

def addedParticle? (t : ComplexType ElementDecl) : Option (Particle ElementDecl) :=
  match t.particle with
  | some ⟨1, some 1, .sequence [_, added]⟩ => some added
  | _ => none

def RelatesExtension (pool : Pool) (base name : String)
    (P : ComplexType ElementDecl → ComplexType ElementDecl → Prop) : Prop :=
  ∃ parent ∈ localComplexType? pool base, ∃ t ∈ localComplexType? pool name,
    t.base = some (⟨"", base⟩, .extension) ∧ ¬parent.HasSimpleContent ∧ ¬t.HasSimpleContent ∧
      parent.particle.isSome ∧ (addedParticle? parent).isNone ∧ P parent t

instance (pool : Pool) (base name : String)
    (P : ComplexType ElementDecl → ComplexType ElementDecl → Prop) [∀ parent t, Decidable (P parent t)] :
    Decidable (RelatesExtension pool base name P) := by
  unfold RelatesExtension
  infer_instance

def HasExtendedTypes (pool : Pool) : Prop :=
  (RelatesExtension pool "Item" "Copy" fun parent t =>
    parent.mixed = true ∧ t.mixed = false ∧ (addedParticle? t).isNone) ∧
  (RelatesExtension pool "Copy" "Pair" fun parent t =>
    (∀ p ∈ parent.particle, p.max ≠ some 0) ∧ ∃ added ∈ addedParticle? t, added.max ≠ some 0) ∧
  RelatesExtension pool "None" "Some" fun parent t =>
    parent.Takes [⟨"", "a"⟩] ∧ ¬t.Takes [⟨"", "a"⟩] ∧ ∃ added ∈ addedParticle? t,
      ∃ model ∈ (ContentModel.build added).toOption, model.accepts [] = true

instance (pool : Pool) : Decidable (HasExtendedTypes pool) := by
  unfold HasExtendedTypes
  infer_instance

set_option maxRecDepth 100000 in
theorem extendedText_attempt : ∀ source ∈ [("extended.xsd", extendedText)],
    (∀ root ∈ (parse source.1 source.2).toOption,
        ∀ child ∈ schemaChildren root, child.name.localName ≠ "include") ∧
      ∃ grammars ∈ (attempt {} source).toOption,
        HasExtendedTypes (grammars.foldl Pool.insert {}) := by
  have letters : extendedText.toList = _ := Text.toList_of_spelled rfl
  rw [List.forall_mem_singleton, attempt, documentOf]
  dsimp only
  rw [parse, Xml.parse?, ← String.length_toList, letters]
  decide +kernel

theorem unitOf_of_standsAlone {source : LoadedSource} {d : Document} (noFiles : lib.files = none)
    (alone : StandsAlone source) (read : documentOf source = .ok d) :
    UnitOf lib [source] [d] := by
  have toOption : (documentOf source).toOption = some d := by rw [read]; rfl
  have one : documentsOf [source] = [d] := List.filterMap_cons_some toOption
  refine ⟨fun _ => false, [source], List.Subset.refl _, ?_⟩
  rw [← one]
  exact documents_unitTexts noFiles (by simpa using alone) (by simp) (by simp [read])

structure ExtendsAsWritten (bundle : Bundle) (loaded : List LoadedSource) (base : QName)
    (parent t : ComplexType ElementDecl) : Prop where
  has : bundle.pool.HasComplexType t
  extension : IsComplexExtension (libraryOf {} false loaded) loaded bundle.pool t base parent
    (addedParticle? t)
  complex : ¬parent.HasSimpleContent
  content : contentOf? t.mixed t.particle = some t.content
  contentOfParent : contentOf? parent.mixed parent.particle = some parent.content

theorem own_eq_addedParticle? (particle : t.particle = extendedParticle parent.particle own)
    (inherits : parent.particle.isSome) (first : (addedParticle? parent).isNone) :
    own = addedParticle? t := by
  obtain ⟨inherited, isInherited⟩ := Option.isSome_iff_exists.1 inherits
  rw [isInherited] at particle
  cases own with
  | none =>
    have same : addedParticle? t = addedParticle? parent := by
      simp only [addedParticle?, particle, isInherited, extendedParticle]
    rw [same, Option.isNone_iff_eq_none.1 first]
  | some own => simp [addedParticle?, particle, extendedParticle, Particle.once]

theorem exists_compile_of_attempt {source : Source} {text : String} {grammars : List Grammar}
    (identity : String) (written : source.content = some text)
    (alone : StandsAlone (source.systemId, text))
    (attempted : attempt {} (source.systemId, text) = .ok grammars) :
    ∃ bundle loaded, compile {} false identity [source] = .ok bundle ∧
      loadAll {} [source] = .ok loaded ∧ bundle.pool = grammars.foldl Pool.insert {} ∧
      ∀ base name P, RelatesExtension bundle.pool base name P →
        ∃ parent t, ExtendsAsWritten bundle loaded ⟨"", base⟩ parent t ∧ P parent t := by
  obtain ⟨bundle, compiled, pool⟩ := compile_of_attempt identity written alone attempted
  have loads : loadAll {} [source] = .ok [(source.systemId, text)] := by
    simp only [loadAll, Source.load, written]
    rfl
  refine ⟨bundle, _, compiled, loads, pool, ?_⟩
  rintro base name P ⟨parent, isParent, t, isType, extended, complexParent, complex, inherits, first,
    holds⟩
  obtain ⟨d, read, _⟩ := describes_of_attempt attempted
  have ran : ((CompilationUnit.ofDocuments [d] {}).compile.run {}).1 = .ok grammars := by
    simpa only [attempt, read] using attempted
  have unit : UnitOf (libraryOf {} false [(source.systemId, text)]) [(source.systemId, text)] [d] :=
    unitOf_of_standsAlone rfl alone read
  have foreign : "" ≠ schemaNamespace := by decide
  have has := hasComplexType_of_localComplexType? isType
  rw [pool] at isParent has
  obtain ⟨parent', own, extension, found⟩ :=
    exists_isComplexExtension_of_first unit (Prod.ext ran rfl) has extended complex foreign
  obtain rfl : parent' = parent := Option.some.inj (found.symm.trans isParent)
  rw [← pool] at has extension
  obtain ⟨particle, content, coherent⟩ := extension.content (coherent_of_compile compiled)
  obtain rfl := own_eq_addedParticle? particle inherits first
  exact ⟨parent', t, ⟨has, extension, complexParent, content, coherent.resolve_left complexParent⟩,
    holds⟩

theorem exists_compile_extendedSource :
    ∃ bundle loaded, compile {} false "extended" [extendedSource] = .ok bundle ∧
      loadAll {} [extendedSource] = .ok loaded ∧ HasExtendedTypes bundle.pool ∧
      ∀ base name P, RelatesExtension bundle.pool base name P →
        ∃ parent t, ExtendsAsWritten bundle loaded ⟨"", base⟩ parent t ∧ P parent t := by
  obtain ⟨noIncludes, grammars, given, types⟩ := extendedText_attempt _ (List.mem_singleton_self _)
  have alone : StandsAlone ("extended.xsd", extendedText) := fun root read =>
    noIncludes root (by rw [read]; rfl)
  have written : extendedSource.content = some extendedText := rfl
  obtain ⟨bundle, loaded, compiled, loads, pool, extensions⟩ :=
    exists_compile_of_attempt "extended" written alone (eq_ok_of_mem_toOption given)
  exact ⟨bundle, loaded, compiled, loads, pool ▸ types, extensions⟩

theorem inheritsChildren_of_extension_copy : ∃ bundle parent t loaded,
    compile {} false "extended" [extendedSource] = .ok bundle ∧ bundle.pool.HasComplexType t ∧
      loadAll {} [extendedSource] = .ok loaded ∧
      IsComplexExtension (libraryOf {} false loaded) loaded bundle.pool t ⟨"", "Item"⟩ parent none ∧
      ¬parent.HasSimpleContent ∧ InheritsChildren parent t := by
  obtain ⟨bundle, loaded, compiled, loads, ⟨copies, _⟩, extensions⟩ := exists_compile_extendedSource
  obtain ⟨parent, t, written, _, _, noOwn⟩ := extensions _ _ _ copies
  have extension := written.extension
  rw [Option.isNone_iff_eq_none.1 noOwn] at extension
  obtain ⟨loaded', loads', inherits⟩ := inheritsChildren_of_extension compiled
  obtain rfl := Except.ok.inj (loads'.symm.trans loads)
  exact ⟨bundle, parent, t, _, compiled, written.has, loads, extension, written.complex,
    (inherits t written.has).2 _ _ extension written.complex⟩

/-- The extension that adds nothing does not permit text, though the type that it extends does: it
does not say that it is mixed. -/
theorem not_permitsText_of_extension : ∃ bundle parent t loaded,
    compile {} false "extended" [extendedSource] = .ok bundle ∧ bundle.pool.HasComplexType t ∧
      loadAll {} [extendedSource] = .ok loaded ∧
      IsComplexExtension (libraryOf {} false loaded) loaded bundle.pool t ⟨"", "Item"⟩ parent none ∧
      ¬parent.HasSimpleContent ∧ parent.PermitsText ∧ ¬t.PermitsText := by
  obtain ⟨bundle, loaded, compiled, loads, ⟨copies, _⟩, extensions⟩ := exists_compile_extendedSource
  obtain ⟨parent, t, written, mixed, notMixed, noOwn⟩ := extensions _ _ _ copies
  have extension := written.extension
  rw [Option.isNone_iff_eq_none.1 noOwn] at extension
  refine ⟨bundle, parent, t, loaded, compiled, written.has, loads, extension, written.complex,
    (permitsText_iff written.contentOfParent).2 mixed, fun permits => ?_⟩
  rw [(permitsText_iff written.content).1 permits] at notMixed
  cases notMixed

theorem addsChildren_of_extension_pair : ∃ bundle parent t loaded added,
    compile {} false "extended" [extendedSource] = .ok bundle ∧ bundle.pool.HasComplexType t ∧
      loadAll {} [extendedSource] = .ok loaded ∧
      IsComplexExtension (libraryOf {} false loaded) loaded bundle.pool t ⟨"", "Copy"⟩ parent
        (some added) ∧
      ¬parent.HasSimpleContent ∧ KeepsBoth parent.particle added ∧ AddsChildren parent t added := by
  obtain ⟨bundle, loaded, compiled, loads, ⟨_, pairs, _⟩, extensions⟩ := exists_compile_extendedSource
  obtain ⟨parent, t, written, occurs, added, isAdded, occursToo⟩ := extensions _ _ _ pairs
  have extension := written.extension
  rw [show addedParticle? t = some added from isAdded] at extension
  have keeps : KeepsBoth parent.particle added := fun p isInherited =>
    ⟨fun dropped => occurs p isInherited dropped.1, fun dropped => occursToo dropped.1⟩
  obtain ⟨loaded', loads', adds⟩ := addsChildren_of_extension compiled
  obtain rfl := Except.ok.inj (loads'.symm.trans loads)
  exact ⟨bundle, parent, t, _, added, compiled, written.has, loads, extension, written.complex, keeps,
    (adds t written.has).2 _ _ _ extension written.complex⟩

/-- The extension of a type with an `all` group that may not occur takes no member of that group,
though the type itself does, and the particle that is added takes the empty rest. -/
theorem not_takes_of_extension : ∃ bundle parent t loaded added model,
    compile {} false "extended" [extendedSource] = .ok bundle ∧ bundle.pool.HasComplexType t ∧
      loadAll {} [extendedSource] = .ok loaded ∧
      IsComplexExtension (libraryOf {} false loaded) loaded bundle.pool t ⟨"", "None"⟩ parent
        (some added) ∧
      ¬parent.HasSimpleContent ∧ ContentModel.build added = .ok model ∧
      ∃ u v, parent.Takes u ∧ model.accepts v = true ∧ ¬t.Takes (u ++ v) := by
  obtain ⟨bundle, loaded, compiled, loads, ⟨_, _, drops⟩, extensions⟩ := exists_compile_extendedSource
  obtain ⟨parent, t, written, takes, refuses, added, isAdded, model, built, accepts⟩ :=
    extensions _ _ _ drops
  have extension := written.extension
  rw [show addedParticle? t = some added from isAdded] at extension
  exact ⟨bundle, parent, t, loaded, added, model, compiled, written.has, loads, extension,
    written.complex, eq_ok_of_mem_toOption built, _, [], takes, accepts, by simpa using refuses⟩

end XmlSchema.Schema
