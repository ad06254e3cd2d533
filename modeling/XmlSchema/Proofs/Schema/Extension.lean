import XmlSchema.Proofs.Schema.Inside
import XmlSchema.Proofs.Text.Ascii

namespace XmlSchema.Component.ComplexType

variable {δ : Type}

def Declares (t : ComplexType δ) (name : QName) : Prop := (t.attribute? name).isSome

def Allows (t : ComplexType δ) (name : QName) : Prop :=
  t.Declares name ∨ ∃ w, t.attributeWildcard = some w ∧ w.allows name.ns

theorem declares_iff {t : ComplexType δ} {name : QName} :
    t.Declares name ↔ ∃ use ∈ t.attributes, use.decl.name = name := by
  simp [Declares, attribute?]

end XmlSchema.Component.ComplexType

namespace XmlSchema.Schema

open Component
open Datatype (SimpleType)
open Xml (Element)
open Compile

namespace AttributeSet

def Declares (set : AttributeSet) (name : QName) : Prop := ∃ use ∈ set.uses, use.decl.name = name

theorem declares_upsert {set : AttributeSet} {name : QName} (use : AttributeUse)
    (declares : set.Declares name) : (set.upsert use).Declares name := by
  obtain ⟨uses, wildcard⟩ := set
  obtain ⟨other, member, same⟩ := declares
  simp only [upsert, Declares] at member ⊢
  induction uses with
  | nil => cases member
  | cons first rest ih =>
    unfold upsertInto
    rcases List.mem_cons.1 member with rfl | member
    · split
      · next replaced =>
        exact ⟨use, List.mem_cons_self, by rw [← same, beq_iff_eq.1 replaced]⟩
      · exact ⟨other, List.mem_cons_self, same⟩
    · split
      · exact ⟨other, List.mem_cons_of_mem _ member, same⟩
      · obtain ⟨kept, among, named⟩ := ih member
        exact ⟨kept, List.mem_cons_of_mem _ among, named⟩

theorem declares_addGroup {set : AttributeSet} {name : QName} (group : AttributeGroup)
    (declares : set.Declares name) : (set.addGroup group).Declares name := by
  have added : (group.attributes.foldl upsert set).Declares name := by
    generalize group.attributes = uses
    induction uses generalizing set with
    | nil => exact declares
    | cons use uses ih => exact ih (declares_upsert use declares)
  exact added

end AttributeSet

namespace Definition

variable {names : Names} {d : Document} {e step child : Element} {body : List Element}
  {set added : AttributeSet}

def Prohibits (child : Element) : Prop :=
  child.name.localName = "attribute" ∧ child.attribute? "use" = some "prohibited"

theorem yields_attributeStep_declares (keeps : ¬Prohibits child) :
    Yields (fun _ => True) (attributeStep names d child) fun step =>
      ∀ set name, AttributeSet.Declares set name → (step set).Declares name := by
  unfold attributeStep
  split
  · next isAttribute =>
    refine yields_rest fun decl => yields_pure fun set name declares => ?_
    have used : ¬child.attribute? "use" = some "prohibited" := fun prohibited =>
      keeps ⟨isAttribute, prohibited⟩
    simp only [beq_false_of_ne used]
    exact AttributeSet.declares_upsert _ declares
  · exact yields_rest fun _ => yields_rest fun group => yields_pure fun set name declares =>
      AttributeSet.declares_addGroup group declares
  · exact yields_rest fun w => yields_pure fun set name declares => declares
  · exact yields_pure fun set name declares => declares

theorem declares_of_attributesFrom (stateless : names.Stateless)
    (keeps : ∀ child ∈ body, ¬Prohibits child)
    (gives : (attributesFrom names d body set).Gives added)
    {name : QName} (declares : set.Declares name) : added.Declares name := by
  induction body generalizing set with
  | nil => exact gives_pure.1 gives ▸ declares
  | cons child body ih =>
    obtain ⟨keepsFirst, keepsRest⟩ := List.forall_mem_cons.1 keeps
    obtain ⟨step, givesStep, givesRest⟩ := (gives_attributesFrom_cons stateless).1 gives
    have kept := givesStep.post (yields_attributeStep_declares keepsFirst)
    exact ih keepsRest givesRest (kept _ _ declares)

theorem wildcard_of_attributesFrom (stateless : names.Stateless)
    (gives : (attributesFrom names d body set).Gives added) :
    (∃ child ∈ body, isWildcard child ∧ ∃ w, (wildcard d child).Gives w ∧ added.wildcard = some w) ∨
      (∀ child ∈ body, isWildcard child = false) ∧
        ∀ w, set.wildcard = some w → added.wildcard = some w := by
  induction body generalizing set with
  | nil =>
    obtain rfl := gives_pure.1 gives
    exact .inr ⟨fun _ member => (nomatch member), fun _ => id⟩
  | cons child body ih =>
    obtain ⟨step, givesStep, givesRest⟩ := (gives_attributesFrom_cons stateless).1 gives
    rcases ih givesRest with ⟨own, member, rest⟩ | ⟨none, kept⟩
    · exact .inl ⟨own, List.mem_cons_of_mem _ member, rest⟩
    · cases isOwn : isWildcard child with
      | true =>
        have named : child.name.localName = "anyAttribute" := by simpa [isWildcard] using isOwn
        simp only [attributeStep, named] at givesStep
        have statelessWildcard := (uniform_wildcard d child).stateless stateless
        obtain ⟨w, givesWildcard, same⟩ :=
          (statelessWildcard.gives_bind_iff fun _ => stateless_pure _).1 givesStep
        obtain rfl := gives_pure.1 same
        exact .inl ⟨child, List.mem_cons_self, isOwn, w, givesWildcard, kept w rfl⟩
      | false =>
        have adds := givesStep.post (yields_attributeStep child)
        rw [isOwn] at adds
        exact .inr ⟨List.forall_mem_cons.2 ⟨isOwn, none⟩,
          fun w found => kept w (adds.kept rfl set w found)⟩

/-- An extension keeps the attributes of its base, as far as the step in which it is written lets
it. -/
structure KeepsAttributes (d : Document) (step : Element) (parent t : ComplexType ElementDecl) :
    Prop where
  declares : ∀ name, parent.Declares name → t.Declares name
  allows : (∀ child ∈ schemaChildren step, isWildcard child = false) →
    ∀ name, parent.Allows name → t.Allows name
  replaced : (∃ child ∈ schemaChildren step, isWildcard child) →
    ∃ child ∈ schemaChildren step, isWildcard child ∧
      ∃ w, (wildcard d child).Gives w ∧ t.attributeWildcard = some w

theorem Makeup.keepsAttributes {depth : Nat} {parent t : ComplexType ElementDecl}
    (makeup : Makeup names d depth e t step (some parent)) (stateless : names.Stateless)
    (keeps : ∀ child ∈ schemaChildren step, ¬Prohibits child) :
    KeepsAttributes d step parent t := by
  obtain ⟨set, gives, uses, wildcard⟩ := makeup.attributes
  have declares (name : QName) (declared : parent.Declares name) : t.Declares name := by
    rw [ComplexType.declares_iff] at declared ⊢
    rw [uses]
    exact declares_of_attributesFrom stateless keeps gives declared
  refine ⟨declares, fun noOwn name allowed => ?_, fun ⟨child, member, isOwn⟩ => ?_⟩
  · rcases allowed with declared | ⟨w, found, allows⟩
    · exact .inl (declares name declared)
    · rcases wildcard_of_attributesFrom stateless gives with ⟨child, member, isOwn, _⟩ | ⟨_, kept⟩
      · rw [noOwn child member] at isOwn
        cases isOwn
      · exact .inr ⟨w, wildcard.trans (kept w found), allows⟩
  · rw [wildcard]
    rcases wildcard_of_attributesFrom stateless gives with own | ⟨noOwn, _⟩
    · exact own
    · rw [noOwn child member] at isOwn
      cases isOwn

end Definition

namespace CompilationUnit

variable {unit : CompilationUnit} {n m : Nat} {d : Document} {e : Element} {name : QName}

inductive TypeMeans (unit : CompilationUnit) (n : Nat) (name : QName) :
    TypeDefinition ElementDecl → Prop
  | simple {type : SimpleType} (means : unit.MeansWithin n (.simpleType name) type) :
      TypeMeans unit n name (.simple type)
  | complex {type : ComplexType ElementDecl} (means : unit.MeansWithin n (.complexType name) type) :
      TypeMeans unit n name (.complex type)

theorem TypeMeans.unique {value other : TypeDefinition ElementDecl}
    (means : unit.TypeMeans n name value) (meansOther : unit.TypeMeans m name other) :
    value = other := by
  have notBoth {n m : Nat} {type : SimpleType} {type' : ComplexType ElementDecl}
      (simple : unit.MeansWithin n (.simpleType name) type)
      (complex : unit.MeansWithin m (.complexType name) type') : False := by
    obtain ⟨_, found, _⟩ := simple
    obtain ⟨_, found', _⟩ := complex
    rw [definitionOf?_complexType_eq_none found] at found'
    cases found'
  cases means with
  | simple means =>
    cases meansOther with
    | simple meansOther => exact congrArg _ (means.leniently.unique meansOther.leniently)
    | complex meansOther => exact (notBoth means meansOther).elim
  | complex means =>
    cases meansOther with
    | simple meansOther => exact (notBoth meansOther means).elim
    | complex meansOther => exact congrArg _ (means.leniently.unique meansOther.leniently)

theorem meansWithin_of_fresh {slot : Slot} {value : slot.Value} (isType : slot.key.kind = .type)
    (defined : (unit.definition? slot.key.kind slot.key.name).isSome)
    (gives : (unit.fresh (unit.plain n) d e slot).Gives value) : unit.MeansWithin n slot value := by
  unfold fresh at gives
  split at gives
  · cases slot with
    | simpleType name | complexType name =>
      simp only [Slot.key] at defined
      simp only [elsewhere, defined, if_true] at gives
      exact absurd gives not_gives_throw
    | _ => cases isType
  · next definition found => exact ⟨definition, found, gives⟩

theorem typeMeans_of_simpleType (foreign : name.ns ≠ schemaNamespace)
    (defined : (unit.definition? .type name).isSome) {type : SimpleType}
    (gives : ((unit.plain n).simpleType d e name).Gives type) :
    unit.TypeMeans n name (.simple type) := by
  obtain ⟨_, fresh, rfl⟩ := exists_fresh_of_gives (q := .simpleType d e name)
    (origin_simpleType foreign) gives
  exact .simple (meansWithin_of_fresh rfl defined fresh)

theorem typeMeans_of_complexType (foreign : name.ns ≠ schemaNamespace)
    (defined : (unit.definition? .type name).isSome) {type : ComplexType ElementDecl}
    (gives : ((unit.plain n).complexType d e name).Gives type) :
    unit.TypeMeans n name (.complex type) := by
  obtain ⟨_, fresh, rfl⟩ := exists_fresh_of_gives (q := .complexType d e name)
    (origin_complexType foreign) gives
  exact .complex (meansWithin_of_fresh rfl defined fresh)

theorem typeMeans_of_globalOf (foreign : d.target ≠ schemaNamespace) {localName : String}
    (defined : (unit.definition? .type ⟨d.target, localName⟩).isSome)
    {value : TypeDefinition ElementDecl}
    (gives : (globalOf (unit.plain n) d e localName .type).Gives value) :
    unit.TypeMeans n ⟨d.target, localName⟩ value := by
  unfold globalOf at gives
  dsimp only at gives
  split at gives
  · obtain ⟨type, answered, rfl⟩ :=
      (stateless_plain n (.simpleType d e ⟨d.target, localName⟩)).gives_map_iff.1 gives
    exact typeMeans_of_simpleType foreign defined answered
  · obtain ⟨type, answered, rfl⟩ :=
      (stateless_plain n (.complexType d e ⟨d.target, localName⟩)).gives_map_iff.1 gives
    exact typeMeans_of_complexType foreign defined answered

theorem typeMeans_of_type? {docs : List Document} {pool : Pool} {symbols : SymbolTable}
    {grammars : List Grammar} {st : CompilerState}
    (ran : (ofDocuments docs pool).compile.run { symbols } = (.ok grammars, st))
    (foreign : name.ns ≠ schemaNamespace)
    (defined : ((ofDocuments docs pool).definition? .type name).isSome)
    (new : pool.type? name = none) :
    ∃ value, (grammars.foldl Pool.insert pool).type? name = some value ∧
      ∃ n, (ofDocuments docs pool).TypeMeans n name value := by
  obtain ⟨n, gives⟩ := run_compile_iff_plain.1 ⟨st, ran⟩
  have describes := describes_of_gives gives
  obtain ⟨definition, isDefinition⟩ := Option.isSome_iff_exists.1 defined
  obtain ⟨member, target, among, declares⟩ := mem_of_definition? isDefinition
  obtain ⟨provided, isProvided⟩ :=
    Option.isSome_iff_exists.1 (describes.complete _ member _ among .type _ declares)
  rw [target] at isProvided
  have isSome : ((grammars.foldl Pool.insert pool).find? .type name).isSome :=
    Pool.isSome_find?_of_provides (Pool.provides_of_find? isProvided)
  obtain ⟨value, found⟩ := Option.isSome_iff_exists.1 isSome
  refine ⟨value, by rw [Pool.type?_eq_find? _ _ foreign, found], n, ?_⟩
  rcases Pool.provides_of_find?_foldl_insert found with old | isNew
  · rw [Pool.type?_eq_find? _ _ foreign] at new
    rw [new] at old
    cases old
  · obtain ⟨d, _, target, e, _, _, canGive⟩ :=
      describes.sound .type name value (describes.provides_iff.1 isNew)
    obtain ⟨ns, localName⟩ := name
    subst target
    have stateless : ((ofDocuments docs pool).plain n).Stateless := stateless_plain n
    exact typeMeans_of_globalOf foreign defined
      (((uniform_globalOf d e localName .type).stateless stateless).gives_of_canGive canGive)

def DefinesAnew (unit : CompilationUnit) (name : QName) : Prop :=
  (unit.definition? .type name).isSome ∧ (unit.pool.type? name).isSome

variable {docs : List Document} {pool : Pool} {symbols : SymbolTable} {grammars : List Grammar}
  {st : CompilerState}

theorem type?_of_type (ran : (ofDocuments docs pool).compile.run { symbols } = (.ok grammars, st))
    (once : ¬(ofDocuments docs pool).DefinesAnew name) {definition : TypeDefinition ElementDecl}
    (gives : (((ofDocuments docs pool).plain n).type d e name).Gives definition) :
    (grammars.foldl Pool.insert pool).type? name = some definition := by
  have settled := gives_plain_succ n (.type d e name) definition gives
  rw [ask_plain, plainAnswer] at settled
  by_cases builtIn : name.ns = schemaNamespace
  · simp only [origin, builtIn, beq_self_eq_true, if_true] at settled
    split at settled
    · next found =>
      obtain rfl := gives_pure.1 settled
      simpa [Pool.type?, builtIn] using found
    · exact absurd settled not_gives_throw
  · cases found : (ofDocuments docs pool).definition? .type name with
    | none =>
      simp only [origin, beq_iff_eq, builtIn, if_false, found] at settled
      split at settled
      · next old =>
        obtain rfl := gives_pure.1 settled
        exact (Pool.Within.foldl_insert pool grammars).type? old
      · exact absurd settled not_gives_throw
    | some own =>
      have defined : ((ofDocuments docs pool).definition? .type name).isSome := by simp [found]
      have new : pool.type? name = none := by
        rw [← Option.not_isSome_iff_eq_none]
        exact fun known => once ⟨defined, known⟩
      -- The grammars hold a meaning of the definition, and it has no other.
      obtain ⟨value, isValue, m, means⟩ := typeMeans_of_type? ran builtIn defined new
      rw [isValue]
      by_cases isComplex : own.element.name.localName = "complexType"
      · simp only [origin, beq_iff_eq, builtIn, if_false, found, isComplex, if_true] at settled
        obtain ⟨type, fresh, rfl⟩ :=
          (stateless_fresh (stateless_plain n) (.complexType name)).gives_map_iff.1 settled
        exact congrArg some (means.unique (.complex (meansWithin_of_fresh rfl defined fresh)))
      · simp only [origin, beq_iff_eq, builtIn, if_false, found, isComplex] at settled
        obtain ⟨type, fresh, rfl⟩ :=
          (stateless_fresh (stateless_plain n) (.simpleType name)).gives_map_iff.1 settled
        exact congrArg some (means.unique (.simple (meansWithin_of_fresh rfl defined fresh)))

theorem exists_type_of_complexType {unit : CompilationUnit} {t : ComplexType ElementDecl}
    (gives : ((unit.plain n).complexType d e name).Gives t) :
    ∃ definition, ((unit.plain (n + 1)).type d e name).Gives definition ∧
      definition.complex? = some t := by
  have settled := gives_plain_succ n (.complexType d e name) t gives
  rw [ask_plain, plainAnswer] at settled
  suffices asked : ∃ definition, ((unit.plain (n + 1)).ask (.type d e name)).Gives definition ∧
      definition.complex? = some t from asked
  rw [ask_plain, plainAnswer]
  by_cases builtIn : name.ns = schemaNamespace
  · simp only [origin, builtIn, beq_self_eq_true, if_true] at settled ⊢
    split at settled
    · next found =>
      obtain rfl := gives_pure.1 settled
      obtain ⟨definition, known, complex⟩ := Option.bind_eq_some_iff.1 found
      refine ⟨definition, ?_, complex⟩
      rw [known]
      exact gives_pure.2 rfl
    · exact absurd settled not_gives_throw
  · simp only [origin_complexType builtIn] at settled
    obtain ⟨_, fresh, rfl⟩ :=
      (stateless_fresh (stateless_plain n) (.complexType name)).gives_map_iff.1 settled
    cases found : unit.definition? .type name with
    -- A type that the unit does not define is looked for in the pool, for both questions.
    | none =>
      have noOwn : unit.definitionOf? (.complexType name) = none := by
        simp only [definitionOf?, Slot.key, found, Option.filter_none]
      simp only [CompilationUnit.fresh, noOwn, elsewhere, found, Option.isSome_none,
        Bool.false_eq_true, if_false] at fresh
      simp only [origin, beq_iff_eq, builtIn, if_false, found]
      split at fresh
      · next definition known =>
        split at fresh
        · next complex =>
          obtain rfl := gives_pure.1 fresh
          exact ⟨definition, gives_pure.2 rfl, complex⟩
        · exact absurd fresh not_gives_throw
      · exact absurd fresh not_gives_throw
    | some own =>
      have defined : (unit.definition? .type name).isSome := by simp [found]
      obtain ⟨definition, isOwn, means⟩ : unit.MeansWithin n (.complexType name) _ :=
        meansWithin_of_fresh rfl defined fresh
      rw [origin_type_of_complex builtIn isOwn]
      exact ⟨.complex _, (stateless_fresh (stateless_plain n) (.complexType name)).gives_map_iff.2
        ⟨_, fresh, rfl⟩, rfl⟩

theorem exists_type?_of_derives
    (ran : (ofDocuments docs pool).compile.run { symbols } = (.ok grammars, st))
    (once : ¬(ofDocuments docs pool).DefinesAnew name) {step : Element} {derivation : Derivation}
    {parent? : Option (ComplexType ElementDecl)}
    (derives : Definition.Derives ((ofDocuments docs pool).plain n) d e step
      (some (name, derivation)) parent?) :
    ∃ definition, (grammars.foldl Pool.insert pool).type? name = some definition ∧
      definition.complex? = parent? := by
  cases derives with
  | fromSimple _ _ _ means => exact ⟨_, type?_of_type ran once means, rfl⟩
  | fromSimpleContent _ _ _ means complex => exact ⟨_, type?_of_type ran once means, complex⟩
  | fromComplex _ _ _ _ means =>
    obtain ⟨definition, meansToo, complex⟩ := exists_type_of_complexType means
    exact ⟨definition, type?_of_type ran once meansToo, complex⟩

end CompilationUnit

open Definition
open CompilationUnit (ofDocuments)

/-- A complex type is written as an extension in a schema set: in a step inside of an element of a
document, which is compiled when some of the grammars are there. -/
inductive IsExtension (lib : Library) (loaded : List LoadedSource) (pool : Pool)
    (t : ComplexType ElementDecl) (base : QName) :
    Document → Element → Option (ComplexType ElementDecl) → Prop
  | written {docs : List Document} {before : Pool} {n depth : Nat} {name : Option QName}
      {d : Document} {e step : Element} {parent? : Option (ComplexType ElementDecl)}
      (unit : UnitOf lib loaded docs) (within : before.Within pool) (member : d ∈ docs)
      (has : d.Has e)
      (gives : (complexType ((ofDocuments docs before).plain n) d depth e name).Gives t)
      (derives : Derives ((ofDocuments docs before).plain n) d e step (some (base, .extension))
        parent?)
      (inPool : ¬(ofDocuments docs before).DefinesAnew base →
        ∃ definition, pool.type? base = some definition ∧ definition.complex? = parent?) :
      IsExtension lib loaded pool t base d step parent?

def AllowsAsBase (lib : Library) (loaded : List LoadedSource) (pool : Pool)
    (t : ComplexType ElementDecl) : Prop :=
  ∀ base, t.base = some (base, .extension) →
    ∃ d step parent?, IsExtension lib loaded pool t base d step parent? ∧
      ∀ parent, parent? = some parent → (∀ child ∈ schemaChildren step, ¬Prohibits child) →
        KeepsAttributes d step parent t

variable {lib : Library} {loaded : List LoadedSource} {pool larger : Pool}
  {t : ComplexType ElementDecl}

theorem AllowsAsBase.mono (allows : AllowsAsBase lib loaded pool t) (within : pool.Within larger) :
    AllowsAsBase lib loaded larger t := by
  intro base extended
  obtain ⟨d, step, parent?, isExtension, keeps⟩ := allows base extended
  refine ⟨d, step, parent?, ?_, keeps⟩
  obtain ⟨unit, before, member, has, gives, derives, inPool⟩ := isExtension
  refine .written unit (before.trans within) member has gives derives fun once => ?_
  obtain ⟨definition, found, complex⟩ := inPool once
  exact ⟨definition, within.type? found, complex⟩

theorem allowsAsBase_keptBySources :
    KeptBySources lib loaded fun pool =>
      ∀ t, pool.HasComplexType t → AllowsAsBase lib loaded pool t := by
  intro docs pool symbols grammars st unit holds ran
  have within := Pool.Within.foldl_insert pool grammars
  rw [Pool.forall_hasComplexType_iff] at holds ⊢
  have holdsInUnit : CompilationUnit.HoldsInUnit
      (AllowsAsBase lib loaded (grammars.foldl Pool.insert pool)) docs pool := by
    refine ⟨fun part held => (holds part held).mono fun t allows => allows.mono within,
      fun base extended => (nomatch extended),
      fun d member n e name t has gives base extended => ?_⟩
    have stateless : ((ofDocuments docs pool).plain n).Stateless := CompilationUnit.stateless_plain n
    obtain ⟨step, parent?, makeup⟩ := exists_makeup stateless gives
    have derives := makeup.derives
    rw [extended] at derives
    refine ⟨d, step, parent?, .written unit within member has gives derives fun once =>
      CompilationUnit.exists_type?_of_derives ran once derives, ?_⟩
    rintro parent rfl keeps
    exact makeup.keepsAttributes stateless keeps
  exact fun part held => holdsInUnit.allTypes_of_compile ran part held

/-- In a compiled schema set, a complex type that extends another one allows all attributes that the
other one allows, if it prohibits none and has no wildcard of its own. -/
theorem allows_of_extension {files : Files.Tree} {discover : Bool} {identity : String}
    {sources : List Source} {bundle : Bundle}
    (compiled : compile files discover identity sources = .ok bundle)
    (has : bundle.pool.HasComplexType t) {base : QName}
    (extended : t.base = some (base, .extension)) :
    ∃ loaded d step parent?, loadAll files sources = .ok loaded ∧
      IsExtension (libraryOf files discover loaded) loaded bundle.pool t base d step parent? ∧
      ∀ parent, parent? = some parent → (∀ child ∈ schemaChildren step, ¬Prohibits child) →
        KeepsAttributes d step parent t := by
  obtain ⟨_, loaded, _, _, _, loads, _⟩ := compile_eq_ok_iff.1 compiled
  have start : ∀ t, Pool.HasComplexType {} t →
      AllowsAsBase (libraryOf files discover loaded) loaded {} t :=
    Pool.forall_hasComplexType_iff.2 fun part held =>
      Pool.allTypes_of_empty (fun base extended => nomatch extended) held
  have allows := compile_of_keptBySources allowsAsBase_keptBySources start loads compiled
  obtain ⟨d, step, parent?, isExtension, keeps⟩ := allows t has base extended
  exact ⟨loaded, d, step, parent?, loads, isExtension, keeps⟩

def openText : String :=
  "<s:schema xmlns:s='http://www.w3.org/2001/XMLSchema'>
    <s:complexType name='Open'><s:anyAttribute processContents='lax'/></s:complexType>
    <s:complexType name='Wide'><s:complexContent><s:extension base='Open'>
    <s:attribute name='id'/></s:extension></s:complexContent></s:complexType>
    <s:complexType name='Narrow'><s:complexContent><s:extension base='Open'>
    <s:anyAttribute namespace='urn:x'/></s:extension></s:complexContent></s:complexType></s:schema>"

def openSource : Source := { systemId := "open.xsd", content := some openText }

instance {δ : Type} (t : ComplexType δ) (name : QName) : Decidable (t.Declares name) :=
  inferInstanceAs (Decidable ((t.attribute? name).isSome = true))

instance {δ : Type} (t : ComplexType δ) (name : QName) : Decidable (t.Allows name) :=
  decidable_of_iff (t.Declares name ∨ ∃ w ∈ t.attributeWildcard, w.allows name.ns = true)
    (by simp [ComplexType.Allows])

def localComplexType? (pool : Pool) (localName : String) : Option (ComplexType ElementDecl) :=
  (pool.type? ⟨"", localName⟩).bind TypeDefinition.complex?

theorem hasComplexType_of_localComplexType? {localName : String}
    (found : localComplexType? pool localName = some t) : pool.HasComplexType t := by
  obtain ⟨definition, isType, complex⟩ := Option.bind_eq_some_iff.1 found
  exact ⟨_, definition, .type isType, .refl, complex⟩

def HasOpenTypes (pool : Pool) : Prop :=
  ∃ parent ∈ localComplexType? pool "Open", ∃ wide ∈ localComplexType? pool "Wide",
    ∃ narrow ∈ localComplexType? pool "Narrow",
      wide.base = some (⟨"", "Open"⟩, .extension) ∧ narrow.base = some (⟨"", "Open"⟩, .extension) ∧
        parent.Allows ⟨"", "id"⟩ ∧ ¬narrow.Allows ⟨"", "id"⟩

instance (pool : Pool) : Decidable (HasOpenTypes pool) := by
  unfold HasOpenTypes
  infer_instance

set_option maxRecDepth 100000 in
theorem openText_attempt : ∀ source ∈ [("open.xsd", openText)],
    (∀ root ∈ (parse source.1 source.2).toOption,
        ∀ child ∈ schemaChildren root, child.name.localName ≠ "include") ∧
      ∃ grammars ∈ (attempt {} source).toOption,
        HasOpenTypes (grammars.foldl Pool.insert {}) := by
  have letters : openText.toList = _ := Text.toList_of_spelled rfl
  rw [List.forall_mem_singleton, attempt, documentOf]
  dsimp only
  rw [parse, Xml.parse?, ← String.length_toList, letters]
  decide +kernel

theorem exists_compile_openSource :
    ∃ bundle, compile {} false "open" [openSource] = .ok bundle ∧ HasOpenTypes bundle.pool := by
  obtain ⟨noIncludes, grammars, given, types⟩ := openText_attempt _ (List.mem_singleton_self _)
  have alone : StandsAlone ("open.xsd", openText) := fun root read =>
    noIncludes root (by rw [read]; rfl)
  have attempted := eq_ok_of_mem_toOption given
  have content : openSource.content = some openText := rfl
  obtain ⟨bundle, compiled, pool⟩ := compile_of_attempt "open" content alone attempted
  exact ⟨bundle, compiled, pool ▸ types⟩

theorem allows_of_extension_wide : ∃ bundle t,
    compile {} false "open" [openSource] = .ok bundle ∧ bundle.pool.HasComplexType t ∧
      t.base = some (⟨"", "Open"⟩, .extension) ∧
      ∃ loaded d step parent?, loadAll {} [openSource] = .ok loaded ∧
        IsExtension (libraryOf {} false loaded) loaded bundle.pool t ⟨"", "Open"⟩ d step parent? ∧
        ∀ parent, parent? = some parent → (∀ child ∈ schemaChildren step, ¬Prohibits child) →
          KeepsAttributes d step parent t := by
  obtain ⟨bundle, compiled, _, _, wide, isWide, _, _, extended, _⟩ := exists_compile_openSource
  have has := hasComplexType_of_localComplexType? isWide
  exact ⟨bundle, wide, compiled, has, extended, allows_of_extension compiled has extended⟩

/-- The type that has a wildcard of its own refuses attributes that the one which it extends allows.
It prohibits none. -/
theorem not_allows_of_extension : ∃ bundle parent t,
    compile {} false "open" [openSource] = .ok bundle ∧ bundle.pool.HasComplexType t ∧
      t.base = some (⟨"", "Open"⟩, .extension) ∧
      (bundle.pool.type? ⟨"", "Open"⟩).bind TypeDefinition.complex? = some parent ∧
      ∃ name, parent.Allows name ∧ ¬t.Allows name := by
  obtain ⟨bundle, compiled, parent, isOpen, _, _, narrow, isNarrow, _, extended, allows, refuses⟩ :=
    exists_compile_openSource
  exact ⟨bundle, parent, narrow, compiled, hasComplexType_of_localComplexType? isNarrow, extended,
    isOpen, _, allows, refuses⟩

end XmlSchema.Schema
