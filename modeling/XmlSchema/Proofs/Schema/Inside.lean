import XmlSchema.Proofs.Schema.Makeup
import XmlSchema.Proofs.Schema.Order
import XmlSchema.Proofs.Schema.Value

namespace XmlSchema.Schema

open Component
open ContentModel (Particle ElementTerm Term allElements)
open Datatype (SimpleType)
open Xml (Element)
open Compile

def Document.Has (d : Document) (e : Element) : Prop :=
  Relation.ReflTransGen (fun outer inner => inner ∈ schemaChildren outer) d.root e

namespace Document.Has

variable {d : Document} {e inner : Element}

theorem child (has : d.Has e) (member : inner ∈ schemaChildren e) : d.Has inner := has.tail member

theorem schemaChild (has : d.Has e) {name : String} (found : schemaChild? e name = some inner) :
    d.Has inner :=
  has.child (List.mem_of_find?_eq_some found)

theorem contentChild (has : d.Has e) (found : Definition.contentChild? e = some inner) :
    d.Has inner :=
  has.child (List.mem_of_find?_eq_some found)

theorem derivation (has : d.Has e) {derivation : Derivation}
    (found : Definition.derivation? e = some (inner, derivation)) : d.Has inner := by
  unfold Definition.derivation? at found
  split at found <;> cases found
  · next extension => exact has.schemaChild extension
  · next restriction => exact has.schemaChild restriction

end Document.Has

variable {P : ComplexType ElementDecl → Prop} {names : Names} {d : Document} {e : Element}

def Query.AllTypes (P : ComplexType ElementDecl → Prop) : (q : Query) → q.Answer → Prop
  | .complexType .., (t : ComplexType ElementDecl) => (Part.type (.complex t)).AllTypes P
  | .type .., (definition : TypeDefinition ElementDecl) => (Part.type definition).AllTypes P
  | .group .., (p : Particle ElementDecl) => ParticleAllTypes P p
  | .isElement .., _ | .isType .., _ | .simpleType .., _ | .attributeGroup .., _
  | .attributeDecl .., _ => True

/-- Something holds of all complex types that are written in a document, with names that are
answered with such types only. -/
structure HoldsWhereWritten (P : ComplexType ElementDecl → Prop) (names : Names) (d : Document) :
    Prop where
  stateless : names.Stateless
  answers : ∀ q, Yields (fun _ => True) (names.ask q) (q.AllTypes P)
  builtin : P .anyType
  written : ∀ e name t, d.Has e →
    (Definition.complexType names d (Definition.depthBelow e) e name).Gives t → P t

namespace Definition

variable {depth : Nat} {name : Option QName}

theorem Derives.has {step : Element} {base? : Option (QName × Derivation)}
    {parent? : Option (ComplexType ElementDecl)} (derives : Derives names d e step base? parent?)
    (has : d.Has e) : d.Has step := by
  cases derives with
  | own => exact has
  | fromSimple found derives | fromSimpleContent found derives | fromComplex _ found derives =>
    exact (has.schemaChild found).derivation derives

theorem Derives.parent {step : Element} {base? : Option (QName × Derivation)}
    {parent : ComplexType ElementDecl} (holds : HoldsWhereWritten P names d)
    (derives : Derives names d e step base? (some parent)) :
    (Part.type (.complex parent)).AllTypes P := by
  cases derives with
  | @fromSimpleContent _ _ _ name definition _ _ _ _ means complex =>
    have all : (Part.type definition).AllTypes P := means.post (holds.answers (.type d step name))
    exact (Part.allTypes_type_iff rfl).2 ((Part.allTypes_type_iff complex).1 all)
  | @fromComplex _ _ _ name _ _ _ _ _ means =>
    have all : (Part.type (.complex parent)).AllTypes P :=
      means.post (holds.answers (.complexType d step name))
    exact all

theorem allTypes_of_gives (holds : HoldsWhereWritten P names d) (has : d.Has e)
    (own : ∀ step, d.Has step → step.height ≤ e.height → ∀ p,
      (ownParticle names d depth step).Gives (some p) → ParticleAllTypes P p)
    {t : ComplexType ElementDecl} (deep : 2 * e.height ≤ depth + 1)
    (gives : (complexType names d (depth + 1) e name).Gives t) :
    (Part.type (.complex t)).AllTypes P := by
  have written := gives
  rw [complexType_eq_of_deep names d _ _ e name deep (deep_depthBelow e)] at written
  refine (Part.allTypes_type_iff rfl).2 ⟨holds.written e name t has written, fun x hasTerm => ?_⟩
  obtain ⟨step, parent?, derives, _, terms⟩ := exists_makeup holds.stateless gives
  rcases terms x hasTerm with ⟨parent, rfl, inherited⟩ | ⟨p, givesOwn, member⟩
  · exact ((Part.allTypes_type_iff rfl).1 (derives.parent holds)).2 x inherited
  · exact own step (derives.has has) derives.height_le p givesOwn x member

theorem yields_typeRef_allTypes (holds : HoldsWhereWritten P names d) (name : QName) :
    Yields (fun _ => True) (typeRef names d e name) fun ref =>
      ∀ key definition, ref = .inline key definition → (Part.type definition).AllTypes P := by
  unfold typeRef
  split
  · cases found : TypeDefinition.builtin? name.localName with
    | none => exact yields_throw _
    | some definition =>
      refine yields_pure fun key inline same => ?_
      cases same
      exact allTypes_builtin holds.builtin found
  · split
    · exact yields_rest fun _ => yields_pure fun _ _ same => nomatch same
    · exact yields_throw _

theorem allTypes_of_children {ps : List (Option (Particle ElementDecl))}
    (all : ∀ p? ∈ ps, ∀ p, p? = some p → ParticleAllTypes P p) {x : ElementTerm ElementDecl}
    (member : x ∈ allElements (ps.filterMap id)) : (Part.term x).AllTypes P := by
  obtain ⟨p, among, inside⟩ := ContentModel.mem_allElements.1 member
  obtain ⟨p?, given, equal⟩ := List.mem_filterMap.1 among
  exact all p? given p equal x inside

mutual

theorem yields_elementDecl_allTypes (holds : HoldsWhereWritten P names d) :
    (depth : Nat) → (e : Element) → d.Has e → (isGlobal : Bool) → 2 * e.height ≤ depth + 1 →
    Yields (fun _ => True) (elementDecl names d depth e isGlobal) fun decl =>
      (Part.declaration decl).AllTypes P
  | 0, _, _, _, _ => yields_throw _
  | depth + 1, e, has, isGlobal, deep => by
      have declared (ns localName : String) (type : TypeRef ElementDecl)
          (all : ∀ key definition, type = .inline key definition →
            (Part.type definition).AllTypes P) : Yields (fun _ => True) (do
            pure { name := ← internName ⟨ns, localName⟩, type, nillable := isTrue e "nillable",
                   default? := e.attribute? "default", fixed? := e.attribute? "fixed",
                   isAbstract := isTrue e "abstract" })
            fun decl => (Part.declaration decl).AllTypes P :=
        yields_rest fun _ => yields_pure (Part.allTypes_declaration all)
      have inline (key : TypeKey) {definition : TypeDefinition ElementDecl}
          (all : (Part.type definition).AllTypes P) : Yields (fun _ => True)
            (pure (.inline key definition)) fun type : TypeRef ElementDecl =>
              ∀ key definition, type = .inline key definition → (Part.type definition).AllTypes P :=
        yields_pure fun key definition same => by
          cases same
          exact all
      simp only [elementDecl]
      split
      · exact yields_throw _
      · split
        · exact yields_rest fun name => (yields_typeRef_allTypes holds name).bind (declared _ _)
        · next found =>
          have less := height_lt_of_schemaChild? found
          exact (yields_complexType_allTypes holds depth _ (has.schemaChild found) _
            (by omega)).bind fun _ all => (inline _ all).bind (declared _ _)
        · exact yields_rest fun _ => (inline _ Part.allTypes_simple).bind (declared _ _)
        · exact (inline _ (allTypes_anyType holds.builtin)).bind (declared _ _)

theorem yields_particle_allTypes (holds : HoldsWhereWritten P names d) :
    (depth : Nat) → (e : Element) → d.Has e → 2 * e.height ≤ depth →
    Yields (fun _ => True) (particle names d depth e) fun p? =>
      ∀ p, p? = some p → ParticleAllTypes P p
  | 0, _, _, _ => yields_throw _
  | depth + 1, e, has, deep => by
      have occurring (min : Nat) (max : Option Nat) {term : Term ElementDecl}
          (all : ParticleAllTypes P ⟨min, max, term⟩) :
          Yields (fun _ => True) (pure (some ⟨min, max, term⟩))
            fun p? => ∀ p, p? = some p → ParticleAllTypes P p :=
        yields_pure fun p equal => by
          cases equal
          exact all
      have children : Yields (fun _ => True) ((schemaChildren e).mapM (particle names d depth))
          fun ps => ∀ x ∈ allElements (ps.filterMap id), (Part.term x).AllTypes P :=
        (yields_mapM_of_mem fun child member => by
          have less := height_lt_of_mem_schemaChildren member
          exact yields_particle_allTypes holds depth child (has.child member) (by omega)).mono
            fun ps all x member => allTypes_of_children all member
      simp only [particle]
      refine yields_rest fun bounds => ?_
      split
      · split
        · refine yields_rest fun name => ?_
          split
          · exact yields_rest fun _ => occurring _ _ (particleAllTypes_element
              (Part.allTypes_term fun _ declared => nomatch declared))
          · exact yields_throw _
        · refine (yields_elementDecl_allTypes holds depth e has _ deep).bind fun decl all =>
            occurring _ _ (particleAllTypes_element (Part.allTypes_term fun _ declared => ?_))
          cases declared
          exact all
      · exact yields_rest fun _ => occurring _ _ particleAllTypes_wildcard
      · exact yields_rest fun name => Yields.bind (holds.answers (.group d e name)) fun p all =>
          occurring _ _ (ParticleAllTypes.occurring all _ _)
      · exact children.bind fun _ all => occurring _ _ all
      · exact children.bind fun _ all => occurring _ _ all
      · exact children.bind fun _ all => occurring _ _ all
      · exact yields_pure (fun _ equal => nomatch equal)

theorem yields_complexType_allTypes (holds : HoldsWhereWritten P names d) :
    (depth : Nat) → (e : Element) → d.Has e → (name : Option QName) → 2 * e.height ≤ depth →
    Yields (fun _ => True) (complexType names d depth e name) fun t =>
      (Part.type (.complex t)).AllTypes P
  | 0, _, _, _, _ => yields_throw _
  | depth + 1, e, has, name, deep => by
      refine (yields_canGive _).mono fun t canGive => ?_
      have gives := ((uniform_complexType d _ e name).stateless holds.stateless).gives_of_canGive
        canGive
      refine allTypes_of_gives holds has (fun step hasStep le p givesOwn => ?_) deep gives
      unfold ownParticle at givesOwn
      split at givesOwn
      · next child found =>
        have less := height_lt_of_contentChild? found
        exact givesOwn.post (yields_particle_allTypes holds depth child
          (hasStep.contentChild found) (by omega)) p rfl
      · cases gives_pure.1 givesOwn

end

end Definition

/-- Something that may hold of type definitions, groups and attribute groups. -/
structure Trait where
  type : TypeDefinition ElementDecl → Prop
  group : Particle ElementDecl → Prop
  attributeGroup : AttributeGroup → Prop

structure Trait.HoldsIn (trait : Trait) (pool : Pool) : Prop where
  type : ∀ name definition, pool.type? name = some definition → trait.type definition
  group : ∀ name p, pool.group? name = some p → trait.group p
  attributeGroup : ∀ name g, pool.attributeGroup? name = some g → trait.attributeGroup g
  simple : ∀ type, trait.type (.simple type)
  ofComplex? : ∀ definition t, TypeDefinition.complex? definition = some t →
    trait.type definition → trait.type (.complex t)

def Query.Satisfies (trait : Trait) : (q : Query) → q.Answer → Prop
  | .complexType .., (t : ComplexType ElementDecl) => trait.type (.complex t)
  | .type .., (definition : TypeDefinition ElementDecl) => trait.type definition
  | .group .., (p : Particle ElementDecl) => trait.group p
  | .attributeGroup .., (g : AttributeGroup) => trait.attributeGroup g
  | .isElement .., _ | .isType .., _ | .simpleType .., _ | .attributeDecl .., _ => True

def Slot.Satisfies (trait : Trait) : (slot : Slot) → slot.Value → Prop
  | .complexType _, (t : ComplexType ElementDecl) => trait.type (.complex t)
  | .group _, (p : Particle ElementDecl) => trait.group p
  | .attributeGroup _, (g : AttributeGroup) => trait.attributeGroup g
  | .simpleType _, _ | .attribute _, _ => True

namespace Trait.HoldsIn

open CompilationUnit

variable {trait : Trait} {unit : CompilationUnit}

theorem builtin (holds : trait.HoldsIn unit.pool) {localName : String}
    {definition : TypeDefinition ElementDecl}
    (known : TypeDefinition.builtin? localName = some definition) : trait.type definition :=
  holds.type ⟨schemaNamespace, localName⟩ definition (by simpa [Pool.type?] using known)

theorem yields_elsewhere (holds : trait.HoldsIn unit.pool) (slot : Slot) :
    Yields (fun _ => True) (unit.elsewhere d e slot) (slot.Satisfies trait) := by
  cases slot with
  | complexType name =>
    simp only [elsewhere]
    split
    · exact yields_throw _
    · split
      · next definition found =>
        split
        · next t complex =>
          exact yields_pure
            (holds.ofComplex? definition t complex (holds.type name definition found))
        · exact yields_throw _
      · exact yields_throw _
  | group name =>
    simp only [elsewhere]
    split
    · next p found => exact yields_pure (holds.group name p found)
    · exact yields_throw _
  | attributeGroup name =>
    simp only [elsewhere]
    split
    · next g found => exact yields_pure (holds.attributeGroup name g found)
    · exact yields_throw _
  | simpleType | «attribute» => exact (yields_trivial _).mono fun _ _ => trivial

theorem yields_plainAnswer (holds : trait.HoldsIn unit.pool)
    (slots : ∀ d e slot, Yields (fun _ => True) (unit.fresh names d e slot) (slot.Satisfies trait))
    (q : Query) : Yields (fun _ => True) (unit.plainAnswer names q) (q.Satisfies trait) := by
  rw [plainAnswer]
  cases q with
  | complexType d e name =>
    by_cases builtIn : name.ns = schemaNamespace
    · simp only [origin, builtIn, beq_self_eq_true, if_true]
      split
      · next t found =>
        obtain ⟨definition, known, complex⟩ := Option.bind_eq_some_iff.1 found
        exact yields_pure (holds.ofComplex? definition t complex (holds.builtin known))
      · exact yields_throw _
    · rw [origin_complexType builtIn]
      exact (slots d e (.complexType name)).map fun _ said => said
  | type d e name =>
    by_cases builtIn : name.ns = schemaNamespace
    · simp only [origin, builtIn, beq_self_eq_true, if_true]
      split
      · next known => exact yields_pure (holds.builtin known)
      · exact yields_throw _
    · simp only [origin, beq_iff_eq, builtIn, if_false]
      cases defined : unit.definition? .type name with
      | some definition =>
        by_cases isComplex : definition.element.name.localName = "complexType"
        · simp only [isComplex, if_true]
          exact (slots d e (.complexType name)).map fun _ said => said
        · simp only [isComplex, if_false]
          exact (slots d e (.simpleType name)).map fun type _ => holds.simple type
      | none =>
        dsimp only
        split
        · next definition found => exact yields_pure (holds.type name definition found)
        · exact yields_throw _
  | group d e name => exact (slots d e (.group name)).map fun _ said => said
  | attributeGroup d e name => exact (slots d e (.attributeGroup name)).map fun _ said => said
  | isElement | isType | simpleType | attributeDecl =>
    exact (yields_trivial _).mono fun _ _ => trivial

theorem yields_ask_plain (holds : trait.HoldsIn unit.pool)
    (slots : ∀ n, (∀ q, Yields (fun _ => True) ((unit.plain n).ask q) (q.Satisfies trait)) →
      ∀ d e slot, Yields (fun _ => True) (unit.fresh (unit.plain n) d e slot)
        (slot.Satisfies trait)) (n : Nat) (q : Query) :
    Yields (fun _ => True) ((unit.plain n).ask q) (q.Satisfies trait) := by
  induction n generalizing q with
  | zero =>
    cases q with
    | complexType | type | group | attributeGroup => exact yields_throw _
    | isElement | isType | simpleType | attributeDecl =>
      exact (yields_trivial _).mono fun _ _ => trivial
  | succ n ih =>
    rw [ask_plain]
    exact holds.yields_plainAnswer (slots n ih) q

end Trait.HoldsIn

def Trait.allTypes (P : ComplexType ElementDecl → Prop) : Trait where
  type definition := (Part.type definition).AllTypes P
  group := ParticleAllTypes P
  attributeGroup _ := True

theorem Query.satisfies_allTypes (q : Query) : q.Satisfies (.allTypes P) = q.AllTypes P := by
  cases q <;> rfl

namespace CompilationUnit

variable {docs : List Document} {pool : Pool}

structure HoldsInUnit (P : ComplexType ElementDecl → Prop) (docs : List Document) (pool : Pool) :
    Prop where
  before : ∀ part, pool.Holds part → part.AllTypes P
  builtin : P .anyType
  written : ∀ d ∈ docs, ∀ n e name t, d.Has e →
    (Definition.complexType ((ofDocuments docs pool).plain n) d (Definition.depthBelow e) e
      name).Gives t → P t

def Slot.AllTypes (P : ComplexType ElementDecl → Prop) : (slot : Slot) → slot.Value → Prop
  | .complexType _, (t : ComplexType ElementDecl) => (Part.type (.complex t)).AllTypes P
  | .group _, (p : Particle ElementDecl) => ParticleAllTypes P p
  | .simpleType _, _ | .attributeGroup _, _ | .attribute _, _ => True

theorem Slot.satisfies_allTypes (slot : Slot) :
    slot.Satisfies (.allTypes P) = Slot.AllTypes P slot := by
  cases slot <;> rfl

namespace HoldsInUnit

theorem allTypes_of_type? (holds : HoldsInUnit P docs pool) {name : QName}
    {definition : TypeDefinition ElementDecl} (found : pool.type? name = some definition) :
    (Part.type definition).AllTypes P :=
  holds.before _ (.type found)

theorem allTypes_holdsIn (holds : HoldsInUnit P docs pool) : (Trait.allTypes P).HoldsIn pool where
  type _ _ found := holds.allTypes_of_type? found
  group _ _ found _ member := holds.before _ (.group found member)
  attributeGroup _ _ _ := trivial
  simple _ := Part.allTypes_simple
  ofComplex? _ _ complex all :=
    (Part.allTypes_type_iff rfl).2 ((Part.allTypes_type_iff complex).1 all)

theorem yields_groupParticle {names : Names} (holds : HoldsWhereWritten P names d) (has : d.Has e)
    (name : QName) : Yields (fun _ => True) (Slot.groupParticle names ⟨d, e⟩ name)
      (ParticleAllTypes P) := by
  unfold Slot.groupParticle
  dsimp only
  split
  · exact yields_throw _
  · next model found =>
    have hasModel : d.Has model := has.child (List.mem_of_find?_eq_some found)
    refine Yields.bind (yields_mapM_of_mem fun child member =>
      Definition.yields_particle_allTypes holds _ child (hasModel.child member) ?_)
        fun ps all => yields_pure ?_
    · have less := height_lt_of_mem_schemaChildren member
      have deep := Definition.deep_depthBelow model
      omega
    split <;> exact fun x member => Definition.allTypes_of_children all member

theorem yields_fresh (holds : HoldsInUnit P docs pool) {names : Names}
    (inDocuments : ∀ d ∈ docs, HoldsWhereWritten P names d) (slot : Slot) :
    Yields (fun _ => True) ((ofDocuments docs pool).fresh names d e slot)
      (Slot.AllTypes P slot) := by
  unfold fresh
  split
  · exact Slot.satisfies_allTypes slot ▸ holds.allTypes_holdsIn.yields_elsewhere slot
  · next definition found =>
    obtain ⟨member, _, among, _⟩ := mem_of_definition? (Option.filter_eq_some_iff.1 found).1
    have here := inDocuments _ member
    have has : definition.document.Has definition.element := .single among
    cases slot with
    | complexType name =>
      exact yields_rest fun _ => Definition.yields_complexType_allTypes here _ _ has _
        (Definition.deep_depthBelow _)
    | group name => exact yields_groupParticle here has name
    | simpleType | attributeGroup | «attribute» => exact (yields_trivial _).mono fun _ _ => trivial

theorem whereWritten (holds : HoldsInUnit P docs pool) {n : Nat}
    (answers : ∀ q, Yields (fun _ => True) (((ofDocuments docs pool).plain n).ask q)
      (q.AllTypes P)) : ∀ d ∈ docs, HoldsWhereWritten P ((ofDocuments docs pool).plain n) d :=
  fun d member => ⟨stateless_plain n, answers, holds.builtin,
    fun e name t has gives => holds.written d member n e name t has gives⟩

theorem yields_ask (holds : HoldsInUnit P docs pool) (n : Nat) (q : Query) :
    Yields (fun _ => True) (((ofDocuments docs pool).plain n).ask q) (q.AllTypes P) := by
  rw [← Query.satisfies_allTypes]
  refine holds.allTypes_holdsIn.yields_ask_plain (fun n ih d e slot => ?_) n q
  rw [Slot.satisfies_allTypes]
  exact holds.yields_fresh (holds.whereWritten fun q => Query.satisfies_allTypes q ▸ ih q) slot

theorem inDocuments (holds : HoldsInUnit P docs pool) (n : Nat) :
    ∀ d ∈ docs, HoldsWhereWritten P ((ofDocuments docs pool).plain n) d :=
  holds.whereWritten (holds.yields_ask n)

variable {symbols : SymbolTable} {grammars : List Grammar} {st : CompilerState}

theorem found_or_global
    (ran : (ofDocuments docs pool).compile.run { symbols } = (.ok grammars, st))
    {kind : ComponentKind} {name : QName} {value : Global kind}
    (found : (grammars.foldl Pool.insert pool).find? kind name = some value) :
    pool.find? kind name = some value ∨ ∃ n, ∃ d ∈ docs, ∃ e, d.Has e ∧
      (globalOf ((ofDocuments docs pool).plain n) d e name.localName kind).Gives value := by
  obtain ⟨n, gives⟩ := run_compile_iff_plain.1 ⟨st, ran⟩
  have describes := describes_of_gives gives
  refine (Pool.provides_of_find?_foldl_insert found).imp_right fun new => ?_
  obtain ⟨d, member, _, e, among, _, canGive⟩ :=
    describes.sound kind name value (describes.provides_iff.1 new)
  have stateless : ((ofDocuments docs pool).plain n).Stateless := stateless_plain n
  exact ⟨n, d, member, e, .single among,
    ((uniform_globalOf d e name.localName kind).stateless stateless).gives_of_canGive canGive⟩

theorem allTypes_of_compile (holds : HoldsInUnit P docs pool)
    (ran : (ofDocuments docs pool).compile.run { symbols } = (.ok grammars, st)) (part : Part)
    (held : (grammars.foldl Pool.insert pool).Holds part) : part.AllTypes P := by
  cases held with
  | element found =>
    rcases found_or_global ran (show Pool.find? _ .element _ = _ from found) with
      old | ⟨n, d, member, e, has, gives⟩
    · exact holds.before _ (.element old)
    · exact gives.post
        (Definition.yields_elementDecl_allTypes (holds.inDocuments n d member) _ e has true
          (Nat.le_succ_of_le (Definition.deep_depthBelow e)))
  | @type name definition found =>
    by_cases builtIn : name.ns = schemaNamespace
    · have known : TypeDefinition.builtin? name.localName = some definition := by
        simpa [Pool.type?, builtIn] using found
      exact allTypes_builtin holds.builtin known
    rw [Pool.type?_eq_find? _ _ builtIn] at found
    rcases found_or_global ran found with old | ⟨n, d, member, e, has, gives⟩
    · exact holds.before _ (.type (by rwa [Pool.type?_eq_find? _ _ builtIn]))
    · have stateless : ((ofDocuments docs pool).plain n).Stateless := stateless_plain n
      simp only [globalOf] at gives
      split at gives
      · obtain ⟨type, _, rfl⟩ := (stateless (.simpleType d e _)).gives_map_iff.1 gives
        exact Part.allTypes_simple
      · obtain ⟨t, answered, rfl⟩ := (stateless (.complexType d e _)).gives_map_iff.1 gives
        exact answered.post (holds.yields_ask n (.complexType d e _))
  | @group name p x found member =>
    rcases found_or_global ran (show Pool.find? _ .group _ = _ from found) with
      old | ⟨n, d, inDocs, e, has, gives⟩
    · exact holds.before _ (.group old member)
    · have all : ParticleAllTypes P p := gives.post (holds.yields_ask n (.group d e _))
      exact all x member

end HoldsInUnit

end CompilationUnit

end XmlSchema.Schema
