import Mathlib.Logic.Relation
import XmlSchema.Proofs.Schema.Makeup
import XmlSchema.Proofs.Schema.Trace

/-!
# References between components

The body of a component refers to other components by name, from any definition that is written
inside of it (`Slot.RefersTo`). A body that compiles has all its references answered, by definitions
that nest less deeply than its own; so among the components that are compiled when a unit is, no
references lead back to where they start (`CompilationUnit.compile_terminates`).
-/

namespace XmlSchema.Schema

open Component
open ContentModel (Particle)
open Datatype (SimpleType)
open Xml (Element)
open Compile

/-! ## Pieces of definitions -/

inductive Piece where
  | simpleType (e : Element)
  | attributeDecl (e : Element)
  | attributeUse (e : Element)
  | attributes (parent : Element)
  | elementDecl (e : Element)
  | particle (e : Element)
  | complexType (e : Element)

namespace Definition

def step? (e : Element) : Option Element :=
  (schemaChild? e "simpleContent" <|> schemaChild? e "complexContent").bind fun content =>
    (derivation? content).map (·.1)

def place (e : Element) : Element := (step? e).getD e

def modelChild? (e : Element) : Option Element :=
  (schemaChildren e).find? fun c =>
    c.name.localName == "all" || c.name.localName == "choice" || c.name.localName == "sequence"

end Definition

namespace Piece

open Definition

/-- A piece is written inside of another one and is read with it. A definition is not read where an
attribute gives the name of another one instead. -/
inductive Contains : Piece → Piece → Prop
  | base {e restriction inner : Element} (found : schemaChild? e "restriction" = some restriction)
      (unnamed : restriction.attribute? "base" = none)
      (inside : schemaChild? restriction "simpleType" = some inner) :
      Contains (.simpleType e) (.simpleType inner)
  | item {e list inner : Element} (noRestriction : schemaChild? e "restriction" = none)
      (found : schemaChild? e "list" = some list) (unnamed : list.attribute? "itemType" = none)
      (inside : schemaChild? list "simpleType" = some inner) :
      Contains (.simpleType e) (.simpleType inner)
  | member {e union inner : Element} (noRestriction : schemaChild? e "restriction" = none)
      (noList : schemaChild? e "list" = none) (found : schemaChild? e "union" = some union)
      (inside : inner ∈ schemaChildren union) (kind : inner.name.localName = "simpleType") :
      Contains (.simpleType e) (.simpleType inner)
  | attributeType {e inner : Element} (unnamed : e.attribute? "type" = none)
      (inside : schemaChild? e "simpleType" = some inner) :
      Contains (.attributeDecl e) (.simpleType inner)
  | attributeDecl {e : Element} (unnamed : e.attribute? "ref" = none) :
      Contains (.attributeUse e) (.attributeDecl e)
  | attributeUse {parent inner : Element} (inside : inner ∈ schemaChildren parent)
      (kind : inner.name.localName = "attribute") :
      Contains (.attributes parent) (.attributeUse inner)
  | elementComplexType {e inner : Element} (unnamed : e.attribute? "type" = none)
      (inside : schemaChild? e "complexType" = some inner) :
      Contains (.elementDecl e) (.complexType inner)
  | elementSimpleType {e inner : Element} (unnamed : e.attribute? "type" = none)
      (noComplex : schemaChild? e "complexType" = none)
      (inside : schemaChild? e "simpleType" = some inner) :
      Contains (.elementDecl e) (.simpleType inner)
  | elementDecl {e : Element} (kind : e.name.localName = "element")
      (unnamed : e.attribute? "ref" = none) : Contains (.particle e) (.elementDecl e)
  | particle {e inner : Element}
      (kind : e.name.localName ∈ ["sequence", "choice", "all"]) (inside : inner ∈ schemaChildren e) :
      Contains (.particle e) (.particle inner)
  | content {e inner : Element} (noSimple : schemaChild? e "simpleContent" = none)
      (inside : contentChild? (place e) = some inner) : Contains (.complexType e) (.particle inner)
  | attributes {e : Element} : Contains (.complexType e) (.attributes (place e))

inductive Cites (d : Document) : Piece → ComponentKey → Prop
  | base {e restriction : Element} {value : String} {name : QName}
      (found : schemaChild? e "restriction" = some restriction)
      (given : restriction.attribute? "base" = some value)
      (named : (qName d restriction value).Gives name) : Cites d (.simpleType e) ⟨.type, name⟩
  | item {e list : Element} {value : String} {name : QName}
      (noRestriction : schemaChild? e "restriction" = none)
      (found : schemaChild? e "list" = some list) (given : list.attribute? "itemType" = some value)
      (named : (qName d list value).Gives name) : Cites d (.simpleType e) ⟨.type, name⟩
  | member {e union : Element} {value : String} {name : QName}
      (noRestriction : schemaChild? e "restriction" = none) (noList : schemaChild? e "list" = none)
      (found : schemaChild? e "union" = some union)
      (given : value ∈ Datatype.tokens ((union.attribute? "memberTypes").getD ""))
      (named : (qName d union value).Gives name) : Cites d (.simpleType e) ⟨.type, name⟩
  | attributeType {e : Element} {value : String} {name : QName}
      (given : e.attribute? "type" = some value) (named : (qName d e value).Gives name) :
      Cites d (.attributeDecl e) ⟨.type, name⟩
  | attributeRef {e : Element} {value : String} {name : QName}
      (given : e.attribute? "ref" = some value) (named : (qName d e value).Gives name) :
      Cites d (.attributeUse e) ⟨.attribute, name⟩
  | attributeGroup {parent e : Element} {name : QName} (inside : e ∈ schemaChildren parent)
      (kind : e.name.localName = "attributeGroup") (named : (reference d e "ref").Gives name) :
      Cites d (.attributes parent) ⟨.attributeGroup, name⟩
  | group {e : Element} {name : QName} (kind : e.name.localName = "group")
      (named : (reference d e "ref").Gives name) : Cites d (.particle e) ⟨.group, name⟩
  | derivation {e step : Element} {name : QName} (found : step? e = some step)
      (named : (reference d step "base").Gives name) : Cites d (.complexType e) ⟨.type, name⟩

/-- A piece compiles. The bound on the depth must not keep it from being read. -/
def Compiles (names : Names) (d : Document) : Piece → Prop
  | .simpleType e => ∃ depth name type, (Definition.simpleType names d depth e name).Gives type
  | .attributeDecl e => ∃ isGlobal decl, (Definition.attributeDecl names d e isGlobal).Gives decl
  | .attributeUse e => ∃ decl, (Definition.attributeUse names d e).Gives decl
  | .attributes parent => ∃ set set', (Definition.attributes names d parent set).Gives set'
  | .elementDecl e => ∃ depth isGlobal decl, 2 * e.height ≤ depth + 1 ∧
      (Definition.elementDecl names d depth e isGlobal).Gives decl
  | .particle e => ∃ depth particle, 2 * e.height ≤ depth ∧
      (Definition.particle names d depth e).Gives particle
  | .complexType e => ∃ depth name type, 2 * e.height ≤ depth ∧
      (Definition.complexType names d depth e name).Gives type

end Piece

/-! ## What compiles has its references answered -/

def Query.component? : Query → Option ComponentKey
  | .isElement .. | .isType .. => none
  | .simpleType _ _ name | .complexType _ _ name | .type _ _ name => some ⟨.type, name⟩
  | .group _ _ name => some ⟨.group, name⟩
  | .attributeGroup _ _ name => some ⟨.attributeGroup, name⟩
  | .attributeDecl _ _ name => some ⟨.attribute, name⟩

def Names.Answers (names : Names) (key : ComponentKey) : Prop :=
  ∃ (q : Query) (answer : q.Answer), q.component? = some key ∧ (names.ask q).Gives answer

theorem Compile.exists_gives_of_mapM {α β : Type} {f : α → Compile β} {items : List α}
    (stateless : ∀ a, (f a).Stateless) {bs : List β} {st after : CompilerState}
    (ran : (items.mapM f).run st = (.ok bs, after)) {a : α} (member : a ∈ items) :
    ∃ b, (f a).Gives b := by
  induction items generalizing bs st after with
  | nil => cases member
  | cons first rest ih =>
    rw [List.mapM_cons] at ran
    obtain ⟨b, givesFirst, _, ran⟩ := (stateless first).exists_gives ran
    obtain ⟨bs, _, ranRest, _⟩ := run_bind_eq_ok ran
    rcases List.mem_cons.1 member with rfl | later
    · exact ⟨b, givesFirst⟩
    · exact ih ranRest later

namespace Definition

variable {names : Names} {d : Document} {e : Element} {depth : Nat} {name : Option QName}

theorem Derives.eq_place {step : Element} {base? : Option (QName × Derivation)}
    {parent? : Option (ComplexType ElementDecl)} (derives : Derives names d e step base? parent?) :
    step = place e := by
  cases derives with
  | own noSimple noComplex => simp [place, step?, noSimple, noComplex]
  | fromSimple found derives | fromSimpleContent found derives =>
    simp [place, step?, found, derives]
  | fromComplex noSimple found derives => simp [place, step?, noSimple, found, derives]

theorem place_of_step? {step : Element} (found : step? e = some step) : place e = step := by
  rw [place, found, Option.getD_some]

theorem Derives.answers {base : Element} {base? : Option (QName × Derivation)}
    {parent? : Option (ComplexType ElementDecl)} (derives : Derives names d e base base? parent?)
    {step : Element} {cited : QName} (found : step? e = some step)
    (named : (reference d step "base").Gives cited) : names.Answers ⟨.type, cited⟩ := by
  obtain rfl : base = step := derives.eq_place.trans (place_of_step? found)
  cases derives with
  | own noSimple noComplex =>
    simp [step?, noSimple, noComplex] at found
  | @fromSimple _ _ _ name _ _ _ named' means | @fromSimpleContent _ _ _ name _ _ _ _ named' means =>
    obtain rfl := named.unique named'
    exact ⟨.type d base cited, _, rfl, means⟩
  | @fromComplex _ _ _ name _ _ _ _ named' means =>
    obtain rfl := named.unique named'
    exact ⟨.complexType d base cited, _, rfl, means⟩

theorem Derives.exists_ownParticle (stateless : names.Stateless) {step : Element}
    {base? : Option (QName × Derivation)} {parent? : Option (ComplexType ElementDecl)}
    (derives : Derives names d e step base? parent?)
    (noSimple : schemaChild? e "simpleContent" = none) {t : ComplexType ElementDecl}
    (gives : (complexType names d (depth + 1) e name).Gives t) :
    ∃ own, (ownParticle names d depth step).Gives own := by
  obtain ⟨_, ran⟩ := gives.run {}
  cases derives with
  | own _ noComplex =>
    have plain : HasBody e (isTrue e "mixed") (schemaChildren e) := ⟨noSimple, noComplex, rfl, rfl⟩
    rw [plain.complexType_eq] at ran
    obtain ⟨own, givesOwn, _, _⟩ := (stateless_ownParticle stateless).exists_gives ran
    exact ⟨own, givesOwn⟩
  | fromSimple found | fromSimpleContent found =>
    rw [noSimple] at found
    cases found
  | fromComplex _ found derives =>
    rw [complexType_eq_of_complexContent noSimple found derives] at ran
    obtain ⟨_, _, _, ran⟩ := run_bind_eq_ok ran
    obtain ⟨_, _, _, ran⟩ := run_bind_eq_ok ran
    obtain ⟨own, givesOwn, _, _⟩ := (stateless_ownParticle stateless).exists_gives ran
    exact ⟨own, givesOwn⟩

theorem exists_attributeStep (stateless : names.Stateless) {children : List Element}
    {set set' : AttributeSet} (gives : (attributesFrom names d children set).Gives set')
    {child : Element} (member : child ∈ children) :
    ∃ step, (attributeStep names d child).Gives step := by
  induction children generalizing set with
  | nil => cases member
  | cons first rest ih =>
    obtain ⟨step, givesStep, givesRest⟩ := (gives_attributesFrom_cons stateless).1 gives
    rcases List.mem_cons.1 member with rfl | later
    · exact ⟨step, givesStep⟩
    · exact ih givesRest later

end Definition

namespace Piece

open Definition

variable {names : Names} {d : Document} {e : Element}

structure IsRead (names : Names) (d : Document) (piece : Piece) : Prop where
  inner : ∀ inner, piece.Contains inner → inner.Compiles names d
  answers : ∀ key, piece.Cites d key → names.Answers key

theorem isRead_simpleType (stateless : names.Stateless) (compiles : (simpleType e).Compiles names d) :
    (simpleType e).IsRead names d := by
  obtain ⟨depth, name, type, gives⟩ := compiles
  obtain ⟨_, ran⟩ := gives.run {}
  obtain _ | depth := depth
  · cases ran
  have inline (inner : Element) : (Definition.simpleType names d depth inner none).Stateless :=
    (uniform_simpleType d depth inner none).stateless stateless
  -- A type that is named is asked for, so the names have answered.
  have answered {place : Element} {value : String} {cited : QName} {type : SimpleType}
      {st after : CompilerState} (named : (qName d place value).Gives cited)
      (ran : (qName d place value >>= names.simpleType d place).run st = (.ok type, after)) :
      names.Answers ⟨.type, cited⟩ := by
    obtain ⟨other, named', _, ran⟩ :=
      ((uniform_qName d place value).stateless stateless).exists_gives ran
    obtain rfl := named.unique named'
    exact ⟨.simpleType d place cited, type, rfl,
      (stateless (.simpleType d place cited)).gives_of_run ran⟩
  constructor
  · intro inner contains
    cases contains with
    | base found unnamed inside =>
      simp only [Definition.simpleType, found, unnamed, inside] at ran
      obtain ⟨base, givesBase, _⟩ := (inline _).exists_gives ran
      exact ⟨depth, none, base, givesBase⟩
    | item noRestriction found unnamed inside =>
      simp only [Definition.simpleType, noRestriction, found, unnamed, inside] at ran
      obtain ⟨item, givesItem, _⟩ := (inline _).exists_gives ran
      exact ⟨depth, none, item, givesItem⟩
    | member noRestriction noList found inside kind =>
      simp only [Definition.simpleType, noRestriction, noList, found] at ran
      obtain ⟨_, _, _, ran⟩ := run_bind_eq_ok ran
      obtain ⟨_, _, ranMembers, _⟩ := run_bind_eq_ok ran
      obtain ⟨type, givesType⟩ :=
        exists_gives_of_mapM inline ranMembers (List.mem_filter.2 ⟨inside, beq_iff_eq.2 kind⟩)
      exact ⟨depth, none, type, givesType⟩
  · intro key cites
    cases cites with
    | base found given named =>
      simp only [Definition.simpleType, found, given] at ran
      obtain ⟨_, _, ranBase, _⟩ := run_bind_eq_ok ran
      exact answered named ranBase
    | item noRestriction found given named =>
      simp only [Definition.simpleType, noRestriction, found, given] at ran
      obtain ⟨_, _, ranItem, _⟩ := run_bind_eq_ok ran
      exact answered named ranItem
    | @member _ union value _ noRestriction noList found given named =>
      simp only [Definition.simpleType, noRestriction, noList, found] at ran
      obtain ⟨_, _, ranMembers, _⟩ := run_bind_eq_ok ran
      have stateless (value : String) : (qName d union value >>= names.simpleType d union).Stateless :=
        ((uniform_qName d union value).stateless stateless).bind fun name =>
          stateless (.simpleType d union name)
      obtain ⟨type, givesType⟩ := exists_gives_of_mapM stateless ranMembers given
      obtain ⟨_, ran⟩ := givesType.run {}
      exact answered named ran

theorem isRead_attributeDecl (stateless : names.Stateless)
    (compiles : (attributeDecl e).Compiles names d) : (attributeDecl e).IsRead names d := by
  obtain ⟨isGlobal, decl, gives⟩ := compiles
  obtain ⟨_, ran⟩ := gives.run {}
  unfold Definition.attributeDecl at ran
  split at ran
  · cases ran
  constructor
  · intro inner contains
    cases contains with
    | attributeType unnamed inside =>
      simp only [unnamed, inside] at ran
      obtain ⟨type, givesType, _⟩ :=
        ((uniform_simpleTypeOf d _ none).stateless stateless).exists_gives ran
      exact ⟨_, none, type, givesType⟩
  · intro key cites
    cases cites with
    | @attributeType _ value cited given named =>
      simp only [given] at ran
      obtain ⟨other, named', _, ran⟩ :=
        ((uniform_qName d e value).stateless stateless).exists_gives ran
      obtain rfl := named.unique named'
      obtain ⟨type, givesType, _⟩ := (stateless (.simpleType d e cited)).exists_gives ran
      exact ⟨.simpleType d e cited, type, rfl, givesType⟩

theorem isRead_attributeUse (stateless : names.Stateless)
    (compiles : (attributeUse e).Compiles names d) : (attributeUse e).IsRead names d := by
  obtain ⟨decl, gives⟩ := compiles
  constructor
  · intro inner contains
    cases contains with
    | attributeDecl unnamed =>
      simp only [Definition.attributeUse, unnamed] at gives
      exact ⟨false, decl, gives⟩
  · intro key cites
    cases cites with
    | @attributeRef _ value cited given named =>
      obtain ⟨_, ran⟩ := gives.run {}
      simp only [Definition.attributeUse, given] at ran
      obtain ⟨other, named', _, ran⟩ :=
        ((uniform_qName d e value).stateless stateless).exists_gives ran
      obtain rfl := named.unique named'
      obtain ⟨decl, givesDecl, _⟩ := (stateless (.attributeDecl d e cited)).exists_gives ran
      exact ⟨.attributeDecl d e cited, decl, rfl, givesDecl⟩

theorem isRead_attributes (stateless : names.Stateless)
    (compiles : (attributes e).Compiles names d) : (attributes e).IsRead names d := by
  obtain ⟨set, set', gives⟩ := compiles
  constructor
  · intro inner contains
    cases contains with
    | @attributeUse _ child inside kind =>
      obtain ⟨step, givesStep⟩ := exists_attributeStep stateless gives inside
      obtain ⟨_, ran⟩ := givesStep.run {}
      simp only [attributeStep, kind] at ran
      obtain ⟨decl, givesDecl, _⟩ :=
        ((uniform_attributeUse d child).stateless stateless).exists_gives ran
      exact ⟨decl, givesDecl⟩
  · intro key cites
    cases cites with
    | @attributeGroup _ child cited inside kind named =>
      obtain ⟨step, givesStep⟩ := exists_attributeStep stateless gives inside
      obtain ⟨_, ran⟩ := givesStep.run {}
      simp only [attributeStep, kind] at ran
      obtain ⟨other, named', _, ran⟩ :=
        ((uniform_reference d child "ref").stateless stateless).exists_gives ran
      obtain rfl := named.unique named'
      obtain ⟨group, givesGroup, _⟩ := (stateless (.attributeGroup d child cited)).exists_gives ran
      exact ⟨.attributeGroup d child cited, group, rfl, givesGroup⟩

theorem isRead_elementDecl (stateless : names.Stateless)
    (compiles : (elementDecl e).Compiles names d) : (elementDecl e).IsRead names d := by
  obtain ⟨depth, isGlobal, decl, deep, gives⟩ := compiles
  obtain ⟨_, ran⟩ := gives.run {}
  obtain _ | depth := depth
  · cases ran
  unfold Definition.elementDecl at ran
  split at ran
  · cases ran
  constructor
  · intro inner contains
    cases contains with
    | elementComplexType unnamed inside =>
      have less := height_lt_of_schemaChild? inside
      simp only [unnamed, inside] at ran
      obtain ⟨type, givesType, _⟩ :=
        ((uniform_complexType d depth _ none).stateless stateless).exists_gives ran
      exact ⟨depth, none, type, by omega, givesType⟩
    | elementSimpleType unnamed noComplex inside =>
      simp only [unnamed, noComplex, inside] at ran
      obtain ⟨type, givesType, _⟩ :=
        ((uniform_simpleTypeOf d _ none).stateless stateless).exists_gives ran
      exact ⟨_, none, type, givesType⟩
  · intro key cites
    cases cites

theorem isRead_particle (stateless : names.Stateless)
    (compiles : (particle e).Compiles names d) : (particle e).IsRead names d := by
  obtain ⟨depth, read, deep, gives⟩ := compiles
  obtain ⟨_, ran⟩ := gives.run {}
  obtain _ | depth := depth
  · exact absurd e.height_eq (by omega)
  rw [Definition.particle] at ran
  obtain ⟨⟨min, max⟩, _, _, ran⟩ := run_bind_eq_ok ran
  constructor
  · intro inner contains
    cases contains with
    | elementDecl kind unnamed =>
      simp only [kind, unnamed] at ran
      obtain ⟨decl, givesDecl, _⟩ :=
        ((uniform_elementDecl d depth e false).stateless stateless).exists_gives ran
      exact ⟨depth, false, decl, deep, givesDecl⟩
    | @particle _ child kind inside =>
      have less := height_lt_of_mem_schemaChildren inside
      have stateless (child : Element) := (uniform_particle d depth child).stateless stateless
      have : ∃ p, (Definition.particle names d depth child).Gives p := by
        simp only [List.mem_cons, List.not_mem_nil, or_false] at kind
        rcases kind with kind | kind | kind <;>
          · simp only [kind] at ran
            obtain ⟨_, _, ranChildren, _⟩ := run_bind_eq_ok ran
            exact exists_gives_of_mapM stateless ranChildren inside
      obtain ⟨p, givesChild⟩ := this
      exact ⟨depth, p, by omega, givesChild⟩
  · intro key cites
    cases cites with
    | @group _ cited kind named =>
      simp only [kind] at ran
      obtain ⟨other, named', _, ran⟩ :=
        ((uniform_reference d e "ref").stateless stateless).exists_gives ran
      obtain rfl := named.unique named'
      obtain ⟨group, givesGroup, _⟩ := (stateless (.group d e cited)).exists_gives ran
      exact ⟨.group d e cited, group, rfl, givesGroup⟩

theorem isRead_complexType (stateless : names.Stateless)
    (compiles : (complexType e).Compiles names d) : (complexType e).IsRead names d := by
  obtain ⟨depth, name, type, deep, gives⟩ := compiles
  obtain _ | depth := depth
  · exact absurd e.height_eq (by omega)
  obtain ⟨step, parent?, derives, ⟨set, givesSet, _⟩, _⟩ := exists_makeup stateless gives
  have isPlace := derives.eq_place
  constructor
  · intro inner contains
    cases contains with
    | @content _ child noSimple inside =>
      obtain ⟨own, givesOwn⟩ := derives.exists_ownParticle stateless noSimple gives
      have below := derives.height_le
      rw [← isPlace] at inside
      have less := height_lt_of_contentChild? inside
      rw [ownParticle, inside] at givesOwn
      exact ⟨depth, own, by omega, givesOwn⟩
    | attributes =>
      rw [← isPlace]
      exact ⟨_, set, givesSet⟩
  · intro key cites
    cases cites with
    | derivation found named => exact derives.answers found named

theorem Compiles.isRead {piece : Piece} (stateless : names.Stateless)
    (compiles : piece.Compiles names d) : piece.IsRead names d := by
  cases piece with
  | simpleType e => exact isRead_simpleType stateless compiles
  | attributeDecl e => exact isRead_attributeDecl stateless compiles
  | attributeUse e => exact isRead_attributeUse stateless compiles
  | attributes parent => exact isRead_attributes stateless compiles
  | elementDecl e => exact isRead_elementDecl stateless compiles
  | particle e => exact isRead_particle stateless compiles
  | complexType e => exact isRead_complexType stateless compiles

theorem Compiles.answers {outer inner : Piece} {key : ComponentKey} (stateless : names.Stateless)
    (compiles : outer.Compiles names d) (contains : Relation.ReflTransGen Contains outer inner)
    (cites : inner.Cites d key) : names.Answers key := by
  induction contains using Relation.ReflTransGen.head_induction_on with
  | refl => exact (compiles.isRead stateless).answers key cites
  | head contains _ ih => exact ih ((compiles.isRead stateless).inner _ contains)

end Piece

/-! ## References inside of a unit -/

inductive Slot.Begins (e : Element) : Slot → Piece → Prop
  | simpleType {name : QName} : Begins e (.simpleType name) (.simpleType e)
  | complexType {name : QName} : Begins e (.complexType name) (.complexType e)
  | group {name : QName} {model child : Element} (found : Definition.modelChild? e = some model)
      (inside : child ∈ schemaChildren model) : Begins e (.group name) (.particle child)
  | attributeGroup {name : QName} : Begins e (.attributeGroup name) (.attributes e)
  | attribute {name : QName} : Begins e (.attribute name) (.attributeDecl e)

theorem Slot.Begins.compiles {names : Names} (stateless : names.Stateless) {slot : Slot}
    {definition : Definition} {value : slot.Value} {piece : Piece}
    (begins : slot.Begins definition.element piece) (gives : (slot.body definition names).Gives value) :
    piece.Compiles names definition.document := by
  obtain ⟨_, ran⟩ := gives.run {}
  cases begins with
  | @simpleType name => exact ⟨_, some name.localName, value, gives⟩
  | complexType =>
    obtain ⟨_, ranType⟩ := run_internName_bind_eq_ok ran
    exact ⟨_, _, value, Definition.deep_depthBelow _,
      ((Definition.uniform_complexType _ _ _ _).stateless stateless).gives_of_run ranType⟩
  | @group name model child found inside =>
    have less := height_lt_of_mem_schemaChildren inside
    have deep := Definition.deep_depthBelow model
    have stateless (child : Element) := (Definition.uniform_particle definition.document
      (Definition.depthBelow model) child).stateless stateless
    have first : (schemaChildren definition.element).find? _ = _ := found
    simp only [Slot.body, Slot.groupParticle, first] at ran
    obtain ⟨_, _, ranChildren, _⟩ := run_bind_eq_ok ran
    obtain ⟨p, givesChild⟩ := exists_gives_of_mapM stateless ranChildren inside
    exact ⟨_, p, by omega, givesChild⟩
  | attributeGroup =>
    obtain ⟨set, givesSet, _⟩ :=
      ((Definition.uniform_attributes _ _ _).stateless stateless).exists_gives ran
    exact ⟨{}, set, givesSet⟩
  | «attribute» => exact ⟨true, value, gives⟩

namespace CompilationUnit

variable {unit : CompilationUnit} {n : Nat} {d : Document} {e : Element} {slot other : Slot}

def Refers (unit : CompilationUnit) (slot other : Slot) : Prop :=
  ∃ definition first inner, unit.definitionOf? slot = some definition ∧
    slot.Begins definition.element first ∧ Relation.ReflTransGen Piece.Contains first inner ∧
    inner.Cites definition.document other.key

/-- The body of a component is begun when the unit is compiled. -/
def IsCompiled (unit : CompilationUnit) (symbols : SymbolTable) (slot : Slot) : Prop :=
  ∃ entry ∈ (unit.compile.run { symbols }).2.begun, entry.IsOf unit slot

def RefersAmong (unit : CompilationUnit) (symbols : SymbolTable) (slot other : Slot) : Prop :=
  unit.IsCompiled symbols slot ∧ unit.IsCompiled symbols other ∧ unit.Refers slot other

theorem component?_of_origin {q : Query} {view : slot.Value → q.Answer}
    (comes : unit.origin q = .slot d e slot view) : q.component? = some slot.key := by
  cases q with
  | isElement d e name | isType d e name => cases comes
  | group d e name | attributeGroup d e name =>
    cases comes
    rfl
  | simpleType d e name | complexType d e name | attributeDecl d e name =>
    simp only [origin] at comes
    split at comes <;> cases comes
    rfl
  | type d e name =>
    simp only [origin] at comes
    split at comes
    · cases comes
    · split at comes
      · split at comes <;> cases comes <;> rfl
      · cases comes

theorem exists_definition? (defined : (unit.definitionOf? slot).isSome) :
    ∃ definition, unit.definition? slot.key.kind slot.key.name = some definition := by
  obtain ⟨definition, found⟩ := Option.isSome_iff_exists.1 defined
  exact ⟨definition, (Option.filter_eq_some_iff.1 found).1⟩

theorem origin_ne_settled {q : Query} {answer : Compile q.Answer}
    (defined : (unit.definitionOf? slot).isSome) (foreign : slot.IsForeign)
    (asks : q.component? = some slot.key) : unit.origin q ≠ .settled answer := by
  obtain ⟨definition, found⟩ := exists_definition? defined
  have type {name : QName} (same : (⟨.type, name⟩ : ComponentKey) = slot.key) :
      name.ns ≠ schemaNamespace := by
    cases slot <;> cases same <;> exact foreign
  intro settled
  cases q with
  | isElement d e name | isType d e name => cases asks
  | group d e name | attributeGroup d e name => cases settled
  | simpleType d e name | complexType d e name =>
    have notBuiltIn := type (Option.some.inj asks)
    simp [origin, notBuiltIn] at settled
  | type d e name =>
    have same := Option.some.inj asks
    have notBuiltIn := type same
    rw [← same] at found
    simp only [origin, beq_iff_eq, notBuiltIn, if_false, found] at settled
    split at settled <;> cases settled
  | attributeDecl d e name =>
    have notXml : name.ns ≠ xmlNamespace := by
      have same := Option.some.inj asks
      cases slot <;> cases same
      exact foreign
    simp [origin, notXml] at settled

theorem not_gives_elsewhere {value : other.Value} {definition : Definition}
    (found : unit.definition? other.key.kind other.key.name = some definition)
    (refused : unit.definitionOf? other = none) : ¬(unit.elsewhere d e other).Gives value := by
  rw [definitionOf?_eq_some found] at refused
  cases other with
  | simpleType name | complexType name =>
    have defined : (unit.definition? .type name).isSome := by
      rw [show unit.definition? .type name = some definition from found]
      rfl
    simp only [elsewhere, defined, if_true]
    exact not_gives_throw
  | group name | attributeGroup name | «attribute» name => simp [Slot.admits] at refused

theorem exists_means_of_gives {q : Query} {answer : q.Answer}
    (defined : (unit.definitionOf? slot).isSome) (foreign : slot.IsForeign)
    (asks : q.component? = some slot.key) (gives : ((unit.plain (n + 1)).ask q).Gives answer) :
    ∃ value, unit.MeansWithin n slot value := by
  rw [ask_plain, plainAnswer] at gives
  cases comes : unit.origin q with
  | settled answer => exact absurd comes (origin_ne_settled defined foreign asks)
  | slot d e other view =>
    rw [comes] at gives
    obtain ⟨value, givesValue, _⟩ :=
      (stateless_fresh (stateless_plain n) other).gives_map_iff.1 gives
    have same : other.key = slot.key := Option.some.inj ((component?_of_origin comes).symm.trans asks)
    unfold fresh at givesValue
    cases found : unit.definitionOf? other with
    | none =>
      obtain ⟨definition, known⟩ := exists_definition? defined
      rw [found] at givesValue
      rw [← same] at known
      exact absurd givesValue (not_gives_elsewhere known found)
    | some definition =>
      rw [found] at givesValue
      obtain ⟨definition', found'⟩ := Option.isSome_iff_exists.1 defined
      obtain rfl := slot_unique found found' same
      exact ⟨value, definition, found, givesValue⟩

theorem Refers.exists_means {value : slot.Value} (refers : unit.Refers slot other)
    (means : unit.MeansWithin n slot value) (defined : (unit.definitionOf? other).isSome)
    (foreign : other.IsForeign) : ∃ m < n, ∃ value, unit.MeansWithin m other value := by
  obtain ⟨definition, first, inner, found, begins, contains, cites⟩ := refers
  obtain ⟨definition', found', gives⟩ := means
  obtain rfl : definition = definition' := Option.some.inj (found.symm.trans found')
  obtain ⟨q, answer, asks, answered⟩ :=
    (begins.compiles (stateless_plain n) gives).answers (stateless_plain n) contains cites
  cases n with
  | zero => cases q <;> first | cases asks | exact absurd answered not_gives_throw
  | succ m => exact ⟨m, Nat.lt_succ_self m, exists_means_of_gives defined foreign asks answered⟩

theorem RefersAmong.exists_means {symbols : SymbolTable} {value : slot.Value}
    (refers : unit.RefersAmong symbols slot other) (means : unit.MeansWithin n slot value) :
    ∃ m < n, ∃ value, unit.MeansWithin m other value := by
  obtain ⟨_, ⟨entry, among, isOf⟩, refers⟩ := refers
  exact refers.exists_means means isOf.2 (isForeign_of_begun among isOf)

theorem exists_means_of_transGen {symbols : SymbolTable} {value : slot.Value}
    (path : Relation.TransGen (unit.RefersAmong symbols) slot other)
    (means : unit.MeansWithin n slot value) : ∃ m < n, ∃ value, unit.MeansWithin m other value := by
  induction path with
  | single refers => exact refers.exists_means means
  | tail _ refers ih =>
    obtain ⟨m, less, _, meansMiddle⟩ := ih
    obtain ⟨k, lessMiddle, meansLast⟩ := refers.exists_means meansMiddle
    exact ⟨k, Nat.lt_trans lessMiddle less, meansLast⟩

theorem not_transGen_of_means {symbols : SymbolTable} {value : slot.Value}
    (means : unit.MeansWithin n slot value) :
    ¬Relation.TransGen (unit.RefersAmong symbols) slot slot := by
  intro circle
  induction n using Nat.strong_induction_on generalizing value with
  | _ n ih =>
    obtain ⟨m, less, _, meansAgain⟩ := exists_means_of_transGen circle means
    exact ih m less meansAgain

/-- Compilation ends by itself. It never fails for a bound on how deeply definitions nest, and larger
bounds change nothing, neither the one by name nor those inside of documents. When a body is begun,
the components in progress are different ones of the unit, and no body of a type, a group or an
attribute group is begun twice. What has been begun in a run that succeeds is what the slots hold, and
it does not refer to itself, directly or through others. -/
theorem compile_terminates (unit : CompilationUnit) (symbols : SymbolTable) :
    (∀ fault, (unit.compile.run { symbols }).1 = .error fault → ¬fault.IsUnfinished) ∧
    (∀ n, unit.index.length + 2 ≤ n →
      addDocuments (unit.namesWithin n []) unit.documents [] = unit.compile) ∧
    (∀ e, Definition.IsDeepEnough (Definition.depthBelow e) e) ∧
    (∀ entry ∈ (unit.compile.run { symbols }).2.begun,
      (entry.key :: entry.inProgress).Nodup ∧
      (∀ key ∈ entry.key :: entry.inProgress, key ∈ unit.index.map (·.1)) ∧
      (entry.key :: entry.inProgress).length ≤ (unit.index.map (·.1)).toFinset.card) ∧
    (((unit.compile.run { symbols }).2.begun.filter fun entry => entry.key.kind ≠ .attribute).map
      (·.key)).Nodup ∧
    ∀ grammars st, unit.compile.run { symbols } = (.ok grammars, st) →
      (∀ slot, unit.IsCompiled symbols slot ↔ (st.stored slot).isSome) ∧
      ∀ slot, ¬Relation.TransGen (unit.RefersAmong symbols) slot slot := by
  refine ⟨finishes_compile unit _, fun n => addDocuments_eq_compile unit,
    Definition.isDeepEnough_depthBelow, fun entry among => ?_, nodup_begun unit symbols,
    fun grammars st ran => ?_⟩
  · have may := (traced_compile unit symbols).may entry among
    exact ⟨may.distinct, may.known, may.length_le_card⟩
  have compiled (slot : Slot) : unit.IsCompiled symbols slot ↔ (st.stored slot).isSome := by
    rw [isSome_stored_iff ran, IsCompiled, ran]
  refine ⟨compiled, fun slot circle => ?_⟩
  obtain ⟨_, ⟨isCompiled, _⟩, _⟩ := Relation.TransGen.head'_iff.1 circle
  obtain ⟨value, held⟩ := Option.isSome_iff_exists.1 ((compiled slot).1 isCompiled)
  have faithful := (yields_compile_plain unit _ _ _ (faithful_initial unit symbols) ran).1
  obtain ⟨_, means⟩ := faithful slot value held
  exact not_transGen_of_means means circle

/-! ## A list and its items -/

def listOfItems : CompilationUnit :=
  ofDocuments [{ emptyDocument with
    root := schemaElement "schema" []
      [schemaElement "simpleType" [("name", "items")] [schemaElement "list" [("itemType", "item")] []],
        schemaElement "simpleType" [("name", "item")]
          [schemaElement "restriction" [("base", "s:string")] []]] }] {}

def itemsSlot : Slot := .simpleType ⟨"", "items"⟩

def itemSlot : Slot := .simpleType ⟨"", "item"⟩

theorem refers_listOfItems : listOfItems.Refers itemsSlot itemSlot :=
  ⟨_, _, _, rfl, .simpleType, .refl, .item rfl rfl rfl fun _ => rfl⟩

set_option maxRecDepth 100000 in
theorem run_listOfItems :
    ((listOfItems.compile.run {}).1.toOption.isSome &&
      ((listOfItems.compile.run {}).2.stored itemsSlot).isSome &&
        ((listOfItems.compile.run {}).2.stored itemSlot).isSome) = true := by
  decide

theorem compile_terminates_listOfItems : ∃ grammars st,
    listOfItems.compile.run {} = (.ok grammars, st) ∧ listOfItems.RefersAmong {} itemsSlot itemSlot ∧
      ∀ slot, ¬Relation.TransGen (listOfItems.RefersAmong {}) slot slot := by
  have compiled := run_listOfItems
  rcases ran : listOfItems.compile.run {} with ⟨fault | grammars, st⟩
  · simp [ran, Except.toOption] at compiled
  · obtain ⟨isCompiled, acyclic⟩ := (compile_terminates listOfItems {}).2.2.2.2.2 grammars st ran
    simp only [ran, Bool.and_eq_true] at compiled
    exact ⟨grammars, st, rfl, ⟨(isCompiled _).2 compiled.1.2, (isCompiled _).2 compiled.2,
      refers_listOfItems⟩, acyclic⟩

end CompilationUnit

end XmlSchema.Schema
