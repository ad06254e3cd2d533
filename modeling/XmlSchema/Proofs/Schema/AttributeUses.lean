import XmlSchema.Proofs.Schema.Extension
import XmlSchema.Validation.Frame

namespace XmlSchema.Component

def DistinctNames (uses : List AttributeUse) : Prop := (uses.map (·.decl.name)).Nodup

theorem DistinctNames.filter_eq {uses : List AttributeUse} (distinct : DistinctNames uses)
    (name : QName) : (uses.filter fun use => use.decl.name == name) =
      (uses.find? fun use => use.decl.name == name).toList := by
  induction uses with
  | nil => rfl
  | cons use uses ih =>
    obtain ⟨new, rest⟩ := List.nodup_cons.1 distinct
    rw [List.filter_cons, List.find?_cons]
    cases same : use.decl.name == name with
    | false => exact ih rest
    | true =>
      have others : (uses.filter fun use => use.decl.name == name) = [] := by
        refine List.filter_eq_nil_iff.2 fun other member named => new ?_
        exact List.mem_map.2 ⟨other, member, (beq_iff_eq.1 named).trans (beq_iff_eq.1 same).symm⟩
      rw [if_pos rfl, others]
      rfl

theorem DistinctNames.find?_eq {uses : List AttributeUse} (distinct : DistinctNames uses)
    {use : AttributeUse} (member : use ∈ uses) :
    (uses.find? fun other => other.decl.name == use.decl.name) = some use := by
  have named : use ∈ uses.filter fun other => other.decl.name == use.decl.name :=
    List.mem_filter.2 ⟨member, beq_self_eq_true _⟩
  rw [distinct.filter_eq] at named
  exact Option.mem_toList.1 named

end XmlSchema.Component

namespace XmlSchema.Schema

open Component
open Xml (Element)
open Compile

namespace AttributeSet

variable {set : AttributeSet}

theorem names_upsertInto (use : AttributeUse) (uses : List AttributeUse) :
    (upsertInto use uses).map (·.decl.name) =
      if use.decl.name ∈ uses.map (·.decl.name) then uses.map (·.decl.name)
      else uses.map (·.decl.name) ++ [use.decl.name] := by
  induction uses with
  | nil => rfl
  | cons other uses ih =>
    rw [upsertInto]
    by_cases same : other.decl.name = use.decl.name
    · simp [same]
    · simp only [beq_eq_false_iff_ne.2 same, Bool.false_eq_true, if_false, List.map_cons, ih,
        List.mem_cons, Ne.symm same, false_or]
      split <;> simp

theorem distinct_upsert (distinct : DistinctNames set.uses) (use : AttributeUse) :
    DistinctNames (set.upsert use).uses := by
  rw [DistinctNames, upsert, names_upsertInto]
  split
  · exact distinct
  · next new =>
    refine List.nodup_append.2 ⟨distinct, List.pairwise_singleton _ _, fun name member other among => ?_⟩
    rintro rfl
    exact new (List.mem_singleton.1 among ▸ member)

theorem distinct_erase (distinct : DistinctNames set.uses) (name : QName) :
    DistinctNames (set.erase name).uses :=
  distinct.sublist (List.filter_sublist.map _)

theorem distinct_addGroup (distinct : DistinctNames set.uses) (group : AttributeGroup) :
    DistinctNames (set.addGroup group).uses := by
  have added : DistinctNames (group.attributes.foldl upsert set).uses := by
    generalize group.attributes = uses
    induction uses generalizing set with
    | nil => exact distinct
    | cons use uses ih => exact ih (distinct_upsert distinct use)
  exact added

end AttributeSet

namespace Definition

variable {names : Names} {d : Document} {e step : Element} {depth : Nat} {name : Option QName}
  {set added : AttributeSet} {t : ComplexType ElementDecl}

theorem yields_attributeStep_distinct (child : Element) :
    Yields (fun _ => True) (attributeStep names d child) fun step =>
      ∀ set : AttributeSet, DistinctNames set.uses → DistinctNames (step set).uses := by
  unfold attributeStep
  split
  · refine yields_rest fun decl => yields_pure fun set distinct => ?_
    split
    · exact AttributeSet.distinct_erase distinct _
    · exact AttributeSet.distinct_upsert distinct _
  · exact yields_rest fun _ => yields_rest fun group => yields_pure fun set distinct =>
      AttributeSet.distinct_addGroup distinct group
  · exact yields_rest fun w => yields_pure fun set distinct => distinct
  · exact yields_pure fun set distinct => distinct

theorem distinct_of_attributes (stateless : names.Stateless)
    (gives : (attributes names d step set).Gives added) (distinct : DistinctNames set.uses) :
    DistinctNames added.uses := by
  unfold attributes at gives
  generalize schemaChildren step = body at gives
  induction body generalizing set with
  | nil => exact gives_pure.1 gives ▸ distinct
  | cons child body ih =>
    obtain ⟨step, givesStep, givesRest⟩ := (gives_attributesFrom_cons stateless).1 gives
    exact ih (givesStep.post (yields_attributeStep_distinct child) _ distinct) givesRest

theorem Makeup.distinct {parent? : Option (ComplexType ElementDecl)}
    (makeup : Makeup names d depth e t step parent?) (stateless : names.Stateless)
    (ofParent : ∀ parent, parent? = some parent → DistinctNames parent.attributes) :
    DistinctNames t.attributes := by
  obtain ⟨set, gives, uses, -⟩ := makeup.attributes
  rw [uses]
  refine distinct_of_attributes stateless gives ?_
  cases parent? with
  | none => exact List.nodup_nil
  | some parent => exact ofParent parent rfl

end Definition

structure DistinctUses (pool : Pool) : Prop where
  types : ∀ t, pool.HasComplexType t → DistinctNames t.attributes
  groups : ∀ name group, pool.attributeGroup? name = some group → DistinctNames group.attributes

def Trait.distinct : Trait where
  type definition := ∀ t, TypeDefinition.complex? definition = some t → DistinctNames t.attributes
  group _ := True
  attributeGroup g := DistinctNames g.attributes

namespace Definition

variable {names : Names} {d : Document} {e : Element} {depth : Nat} {name : Option QName}
  {t : ComplexType ElementDecl}

theorem distinct_of_gives (stateless : names.Stateless)
    (answers : ∀ q, Yields (fun _ => True) (names.ask q) (q.Satisfies .distinct))
    (gives : (complexType names d depth e name).Gives t) : DistinctNames t.attributes := by
  cases depth with
  | zero => exact absurd gives not_gives_throw
  | succ depth =>
    obtain ⟨step, parent?, makeup⟩ := exists_makeup stateless gives
    refine makeup.distinct stateless fun parent same => ?_
    subst same
    have derives := makeup.derives
    generalize t.base = base? at derives
    cases derives with
    | @fromSimpleContent _ _ _ name definition _ _ _ _ means complex =>
      exact means.post (answers (.type d step name)) parent complex
    | @fromComplex _ _ _ name _ _ _ _ _ means =>
      exact means.post (answers (.complexType d step name)) parent rfl

end Definition

namespace CompilationUnit

variable {docs : List Document} {pool : Pool} {names : Names} {d : Document} {e : Element}

theorem distinct_holdsIn (before : DistinctUses pool) : Trait.distinct.HoldsIn pool where
  type _ definition found t complex := before.types t ⟨_, definition, .type found, .refl, complex⟩
  group _ _ _ := trivial
  attributeGroup := before.groups
  simple _ _ complex := nomatch complex
  ofComplex? _ t complex distinct _ same := Option.some.inj same ▸ distinct t complex

theorem yields_body_distinct (stateless : names.Stateless)
    (answers : ∀ q, Yields (fun _ => True) (names.ask q) (q.Satisfies .distinct)) (slot : Slot)
    (definition : Definition) :
    Yields (fun _ => True) (slot.body definition names) (slot.Satisfies .distinct) := by
  cases slot with
  | complexType name =>
    refine yields_rest fun _ => (yields_canGive _).mono fun t canGive _ same => ?_
    cases same
    exact Definition.distinct_of_gives stateless answers
      (((Definition.uniform_complexType _ _ _ _).stateless stateless).gives_of_canGive canGive)
  | attributeGroup name =>
    refine (yields_canGive _).bind fun set canGive => yields_pure ?_
    exact Definition.distinct_of_attributes stateless
      (((Definition.uniform_attributes _ _ _).stateless stateless).gives_of_canGive canGive)
      List.nodup_nil
  | simpleType | group | «attribute» => exact (yields_trivial _).mono fun _ _ => trivial

theorem yields_ask_distinct (before : DistinctUses pool) (n : Nat) (q : Query) :
    Yields (fun _ => True) (((ofDocuments docs pool).plain n).ask q) (q.Satisfies .distinct) := by
  have holds : Trait.distinct.HoldsIn (ofDocuments docs pool).pool := distinct_holdsIn before
  refine holds.yields_ask_plain (fun n ih d e slot => ?_) n q
  unfold fresh
  split
  · exact holds.yields_elsewhere slot
  · next definition _ => exact yields_body_distinct (stateless_plain n) ih slot definition

theorem distinct_holdsInUnit (before : DistinctUses pool) :
    HoldsInUnit (fun t => DistinctNames t.attributes) docs pool where
  before := Pool.forall_hasComplexType_iff.1 before.types
  builtin := List.nodup_nil
  written _ _ n _ _ _ _ gives :=
    Definition.distinct_of_gives (stateless_plain n) (yields_ask_distinct before n) gives

end CompilationUnit

theorem distinctUses_keptByUnits : KeptByUnits DistinctUses := by
  intro docs pool symbols grammars st before ran
  refine ⟨Pool.forall_hasComplexType_iff.2 fun part held =>
    (CompilationUnit.distinct_holdsInUnit before).allTypes_of_compile ran part held, ?_⟩
  intro name group found
  rcases CompilationUnit.HoldsInUnit.found_or_global ran
    (show Pool.find? _ .attributeGroup name = some group from found) with
    old | ⟨n, d, _, e, _, gives⟩
  · exact before.groups name group old
  · exact gives.post (CompilationUnit.yields_ask_distinct before n (.attributeGroup d e _))

/-- Each attribute of a complex type has one use, which is the one by which it is checked, and the
only one that may ask for it. -/
structure UsesOnce (pool : Pool) (t : ComplexType ElementDecl) : Prop where
  distinct : DistinctNames t.attributes
  candidates : ∀ name,
    (t.attributes.filter fun use => use.decl.name == name) = (t.attribute? name).toList
  required : ∀ name,
    (t.attributes.filter fun use => use.required && use.decl.name == name) =
      ((t.attribute? name).filter (·.required)).toList
  checked : ∀ use ∈ t.attributes, ∀ element given, given.name = use.decl.name →
    given.name.ns ≠ instanceNamespace →
      Validation.checkAttribute pool t element given =
        Validation.checkAttributeValue use.decl given element

theorem usesOnce_of_distinct {pool : Pool} {t : ComplexType ElementDecl}
    (distinct : DistinctNames t.attributes) : UsesOnce pool t where
  distinct := distinct
  candidates := distinct.filter_eq
  required name := by
    rw [← List.filter_filter, distinct.filter_eq]
    change (t.attribute? name).toList.filter _ = _
    cases t.attribute? name with
    | none => rfl
    | some use => cases asked : use.required <;> simp [Option.filter, asked]
  checked use member element given same foreign := by
    have found : t.attribute? given.name = some use := by
      rw [same]
      exact distinct.find?_eq member
    simp only [Validation.checkAttribute, beq_iff_eq, foreign, if_false, found]

/-- In a compiled schema set, each attribute of a complex type has one use, and each attribute of an
attribute group is in it once. -/
theorem usesOnce_of_compile {files : Files.Tree} {discover : Bool} {identity : String}
    {sources : List Source} {bundle : Bundle}
    (compiled : compile files discover identity sources = .ok bundle) :
    (∀ t, bundle.pool.HasComplexType t → UsesOnce bundle.pool t) ∧
      ∀ name group, bundle.pool.attributeGroup? name = some group →
        DistinctNames group.attributes := by
  have start : DistinctUses {} := by
    refine ⟨Pool.forall_hasComplexType_iff.2 fun part held =>
      Pool.allTypes_of_empty List.nodup_nil held, fun name group found => ?_⟩
    simp [Pool.attributeGroup?, Pool.grammar?] at found
  obtain ⟨types, groups⟩ := compile_of_kept distinctUses_keptByUnits start compiled
  exact ⟨fun t has => usesOnce_of_distinct (types t has), groups⟩

def marksText : String :=
  "<s:schema xmlns:s='http://www.w3.org/2001/XMLSchema'>
    <s:attributeGroup name='Marks'><s:attribute name='id' use='required'/><s:attribute name='of'/>
    </s:attributeGroup>
    <s:complexType name='Item'><s:attribute name='id'/><s:attributeGroup ref='Marks'/></s:complexType>
    <s:complexType name='Copy'><s:complexContent><s:restriction base='Item'><s:attribute name='id'/>
    <s:attribute name='of' use='prohibited'/></s:restriction></s:complexContent></s:complexType>
    </s:schema>"

def marksSource : Source := { systemId := "marks.xsd", content := some marksText }

def localUses (pool : Pool) (localName : String) : Option (List (String × Bool)) :=
  (localComplexType? pool localName).map fun t =>
    t.attributes.map fun use => (use.decl.name.localName, use.required)

def HasMarks (pool : Pool) : Prop :=
  localUses pool "Item" = some [("id", true), ("of", false)] ∧
    localUses pool "Copy" = some [("id", false)]

instance (pool : Pool) : Decidable (HasMarks pool) := inferInstanceAs (Decidable (_ ∧ _))

set_option maxRecDepth 100000 in
theorem marksText_attempt : ∀ source ∈ [("marks.xsd", marksText)],
    (∀ root ∈ (parse source.1 source.2).toOption,
        ∀ child ∈ schemaChildren root, child.name.localName ≠ "include") ∧
      ∃ grammars ∈ (attempt {} source).toOption, HasMarks (grammars.foldl Pool.insert {}) := by
  have letters : marksText.toList = _ := Text.toList_of_spelled rfl
  rw [List.forall_mem_singleton, attempt, documentOf]
  dsimp only
  rw [parse, Xml.parse?, ← String.length_toList, letters]
  decide +kernel

theorem usesOnce_of_compile_marks : ∃ bundle,
    compile {} false "marks" [marksSource] = .ok bundle ∧ HasMarks bundle.pool ∧
      (∀ t, bundle.pool.HasComplexType t → UsesOnce bundle.pool t) ∧
      ∀ name group, bundle.pool.attributeGroup? name = some group →
        DistinctNames group.attributes := by
  obtain ⟨noIncludes, grammars, given, types⟩ := marksText_attempt _ (List.mem_singleton_self _)
  have alone : StandsAlone ("marks.xsd", marksText) := fun root read =>
    noIncludes root (by rw [read]; rfl)
  have content : marksSource.content = some marksText := rfl
  obtain ⟨bundle, compiled, pool⟩ :=
    compile_of_attempt "marks" content alone (eq_ok_of_mem_toOption given)
  exact ⟨bundle, compiled, pool ▸ types, usesOnce_of_compile compiled⟩

end XmlSchema.Schema
