import XmlSchema.Proofs.Component.Content
import XmlSchema.Proofs.Schema.Yield

namespace XmlSchema.Schema

open Component
open Xml (Element)
open Compile

namespace Compile

def CanGive {α : Type} (c : Compile α) (a : α) : Prop := ∃ st st', c.run st = (.ok a, st')

theorem yields_canGive {α : Type} (c : Compile α) : Yields (fun _ => True) c c.CanGive :=
  fun st _ st' _ ran => ⟨trivial, st, st', ran⟩

theorem yields_trivial {α : Type} (c : Compile α) : Yields (fun _ => True) c fun _ => True :=
  fun _ _ _ _ _ => ⟨trivial, trivial⟩

theorem yields_rest {α β : Type} {c : Compile α} {f : α → Compile β} {P : β → Prop}
    (rest : ∀ a, Yields (fun _ => True) (f a) P) : Yields (fun _ => True) (c >>= f) P :=
  (yields_trivial c).bind fun a _ => rest a

end Compile

def Declares (e : Element) (kind : ComponentKind) (name : String) : Prop :=
  ComponentKind.ofElementName? e.name.localName = some kind ∧ e.attribute? "name" = some name

theorem mem_definitionsOf {d : Document} {key : ComponentKey} {definition : Definition} :
    (key, definition) ∈ CompilationUnit.definitionsOf d ↔
      definition.document = d ∧ definition.element ∈ schemaChildren d.root ∧
        key.name.ns = d.target ∧ Declares definition.element key.kind key.name.localName := by
  obtain ⟨kind, ns, name⟩ := key
  obtain ⟨document, e⟩ := definition
  simp only [CompilationUnit.definitionsOf, List.mem_filterMap, Option.bind_eq_bind,
    Option.bind_eq_some_iff, Declares]
  constructor
  · rintro ⟨e', among, kind', isKind, name', named, same⟩
    cases same
    exact ⟨rfl, among, rfl, isKind, named⟩
  · rintro ⟨rfl, among, rfl, isKind, named⟩
    exact ⟨e, among, kind, isKind, name, named, rfl⟩

theorem declares_of_definition? {docs : List Document} {pool : Pool} {kind : ComponentKind}
    {name : QName} {definition : Definition}
    (found : (CompilationUnit.ofDocuments docs pool).definition? kind name = some definition) :
    ∃ d ∈ docs, d.target = name.ns ∧ ∃ e ∈ schemaChildren d.root,
      Declares e kind name.localName := by
  obtain ⟨before, after, index, _⟩ := List.lookup_eq_some_iff.1 found
  have member : (⟨kind, name⟩, definition) ∈ docs.flatMap CompilationUnit.definitionsOf := by
    change (CompilationUnit.ofDocuments docs pool).index = _ at index
    simp only [CompilationUnit.ofDocuments] at index
    simp [index]
  obtain ⟨d, among, entry⟩ := List.mem_flatMap.1 member
  obtain ⟨_, e, target, declares⟩ := mem_definitionsOf.1 entry
  exact ⟨d, among, target.symm, _, e, declares⟩

def Imports (e : Element) (ns : String) : Prop :=
  e.name.localName = "import" ∧ ns = (e.attribute? "namespace").getD ""

def globalOf (names : Names) (d : Document) (e : Element) (name : String) :
    (kind : ComponentKind) → Compile (Global kind)
  | .element => Definition.elementDecl names d (Definition.depthBelow e) e true
  | .type =>
    if e.name.localName = "simpleType" then
      TypeDefinition.simple <$> names.simpleType d e ⟨d.target, name⟩
    else TypeDefinition.complex <$> names.complexType d e ⟨d.target, name⟩
  | .attribute => names.attributeDecl d e ⟨d.target, name⟩
  | .group => names.group d e ⟨d.target, name⟩
  | .attributeGroup => names.attributeGroup d e ⟨d.target, name⟩

namespace CompilationUnit

variable {names : Names} {d : Document} {e : Element} {g : Grammar}

theorem addComponent_eq (localName : String) :
    addComponent names d e localName g =
      match ComponentKind.ofElementName? e.name.localName with
      | none => pure g
      | some kind =>
        if (g.table kind).contains localName then pure g
        else globalOf names d e localName kind >>= fun value =>
          pure (g.define localName kind value) := by
  unfold addComponent globalOf
  generalize e.name.localName = kindName
  dsimp only
  split <;> simp only [ComponentKind.ofElementName?, if_true, String.reduceEq, if_false,
    bind_map_left] <;> rfl

structure Adds (names : Names) (d : Document) (es : List Element) (g k : Grammar) : Prop where
  target : k.target = g.target
  systemIds : k.systemIds = g.systemIds
  imports : ∀ ns, ns ∈ k.imports ↔ ns ∈ g.imports ∨ ∃ e ∈ es, Imports e ns
  sound : ∀ kind name value, (k.table kind).get? name = some value →
    (g.table kind).get? name = some value ∨
      ∃ e ∈ es, Declares e kind name ∧ (globalOf names d e name kind).CanGive value
  kept : ∀ kind name, ((g.table kind).get? name).isSome → ((k.table kind).get? name).isSome
  complete : ∀ e ∈ es, ∀ kind name, Declares e kind name → ((k.table kind).get? name).isSome

theorem adds_nil : Adds names d [] g g where
  target := rfl
  systemIds := rfl
  imports ns := by simp
  sound _ _ _ found := .inl found
  kept _ _ known := known
  complete _ member := nomatch member

theorem Adds.append {es es' : List Element} {k l : Grammar} (first : Adds names d es g k)
    (rest : Adds names d es' k l) : Adds names d (es ++ es') g l where
  target := rest.target.trans first.target
  systemIds := rest.systemIds.trans first.systemIds
  imports ns := by
    rw [rest.imports, first.imports, or_assoc]
    simp only [List.mem_append, or_and_right, exists_or]
  sound kind name value found := by
    rcases rest.sound kind name value found with middle | ⟨e, among, defines⟩
    · rcases first.sound kind name value middle with old | ⟨e, among, defines⟩
      · exact .inl old
      · exact .inr ⟨e, List.mem_append_left _ among, defines⟩
    · exact .inr ⟨e, List.mem_append_right _ among, defines⟩
  kept kind name known := rest.kept kind name (first.kept kind name known)
  complete e member kind name declares := by
    rcases List.mem_append.1 member with among | among
    · exact rest.kept kind name (first.complete e among kind name declares)
    · exact rest.complete e among kind name declares

theorem adds_define {kind : ComponentKind} {localName : String} {value : Global kind}
    (declares : Declares e kind localName)
    (gives : (globalOf names d e localName kind).CanGive value) :
    Adds names d [e] g (g.define localName kind value) where
  target := g.target_define value
  systemIds := g.systemIds_define value
  imports ns := by
    have notImport : ¬Imports e ns := fun ⟨isImport, _⟩ => by
      rw [Declares, isImport] at declares
      simp [ComponentKind.ofElementName?] at declares
    simp [notImport]
  sound other name v found := by
    by_cases same : other = kind
    · subst same
      rw [Grammar.table_define_self, Table.get?_insertNew, Option.or_eq_some_iff] at found
      rcases found with old | ⟨_, new⟩
      · exact .inl old
      · split at new
        · next same =>
          subst same
          cases new
          exact .inr ⟨e, List.mem_singleton_self e, declares, gives⟩
        · cases new
    · rw [g.table_define_of_ne value same] at found
      exact .inl found
  kept other name known := by
    by_cases same : other = kind
    · subst same
      rw [Grammar.table_define_self, Table.get?_insertNew, Option.isSome_or, known, Bool.true_or]
    · rwa [g.table_define_of_ne value same]
  complete e' member other name declares' := by
    obtain rfl := List.mem_singleton.1 member
    obtain rfl : kind = other := Option.some.inj (declares.1.symm.trans declares'.1)
    obtain rfl : localName = name := Option.some.inj (declares.2.symm.trans declares'.2)
    rw [Grammar.table_define_self, Table.get?_insertNew, Option.isSome_or, if_pos rfl,
      Option.isSome_some, Bool.or_true]

theorem adds_self (notImport : e.name.localName ≠ "import")
    (known : ∀ kind name, Declares e kind name → ((g.table kind).get? name).isSome) :
    Adds names d [e] g g where
  target := rfl
  systemIds := rfl
  imports ns := by simp [Imports, notImport]
  sound _ _ _ found := .inl found
  kept _ _ known := known
  complete e' member kind name declares := by
    obtain rfl := List.mem_singleton.1 member
    exact known kind name declares

theorem adds_import (isImport : e.name.localName = "import") :
    Adds names d [e] g
      { g with imports := addMissing g.imports [(e.attribute? "namespace").getD ""] } where
  target := rfl
  systemIds := rfl
  imports ns := by simp [mem_addMissing, Imports, isImport]
  sound kind name value found := .inl (by cases kind <;> exact found)
  kept kind name known := by cases kind <;> exact known
  complete e' member kind name declares := by
    obtain rfl := List.mem_singleton.1 member
    rw [Declares, isImport] at declares
    simp [ComponentKind.ofElementName?] at declares

theorem yields_addComponents_adds (es : List Element) (g : Grammar) :
    Yields (fun _ => True) (addComponents names d es g) (Adds names d es g) := by
  induction es generalizing g with
  | nil => exact yields_pure adds_nil
  | cons e es ih =>
    have next {k : Grammar} (adds : Adds names d [e] g k) :
        Yields (fun _ => True) (addComponents names d es k) (Adds names d (e :: es) g) :=
      (ih k).mono fun l rest => adds.append rest
    unfold addComponents
    dsimp only
    split
    · next isImport =>
      have adds : Adds names d [e] g _ := adds_import (by simpa using isImport)
      exact (yields_trivial _).bind fun _ _ => (yields_pure adds).bind fun _ adds => next adds
    · next notImport =>
      have notImport : e.name.localName ≠ "import" := by simpa using notImport
      split
      -- Without a name, without a kind, or if it is known already, the element adds nothing.
      · next unnamed =>
        have adds : Adds names d [e] g g := adds_self notImport fun kind name declares => by
          rw [Declares, unnamed] at declares
          cases declares.2
        exact (yields_pure adds).bind fun _ adds => next adds
      · next localName named =>
        refine (yields_trivial _).bind fun _ _ => Yields.bind (P := Adds names d [e] g) ?_
          fun k adds => next adds
        rw [addComponent_eq]
        split
        · next noKind =>
          exact yields_pure (adds_self notImport fun kind name declares => by
            rw [Declares, noKind] at declares
            cases declares.1)
        · next kind isKind =>
          split
          · next known =>
            exact yields_pure (adds_self notImport fun other name declares => by
              obtain rfl : kind = other := Option.some.inj (isKind.symm.trans declares.1)
              obtain rfl : localName = name := Option.some.inj (named.symm.trans declares.2)
              exact known)
          · exact (yields_canGive _).bind fun value gives =>
              yields_pure (adds_define ⟨isKind, named⟩ gives)

theorem grammar?_replaceGrammar (g : Grammar) (grammars : List Grammar) (ns : String) :
    (Pool.mk (replaceGrammar g grammars)).grammar? ns =
      if g.target = ns then some g else (Pool.mk grammars).grammar? ns := by
  simp only [Pool.grammar?]
  induction grammars with
  | nil => by_cases same : g.target = ns <;> simp [replaceGrammar, same]
  | cons h rest ih =>
    unfold replaceGrammar
    by_cases replaced : h.target = g.target
    · by_cases same : g.target = ns <;> simp [replaced, same]
    · rw [if_neg (by simpa using replaced)]
      by_cases here : h.target = ns
      · have other : g.target ≠ ns := fun same => replaced (here.trans same.symm)
        simp [here, other]
      · simp [here, ih]

theorem find?_replaceGrammar (g : Grammar) (grammars : List Grammar) (kind : ComponentKind)
    (name : QName) :
    (Pool.mk (replaceGrammar g grammars)).find? kind name =
      if g.target = name.ns then (g.table kind).get? name.localName
      else (Pool.mk grammars).find? kind name := by
  simp only [Pool.find?, grammar?_replaceGrammar]
  split <;> rfl

theorem mem_targets_replaceGrammar {g : Grammar} {grammars : List Grammar} {ns : String} :
    ns ∈ (replaceGrammar g grammars).map (·.target) ↔
      ns = g.target ∨ ns ∈ grammars.map (·.target) := by
  induction grammars with
  | nil => simp [replaceGrammar]
  | cons h rest ih =>
    unfold replaceGrammar
    split
    · next same =>
      have same : h.target = g.target := by simpa using same
      simp [same]
    · simp only [List.map_cons, List.mem_cons, ih]
      exact or_left_comm

theorem nodup_replaceGrammar {g : Grammar} {grammars : List Grammar}
    (distinct : (grammars.map (·.target)).Nodup) :
    ((replaceGrammar g grammars).map (·.target)).Nodup := by
  induction grammars with
  | nil => simp [replaceGrammar]
  | cons h rest ih =>
    rw [List.map_cons, List.nodup_cons] at distinct
    unfold replaceGrammar
    split
    · next same =>
      have same : h.target = g.target := by simpa using same
      rw [List.map_cons, List.nodup_cons, ← same]
      exact distinct
    · next other =>
      have other : h.target ≠ g.target := by simpa using other
      rw [List.map_cons, List.nodup_cons, mem_targets_replaceGrammar]
      exact ⟨by simp [other, distinct.1], ih distinct.2⟩

structure Describes (names : Names) (docs : List Document) (grammars : List Grammar) : Prop where
  distinct : (grammars.map (·.target)).Nodup
  target : ∀ ns, ((Pool.mk grammars).grammar? ns).isSome ↔ ∃ d ∈ docs, d.target = ns
  sound : ∀ kind name value, (Pool.mk grammars).find? kind name = some value →
    ∃ d ∈ docs, d.target = name.ns ∧ ∃ e ∈ schemaChildren d.root,
      Declares e kind name.localName ∧ (globalOf names d e name.localName kind).CanGive value
  complete : ∀ d ∈ docs, ∀ e ∈ schemaChildren d.root, ∀ kind name, Declares e kind name →
    ((Pool.mk grammars).find? kind ⟨d.target, name⟩).isSome
  imports : ∀ ns g, (Pool.mk grammars).grammar? ns = some g → ∀ item, item ∈ g.imports ↔
    ∃ d ∈ docs, d.target = ns ∧ ∃ e ∈ schemaChildren d.root, Imports e item
  systemIds : ∀ ns g, (Pool.mk grammars).grammar? ns = some g → ∀ item, item ∈ g.systemIds ↔
    ∃ d ∈ docs, d.target = ns ∧ item = d.systemId

theorem describes_nil : Describes names [] [] where
  distinct := List.nodup_nil
  target ns := by simp [Pool.grammar?]
  sound kind name value found := by simp [Pool.find?, Pool.grammar?] at found
  complete _ member := nomatch member
  imports ns g found := by simp [Pool.grammar?] at found
  systemIds ns g found := by simp [Pool.grammar?] at found

structure Begins (d : Document) (grammars : List Grammar) (g : Grammar) : Prop where
  target : g.target = d.target
  table : ∀ kind name, (g.table kind).get? name =
    (Pool.mk grammars).find? kind ⟨d.target, name⟩
  imports : ∀ ns, ns ∈ g.imports ↔
    ∃ h, (Pool.mk grammars).grammar? d.target = some h ∧ ns ∈ h.imports
  systemIds : ∀ systemId, systemId ∈ g.systemIds ↔ systemId = d.systemId ∨
    ∃ h, (Pool.mk grammars).grammar? d.target = some h ∧ systemId ∈ h.systemIds

theorem exists_mem_snoc {docs : List Document} {P : Document → Prop} :
    (∃ d' ∈ docs ++ [d], P d') ↔ (∃ d' ∈ docs, P d') ∨ P d := by
  simp [or_and_right, exists_or]

theorem exists_grammar?_iff {docs : List Document} {grammars : List Grammar}
    {items : Grammar → List String} {P : Document → String → Prop}
    (target : ∀ ns, ((Pool.mk grammars).grammar? ns).isSome ↔ ∃ d ∈ docs, d.target = ns)
    (holds : ∀ ns g, (Pool.mk grammars).grammar? ns = some g → ∀ item, item ∈ items g ↔
      ∃ d ∈ docs, d.target = ns ∧ P d item) (ns item : String) :
    (∃ g, (Pool.mk grammars).grammar? ns = some g ∧ item ∈ items g) ↔
      ∃ d ∈ docs, d.target = ns ∧ P d item := by
  cases found : (Pool.mk grammars).grammar? ns with
  | none =>
    have absent : ¬∃ d ∈ docs, d.target = ns ∧ P d item := by
      rintro ⟨d, member, same, _⟩
      have isSome := (target ns).2 ⟨d, member, same⟩
      simp [found] at isSome
    simp [absent]
  | some g => simp [holds ns g found]

theorem Describes.add {docs : List Document} {grammars : List Grammar} {k : Grammar}
    (describes : Describes names docs grammars) (begins : Begins d grammars g)
    (adds : Adds names d (schemaChildren d.root) g k) :
    Describes names (docs ++ [d]) (replaceGrammar k grammars) := by
  have target : k.target = d.target := adds.target.trans begins.target
  refine ⟨nodup_replaceGrammar describes.distinct, fun ns => ?_, fun kind name value found => ?_,
    fun d' member e among kind name declares => ?_, fun ns h found item => ?_,
    fun ns h found item => ?_⟩
  · rw [grammar?_replaceGrammar, exists_mem_snoc, target]
    by_cases same : d.target = ns
    · simp [same]
    · rw [if_neg same, describes.target]
      simp [same]
  · rw [find?_replaceGrammar, target] at found
    rw [exists_mem_snoc]
    split at found
    -- In the namespace of the document a component is either old or comes from the document.
    · next same =>
      rcases adds.sound kind _ value found with old | ⟨e, among, declares, gives⟩
      · rw [begins.table, same] at old
        exact .inl (describes.sound kind name value old)
      · exact .inr ⟨same, e, among, declares, gives⟩
    · exact .inl (describes.sound kind name value found)
  · rw [find?_replaceGrammar, target]
    rcases List.mem_append.1 member with member | member
    · have known := describes.complete d' member e among kind name declares
      split
      · next same =>
        refine adds.kept kind name ?_
        rwa [begins.table, same]
      · exact known
    · obtain rfl := List.mem_singleton.1 member
      rw [if_pos rfl]
      exact adds.complete e among kind name declares
  · rw [grammar?_replaceGrammar, target] at found
    rw [exists_mem_snoc]
    split at found
    · next same =>
      cases found
      rw [adds.imports, begins.imports, exists_grammar?_iff describes.target describes.imports, same]
      simp
    · next other =>
      rw [describes.imports ns h found]
      simp [other]
  · rw [grammar?_replaceGrammar, target] at found
    rw [exists_mem_snoc]
    split at found
    · next same =>
      cases found
      rw [adds.systemIds, begins.systemIds,
        exists_grammar?_iff describes.target describes.systemIds, same, or_comm]
      simp
    · next other =>
      rw [describes.systemIds ns h found]
      simp [other]

theorem begins_of_grammar? {grammars : List Grammar}
    (found : (Pool.mk grammars).grammar? d.target = some g) :
    Begins d grammars { g with systemIds := addMissing g.systemIds [d.systemId] } where
  target := by
    have target := Pool.grammar?_target found
    exact target
  table kind name := by
    simp only [Pool.find?, found, Option.bind_some]
    cases kind <;> rfl
  imports ns := by simp [found]
  systemIds systemId := by simp [found, mem_addMissing, or_comm]

theorem begins_new {grammars : List Grammar}
    (absent : (Pool.mk grammars).grammar? d.target = none) :
    Begins d grammars { target := d.target, systemIds := [d.systemId] } where
  target := rfl
  table kind name := by
    simp only [Pool.find?, absent, Option.bind_none]
    cases kind <;> rfl
  imports ns := by simp [absent]
  systemIds systemId := by simp [absent]

theorem yields_addDocuments_describes {docs : List Document} (ds : List Document)
    {grammars : List Grammar} (describes : Describes names docs grammars) :
    Yields (fun _ => True) (addDocuments names ds grammars) (Describes names (docs ++ ds)) := by
  induction ds generalizing docs grammars with
  | nil => exact yields_pure (by simpa using describes)
  | cons d ds ih =>
    have next {g : Grammar} (begins : Begins d grammars g) :
        Yields (fun _ => True) (do
          let g ← addComponents names d (schemaChildren d.root) g
          addDocuments names ds (replaceGrammar g grammars))
          (Describes names (docs ++ d :: ds)) :=
      (yields_addComponents_adds _ g).bind fun k adds => by
        simpa using ih (describes.add begins adds)
    unfold addDocuments
    dsimp only
    split
    · next g found =>
      exact (yields_pure (begins_of_grammar? found)).bind fun _ begins => next begins
    · next absent =>
      exact (yields_trivial _).bind fun _ _ => (yields_pure (begins_new absent)).bind
        fun _ begins => next begins

theorem yields_compile_describes (unit : CompilationUnit) :
    Yields (fun _ => True) unit.compile (Describes unit.names unit.documents) := by
  have start : Describes unit.names [] [] := describes_nil
  have describes := yields_addDocuments_describes unit.documents start
  rwa [List.nil_append] at describes

end CompilationUnit

end XmlSchema.Schema
