import XmlSchema.Proofs.Schema.Nesting

namespace XmlSchema.Schema

open Component
open Xml (Element)
open Compile

def Undisputed (docs : List Document) : Prop :=
  ((docs.flatMap CompilationUnit.definitionsOf).map (·.1)).Nodup

theorem lookup_eq_some_iff_mem {κ α : Type} [BEq κ] [LawfulBEq κ] {entries : List (κ × α)}
    (distinct : (entries.map (·.1)).Nodup) {key : κ} {a : α} :
    entries.lookup key = some a ↔ (key, a) ∈ entries := by
  constructor
  · intro found
    obtain ⟨before, after, equal, _⟩ := List.lookup_eq_some_iff.1 found
    simp [equal]
  · intro member
    obtain ⟨before, after, rfl⟩ := List.append_of_mem member
    rw [List.map_append, List.map_cons, List.nodup_append] at distinct
    refine List.lookup_eq_some_iff.2 ⟨before, after, rfl, fun entry among => ?_⟩
    have different := distinct.2.2 entry.1 (List.mem_map_of_mem among) key List.mem_cons_self
    simpa using fun same => different same.symm

theorem lookup_perm {κ α : Type} [BEq κ] [LawfulBEq κ] {entries others : List (κ × α)}
    (perm : entries.Perm others) (distinct : (entries.map (·.1)).Nodup) (key : κ) :
    entries.lookup key = others.lookup key := by
  refine Option.ext fun a => ?_
  rw [lookup_eq_some_iff_mem distinct,
    lookup_eq_some_iff_mem ((perm.map _).nodup_iff.1 distinct), perm.mem_iff]

theorem Undisputed.perm {docs docs' : List Document} (undisputed : Undisputed docs)
    (perm : docs.Perm docs') : Undisputed docs' :=
  ((perm.flatMap_right _).map _).nodup_iff.1 undisputed

theorem Undisputed.unique {docs : List Document} (undisputed : Undisputed docs) {d d' : Document}
    {e e' : Element} {kind : ComponentKind} {name : String} (member : d ∈ docs) (member' : d' ∈ docs)
    (target : d.target = d'.target) (among : e ∈ schemaChildren d.root)
    (among' : e' ∈ schemaChildren d'.root) (declares : Declares e kind name)
    (declares' : Declares e' kind name) : d = d' ∧ e = e' := by
  have entry : ((⟨kind, ⟨d.target, name⟩⟩, ⟨d, e⟩) : ComponentKey × Definition) ∈
      docs.flatMap CompilationUnit.definitionsOf :=
    List.mem_flatMap.2 ⟨d, member, mem_definitionsOf.2 ⟨rfl, among, rfl, declares⟩⟩
  have entry' : ((⟨kind, ⟨d.target, name⟩⟩, ⟨d', e'⟩) : ComponentKey × Definition) ∈
      docs.flatMap CompilationUnit.definitionsOf :=
    List.mem_flatMap.2 ⟨d', member', mem_definitionsOf.2 ⟨rfl, among', target, declares'⟩⟩
  have same := Option.some.inj (((lookup_eq_some_iff_mem undisputed).2 entry).symm.trans
    ((lookup_eq_some_iff_mem undisputed).2 entry'))
  exact Definition.mk.inj same

structure CompilationUnit.Same (unit unit' : CompilationUnit) : Prop where
  definition : ∀ kind name, unit.definition? kind name = unit'.definition? kind name
  find : ∀ kind name, unit.pool.find? kind name = unit'.pool.find? kind name

namespace CompilationUnit

variable {unit unit' : CompilationUnit} {d : Document} {e : Element}

namespace Same

theorem type? (same : unit.Same unit') (name : QName) :
    unit.pool.type? name = unit'.pool.type? name := by
  by_cases builtIn : name.ns = schemaNamespace
  · simp [Pool.type?, builtIn]
  · rw [Pool.type?_eq_find? _ _ builtIn, Pool.type?_eq_find? _ _ builtIn, same.find]

theorem element? (same : unit.Same unit') (name : QName) :
    unit.pool.element? name = unit'.pool.element? name := same.find .element name

theorem attribute? (same : unit.Same unit') (name : QName) :
    unit.pool.attribute? name = unit'.pool.attribute? name := same.find .attribute name

theorem group? (same : unit.Same unit') (name : QName) :
    unit.pool.group? name = unit'.pool.group? name := same.find .group name

theorem attributeGroup? (same : unit.Same unit') (name : QName) :
    unit.pool.attributeGroup? name = unit'.pool.attributeGroup? name :=
  same.find .attributeGroup name

theorem isElement (same : unit.Same unit') : unit.isElement = unit'.isElement := by
  funext name
  simp only [CompilationUnit.isElement, same.definition, same.element?]

theorem isType (same : unit.Same unit') : unit.isType = unit'.isType := by
  funext name
  simp only [CompilationUnit.isType, same.definition, same.type?]

theorem definitionOf? (same : unit.Same unit') (slot : Slot) :
    unit.definitionOf? slot = unit'.definitionOf? slot := by
  simp only [CompilationUnit.definitionOf?, same.definition]

theorem elsewhere (same : unit.Same unit') (slot : Slot) :
    unit.elsewhere d e slot = unit'.elsewhere d e slot := by
  cases slot <;> simp only [CompilationUnit.elsewhere, earlierSimpleType, same.definition,
    same.type?, same.group?, same.attributeGroup?, same.attribute?]

theorem origin (same : unit.Same unit') (q : Query) : unit.origin q = unit'.origin q := by
  cases q <;> simp only [CompilationUnit.origin, same.isElement, same.isType, same.definition,
    same.type?]

theorem plainAnswer (same : unit.Same unit') (names : Names) (q : Query) :
    unit.plainAnswer names q = unit'.plainAnswer names q := by
  simp only [CompilationUnit.plainAnswer, fresh, same.origin, same.definitionOf?, same.elsewhere]

theorem plain (same : unit.Same unit') (n : Nat) : unit.plain n = unit'.plain n := by
  induction n with
  | zero => simp only [CompilationUnit.plain, namesWithin, same.isElement, same.isType]
  | succ n ih =>
    simp only [CompilationUnit.plain, same.isElement, same.isType, ih]
    exact congrArg _ (funext fun q => same.plainAnswer _ q)

end Same

theorem same_of_perm {docs docs' : List Document} {pool pool' : Pool} (perm : docs.Perm docs')
    (undisputed : Undisputed docs) (find : ∀ kind name, pool.find? kind name = pool'.find? kind name) :
    (ofDocuments docs pool).Same (ofDocuments docs' pool') where
  definition _ _ := lookup_perm (perm.flatMap_right _) undisputed _
  find := find

variable {names : Names} {docs docs' : List Document} {grammars grammars' : List Grammar}

theorem uniform_globalOf (d : Document) (e : Element) (name : String) (kind : ComponentKind) :
    Uniform True fun names => globalOf names d e name kind := by
  cases kind with
  | element => exact Definition.uniform_elementDecl _ _ _ _
  | type =>
    simp only [globalOf, map_eq_pure_bind]
    split
    · exact .bind (.simpleType _ _ _) fun _ => .pure _
    · exact .bind (.complexType _ _ _) fun _ => .pure _
  | «attribute» => exact .attributeDecl _ _ _
  | group => exact .group _ _ _
  | attributeGroup => exact .attributeGroup _ _ _

def Evaluates (names : Names) (docs : List Document) : Prop :=
  ∀ d ∈ docs, ∀ e ∈ schemaChildren d.root, ∀ kind name, Declares e kind name →
    ∃ value, (globalOf names d e name kind).Gives value

theorem gives_addComponents {es : List Element}
    (evaluates : ∀ e ∈ es, ∀ kind name, Declares e kind name →
      ∃ value, (globalOf names d e name kind).Gives value) (g : Grammar) :
    ∃ h, (addComponents names d es g).Gives h := by
  induction es generalizing g with
  | nil => exact ⟨g, fun _ => rfl⟩
  | cons e es ih =>
    obtain ⟨first, rest⟩ := List.forall_mem_cons.1 evaluates
    unfold addComponents
    dsimp only
    split
    · obtain ⟨h, gives⟩ := ih rest _
      exact ⟨h, Gives.bind (a := ()) (fun _ => rfl) (Gives.bind (fun _ => rfl) gives)⟩
    · split
      · obtain ⟨h, gives⟩ := ih rest g
        exact ⟨h, Gives.bind (fun _ => rfl) gives⟩
      · next localName named =>
        have added : ∃ k, (addComponent names d e localName g).Gives k := by
          rw [addComponent_eq]
          split
          · exact ⟨g, fun _ => rfl⟩
          · next kind isKind =>
            split
            · exact ⟨g, fun _ => rfl⟩
            · obtain ⟨value, gives⟩ := first kind localName ⟨isKind, named⟩
              exact ⟨_, gives.bind fun _ => rfl⟩
        obtain ⟨k, givesFirst⟩ := added
        obtain ⟨h, gives⟩ := ih rest k
        exact ⟨h, Gives.bind (a := ()) (fun _ => rfl) (givesFirst.bind gives)⟩

theorem gives_addDocuments (evaluates : Evaluates names docs) (grammars : List Grammar) :
    ∃ result, (addDocuments names docs grammars).Gives result := by
  induction docs generalizing grammars with
  | nil => exact ⟨grammars, fun _ => rfl⟩
  | cons d docs ih =>
    obtain ⟨first, rest⟩ := List.forall_mem_cons.1 evaluates
    unfold addDocuments
    dsimp only
    split
    · next g _ =>
      obtain ⟨h, givesFirst⟩ := gives_addComponents first
        { g with systemIds := addMissing g.systemIds [d.systemId] }
      obtain ⟨result, gives⟩ := ih rest (replaceGrammar h grammars)
      exact ⟨result, Gives.bind (fun _ => rfl) (givesFirst.bind gives)⟩
    · obtain ⟨h, givesFirst⟩ := gives_addComponents first
        { target := d.target, systemIds := [d.systemId] }
      obtain ⟨result, gives⟩ := ih rest (replaceGrammar h grammars)
      exact ⟨result, Gives.bind (a := ()) (fun _ => rfl)
        (Gives.bind (fun _ => rfl) (givesFirst.bind gives))⟩

theorem Describes.evaluates (describes : Describes names docs grammars) (stateless : names.Stateless)
    (undisputed : Undisputed docs) : Evaluates names docs := by
  intro d member e among kind name declares
  obtain ⟨value, found⟩ := Option.isSome_iff_exists.1
    (describes.complete d member e among kind name declares)
  obtain ⟨d', member', target, e', among', declares', gives⟩ :=
    describes.sound kind ⟨d.target, name⟩ value found
  obtain ⟨rfl, rfl⟩ := undisputed.unique member' member target among' among declares' declares
  exact ⟨value, ((uniform_globalOf d' e' name kind).stateless stateless).gives_of_canGive gives⟩

theorem Describes.of_perm (describes : Describes names docs grammars) (perm : docs.Perm docs') :
    Describes names docs' grammars := by
  have same {P : Document → Prop} : (∃ d ∈ docs, P d) ↔ ∃ d ∈ docs', P d := by
    simp only [perm.mem_iff]
  refine ⟨describes.distinct, fun ns => ?_, fun kind name value found => ?_, fun d member => ?_,
    fun ns g found item => ?_, fun ns g found item => ?_⟩
  · rw [describes.target, same]
  · exact same.1 (describes.sound kind name value found)
  · exact describes.complete d (perm.mem_iff.2 member)
  · rw [describes.imports ns g found, same]
  · rw [describes.systemIds ns g found, same]

theorem Describes.find?_of_find? (describes : Describes names docs grammars)
    (describes' : Describes names docs grammars') (stateless : names.Stateless)
    (undisputed : Undisputed docs) {kind : ComponentKind} {name : QName} {value : Global kind}
    (found : (Pool.mk grammars).find? kind name = some value) :
    (Pool.mk grammars').find? kind name = some value := by
  obtain ⟨d, member, target, e, among, declares, gives⟩ := describes.sound kind name value found
  have known := describes'.complete d member e among kind name.localName declares
  rw [target] at known
  obtain ⟨value', found'⟩ := Option.isSome_iff_exists.1 known
  obtain ⟨d', member', target', e', among', declares', gives'⟩ :=
    describes'.sound kind name value' found'
  obtain ⟨rfl, rfl⟩ := undisputed.unique member' member (target'.trans target.symm) among' among
    declares' declares
  have evaluated := (uniform_globalOf d' e' name.localName kind).stateless stateless
  rw [found', (evaluated.gives_of_canGive gives').unique (evaluated.gives_of_canGive gives)]

theorem Describes.provides_iff (describes : Describes names docs grammars) {kind : ComponentKind}
    {name : QName} {value : Global kind} :
    Provides grammars kind name value ↔ (Pool.mk grammars).find? kind name = some value := by
  refine ⟨?_, Pool.provides_of_find?⟩
  rintro ⟨g, member, target, found⟩
  rw [Pool.find?, ← target, Pool.grammar?_of_mem describes.distinct member, Option.bind_some, found]

theorem Describes.consistent (describes : Describes names docs grammars) : Consistent grammars := by
  intro kind name value other provided providedOther
  rw [describes.provides_iff] at provided providedOther
  exact Option.some.inj (provided.symm.trans providedOther)

theorem Describes.sameContent (describes : Describes names docs grammars)
    (describes' : Describes names docs grammars') (stateless : names.Stateless)
    (undisputed : Undisputed docs) : SameContent grammars grammars' where
  provides kind name value := by
    rw [describes.provides_iff, describes'.provides_iff]
    exact ⟨describes.find?_of_find? describes' stateless undisputed,
      describes'.find?_of_find? describes stateless undisputed⟩
  target ns := by
    rw [← Pool.isSome_grammar?_iff, ← Pool.isSome_grammar?_iff, describes.target, describes'.target]
  imports ns item := by
    rw [Pool.exists_mem_iff describes.distinct, Pool.exists_mem_iff describes'.distinct,
      exists_grammar?_iff describes.target describes.imports,
      exists_grammar?_iff describes'.target describes'.imports]
  systemIds ns item := by
    rw [Pool.exists_mem_iff describes.distinct, Pool.exists_mem_iff describes'.distinct,
      exists_grammar?_iff describes.target describes.systemIds,
      exists_grammar?_iff describes'.target describes'.systemIds]

theorem describes_of_gives (gives : (addDocuments names docs []).Gives grammars) :
    Describes names docs grammars := by
  obtain ⟨_, ran⟩ := gives.run {}
  have start : Describes names [] [] := describes_nil
  exact (yields_addDocuments_describes docs start _ _ _ trivial ran).2

theorem run_compile_perm {pool pool' : Pool} {symbols : SymbolTable} {st : CompilerState}
    (perm : docs.Perm docs') (undisputed : Undisputed docs)
    (find : ∀ kind name, pool.find? kind name = pool'.find? kind name)
    (ran : (ofDocuments docs pool).compile.run { symbols } = (.ok grammars, st))
    (symbols' : SymbolTable) :
    ∃ grammars' st', (ofDocuments docs' pool').compile.run { symbols := symbols' } =
      (.ok grammars', st') ∧ SameContent grammars grammars' := by
  obtain ⟨n, gives⟩ := run_compile_iff_plain.1 ⟨st, ran⟩
  have stateless : ((ofDocuments docs pool).plain n).Stateless := stateless_plain n
  have describes := describes_of_gives gives
  obtain ⟨grammars', gives'⟩ :=
    gives_addDocuments ((describes.of_perm perm).evaluates stateless (undisputed.perm perm)) []
  have describes' := (describes_of_gives gives').of_perm perm.symm
  rw [(same_of_perm perm undisputed find).plain n] at gives'
  obtain ⟨st', ran'⟩ := run_compile_iff_plain.2 ⟨n, gives'⟩
  exact ⟨grammars', st', ran', describes.sameContent describes' stateless undisputed⟩

end CompilationUnit

end XmlSchema.Schema
