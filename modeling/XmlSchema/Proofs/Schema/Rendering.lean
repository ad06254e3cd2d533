import XmlSchema.Proofs.Schema.Confluence
import XmlSchema.Proofs.Schema.Earlier

namespace XmlSchema.Schema

open Component
open Xml (Element)
open CompilationUnit (Describes ofDocuments)

/-- Grammars hold what some documents define, where definitions mean what they mean among all
documents. -/
structure Renders (all docs : List Document) (grammars : List Grammar) : Prop where
  target : ∀ ns, (∃ g ∈ grammars, g.target = ns) ↔ ∃ d ∈ docs, d.target = ns
  imports : ∀ ns item, (∃ g ∈ grammars, g.target = ns ∧ item ∈ g.imports) ↔
    ∃ d ∈ docs, d.target = ns ∧ ∃ e ∈ schemaChildren d.root, Imports e item
  systemIds : ∀ ns item, (∃ g ∈ grammars, g.target = ns ∧ item ∈ g.systemIds) ↔
    ∃ d ∈ docs, d.target = ns ∧ item = d.systemId
  sound : ∀ kind name value, Provides grammars kind name value →
    (ofDocuments all {}).ComesTo kind name value
  complete : ∀ d ∈ docs, ∀ e ∈ schemaChildren d.root, ∀ kind name, Declares e kind name →
    ∃ value, Provides grammars kind ⟨d.target, name⟩ value

namespace Renders

variable {all docs docs' : List Document} {grammars grammars' : List Grammar} {pool larger : Pool}

theorem nil : Renders all [] [] where
  target ns := by simp
  imports ns item := by simp
  systemIds ns item := by simp
  sound kind name value provided := by
    obtain ⟨g, member, _⟩ := provided
    cases member
  complete _ member := nomatch member

theorem append (renders : Renders all docs grammars) (renders' : Renders all docs' grammars') :
    Renders all (docs ++ docs') (grammars ++ grammars') := by
  have split {P : Document → Prop} :
      (∃ d ∈ docs ++ docs', P d) ↔ (∃ d ∈ docs, P d) ∨ ∃ d ∈ docs', P d := by
    simp only [List.mem_append, or_and_right, exists_or]
  refine ⟨fun ns => ?_, fun ns item => ?_, fun ns item => ?_, fun kind name value provided => ?_,
    fun d member e among kind name declares => ?_⟩
  · rw [exists_mem_append, split, renders.target, renders'.target]
  · rw [exists_mem_append, split, renders.imports, renders'.imports]
  · rw [exists_mem_append, split, renders.systemIds, renders'.systemIds]
  · rcases provides_append.1 provided with first | second
    · exact renders.sound kind name value first
    · exact renders'.sound kind name value second
  · simp only [provides_append]
    rcases List.mem_append.1 member with member | member
    · obtain ⟨value, provided⟩ := renders.complete d member e among kind name declares
      exact ⟨value, .inl provided⟩
    · obtain ⟨value, provided⟩ := renders'.complete d member e among kind name declares
      exact ⟨value, .inr provided⟩

theorem of_perm (renders : Renders all docs grammars) (perm : docs.Perm docs') :
    Renders all docs' grammars := by
  have same {P : Document → Prop} : (∃ d ∈ docs, P d) ↔ ∃ d ∈ docs', P d := by
    simp only [perm.mem_iff]
  refine ⟨fun ns => ?_, fun ns item => ?_, fun ns item => ?_, renders.sound, fun d member => ?_⟩
  · rw [renders.target, same]
  · rw [renders.imports, same]
  · rw [renders.systemIds, same]
  · exact renders.complete d (perm.mem_iff.2 member)

theorem consistent (renders : Renders all docs grammars) : Consistent grammars :=
  fun kind name value other provided providedOther =>
    (renders.sound kind name value provided).unique (renders.sound kind name other providedOther)

theorem provides (renders : Renders all all grammars) {kind : ComponentKind} {name : QName}
    {value : Global kind} (comes : (ofDocuments all {}).ComesTo kind name value) :
    Provides grammars kind name value := by
  obtain ⟨definition, found, _⟩ := id comes
  obtain ⟨member, target, among, declares⟩ := CompilationUnit.mem_of_definition? found
  obtain ⟨other, provided⟩ := renders.complete _ member _ among kind name.localName declares
  rw [target] at provided
  rwa [(renders.sound kind name other provided).unique comes] at provided

theorem sameContent (renders : Renders all all grammars) (renders' : Renders all all grammars') :
    SameContent grammars grammars' where
  provides kind name value := by
    constructor
    · exact fun provided => renders'.provides (renders.sound kind name value provided)
    · exact fun provided => renders.provides (renders'.sound kind name value provided)
  target ns := by rw [renders.target, renders'.target]
  imports ns item := by rw [renders.imports, renders'.imports]
  systemIds ns item := by rw [renders.systemIds, renders'.systemIds]

theorem within (renders : Renders all docs grammars) (gathers : pool.Gathers grammars)
    (renders' : Renders all all grammars') (gathers' : larger.Gathers grammars') :
    pool.Within larger := by
  intro kind name value found
  have comes := renders.sound kind name value (gathers.sound kind name value found)
  exact (gathers'.find?_eq_some_iff renders'.consistent).2 (renders'.provides comes)

end Renders

variable {all docs before : List Document} {grammars earlier : List Grammar} {pool : Pool}

theorem Renders.partOf (renders : Renders all before earlier) (gathers : pool.Gathers earlier)
    (undisputed : Undisputed all) (among : ∀ d ∈ docs, d ∈ all) :
    (ofDocuments docs pool).PartOf (ofDocuments all {}) :=
  CompilationUnit.partOf_ofDocuments undisputed among fun kind name value found =>
    renders.sound kind name value (gathers.sound kind name value found)

theorem renders_of_run (renders : Renders all before earlier) (gathers : pool.Gathers earlier)
    (undisputed : Undisputed all) (among : ∀ d ∈ docs, d ∈ all) {symbols : SymbolTable}
    {st : CompilerState}
    (ran : (ofDocuments docs pool).compile.run { symbols } = (.ok grammars, st)) :
    Renders all docs grammars := by
  obtain ⟨n, gives⟩ := CompilationUnit.run_compile_iff_plain.1 ⟨st, ran⟩
  have describes : Describes ((ofDocuments docs pool).plain n) docs grammars :=
    CompilationUnit.describes_of_gives gives
  refine ⟨fun ns => ?_, fun ns item => ?_, fun ns item => ?_, fun kind name value provided => ?_,
    fun d member e isChild kind name declares => ?_⟩
  · rw [← Pool.isSome_grammar?_iff, describes.target]
  · rw [Pool.exists_mem_iff describes.distinct,
      CompilationUnit.exists_grammar?_iff describes.target describes.imports]
  · rw [Pool.exists_mem_iff describes.distinct,
      CompilationUnit.exists_grammar?_iff describes.target describes.systemIds]
  · exact (renders.partOf gathers undisputed among).comesTo undisputed among describes provided
  · obtain ⟨value, found⟩ := Option.isSome_iff_exists.1
      (describes.complete d member e isChild kind name declares)
    exact ⟨value, describes.provides_iff.2 found⟩

theorem Renders.completedBy (renders : Renders all before earlier) (gathers : pool.Gathers earlier)
    (undisputed : Undisputed all) (among : ∀ d ∈ docs, d ∈ all)
    (rest : ∀ d ∈ all, d ∈ before ∨ d ∈ docs) (whole : Renders all all grammars) :
    (ofDocuments all {}).CompletedBy (ofDocuments docs pool) where
  part := renders.partOf gathers undisputed among
  nothing _ _ := rfl
  comes kind name defined := by
    obtain ⟨definition, found⟩ := Option.isSome_iff_exists.1 defined
    obtain ⟨member, target, isChild, declares⟩ := CompilationUnit.mem_of_definition? found
    obtain ⟨value, provided⟩ := whole.complete _ member _ isChild kind name.localName declares
    rw [target] at provided
    exact ⟨value, whole.sound kind name value provided⟩
  found kind name defined undefined := by
    obtain ⟨definition, found⟩ := Option.isSome_iff_exists.1 defined
    obtain ⟨member, target, isChild, declares⟩ := CompilationUnit.mem_of_definition? found
    rcases rest _ member with taken | left
    · obtain ⟨value, provided⟩ := renders.complete _ taken _ isChild kind name.localName declares
      rw [target] at provided
      exact gathers.complete kind name value provided
    · have entry : ((⟨kind, name⟩, definition) : ComponentKey × Definition) ∈
          docs.flatMap CompilationUnit.definitionsOf :=
        List.mem_flatMap.2 ⟨_, left, mem_definitionsOf.2 ⟨rfl, isChild, target.symm, declares⟩⟩
      have absent := List.lookup_eq_none_iff.1 undefined _ entry
      simp at absent

variable {sources : List LoadedSource} {p : Progress} {done : List CompiledSource}

theorem documentsOf_singleton {source : LoadedSource} {d : Document}
    (read : documentOf source = .ok d) : documentsOf [source] = [d] := by
  have toOption : (documentOf source).toOption = some d := by rw [read]; rfl
  exact List.filterMap_cons_some toOption

theorem Reached.renders (reached : Reached sources p done)
    (undisputed : Undisputed (documentsOf sources)) :
    Renders (documentsOf sources) (documentsOf (done.map (·.1))) (grammarsOf done) := by
  induction reached with
  | start => exact .nil
  | skip _ _ _ ih => exact ih
  | @take p done source grammars reached among compiled ih =>
    have tried := compiled
    unfold attempt at tried
    cases read : documentOf source with
    | error fault =>
      rw [read] at tried
      cases tried
    | ok d =>
      rw [read] at tried
      have ofSources : ∀ d' ∈ [d], d' ∈ documentsOf sources := by
        simpa using mem_documentsOf among read
      have first := renders_of_run ih reached.gathers undisputed ofSources (Prod.ext tried rfl)
      rw [grammarsOf_snoc, List.map_append]
      have split : documentsOf (done.map (·.1) ++ [source]) =
          documentsOf (done.map (·.1)) ++ [d] := by
        rw [← documentsOf_singleton read]
        exact List.filterMap_append
      rw [List.map_singleton, split]
      exact ih.append first

end XmlSchema.Schema
