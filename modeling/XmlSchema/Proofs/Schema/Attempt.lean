import XmlSchema.Proofs.Schema.Growth
import XmlSchema.Proofs.Schema.Plain
import XmlSchema.Schema.Compilation

namespace XmlSchema.Schema

open Component
open Xml (Element)
open Compile

section

def textOf (source : LoadedSource) : UnitText :=
  { systemId := source.1, content := source.2, source := source.1, includer := none }

def documentOf (source : LoadedSource) : Except SchemaError Document := do
  Document.ofRoot (textOf source) (← parse source.1 source.2)

def StandsAlone (source : LoadedSource) : Prop :=
  ∀ root, parse source.1 source.2 = .ok root →
    ∀ child ∈ schemaChildren root, child.name.localName ≠ "include"

variable {lib : Library} {known : String → Bool}

theorem referencedBy_eq_nil (noFiles : lib.files = none) (text : UnitText) (target : String)
    {children : List Element} (alone : ∀ child ∈ children, child.name.localName ≠ "include") :
    referencedBy lib known text target children = .ok [] := by
  induction children with
  | nil => rfl
  | cons child rest ih =>
    obtain ⟨notInclude, aloneRest⟩ := List.forall_mem_cons.1 alone
    have nothing : ∀ location, lib.discover? location = none := fun location => by
      simp [Library.discover?, noFiles]
    unfold referencedBy
    rw [ih aloneRest]
    cases child.attribute? "schemaLocation" with
    | none => rfl
    | some location =>
      simp only [nothing, Option.map_none, ite_self]
      split
      · next isInclude => exact absurd isInclude notInclude
      · rfl
      · rfl

theorem gather_eq_ok (noFiles : lib.files = none) {fuel : Nat} {seen : List String}
    {sources : List LoadedSource} (alone : ∀ source ∈ sources, StandsAlone source)
    (distinct : (sources.map fun source => normalizeLocation source.1).Nodup)
    (new : ∀ source ∈ sources, normalizeLocation source.1 ∉ seen) (enough : sources.length ≤ fuel)
    (reads : ∀ source ∈ sources, ∃ root, parse source.1 source.2 = .ok root) :
    gather lib known fuel seen (sources.map textOf) = .ok (sources.map textOf) := by
  induction sources generalizing fuel seen with
  | nil => rw [List.map_nil, gather]
  | cons source rest ih =>
    obtain ⟨aloneFirst, aloneRest⟩ := List.forall_mem_cons.1 alone
    obtain ⟨newFirst, newRest⟩ := List.forall_mem_cons.1 new
    obtain ⟨⟨root, read⟩, readsRest⟩ := List.forall_mem_cons.1 reads
    rw [List.map_cons, List.nodup_cons] at distinct
    obtain ⟨fuel, rfl⟩ : ∃ less, fuel = less + 1 := ⟨fuel - 1, by rw [List.length_cons] at enough; omega⟩
    have referenced : referencedDocuments lib known (textOf source) = .ok [] := by
      unfold referencedDocuments
      change (parse source.1 source.2 >>= _) = _
      rw [read]
      exact referencedBy_eq_nil noFiles _ _ (aloneFirst root read)
    have later : gather lib known fuel (normalizeLocation source.1 :: seen) (rest.map textOf) =
        .ok (rest.map textOf) := by
      refine ih aloneRest distinct.2 (fun other member seenAgain => ?_) ?_ readsRest
      · rcases List.mem_cons.1 seenAgain with same | seenBefore
        · exact distinct.1 (List.mem_map.2 ⟨other, member, same⟩)
        · exact newRest other member seenBefore
      · rw [List.length_cons] at enough
        omega
    have notSeen : seen.contains (normalizeLocation (textOf source).systemId) = false := by
      simpa [textOf] using newFirst
    rw [List.map_cons, gather]
    simp only [notSeen, Bool.false_eq_true, if_false]
    change (referencedDocuments lib known (textOf source) >>= _) = _
    rw [referenced]
    change (gather lib known fuel (normalizeLocation source.1 :: seen) (rest.map textOf) >>= _) = _
    rw [later]
    rfl

theorem gather_eq_error {fuel : Nat} {seen : List String} {source : LoadedSource}
    {stack : List UnitText} {fault : SchemaError} (new : normalizeLocation source.1 ∉ seen)
    (unread : parse source.1 source.2 = .error fault) :
    gather lib known (fuel + 1) seen (textOf source :: stack) = .error fault := by
  have referenced : referencedDocuments lib known (textOf source) = .error fault := by
    unfold referencedDocuments
    change (parse source.1 source.2 >>= _) = _
    rw [unread]
    rfl
  have notSeen : seen.contains (normalizeLocation (textOf source).systemId) = false := by
    simpa [textOf] using new
  rw [gather]
  simp only [notSeen, Bool.false_eq_true, if_false]
  change (referencedDocuments lib known (textOf source) >>= _) = _
  rw [referenced]
  rfl

theorem documents_cons {source : LoadedSource} {rest : List LoadedSource} {root : Element}
    (read : parse source.1 source.2 = .ok root)
    (reads : ∀ other ∈ rest, ∃ root, parse other.1 other.2 = .ok root) :
    documents ((source :: rest).map textOf) =
      Document.ofRoot (textOf source) root >>= fun d =>
        documents (rest.map textOf) >>= fun ds => pure (d :: ds) := by
  have roots : ∃ roots, (rest.map textOf).mapM (fun text => parse text.systemId text.content) =
      .ok roots := by
    induction rest with
    | nil => exact ⟨[], rfl⟩
    | cons other rest ih =>
      obtain ⟨⟨root', read'⟩, reads⟩ := List.forall_mem_cons.1 reads
      obtain ⟨roots, parsed⟩ := ih reads
      refine ⟨root' :: roots, ?_⟩
      rw [List.map_cons, List.mapM_cons, parsed]
      change (parse other.1 other.2 >>= _) = _
      rw [read']
      rfl
  obtain ⟨roots, parsed⟩ := roots
  unfold documents
  rw [List.map_cons, List.mapM_cons, parsed]
  have first : parse (textOf source).systemId (textOf source).content = .ok root := read
  rw [first]
  change ((textOf source :: rest.map textOf).zip (root :: roots)).mapM (fun entry =>
      Document.ofRoot entry.1 entry.2) = _
  rw [List.zip_cons_cons, List.mapM_cons]
  rfl

def documentsOf (sources : List LoadedSource) : List Document :=
  sources.filterMap fun source => (documentOf source).toOption

theorem documents_unitTexts (noFiles : lib.files = none) {sources : List LoadedSource}
    (alone : ∀ source ∈ sources, StandsAlone source)
    (distinct : (sources.map fun source => normalizeLocation source.1).Nodup)
    (reads : ∀ source ∈ sources, ∃ d, documentOf source = .ok d) :
    (unitTexts lib known sources >>= documents) = .ok (documentsOf sources) := by
  have parses : ∀ source ∈ sources, ∃ root, parse source.1 source.2 = .ok root := by
    intro source member
    obtain ⟨d, read⟩ := reads source member
    unfold documentOf at read
    cases parsed : parse source.1 source.2 with
    | ok root => exact ⟨root, rfl⟩
    | error fault =>
      rw [parsed] at read
      cases read
  have gathered : unitTexts lib known sources = .ok (sources.map textOf) :=
    gather_eq_ok noFiles alone distinct (fun _ _ => List.not_mem_nil) (by omega) parses
  rw [gathered]
  change documents (sources.map textOf) = _
  clear gathered alone distinct
  induction sources with
  | nil => rfl
  | cons source rest ih =>
    obtain ⟨⟨d, read⟩, readsRest⟩ := List.forall_mem_cons.1 reads
    obtain ⟨⟨root, parsed⟩, parsesRest⟩ := List.forall_mem_cons.1 parses
    have made : Document.ofRoot (textOf source) root = .ok d := by
      unfold documentOf at read
      rw [parsed] at read
      exact read
    have toOption : (documentOf source).toOption = some d := by rw [read]; rfl
    have split : documentsOf (source :: rest) = d :: documentsOf rest :=
      List.filterMap_cons_some toOption
    rw [documents_cons parsed parsesRest, made, ih readsRest parsesRest, split]
    rfl

theorem documents_unitTexts_error (noFiles : lib.files = none) {source : LoadedSource}
    (alone : StandsAlone source) {fault : SchemaError} (unread : documentOf source = .error fault) :
    (unitTexts lib known [source] >>= documents) = .error fault := by
  unfold documentOf at unread
  cases parsed : parse source.1 source.2 with
  | error early =>
    rw [parsed] at unread
    obtain rfl : early = fault := Except.error.inj unread
    have gathered : unitTexts lib known [source] = .error early :=
      gather_eq_error (List.not_mem_nil) parsed
    rw [gathered]
    rfl
  | ok root =>
    rw [parsed] at unread
    have made : Document.ofRoot (textOf source) root = .error fault := unread
    have each {P : LoadedSource → Prop} (holds : P source) : ∀ other ∈ [source], P other := by
      simpa using holds
    have gathered : unitTexts lib known [source] = .ok ([source].map textOf) :=
      gather_eq_ok noFiles (each alone) (by simp) (fun _ _ => List.not_mem_nil) (by simp)
        (each ⟨root, parsed⟩)
    rw [gathered]
    change documents ([source].map textOf) = _
    rw [documents_cons parsed (by simp), made]
    rfl

end

theorem Uniform.follows_self {α : Type} {c : Compile α} (uniform : Uniform True fun _ => c)
    (counts : SchemaError → Prop) : Follows SameSlots counts c c := by
  have answers (q : Query) : Follows SameSlots counts
      (((CompilationUnit.ofDocuments [] {}).namesWithin 0 []).ask q)
      (((CompilationUnit.ofDocuments [] {}).namesWithin 0 []).ask q) := by
    cases q with
    | isElement d e name | isType d e name =>
      simp only [Names.ask]
      split
      · exact follows_pure _
      · exact follows_throw _
    | _ => exact follows_throw _
  exact uniform.follows (fun _ _ _ _ _ _ same => same.unread _ _ _ _) answers

namespace CompilationUnit

variable {unit : CompilationUnit}

theorem follows_refl (unit : CompilationUnit) (counts : SchemaError → Prop) :
    unit.Follows counts unit where
  definition _ := rfl
  elsewhere _ _ slot := (uniform_elsewhere slot).follows_self counts
  origin q := by
    cases comes : unit.origin q with
    | settled answer => exact .settled ((uniform_settled comes).follows_self counts)
    | slot d e slot view => exact .slot

theorem result_compile (unit : CompilationUnit) (symbols : SymbolTable) :
    (unit.compile.run { symbols }).1 = (unit.compile.run {}).1 := by
  have follows : Compile.Follows SameSlots (fun _ => True) unit.compile unit.compile :=
    (uniform_addDocuments _ []).follows (fun _ _ _ _ _ _ same => same.unread _ _ _ _)
      ((unit.follows_refl _).namesWithin _ _)
  have same : SameSlots { symbols } {} := fun slot => by
    rw [CompilerState.stored_initial, CompilerState.stored_initial]
  obtain ⟨results, failures⟩ := follows _ _ same
  rcases ran : unit.compile.run { symbols } with ⟨fault | grammars, after⟩
  · obtain ⟨after', ran'⟩ := failures fault after ran trivial
    rw [ran']
  · obtain ⟨after', ran', _⟩ := results grammars after ran
    rw [ran']

end CompilationUnit

def attempt (pool : Pool) (source : LoadedSource) : Except SchemaError (List Grammar) :=
  match documentOf source with
  | .error fault => .error fault
  | .ok d => ((CompilationUnit.ofDocuments [d] pool).compile.run {}).1

theorem eq_ok_of_mem_toOption {ε α : Type} {result : Except ε α} {a : α}
    (given : a ∈ result.toOption) : result = .ok a := by
  cases result with
  | error fault => cases given
  | ok b =>
    cases given
    rfl

theorem compileUnit_eq_of_documents {lib : Library} {p : Progress} {sources : List LoadedSource}
    {docs : List Document}
    (gathered : (unitTexts lib p.pool.containsNamespace sources >>= documents) = .ok docs) :
    (p.compileUnit lib sources).1 =
      ((CompilationUnit.ofDocuments docs p.pool).compile.run { symbols := p.symbols }).1 := by
  unfold Progress.compileUnit
  rw [gathered]
  rfl

theorem validNamespaces_compileUnit (lib : Library) (p : Progress) (sources : List LoadedSource) :
    (p.compileUnit lib sources).2.validNamespaces = p.validNamespaces := by
  unfold Progress.compileUnit
  split <;> rfl

variable {lib : Library} {source : LoadedSource} {pool larger : Pool} {grammars : List Grammar}

theorem compileUnit_eq_attempt (noFiles : lib.files = none) (alone : StandsAlone source)
    (p : Progress) : (p.compileUnit lib [source]).1 = attempt p.pool source := by
  unfold attempt
  cases read : documentOf source with
  | error fault =>
    unfold Progress.compileUnit
    rw [documents_unitTexts_error noFiles alone read]
  | ok d =>
    have gathered : (unitTexts lib p.pool.containsNamespace [source] >>= documents) = .ok [d] := by
      have toOption : (documentOf source).toOption = some d := by rw [read]; rfl
      have one : documentsOf [source] = [d] := List.filterMap_cons_some toOption
      rw [← one]
      exact documents_unitTexts noFiles (by simpa using alone) (by simp) (by simp [read])
    rw [compileUnit_eq_of_documents gathered, CompilationUnit.result_compile]

theorem attempt_eq_ok_of_within (within : pool.Within larger)
    (compiled : attempt pool source = .ok grammars) : attempt larger source = .ok grammars := by
  unfold attempt at compiled ⊢
  cases read : documentOf source with
  | error fault =>
    rw [read] at compiled
    cases compiled
  | ok d =>
    rw [read] at compiled
    have follows : Follows SameSlots Final (CompilationUnit.ofDocuments [d] pool).compile _ :=
      CompilationUnit.compile_follows within
    obtain ⟨results, _⟩ := follows {} {} fun _ => rfl
    obtain ⟨after, ran, _⟩ := results grammars _ (Prod.ext compiled rfl)
    simp only [ran]

theorem attempt_eq_error_of_within (within : pool.Within larger) {fault : SchemaError}
    (failed : attempt pool source = .error fault) (final : Final fault) :
    attempt larger source = .error fault := by
  unfold attempt at failed ⊢
  cases read : documentOf source with
  | error fault' =>
    rw [read] at failed
    exact failed
  | ok d =>
    rw [read] at failed
    have follows : Follows SameSlots Final (CompilationUnit.ofDocuments [d] pool).compile _ :=
      CompilationUnit.compile_follows within
    obtain ⟨_, failures⟩ := follows {} {} fun _ => rfl
    obtain ⟨after, ran⟩ := failures fault _ (Prod.ext failed rfl) final
    simp only [ran]

theorem describes_of_attempt (compiled : attempt pool source = .ok grammars) :
    ∃ d, documentOf source = .ok d ∧
      CompilationUnit.Describes (CompilationUnit.ofDocuments [d] pool).names [d] grammars := by
  unfold attempt at compiled
  cases read : documentOf source with
  | error fault =>
    rw [read] at compiled
    cases compiled
  | ok d =>
    rw [read] at compiled
    exact ⟨d, rfl, (CompilationUnit.yields_compile_describes _ _ _ _ trivial
      (Prod.ext compiled rfl)).2⟩

end XmlSchema.Schema
