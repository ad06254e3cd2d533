import XmlSchema.Proofs.Schema.Inclusion
import XmlSchema.Proofs.Schema.Order
import XmlSchema.Proofs.Schema.Refusal
import XmlSchema.Proofs.Schema.Rendering
import XmlSchema.Proofs.Text.Ascii

/-!
# Schema sets compiled at once

A schema set whose sources include no others may be compiled at once, with nothing compiled before.
If that succeeds, so does compiling the sources one by one, and to the same. If compiling them one
by one succeeds, compiling them at once fails at most for the name of a complex type with simple
content that stands for a simple type: such a name is refused if the type belongs to the unit, and it
is not if the type has been compiled before (`compile_iff_compileTogether`).
-/

namespace XmlSchema.Schema

open Component
open Xml (Element)
open CompilationUnit (Describes ofDocuments)

def compileTogether (files : Files.Tree) (sources : List Source) :
    Except SchemaError (List Grammar) := do
  let loaded ← loadAll files sources
  (({} : Progress).compileUnit (libraryOf files false loaded) loaded).1

variable {lib : Library} {known : String → Bool} {sources deferred : List LoadedSource}
  {p q : Progress} {done : List CompiledSource} {grammars : List Grammar}

/-! ## Reading all sources -/

theorem not_refers (noFiles : lib.files = none) {source : LoadedSource} (alone : StandsAlone source)
    {other : UnitText} : ¬Refers lib known (textOf source) other := by
  rintro ⟨root, read, refers⟩
  have referenced : referencedDocuments lib known (textOf source) = .ok [] := by
    unfold referencedDocuments
    rw [show parse (textOf source).systemId (textOf source).content = .ok root from read]
    exact referencedBy_eq_nil noFiles _ _ (alone root read)
  have member := (mem_referencedDocuments_iff referenced).2 ⟨root, read, refers⟩
  cases member

theorem source_of_joins (noFiles : lib.files = none)
    (alone : ∀ source ∈ sources, StandsAlone source) {text : UnitText}
    (joins : Joins lib known sources text) :
    ∃ source ∈ sources, text = textOf source := by
  induction joins with
  | source member => exact ⟨_, member, rfl⟩
  | refer _ refers ih =>
    obtain ⟨source, member, rfl⟩ := ih
    exact absurd refers (not_refers noFiles (alone source member))

theorem documentOf_of_documents
    (parses : ∀ source ∈ sources, ∃ root, parse source.1 source.2 = .ok root)
    {docs : List Document} (ran : documents (sources.map textOf) = .ok docs) :
    ∀ source ∈ sources, ∃ d, documentOf source = .ok d := by
  induction sources generalizing docs with
  | nil => exact fun _ member => nomatch member
  | cons source rest ih =>
    obtain ⟨⟨root, parsed⟩, parsesRest⟩ := List.forall_mem_cons.1 parses
    rw [documents_cons parsed parsesRest] at ran
    have read : documentOf source = Document.ofRoot (textOf source) root := by
      rw [documentOf, parsed]
      rfl
    cases made : Document.ofRoot (textOf source) root with
    | error fault =>
      rw [made] at ran
      cases ran
    | ok d =>
      rw [made] at ran
      cases later : documents (rest.map textOf) with
      | error fault =>
        rw [later] at ran
        cases ran
      | ok docs' => exact List.forall_mem_cons.2 ⟨⟨d, read.trans made⟩, ih parsesRest later⟩

theorem documentOf_of_gathered (noFiles : lib.files = none)
    (alone : ∀ source ∈ sources, StandsAlone source)
    (distinct : (sources.map fun source => normalizeLocation source.1).Nodup) {docs : List Document}
    (gathered : (unitTexts lib known sources >>= documents) = .ok docs) :
    ∀ source ∈ sources, ∃ d, documentOf source = .ok d := by
  cases ran : unitTexts lib known sources with
  | error fault =>
    rw [ran] at gathered
    cases gathered
  | ok texts =>
    rw [ran] at gathered
    have made : documents texts = .ok docs := gathered
    have parses : ∀ source ∈ sources, ∃ root, parse source.1 source.2 = .ok root := by
      intro source member
      rcases (covers_of_unitTexts ran).stack (textOf source) (List.mem_map_of_mem member) with
        seen | ⟨twin, among, same⟩
      · cases seen
      · obtain ⟨source', member', rfl⟩ :=
          source_of_joins noFiles alone (joins_of_mem_unitTexts ran twin among)
        obtain rfl : source' = source := List.inj_on_of_nodup_map distinct member' member same
        obtain ⟨root, read, _⟩ := exists_document made among
        exact ⟨root, read⟩
    have all : unitTexts lib known sources = .ok (sources.map textOf) :=
      gather_eq_ok noFiles alone distinct (fun _ _ => List.not_mem_nil) (by omega) parses
    obtain rfl : texts = sources.map textOf := Except.ok.inj (ran.symm.trans all)
    exact documentOf_of_documents parses made

theorem run_of_compileUnit (noFiles : lib.files = none)
    (alone : ∀ source ∈ sources, StandsAlone source)
    (distinct : (sources.map fun source => normalizeLocation source.1).Nodup)
    (compiled : (({} : Progress).compileUnit lib sources).1 = .ok grammars) :
    (∀ source ∈ sources, ∃ d, documentOf source = .ok d) ∧
      ∃ st, (ofDocuments (documentsOf sources) {}).compile.run {} = (.ok grammars, st) := by
  cases gathered : (unitTexts lib ({} : Pool).containsNamespace sources >>= documents) with
  | error fault =>
    unfold Progress.compileUnit at compiled
    rw [gathered] at compiled
    cases compiled
  | ok docs =>
    have reads := documentOf_of_gathered noFiles alone distinct gathered
    have same := compileUnit_eq_of_documents (p := {})
      (documents_unitTexts noFiles alone distinct reads)
    exact ⟨reads, _, Prod.ext (same.symm.trans compiled) rfl⟩

/-! ## Compiling what is left -/

theorem Ended.renders (ended : Ended sources p done deferred)
    (undisputed : Undisputed (documentsOf sources)) (noFiles : lib.files = none)
    (alone : ∀ source ∈ sources, StandsAlone source)
    (distinct : (sources.map fun source => normalizeLocation source.1).Nodup)
    (finishes : Finishes lib p deferred q) :
    ∃ grammars, q.pool.Gathers grammars ∧
      Renders (documentsOf sources) (documentsOf sources) grammars := by
  have renders := ended.reached.renders undisputed
  cases finishes with
  | done =>
    have perm := ended.documentsOf_perm
    rw [show documentsOf [] = [] from rfl, List.append_nil] at perm
    exact ⟨_, ended.reached.gathers, renders.of_perm perm⟩
  | @together _ grammars q rest compiled =>
    have ran := ended.compileUnit_eq noFiles alone distinct
    rw [compiled] at ran
    have samePool : q.pool = p.pool := by rw [← Progress.pool_compileUnit lib p deferred, compiled]
    have among : ∀ d ∈ documentsOf deferred, d ∈ documentsOf sources := fun d member =>
      ended.documentsOf_perm.mem_iff.1 (List.mem_append_right _ member)
    have rendersRest := renders_of_run renders ended.reached.gathers undisputed among
      (Prod.ext ran.symm rfl)
    refine ⟨_, ?_, (renders.append rendersRest).of_perm ended.documentsOf_perm⟩
    have gathers := ended.reached.gathers.foldl_insert grammars
    rwa [← samePool] at gathers

/-! ## One by one after at once -/

theorem evaluates_of_run {all : List Document} (undisputed : Undisputed all) {st : CompilerState}
    (ran : (ofDocuments all {}).compile.run {} = (.ok grammars, st)) :
    ∃ n, CompilationUnit.Evaluates ((ofDocuments all {}).plain n) all := by
  obtain ⟨n, gives⟩ := CompilationUnit.run_compile_iff_plain.1 ⟨st, ran⟩
  have describes : Describes ((ofDocuments all {}).plain n) all grammars :=
    CompilationUnit.describes_of_gives gives
  exact ⟨n, describes.evaluates (CompilationUnit.stateless_plain n) undisputed⟩

theorem not_final_of_run (undisputed : Undisputed (documentsOf sources))
    (reads : ∀ source ∈ sources, ∃ d, documentOf source = .ok d) {st : CompilerState}
    (ran : (ofDocuments (documentsOf sources) {}).compile.run {} = (.ok grammars, st))
    (reached : Reached sources p done) {source : LoadedSource} (member : source ∈ sources)
    {fault : SchemaError} (failed : attempt p.pool source = .error fault) : ¬Final fault := by
  intro final
  have whole := renders_of_run .nil Pool.gathers_nil undisputed (fun _ => id) ran
  obtain ⟨n, evaluates⟩ := evaluates_of_run undisputed ran
  -- The failure would be there with all that the sources compile to in the pool.
  have gathers : (grammars.foldl Pool.insert {}).Gathers grammars := by
    simpa using Pool.gathers_nil.foldl_insert grammars
  have within := (reached.renders undisputed).within reached.gathers whole gathers
  have failedLater := attempt_eq_error_of_within within failed final
  obtain ⟨d, read⟩ := reads source member
  have among : ∀ d' ∈ [d], d' ∈ documentsOf sources := by simpa using mem_documentsOf member read
  have completed : (ofDocuments (documentsOf sources) {}).CompletedBy (ofDocuments [d] _) :=
    whole.completedBy gathers undisputed among (fun _ => .inl) whole
  obtain ⟨result, st', compiled⟩ := completed.run_compile among evaluates {}
  simp only [attempt, read, compiled] at failedLater
  cases failedLater

theorem finishes_of_compileUnit (noFiles : lib.files = none)
    (alone : ∀ source ∈ sources, StandsAlone source)
    (distinct : (sources.map fun source => normalizeLocation source.1).Nodup)
    (undisputed : Undisputed (documentsOf sources))
    (compiled : (({} : Progress).compileUnit lib sources).1 = .ok grammars) :
    ∃ p deferred q, Progress.passes lib sources.length {} sources = .ok (p, deferred) ∧
      Finishes lib p deferred q ∧ q.pool.Agrees (grammars.foldl Pool.insert {}) := by
  obtain ⟨reads, st, ran⟩ := run_of_compileUnit noFiles alone distinct compiled
  have whole := renders_of_run .nil Pool.gathers_nil undisputed (fun _ => id) ran
  obtain ⟨n, evaluates⟩ := evaluates_of_run undisputed ran
  have gathersWhole : (grammars.foldl Pool.insert {}).Gathers grammars := by
    simpa using Pool.gathers_nil.foldl_insert grammars
  rcases passed : Progress.passes lib sources.length {} sources with fault | ⟨p, deferred⟩
  · obtain ⟨q, done, reached, source, member, failed, final⟩ :=
      passes_eq_error noFiles alone (fun _ => id) .start passed
    exact absurd final (not_final_of_run undisputed reads ran reached member failed)
  · obtain ⟨done, ended⟩ := ended_of_passes noFiles alone passed
    have agrees {q : Progress} (finishes : Finishes lib p deferred q) :
        q.pool.Agrees (grammars.foldl Pool.insert {}) := by
      obtain ⟨others, gathers, renders⟩ := ended.renders undisputed noFiles alone distinct finishes
      exact gathers.agrees gathersWhole renders.consistent (renders.sameContent whole)
    cases deferred with
    | nil => exact ⟨p, [], p, rfl, .done, agrees .done⟩
    | cons first rest =>
      have perm := ended.documentsOf_perm
      have among : ∀ d ∈ documentsOf (first :: rest), d ∈ documentsOf sources := fun d member =>
        perm.mem_iff.1 (List.mem_append_right _ member)
      have completed : (ofDocuments (documentsOf sources) {}).CompletedBy
          (ofDocuments (documentsOf (first :: rest)) p.pool) :=
        (ended.reached.renders undisputed).completedBy ended.reached.gathers undisputed among
          (fun _ member => List.mem_append.1 (perm.mem_iff.2 member)) whole
      obtain ⟨left, st', compiledRest⟩ := completed.run_compile among evaluates p.symbols
      have last := ended.compileUnit_eq noFiles alone distinct
      rw [compiledRest] at last
      have finishes : Finishes lib p (first :: rest) _ :=
        .together (List.cons_ne_nil _ _) (Prod.ext last rfl)
      exact ⟨p, first :: rest, _, rfl, finishes, agrees finishes⟩

/-! ## At once after one by one -/

theorem exists_depth {α : Type} {P : Nat → α → Prop} {items : List α}
    (mono : ∀ n m a, n ≤ m → P n a → P m a) (each : ∀ a ∈ items, ∃ n, P n a) :
    ∃ n, ∀ a ∈ items, P n a := by
  induction items with
  | nil => exact ⟨0, fun _ member => nomatch member⟩
  | cons first rest ih =>
    obtain ⟨⟨n, holds⟩, eachRest⟩ := List.forall_mem_cons.1 each
    obtain ⟨m, holdsRest⟩ := ih eachRest
    exact ⟨max n m, List.forall_mem_cons.2 ⟨mono n _ first (Nat.le_max_left n m) holds,
      fun a member => mono m _ a (Nat.le_max_right n m) (holdsRest a member)⟩⟩

theorem Renders.evaluates {all : List Document} (renders : Renders all all grammars)
    (undisputed : Undisputed all) :
    ∃ n, CompilationUnit.Evaluates ((ofDocuments all {}).lenient n) all := by
  let holds (n : Nat) (entry : ComponentKey × Definition) : Prop :=
    ∃ value, (globalOf ((ofDocuments all {}).lenient n) entry.2.document entry.2.element
      entry.1.name.localName entry.1.kind).Gives value
  have mono (n m : Nat) (entry : ComponentKey × Definition) (le : n ≤ m) (before : holds n entry) :
      holds m entry := by
    obtain ⟨value, gives⟩ := before
    exact ⟨value, CompilationUnit.gives_lenient_mono_of_uniform
      (CompilationUnit.uniform_globalOf _ _ _ _) le gives⟩
  have each : ∀ entry ∈ all.flatMap CompilationUnit.definitionsOf, ∃ n, holds n entry := by
    rintro ⟨key, definition⟩ member
    have found : (ofDocuments all {}).definition? key.kind key.name = some definition :=
      (lookup_eq_some_iff_mem undisputed).2 member
    obtain ⟨isDocument, target, isChild, declares⟩ := CompilationUnit.mem_of_definition? found
    obtain ⟨value, provided⟩ := renders.complete _ isDocument _ isChild _ _ declares
    rw [target] at provided
    obtain ⟨other, foundOther, n, gives⟩ := renders.sound _ _ _ provided
    obtain rfl : definition = other := Option.some.inj (found.symm.trans foundOther)
    exact ⟨n, value, gives⟩
  obtain ⟨n, allHold⟩ := exists_depth mono each
  refine ⟨n, fun d member e among kind name declares => ?_⟩
  have entry : ((⟨kind, ⟨d.target, name⟩⟩, ⟨d, e⟩) : ComponentKey × Definition) ∈
      all.flatMap CompilationUnit.definitionsOf :=
    List.mem_flatMap.2 ⟨d, member, mem_definitionsOf.2 ⟨rfl, among, rfl, declares⟩⟩
  exact allHold _ entry

/-- A failure is due to the name of a type of a pool that has simple content, where a simple type
has to stand. -/
def RefusesContentOf (pool : Pool) (fault : SchemaError) : Prop :=
  ∃ systemId line name type content,
    fault = .malformed systemId (.component line (.notSimple name.localName)) ∧
      pool.type? name = some (.complex type) ∧ type.content = .simple content

/-- What compiles one by one compiles at once, unless the name of a type with simple content is
refused. -/
theorem compileUnit_of_finishes (noFiles : lib.files = none)
    (alone : ∀ source ∈ sources, StandsAlone source)
    (distinct : (sources.map fun source => normalizeLocation source.1).Nodup)
    (undisputed : Undisputed (documentsOf sources))
    (passed : Progress.passes lib sources.length {} sources = .ok (p, deferred))
    (finishes : Finishes lib p deferred q) :
    (∃ grammars, (({} : Progress).compileUnit lib sources).1 = .ok grammars) ∨
      ∃ fault, (({} : Progress).compileUnit lib sources).1 = .error fault ∧
        RefusesContentOf q.pool fault := by
  obtain ⟨done, ended⟩ := ended_of_passes noFiles alone passed
  obtain ⟨others, gathers, renders⟩ := ended.renders undisputed noFiles alone distinct finishes
  have reads : ∀ source ∈ sources, ∃ d, documentOf source = .ok d := by
    intro source member
    rcases List.mem_append.1 (ended.perm.mem_iff.2 member) with isTaken | left
    · obtain ⟨entry, among, rfl⟩ := List.mem_map.1 isTaken
      obtain ⟨_, compiled⟩ := ended.reached.compiled entry among
      obtain ⟨d, read, _⟩ := describes_of_attempt compiled
      exact ⟨d, read⟩
    · exact (ended.misses source left).documentOf
  obtain ⟨n, evaluates⟩ := renders.evaluates undisputed
  obtain ⟨grammars, gives⟩ := CompilationUnit.gives_addDocuments evaluates []
  have same := compileUnit_eq_of_documents (p := {})
    (documents_unitTexts noFiles alone distinct reads)
  rcases CompilationUnit.compile_of_lenient gives {} with ⟨st, ran⟩ | ⟨fault, st, failed, refused⟩
  · exact .inl ⟨grammars, by rw [same]; exact congrArg Prod.fst ran⟩
  · refine .inr ⟨fault, by rw [same]; exact congrArg Prod.fst failed, ?_⟩
    obtain ⟨systemId, line, name, m, type, content, rfl, isForeign, means, isSimple⟩ := refused
    have comes : (ofDocuments (documentsOf sources) {}).ComesTo .type name (.complex type) :=
      (@CompilationUnit.comesTo_iff_means _ (CompilationUnit.findsByName_ofDocuments _ _)
        (.complexType name) isForeign type).2 ⟨m, means⟩
    have found := (gathers.find?_eq_some_iff renders.consistent).2 (renders.provides comes)
    rw [← Pool.type?_eq_find? _ _ isForeign] at found
    exact ⟨systemId, line, name, type, content, rfl, found, isSimple⟩

/-! ## One by one and at once -/

theorem compileTogether_eq_ok {files : Files.Tree} {sources : List Source}
    {grammars : List Grammar} : compileTogether files sources = .ok grammars ↔
      ∃ loaded, loadAll files sources = .ok loaded ∧
        (({} : Progress).compileUnit (libraryOf files false loaded) loaded).1 = .ok grammars := by
  simp only [compileTogether, bind, Except.bind]
  cases loadAll files sources with
  | error fault => simp
  | ok loaded => simp

def compilesAtOnce (sources : List LoadedSource) : Bool :=
  sources.all (fun source => (documentOf source).toOption.isSome) &&
    ((ofDocuments (documentsOf sources) {}).compile.run {}).1.toOption.isSome

theorem isSome_toOption {ε α : Type} {result : Except ε α} :
    result.toOption.isSome = true ↔ ∃ a, result = .ok a := by
  cases result <;> simp [Except.toOption]

theorem exists_compileTogether_iff {files : Files.Tree} {sources : List Source}
    {loaded : List LoadedSource} (loads : loadAll files sources = .ok loaded)
    (alone : ∀ source ∈ sources, source.StandsAlone files)
    (distinct : (sources.map fun source => normalizeLocation source.systemId).Nodup) :
    (∃ grammars, compileTogether files sources = .ok grammars) ↔ compilesAtOnce loaded = true := by
  have noFiles : (libraryOf files false loaded).files = none := rfl
  have aloneLoaded := standsAlone_of_loadAll alone loads
  rw [← systemIds_loadAll loads] at distinct
  simp only [compilesAtOnce, Bool.and_eq_true, List.all_eq_true, isSome_toOption]
  constructor
  · rintro ⟨grammars, together⟩
    obtain ⟨_, loads', compiled⟩ := compileTogether_eq_ok.1 together
    obtain rfl := Except.ok.inj (loads.symm.trans loads')
    obtain ⟨reads, st, ran⟩ := run_of_compileUnit noFiles aloneLoaded distinct compiled
    exact ⟨reads, grammars, congrArg Prod.fst ran⟩
  · rintro ⟨reads, grammars, ran⟩
    have same := compileUnit_eq_of_documents (p := {})
      (documents_unitTexts noFiles aloneLoaded distinct reads)
    exact ⟨grammars, compileTogether_eq_ok.2 ⟨loaded, loads, same.trans ran⟩⟩

/-- Sources that include no others, that have different names and that define no component twice are
compiled one by one, if they compile at once, and to the same. If they are compiled one by one, they
compile at once, unless the name of a type with simple content is refused there. -/
theorem compile_iff_compileTogether {files : Files.Tree} {identity : String} {sources : List Source}
    (given : sources ≠ []) (alone : ∀ source ∈ sources, source.StandsAlone files)
    (distinct : (sources.map fun source => normalizeLocation source.systemId).Nodup)
    (undisputed : Undisputed (sources.filterMap (Source.document? files))) :
    (∀ grammars, compileTogether files sources = .ok grammars →
      ∃ bundle, compile files false identity sources = .ok bundle ∧
        bundle.pool.Agrees (grammars.foldl Pool.insert {})) ∧
    ∀ bundle, compile files false identity sources = .ok bundle →
      (∃ grammars, compileTogether files sources = .ok grammars) ∨
      ∃ fault, compileTogether files sources = .error fault ∧ RefusesContentOf bundle.pool fault := by
  constructor
  · intro grammars compiled
    obtain ⟨loaded, loads, compiled⟩ := compileTogether_eq_ok.1 compiled
    rw [← systemIds_loadAll loads] at distinct
    rw [← documentsOf_loadAll loads] at undisputed
    obtain ⟨p, deferred, q, passed, finishes, agrees⟩ := finishes_of_compileUnit rfl
      (standsAlone_of_loadAll alone loads) distinct undisputed compiled
    exact ⟨_, compile_eq_ok_iff.2 ⟨given, loaded, p, deferred, q, loads, passed, finishes, rfl⟩,
      agrees⟩
  · intro bundle compiled
    obtain ⟨_, loaded, p, deferred, q, loads, passed, finishes, rfl⟩ := compile_eq_ok_iff.1 compiled
    rw [← systemIds_loadAll loads] at distinct
    rw [← documentsOf_loadAll loads] at undisputed
    have together : compileTogether files sources =
        (({} : Progress).compileUnit (libraryOf files false loaded) loaded).1 := by
      rw [compileTogether, loads]
      rfl
    rw [together]
    exact compileUnit_of_finishes rfl (standsAlone_of_loadAll alone loads) distinct undisputed
      passed finishes

-- The sources are bound here so that their texts are read where they are evaluated.
set_option maxRecDepth 100000 in
theorem orders_evaluate : ∀ sources ∈ [[("order.xsd", orderText), ("common.xsd", commonText)]],
    Undisputed (documentsOf sources) ∧ compilesAtOnce sources = true := by
  delta compilesAtOnce documentsOf documentOf parse Xml.parse? String.length
  rewrite [Text.toList_eq_letters]
  decide +kernel

theorem compileTogether_orderSource_commonSource :
    ∃ grammars bundle, compileTogether {} [orderSource, commonSource] = .ok grammars ∧
      compile {} false "orders" [orderSource, commonSource] = .ok bundle ∧
        bundle.pool.Agrees (grammars.foldl Pool.insert {}) := by
  have loads : loadAll {} [orderSource, commonSource] =
      .ok [("order.xsd", orderText), ("common.xsd", commonText)] := rfl
  have alone : ∀ source ∈ [orderSource, commonSource], source.StandsAlone {} := fun source member =>
    commonSource_orderSource_standAlone source (by simpa [or_comm] using member)
  have distinct : ([orderSource, commonSource].map fun source =>
      normalizeLocation source.systemId).Nodup :=
    ((List.Perm.swap ..).map _).nodup_iff.1 commonSource_orderSource_distinct
  obtain ⟨undisputed, atOnce⟩ := orders_evaluate _ (List.mem_singleton_self _)
  rw [documentsOf_loadAll loads] at undisputed
  obtain ⟨grammars, together⟩ := (exists_compileTogether_iff loads alone distinct).2 atOnce
  obtain ⟨bundle, oneByOne, agrees⟩ :=
    (@compile_iff_compileTogether {} "orders" _ (List.cons_ne_nil _ _) alone distinct
      undisputed).1 grammars together
  exact ⟨grammars, bundle, together, oneByOne, agrees⟩

/-! ## Types with simple content -/

def sizeText : String :=
  "<s:schema xmlns:s='http://www.w3.org/2001/XMLSchema'><s:complexType name='Size'>
    <s:simpleContent><s:extension base='s:int'/></s:simpleContent></s:complexType></s:schema>"

def widthText : String :=
  "<s:schema xmlns:s='http://www.w3.org/2001/XMLSchema'>
    <s:attribute name='width' type='Size'/></s:schema>"

def sizeSource : Source := { systemId := "size.xsd", content := some sizeText }

def widthSource : Source := { systemId := "width.xsd", content := some widthText }

set_option maxRecDepth 100000 in
theorem sizes_evaluate : ∀ sources ∈ [[("size.xsd", sizeText), ("width.xsd", widthText)]],
    (∀ source ∈ sources, ∀ root ∈ (parse source.1 source.2).toOption,
        ∀ child ∈ schemaChildren root, child.name.localName ≠ "include") ∧
      (sources.map fun source => normalizeLocation source.1).Nodup ∧
      Undisputed (documentsOf sources) ∧ compilesInOrder {} sources = true ∧
        compilesAtOnce sources = false := by
  delta compilesInOrder compilesInOrder._f compilesAtOnce attempt documentsOf documentOf parse
    Xml.parse? String.length
  rewrite [Text.toList_eq_letters]
  decide +kernel

/-- Sources that compile one by one, though not at once: the name of a type with simple content is
accepted for a simple type once the type has been compiled. -/
theorem not_compile_iff_compileTogether :
    (∀ source ∈ [sizeSource, widthSource], source.StandsAlone {}) ∧
      ([sizeSource, widthSource].map fun source => normalizeLocation source.systemId).Nodup ∧
      Undisputed ([sizeSource, widthSource].filterMap (Source.document? {})) ∧
      (∃ bundle, compile {} false "sizes" [sizeSource, widthSource] = .ok bundle) ∧
      ¬∃ grammars, compileTogether {} [sizeSource, widthSource] = .ok grammars := by
  obtain ⟨noIncludes, distinctLoaded, undisputed, inOrder, atOnce⟩ :=
    sizes_evaluate _ (List.mem_singleton_self _)
  have loads : loadAll {} [sizeSource, widthSource] =
      .ok [("size.xsd", sizeText), ("width.xsd", widthText)] := rfl
  have aloneLoaded : ∀ source ∈ [("size.xsd", sizeText), ("width.xsd", widthText)],
      StandsAlone source := fun source member root read =>
    noIncludes source member root (by rw [read]; rfl)
  have alone : ∀ source ∈ [sizeSource, widthSource], source.StandsAlone {} := by
    simp only [List.forall_mem_cons] at aloneLoaded ⊢
    obtain ⟨size, width, _⟩ := aloneLoaded
    exact ⟨standsAlone_of_content rfl size, standsAlone_of_content rfl width, by simp⟩
  have distinct : ([sizeSource, widthSource].map fun source =>
      normalizeLocation source.systemId).Nodup := distinctLoaded
  rw [documentsOf_loadAll loads] at undisputed
  refine ⟨alone, distinct, undisputed, ?_, ?_⟩
  · exact exists_compile_of_inOrder {} "sizes" (List.cons_ne_nil _ _) alone loads inOrder
  · intro together
    rw [(exists_compileTogether_iff loads alone distinct).1 together] at atOnce
    cases atOnce

end XmlSchema.Schema
