import XmlSchema.Proofs.Schema.Passes

namespace XmlSchema.Schema

open Component
open Xml (Element)
open CompilationUnit (Describes)

variable {sources sources' deferred deferred' : List LoadedSource} {p p' : Progress}
  {done done' : List CompiledSource} {pool : Pool} {source : LoadedSource} {grammars : List Grammar}

theorem mem_documentsOf {d : Document} (member : source ∈ sources) (read : documentOf source = .ok d) :
    d ∈ documentsOf sources :=
  List.mem_filterMap.2 ⟨source, member, by rw [read]; rfl⟩

theorem declares_of_provides {names : Names} {docs : List Document}
    (describes : Describes names docs grammars) {kind : ComponentKind} {name : QName}
    {value : Global kind} (provided : Provides grammars kind name value) :
    ∃ d ∈ docs, d.target = name.ns ∧ ∃ e ∈ schemaChildren d.root, Declares e kind name.localName := by
  obtain ⟨d, member, target, e, among, declares, _⟩ :=
    describes.sound kind name value (describes.provides_iff.1 provided)
  exact ⟨d, member, target, e, among, declares⟩

theorem provides_grammarsOf {kind : ComponentKind} {name : QName} {value : Global kind}
    (provided : Provides (grammarsOf done) kind name value) :
    ∃ entry ∈ done, Provides entry.2 kind name value := by
  obtain ⟨g, member, target, found⟩ := provided
  obtain ⟨entry, among, member⟩ := List.mem_flatMap.1 member
  exact ⟨entry, among, g, member, target, found⟩

theorem Reached.declares (reached : Reached sources p done) {entry : CompiledSource}
    (member : entry ∈ done) {kind : ComponentKind} {name : QName} {value : Global kind}
    (provided : Provides entry.2 kind name value) :
    ∃ d, documentOf entry.1 = .ok d ∧ d.target = name.ns ∧
      ∃ e ∈ schemaChildren d.root, Declares e kind name.localName := by
  obtain ⟨_, compiled⟩ := reached.compiled entry member
  obtain ⟨d, read, describes⟩ := describes_of_attempt compiled
  obtain ⟨d', isD, target, e, among, declares⟩ := declares_of_provides describes provided
  obtain rfl := List.mem_singleton.1 isD
  exact ⟨d', read, target, e, among, declares⟩

theorem Reached.consistent (reached : Reached sources p done)
    (undisputed : Undisputed (documentsOf sources)) : Consistent (grammarsOf done) := by
  intro kind name value other provided providedOther
  obtain ⟨entry, member, inEntry⟩ := provides_grammarsOf provided
  obtain ⟨entry', member', inEntry'⟩ := provides_grammarsOf providedOther
  obtain ⟨d, read, target, e, among, declares⟩ := reached.declares member inEntry
  obtain ⟨d', read', target', e', among', declares'⟩ := reached.declares member' inEntry'
  obtain ⟨isSource, compiled⟩ := reached.compiled entry member
  obtain ⟨isSource', compiled'⟩ := reached.compiled entry' member'
  obtain ⟨rfl, rfl⟩ := undisputed.unique (mem_documentsOf isSource read)
    (mem_documentsOf isSource' read') (target.trans target'.symm) among among' declares declares'
  -- Sources with the same document are compiled to the same.
  have same : entry.2 = entry'.2 := by
    have attempts : attempt p.pool entry.1 = attempt p.pool entry'.1 := by
      unfold attempt
      rw [read, read']
    exact Except.ok.inj (compiled.symm.trans (attempts.trans compiled'))
  rw [← same] at inEntry'
  obtain ⟨_, _, describes⟩ := describes_of_attempt compiled
  exact describes.consistent kind name value other inEntry inEntry'

/-- Passes over sources have ended: those that have not been taken in miss something. -/
structure Ended (sources : List LoadedSource) (p : Progress) (done : List CompiledSource)
    (deferred : List LoadedSource) : Prop where
  reached : Reached sources p done
  perm : (done.map (·.1) ++ deferred).Perm sources
  misses : ∀ source ∈ deferred, Misses p.pool source

theorem Ended.within (ended : Ended sources p done deferred)
    (undisputed : Undisputed (documentsOf sources)) (reached : Reached sources' p' done')
    (fewer : ∀ entry ∈ done', entry ∈ done) : p'.pool.Within p.pool := by
  refine .of_gathers reached.gathers ended.reached.gathers (ended.reached.consistent undisputed) ?_
  intro g member
  obtain ⟨entry, among, member⟩ := List.mem_flatMap.1 member
  exact List.mem_flatMap.2 ⟨entry, fewer entry among, member⟩

theorem Ended.taken (ended : Ended sources p done deferred) (member : source ∈ sources)
    (compiled : attempt p.pool source = .ok grammars) : (source, grammars) ∈ done := by
  rcases List.mem_append.1 (ended.perm.mem_iff.2 member) with isTaken | left
  · obtain ⟨entry, among, rfl⟩ := List.mem_map.1 isTaken
    obtain ⟨_, compiledEntry⟩ := ended.reached.compiled entry among
    obtain rfl : entry.2 = grammars := Except.ok.inj (compiledEntry.symm.trans compiled)
    exact among
  · obtain ⟨fault, failed, _⟩ := ended.misses source left
    rw [compiled] at failed
    cases failed

theorem Ended.of_reached (ended : Ended sources p done deferred)
    (undisputed : Undisputed (documentsOf sources)) (same : ∀ source ∈ sources', source ∈ sources)
    (reached : Reached sources' p' done') : ∀ entry ∈ done', entry ∈ done := by
  induction reached with
  | start => exact fun _ member => nomatch member
  | skip _ _ _ ih => exact ih
  | take before among compiled ih =>
    intro entry member
    rcases List.mem_append.1 member with old | new
    · exact ih entry old
    · obtain rfl := List.mem_singleton.1 new
      -- All that the other way had taken in by then is in this pool, so the source compiles here too.
      exact ended.taken (same _ among)
        (attempt_eq_ok_of_within (ended.within undisputed before ih) compiled)

theorem Ended.not_final (ended : Ended sources p done deferred)
    (undisputed : Undisputed (documentsOf sources)) (same : ∀ source ∈ sources', source ∈ sources)
    (reached : Reached sources' p' done') (member : source ∈ sources') {fault : SchemaError}
    (failed : attempt p'.pool source = .error fault) : ¬Final fault := by
  intro final
  -- The failure would be there at the end too, where every source is taken in or misses something.
  have fewer := ended.of_reached undisputed same reached
  have failedLater := attempt_eq_error_of_within (ended.within undisputed reached fewer) failed final
  rcases List.mem_append.1 (ended.perm.mem_iff.2 (same source member)) with isTaken | left
  · obtain ⟨entry, among, rfl⟩ := List.mem_map.1 isTaken
    obtain ⟨_, compiled⟩ := ended.reached.compiled entry among
    rw [compiled] at failedLater
    cases failedLater
  · obtain ⟨fault', failed', notFinal⟩ := ended.misses source left
    obtain rfl : fault = fault' := Except.error.inj (failedLater.symm.trans failed')
    exact notFinal final

theorem ended_of_passes {lib : Library} (noFiles : lib.files = none)
    (alone : ∀ source ∈ sources, StandsAlone source)
    (passed : Progress.passes lib sources.length {} sources = .ok (p, deferred)) :
    ∃ done, Ended sources p done deferred := by
  obtain ⟨⟨done, reached, perm⟩, misses⟩ :=
    passes_eq_ok noFiles alone (fun _ => id) .start (Nat.le_refl _) passed
  exact ⟨done, by simpa using reached, perm, misses⟩

theorem Ended.passes {lib : Library} (ended : Ended sources p done deferred)
    (undisputed : Undisputed (documentsOf sources)) (perm : sources.Perm sources')
    (noFiles : lib.files = none) (alone : ∀ source ∈ sources, StandsAlone source) :
    ∃ p' deferred', Progress.passes lib sources'.length {} sources' = .ok (p', deferred') ∧
      ∃ done', Ended sources' p' done' deferred' := by
  have alone' : ∀ source ∈ sources', StandsAlone source := fun source member =>
    alone source (perm.mem_iff.2 member)
  rcases passed : Progress.passes lib sources'.length {} sources' with fault | ⟨p', deferred'⟩
  · obtain ⟨q, done', reached, source, member, failed, final⟩ :=
      passes_eq_error noFiles alone' (fun _ => id) .start passed
    exact absurd final (ended.not_final undisputed (fun _ => perm.mem_iff.2) reached member failed)
  · exact ⟨p', deferred', rfl, ended_of_passes noFiles alone' passed⟩

section

variable (ended : Ended sources p done deferred) (ended' : Ended sources' p' done' deferred')
  (undisputed : Undisputed (documentsOf sources)) (perm : sources.Perm sources')
include ended ended' undisputed perm

theorem Ended.mem_done_iff (entry : CompiledSource) : entry ∈ done ↔ entry ∈ done' := by
  have undisputed' : Undisputed (documentsOf sources') := undisputed.perm (perm.filterMap _)
  exact ⟨ended'.of_reached undisputed' (fun _ => perm.mem_iff.1) ended.reached entry,
    ended.of_reached undisputed (fun _ => perm.mem_iff.2) ended'.reached entry⟩

theorem Ended.mem_grammarsOf_iff (g : Grammar) : g ∈ grammarsOf done ↔ g ∈ grammarsOf done' := by
  simp only [grammarsOf, List.mem_flatMap, ended.mem_done_iff ended' undisputed perm]

theorem Ended.find?_eq (kind : ComponentKind) (name : QName) :
    p.pool.find? kind name = p'.pool.find? kind name := by
  have consistent := ended.reached.consistent undisputed
  have consistent' := ended'.reached.consistent (undisputed.perm (perm.filterMap _))
  have same := SameContent.of_mem_iff (ended.mem_grammarsOf_iff ended' undisputed perm)
  refine Option.ext fun value => ?_
  rw [ended.reached.gathers.find?_eq_some_iff consistent,
    ended'.reached.gathers.find?_eq_some_iff consistent', same.provides]

theorem Ended.deferred_perm (distinct : sources.Nodup) : deferred.Perm deferred' := by
  have distinctDone : (done.map (·.1)).Nodup :=
    (List.nodup_append.1 (ended.perm.nodup_iff.2 distinct)).1
  have distinctDone' : (done'.map (·.1)).Nodup :=
    (List.nodup_append.1 (ended'.perm.nodup_iff.2 (perm.nodup_iff.1 distinct))).1
  have samePerm : (done.map (·.1)).Perm (done'.map (·.1)) := by
    refine (List.perm_ext_iff_of_nodup distinctDone distinctDone').2 fun source => ?_
    simp only [List.mem_map, ended.mem_done_iff ended' undisputed perm]
  have all : (done.map (·.1) ++ deferred).Perm (done.map (·.1) ++ deferred') :=
    (ended.perm.trans perm).trans (ended'.perm.symm.trans (samePerm.symm.append_right _))
  exact (List.perm_append_left_iff _).1 all

end

theorem final_of_documentOf {fault : SchemaError} (unread : documentOf source = .error fault) :
    Final fault := by
  unfold documentOf parse at unread
  split at unread
  · cases unread
    rfl
  · split at unread
    · simp only [bind, Except.bind, Document.ofRoot] at unread
      split at unread <;> cases unread
      rfl
    · cases unread
      rfl

theorem Misses.documentOf (misses : Misses pool source) : ∃ d, documentOf source = .ok d := by
  obtain ⟨fault, failed, notFinal⟩ := misses
  unfold attempt at failed
  cases read : Schema.documentOf source with
  | error fault' =>
    rw [read] at failed
    cases failed
    exact absurd (final_of_documentOf read) notFinal
  | ok d => exact ⟨d, rfl⟩

theorem Undisputed.disjoint {docs docs' : List Document} (undisputed : Undisputed (docs ++ docs'))
    {d d' : Document} {e e' : Element} {kind : ComponentKind} {name : QName} (member : d ∈ docs)
    (member' : d' ∈ docs') (target : d.target = name.ns) (target' : d'.target = name.ns)
    (among : e ∈ schemaChildren d.root) (among' : e' ∈ schemaChildren d'.root)
    (declares : Declares e kind name.localName) (declares' : Declares e' kind name.localName) :
    False := by
  have key {docs : List Document} {d : Document} {e : Element} (member : d ∈ docs)
      (target : d.target = name.ns) (among : e ∈ schemaChildren d.root)
      (declares : Declares e kind name.localName) :
      (⟨kind, name⟩ : ComponentKey) ∈ (docs.flatMap CompilationUnit.definitionsOf).map (·.1) :=
    List.mem_map.2 ⟨(⟨kind, name⟩, ⟨d, e⟩), List.mem_flatMap.2
      ⟨d, member, mem_definitionsOf.2 ⟨rfl, among, target.symm, declares⟩⟩, rfl⟩
  unfold Undisputed at undisputed
  rw [List.flatMap_append, List.map_append, List.nodup_append] at undisputed
  exact undisputed.2.2 _ (key member target among declares) _ (key member' target' among' declares')
    rfl

theorem Ended.documentsOf_perm (ended : Ended sources p done deferred) :
    (documentsOf (done.map (·.1)) ++ documentsOf deferred).Perm (documentsOf sources) := by
  rw [documentsOf, documentsOf, ← List.filterMap_append]
  exact ended.perm.filterMap _

theorem Ended.consistent_append (ended : Ended sources p done deferred)
    (undisputed : Undisputed (documentsOf sources)) {names : Names}
    (describes : Describes names (documentsOf deferred) grammars) :
    Consistent (grammarsOf done ++ grammars) := by
  have apart := undisputed.perm ended.documentsOf_perm.symm
  have disjoint {kind : ComponentKind} {name : QName} {value other : Global kind}
      (provided : Provides (grammarsOf done) kind name value)
      (providedOther : Provides grammars kind name other) : False := by
    obtain ⟨entry, member, inEntry⟩ := provides_grammarsOf provided
    obtain ⟨d, read, target, e, among, declares⟩ := ended.reached.declares member inEntry
    obtain ⟨d', member', target', e', among', declares'⟩ := declares_of_provides describes providedOther
    exact apart.disjoint (mem_documentsOf (List.mem_map_of_mem member) read) member' target target'
      among among' declares declares'
  intro kind name value other provided providedOther
  rcases provides_append.1 provided with taken | left <;>
    rcases provides_append.1 providedOther with takenOther | leftOther
  · exact ended.reached.consistent undisputed kind name value other taken takenOther
  · exact (disjoint taken leftOther).elim
  · exact (disjoint takenOther left).elim
  · exact describes.consistent kind name value other left leftOther

/-- Some grammars, which do not contradict each other, have been taken in. -/
structure Accounts (p : Progress) (grammars : List Grammar) : Prop where
  gathers : p.pool.Gathers grammars
  consistent : Consistent grammars
  valid : ValidatesAll p.validNamespaces grammars

def Progress.Agrees (p q : Progress) : Prop :=
  p.pool.Agrees q.pool ∧ ∀ ns, ns ∈ p.validNamespaces ↔ ns ∈ q.validNamespaces

theorem Accounts.agrees {grammars' : List Grammar} (accounts : Accounts p grammars)
    (accounts' : Accounts p' grammars') (same : SameContent grammars grammars') : p.Agrees p' := by
  refine ⟨accounts.gathers.agrees accounts'.gathers accounts.consistent same, fun ns => ?_⟩
  have split (grammars : List Grammar) : (∃ g ∈ grammars, ns = g.target ∨ ns ∈ g.imports) ↔
      (∃ g ∈ grammars, g.target = ns) ∨ ∃ target, ∃ g ∈ grammars, g.target = target ∧ ns ∈ g.imports := by
    constructor
    · rintro ⟨g, member, rfl | imported⟩
      · exact .inl ⟨g, member, rfl⟩
      · exact .inr ⟨g.target, g, member, rfl, imported⟩
    · rintro (⟨g, member, rfl⟩ | ⟨_, g, member, _, imported⟩)
      · exact ⟨g, member, .inl rfl⟩
      · exact ⟨g, member, .inr imported⟩
  rw [accounts.valid, accounts'.valid, split, split]
  simp only [same.target, same.imports]

theorem Ended.accounts (ended : Ended sources p done deferred)
    (undisputed : Undisputed (documentsOf sources)) : Accounts p (grammarsOf done) :=
  ⟨ended.reached.gathers, ended.reached.consistent undisputed, ended.reached.validatesAll⟩

theorem Ended.accounts_register (ended : Ended sources p done deferred)
    (undisputed : Undisputed (documentsOf sources)) {q : Progress} (samePool : q.pool = p.pool)
    (sameValid : q.validNamespaces = p.validNamespaces) {names : Names}
    (describes : Describes names (documentsOf deferred) grammars) :
    Accounts (q.register grammars) (grammarsOf done ++ grammars) := by
  have reached : Reached sources q done := ended.reached.skip samePool sameValid
  exact ⟨reached.gathers.foldl_insert grammars, ended.consistent_append undisputed describes,
    reached.validatesAll.register reached.gathers grammars⟩

theorem Ended.compileUnit_eq {lib : Library} (ended : Ended sources p done deferred)
    (noFiles : lib.files = none) (alone : ∀ source ∈ sources, StandsAlone source)
    (distinct : (sources.map fun source => normalizeLocation source.1).Nodup) :
    (p.compileUnit lib deferred).1 = ((CompilationUnit.ofDocuments (documentsOf deferred)
      p.pool).compile.run { symbols := p.symbols }).1 := by
  have ofSources : ∀ source ∈ deferred, source ∈ sources := fun source member =>
    ended.perm.mem_iff.1 (List.mem_append_right _ member)
  have distinctAll := (ended.perm.map fun source => normalizeLocation source.1).nodup_iff.2 distinct
  rw [List.map_append, List.nodup_append] at distinctAll
  exact compileUnit_eq_of_documents (documents_unitTexts noFiles
    (fun source member => alone source (ofSources source member)) distinctAll.2.1
    fun source member => (ended.misses source member).documentOf)

theorem Ended.finishes {lib lib' : Library} {q : Progress} (ended : Ended sources p done deferred)
    (ended' : Ended sources' p' done' deferred') (undisputed : Undisputed (documentsOf sources))
    (perm : sources.Perm sources') (noFiles : lib.files = none) (noFiles' : lib'.files = none)
    (alone : ∀ source ∈ sources, StandsAlone source)
    (distinct : (sources.map fun source => normalizeLocation source.1).Nodup)
    (finishes : Finishes lib p deferred q) :
    ∃ q', Finishes lib' p' deferred' q' ∧ q.Agrees q' := by
  have distinctSources : sources.Nodup :=
    List.Pairwise.of_map _ (fun _ _ different same => different (by rw [same])) distinct
  have permDeferred := ended.deferred_perm ended' undisputed perm distinctSources
  have undisputed' : Undisputed (documentsOf sources') := undisputed.perm (perm.filterMap _)
  have sameDone := SameContent.of_mem_iff (ended.mem_grammarsOf_iff ended' undisputed perm)
  cases finishes with
  | done =>
    obtain rfl := permDeferred.symm.eq_nil
    exact ⟨p', .done, (ended.accounts undisputed).agrees (ended'.accounts undisputed') sameDone⟩
  | together rest compiled =>
    next grammars q =>
    have ran := ended.compileUnit_eq noFiles alone distinct
    rw [compiled] at ran
    -- What is left is a part of the sources, so it defines nothing twice either.
    have left : Undisputed (documentsOf deferred) := by
      have apart := undisputed.perm ended.documentsOf_perm.symm
      unfold Undisputed at apart ⊢
      rw [List.flatMap_append, List.map_append, List.nodup_append] at apart
      exact apart.2.1
    obtain ⟨grammars', st', ran', sameLeft⟩ := CompilationUnit.run_compile_perm
      (permDeferred.filterMap _) left (ended.find?_eq ended' undisputed perm)
      (Prod.ext ran.symm rfl) p'.symbols
    have alone' : ∀ source ∈ sources', StandsAlone source := fun source member =>
      alone source (perm.mem_iff.2 member)
    have compiled' := ended'.compileUnit_eq noFiles' alone' ((perm.map _).nodup_iff.1 distinct)
    rw [documentsOf, ran'] at compiled'
    refine ⟨_, .together (fun none => rest (permDeferred.trans (by rw [none])).eq_nil)
      (Prod.ext compiled' rfl), ?_⟩
    have describes := (CompilationUnit.yields_compile_describes _ _ _ _ trivial
      (Prod.ext ran.symm rfl)).2
    have describes' := (CompilationUnit.yields_compile_describes _ _ _ _ trivial ran').2
    have samePool : q.pool = p.pool := by rw [← Progress.pool_compileUnit lib p deferred, compiled]
    have sameValid : q.validNamespaces = p.validNamespaces := by
      rw [← validNamespaces_compileUnit lib p deferred, compiled]
    exact (ended.accounts_register undisputed samePool sameValid describes).agrees
      (ended'.accounts_register undisputed' (Progress.pool_compileUnit _ _ _)
        (validNamespaces_compileUnit _ _ _) describes') (sameDone.append sameLeft)

end XmlSchema.Schema
