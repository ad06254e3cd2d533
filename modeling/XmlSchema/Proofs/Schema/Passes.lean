import XmlSchema.Proofs.Component.Imports
import XmlSchema.Proofs.Schema.Attempt
import XmlSchema.Proofs.Schema.Sealed
import XmlSchema.Proofs.Schema.UnitOrder

namespace XmlSchema.Schema

open Component
open Xml (Element)

abbrev CompiledSource := LoadedSource × List Grammar

def grammarsOf (done : List CompiledSource) : List Grammar := done.flatMap (·.2)

theorem grammarsOf_snoc (done : List CompiledSource) (source : LoadedSource)
    (grammars : List Grammar) :
    grammarsOf (done ++ [(source, grammars)]) = grammarsOf done ++ grammars := by
  simp [grammarsOf]

/-- Sources have been taken in, each compiled with the grammars before. -/
inductive Reached (sources : List LoadedSource) : Progress → List CompiledSource → Prop
  | start : Reached sources {} []
  | skip {p p' : Progress} {done : List CompiledSource} (reached : Reached sources p done)
      (pool : p'.pool = p.pool) (valid : p'.validNamespaces = p.validNamespaces) :
      Reached sources p' done
  | take {p : Progress} {done : List CompiledSource} {source : LoadedSource}
      {grammars : List Grammar} (reached : Reached sources p done) (among : source ∈ sources)
      (compiled : attempt p.pool source = .ok grammars) :
      Reached sources (p.register grammars) (done ++ [(source, grammars)])

def Misses (pool : Pool) (source : LoadedSource) : Prop :=
  ∃ fault, attempt pool source = .error fault ∧ ¬Final fault

theorem mem_foldl_addMissing {α : Type} {items : α → List String} {as : List α}
    {start : List String} {item : String} :
    item ∈ as.foldl (fun found a => addMissing found (items a)) start ↔
      item ∈ start ∨ ∃ a ∈ as, item ∈ items a := by
  induction as generalizing start with
  | nil => simp
  | cons a as ih =>
    rw [List.foldl_cons, ih, mem_addMissing, or_assoc]
    simp

def ValidatesAll (valid : List String) (grammars : List Grammar) : Prop :=
  ∀ ns, ns ∈ valid ↔ ∃ g ∈ grammars, ns = g.target ∨ ns ∈ g.imports

theorem ValidatesAll.register {p : Progress} {grammars : List Grammar}
    (valid : ValidatesAll p.validNamespaces grammars) (gathers : p.pool.Gathers grammars)
    (new : List Grammar) :
    ValidatesAll (p.register new).validNamespaces (grammars ++ new) := by
  have gathersAll : (new.foldl Pool.insert p.pool).Gathers (grammars ++ new) :=
    gathers.foldl_insert new
  intro ns
  simp only [Progress.register, mem_foldl_addMissing, valid ns]
  constructor
  · rintro (⟨g, member, holds⟩ | ⟨g, member, reached⟩)
    · exact ⟨g, List.mem_append_left _ member, holds⟩
    · rcases (Pool.mem_transitiveNamespaces_iff.1 reached).cases_tail with rfl | ⟨importer, _, imported⟩
      · exact ⟨g, List.mem_append_right _ member, .inl rfl⟩
      · unfold Pool.Follows Pool.importsOf at imported
        cases found : (new.foldl Pool.insert p.pool).grammar? importer with
        | none => simp [found] at imported
        | some h =>
          rw [found] at imported
          obtain ⟨k, among, _, importsIt⟩ := (gathersAll.imports importer h found ns).1 imported
          exact ⟨k, among, .inr importsIt⟩
  · rintro ⟨g, member, holds⟩
    rcases List.mem_append.1 member with old | isNew
    · exact .inl ⟨g, old, holds⟩
    · refine .inr ⟨g, isNew, ?_⟩
      rcases holds with rfl | imported
      · exact Pool.mem_transitiveNamespaces_iff.2 .refl
      · refine Pool.mem_transitiveNamespaces_iff.2 (.single ?_)
        obtain ⟨h, found⟩ := Option.isSome_iff_exists.1
          ((gathersAll.target g.target).2 ⟨g, member, rfl⟩)
        rw [Pool.Follows, Pool.importsOf, found]
        exact (gathersAll.imports g.target h found ns).2 ⟨g, member, rfl, imported⟩

namespace Reached

variable {sources : List LoadedSource} {p : Progress} {done : List CompiledSource}

theorem gathers (reached : Reached sources p done) : p.pool.Gathers (grammarsOf done) := by
  induction reached with
  | start => exact Pool.gathers_nil
  | skip _ pool _ ih => rwa [pool]
  | take _ _ _ ih =>
    rw [grammarsOf_snoc]
    exact ih.foldl_insert _

theorem validatesAll (reached : Reached sources p done) :
    ValidatesAll p.validNamespaces (grammarsOf done) := by
  induction reached with
  | start =>
    intro ns
    simp [grammarsOf]
  | skip _ _ valid ih => rwa [valid]
  | take reached _ _ ih =>
    rw [grammarsOf_snoc]
    exact ih.register reached.gathers _

theorem within_register (p : Progress) (grammars : List Grammar) :
    p.pool.Within (p.register grammars).pool := .foldl_insert p.pool grammars

theorem compiled (reached : Reached sources p done) :
    ∀ entry ∈ done, entry.1 ∈ sources ∧ attempt p.pool entry.1 = .ok entry.2 := by
  induction reached with
  | start => exact fun _ member => nomatch member
  | skip _ pool _ ih => rwa [pool]
  | @take p done source grammars reached among compiled ih =>
    have within := within_register p grammars
    intro entry member
    rcases List.mem_append.1 member with old | new
    · obtain ⟨amongOld, compiledOld⟩ := ih entry old
      exact ⟨amongOld, attempt_eq_ok_of_within within compiledOld⟩
    · obtain rfl := List.mem_singleton.1 new
      exact ⟨among, attempt_eq_ok_of_within within compiled⟩

end Reached

section

variable {lib : Library} {sources todo deferred : List LoadedSource} {p p' : Progress}
  {done : List CompiledSource} {changed : Bool}

/-- What a pass comes to: some of its sources are taken in, and the others are put off. If none is
taken in, all of them miss something. -/
structure Passed (sources todo : List LoadedSource) (p : Progress) (done : List CompiledSource)
    (p' : Progress) (deferred : List LoadedSource) (changed : Bool) : Prop where
  reached : ∃ new, Reached sources p' (done ++ new) ∧ (new.map (·.1) ++ deferred).Perm todo
  fewer : changed = true → deferred.length < todo.length
  misses : changed = false → p'.pool = p.pool ∧ ∀ source ∈ todo, Misses p.pool source

variable {source : LoadedSource} {rest : List LoadedSource} {q : Progress}

theorem Passed.putOff (passed : Passed sources rest q done p' deferred changed)
    (same : q.pool = p.pool) (misses : Misses p.pool source) :
    Passed sources (source :: rest) p done p' (source :: deferred) changed := by
  obtain ⟨⟨new, reached, perm⟩, fewer, missesRest⟩ := passed
  refine ⟨⟨new, reached, List.perm_middle.trans (perm.cons source)⟩, fun isChanged => ?_,
    fun unchanged => ?_⟩
  · have less := fewer isChanged
    simp only [List.length_cons]
    omega
  · rw [same] at missesRest
    obtain ⟨unmoved, missing⟩ := missesRest unchanged
    exact ⟨unmoved, List.forall_mem_cons.2 ⟨misses, missing⟩⟩

theorem Passed.takenIn {grammars : List Grammar}
    (passed : Passed sources rest q (done ++ [(source, grammars)]) p' deferred changed) :
    Passed sources (source :: rest) p done p' deferred true := by
  obtain ⟨⟨new, reached, perm⟩, _, _⟩ := passed
  refine ⟨⟨(source, grammars) :: new, by simpa using reached, perm.cons source⟩, fun _ => ?_,
    by simp⟩
  have lengths := perm.length_eq
  simp only [List.length_append, List.length_map, List.length_cons] at lengths ⊢
  omega

theorem Reached.attempted (reached : Reached sources p done) (noFiles : lib.files = none)
    (alone : StandsAlone source) {result : Except SchemaError (List Grammar)}
    (compiled : p.compileUnit lib [source] = (result, q)) :
    Reached sources q done ∧ q.pool = p.pool ∧ attempt p.pool source = result := by
  have samePool : q.pool = p.pool := by rw [← Progress.pool_compileUnit lib p [source], compiled]
  have sameValid : q.validNamespaces = p.validNamespaces := by
    rw [← validNamespaces_compileUnit lib p [source], compiled]
  have tried := compileUnit_eq_attempt noFiles alone p
  rw [compiled] at tried
  exact ⟨reached.skip samePool sameValid, samePool, tried.symm⟩

theorem passed_of_passing (noFiles : lib.files = none)
    (passing : Progress.Passing lib p todo p' deferred changed)
    (alone : ∀ source ∈ todo, StandsAlone source) (among : ∀ source ∈ todo, source ∈ sources)
    (reached : Reached sources p done) : Passed sources todo p done p' deferred changed := by
  induction passing generalizing done with
  | done p => exact ⟨⟨[], by simpa using reached, .refl _⟩, by simp, by simp⟩
  | putOff failed deferrable _ ih =>
    obtain ⟨aloneFirst, aloneRest⟩ := List.forall_mem_cons.1 alone
    obtain ⟨_, amongRest⟩ := List.forall_mem_cons.1 among
    obtain ⟨skipped, samePool, tried⟩ := reached.attempted noFiles aloneFirst failed
    exact (ih aloneRest amongRest skipped).putOff samePool ⟨_, tried, by simp [Final, deferrable]⟩
  | takeIn compiled _ ih =>
    obtain ⟨aloneFirst, aloneRest⟩ := List.forall_mem_cons.1 alone
    obtain ⟨amongFirst, amongRest⟩ := List.forall_mem_cons.1 among
    obtain ⟨skipped, samePool, tried⟩ := reached.attempted noFiles aloneFirst compiled
    exact (ih aloneRest amongRest (skipped.take amongFirst (by rw [samePool, tried]))).takenIn

theorem pass_eq_error (noFiles : lib.files = none) (alone : ∀ source ∈ todo, StandsAlone source)
    (among : ∀ source ∈ todo, source ∈ sources) (reached : Reached sources p done)
    {fault : SchemaError} (failed : p.pass lib todo = .error fault) :
    ∃ q done', Reached sources q done' ∧ ∃ source ∈ sources,
      attempt q.pool source = .error fault ∧ Final fault := by
  obtain ⟨before, source, after, q, _, _, _, rfl, passing, fails, final⟩ :=
    Progress.exists_of_pass_eq_error failed
  obtain ⟨aloneBefore, aloneAfter⟩ := List.forall_mem_append.1 alone
  obtain ⟨amongBefore, amongAfter⟩ := List.forall_mem_append.1 among
  obtain ⟨new, reachedBefore, _⟩ :=
    (passed_of_passing noFiles passing aloneBefore amongBefore reached).reached
  have tried := (reachedBefore.attempted noFiles (aloneAfter source List.mem_cons_self) fails).2.2
  exact ⟨q, _, reachedBefore, source, amongAfter source List.mem_cons_self, tried, final⟩

theorem passes_eq_ok (noFiles : lib.files = none) {n : Nat}
    (alone : ∀ source ∈ todo, StandsAlone source) (among : ∀ source ∈ todo, source ∈ sources)
    (reached : Reached sources p done) (enough : todo.length ≤ n)
    (passed : Progress.passes lib n p todo = .ok (p', deferred)) :
    (∃ new, Reached sources p' (done ++ new) ∧ (new.map (·.1) ++ deferred).Perm todo) ∧
      ∀ source ∈ deferred, Misses p'.pool source := by
  replace passed := Progress.rounds_of_passes passed
  induction passed generalizing done with
  | spent p todo =>
    obtain rfl := List.eq_nil_of_length_eq_zero (Nat.le_zero.1 enough)
    exact ⟨⟨[], by simpa using reached, .refl _⟩, fun _ member => nomatch member⟩
  | last passing stops =>
    obtain ⟨⟨new, reachedLast, perm⟩, _, misses⟩ :=
      passed_of_passing noFiles passing alone among reached
    refine ⟨⟨new, reachedLast, perm⟩, fun source member => ?_⟩
    rcases stops with rfl | rfl
    · cases member
    · obtain ⟨same, missesAll⟩ := misses rfl
      rw [same]
      exact missesAll source (perm.mem_iff.1 (List.mem_append_right _ member))
  | more passing _ ih =>
    obtain ⟨⟨new, reachedFirst, perm⟩, fewer, _⟩ :=
      passed_of_passing noFiles passing alone among reached
    have less := fewer rfl
    have within := (passing.advances (List.Subset.refl _)).1
    obtain ⟨⟨more, reachedRest, permRest⟩, missesRest⟩ := ih
      (fun source member => alone source (within member))
      (fun source member => among source (within member)) reachedFirst (by omega)
    refine ⟨⟨new ++ more, by rwa [← List.append_assoc], ?_⟩, missesRest⟩
    rw [List.map_append, List.append_assoc]
    exact (permRest.append_left _).trans perm

theorem passes_eq_error (noFiles : lib.files = none) {n : Nat}
    (alone : ∀ source ∈ todo, StandsAlone source) (among : ∀ source ∈ todo, source ∈ sources)
    (reached : Reached sources p done) {fault : SchemaError}
    (failed : Progress.passes lib n p todo = .error fault) :
    ∃ q done', Reached sources q done' ∧ ∃ source ∈ sources,
      attempt q.pool source = .error fault ∧ Final fault := by
  induction n generalizing p todo done with
  | zero => cases failed
  | succ n ih =>
    unfold Progress.passes at failed
    rcases first : p.pass lib todo with fault' | ⟨q, put, changed⟩
    · simp only [first, bind, Except.bind, Except.error.injEq] at failed
      subst failed
      exact pass_eq_error noFiles alone among reached first
    · simp only [first, bind, Except.bind] at failed
      have passing := Progress.pass_eq_ok_iff.1 first
      have within := (passing.advances (List.Subset.refl _)).1
      obtain ⟨new, reachedFirst, _⟩ :=
        (passed_of_passing noFiles passing alone among reached).reached
      split at failed
      · cases failed
      · exact ih (fun source member => alone source (within member))
          (fun source member => among source (within member)) reachedFirst failed

end

theorem compile_of_attempt {source : Source} {text : String} {grammars : List Grammar}
    (identity : String) (content : source.content = some text)
    (alone : StandsAlone (source.systemId, text))
    (attempted : attempt {} (source.systemId, text) = .ok grammars) :
    ∃ bundle, compile {} false identity [source] = .ok bundle ∧
      bundle.pool = grammars.foldl Pool.insert {} := by
  let loaded := [(source.systemId, text)]
  have loads : loadAll {} [source] = .ok loaded := by
    simp only [loadAll, Source.load, content]
    rfl
  have noFiles : (libraryOf {} false loaded).files = none := rfl
  have tried := compileUnit_eq_attempt noFiles alone {}
  have samePool := Progress.pool_compileUnit (libraryOf {} false loaded) {} loaded
  rcases compiled : Progress.compileUnit (libraryOf {} false loaded) {} loaded with ⟨result, q⟩
  rw [compiled] at tried samePool
  subst tried
  have passed : Progress.passes (libraryOf {} false loaded) loaded.length {} loaded =
      .ok (q.register grammars, []) := by
    simp only [loaded] at compiled ⊢
    simp only [List.length_singleton, Progress.passes, Progress.pass, compiled, attempted]
    rfl
  refine ⟨_, compile_eq_ok_iff.2 ⟨List.cons_ne_nil _ _, loaded, _, [], _, loads, passed, .done, rfl⟩,
    ?_⟩
  have none : q.pool = {} := samePool
  simp only [Progress.register, none]

end XmlSchema.Schema
