import XmlSchema.Proofs.Schema.ClosedUnit
import XmlSchema.Proofs.Schema.Coverage
import XmlSchema.Schema.Compilation

/-!
# Compiled schema sets are closed

When a unit has been compiled, all that its components could refer to is in the pool, together with
what was there before. A property of pools that is kept when a unit is compiled is kept while the
sources of a schema set are compiled, put off and tried again (`compile_of_kept`); so the pool stays
closed (`closed_of_compile`).
-/

namespace XmlSchema.Schema

open Component
open Compile

theorem CompilationUnit.known_of_compile {docs : List Document} {pool : Pool} {symbols : SymbolTable}
    {grammars : List Grammar} {st : CompilerState}
    (compiled : (ofDocuments docs pool).compile.run { symbols } = (.ok grammars, st)) :
    (∀ name, (ofDocuments docs pool).known.type name →
        (grammars.foldl Pool.insert pool).known.type name) ∧
      ∀ name, (ofDocuments docs pool).known.element name →
        (grammars.foldl Pool.insert pool).known.element name := by
  have describes := (yields_compile_describes _ _ _ _ trivial compiled).2
  have defines {kind : ComponentKind} {name : QName}
      (isSome : ((ofDocuments docs pool).definition? kind name).isSome) :
      ((grammars.foldl Pool.insert pool).find? kind name).isSome := by
    obtain ⟨definition, found⟩ := Option.isSome_iff_exists.1 isSome
    obtain ⟨d, member, same, e, among, declares⟩ := declares_of_definition? found
    have known := describes.complete d member e among kind name.localName declares
    rw [same] at known
    obtain ⟨value, provided⟩ := Option.isSome_iff_exists.1 known
    exact Pool.isSome_find?_of_provides (Pool.provides_of_find? provided)
  constructor
  · intro name isKnown
    by_cases builtIn : name.ns = schemaNamespace
    · simpa [known, Pool.known, Pool.type?, builtIn] using isKnown
    · simp only [known, builtIn, if_false, isType, Bool.or_eq_true] at isKnown
      simp only [Pool.known, Pool.type?_eq_find? _ _ builtIn]
      rcases isKnown with inUnit | inPool
      · exact defines inUnit
      · rw [Pool.type?_eq_find? _ _ builtIn] at inPool
        exact Pool.isSome_find?_foldl_insert inPool grammars
  · intro name isKnown
    simp only [known, isElement, Bool.or_eq_true] at isKnown
    rcases isKnown with inUnit | inPool
    · exact defines inUnit
    · rw [Pool.element?_eq_find?] at inPool
      exact Pool.isSome_find?_foldl_insert inPool grammars

/-! ## What units keep -/

def UnitOf (lib : Library) (loaded : List LoadedSource) (docs : List Document) : Prop :=
  ∃ known part, part ⊆ loaded ∧ (do documents (← unitTexts lib known part)) = .ok docs

def KeptByUnits (P : Pool → Prop) : Prop :=
  ∀ {docs : List Document} {pool : Pool} {symbols : SymbolTable} {grammars : List Grammar}
    {st : CompilerState}, P pool →
    (CompilationUnit.ofDocuments docs pool).compile.run { symbols } = (.ok grammars, st) →
    P (grammars.foldl Pool.insert pool)

def KeptBySources (lib : Library) (loaded : List LoadedSource) (P : Pool → Prop) : Prop :=
  ∀ {docs : List Document} {pool : Pool} {symbols : SymbolTable} {grammars : List Grammar}
    {st : CompilerState}, UnitOf lib loaded docs → P pool →
    (CompilationUnit.ofDocuments docs pool).compile.run { symbols } = (.ok grammars, st) →
    P (grammars.foldl Pool.insert pool)

theorem KeptByUnits.bySources {P : Pool → Prop} (kept : KeptByUnits P) (lib : Library)
    (loaded : List LoadedSource) : KeptBySources lib loaded P :=
  fun _ holds ran => kept holds ran

namespace Progress

theorem pool_compileUnit (lib : Library) (p : Progress) (sources : List LoadedSource) :
    (p.compileUnit lib sources).2.pool = p.pool := by
  unfold compileUnit
  split <;> rfl

variable {P : Pool → Prop} {lib : Library} {loaded : List LoadedSource}

theorem register_of_kept (kept : KeptBySources lib loaded P) {p p' : Progress}
    {sources : List LoadedSource} {grammars : List Grammar} (given : sources ⊆ loaded)
    (holds : P p.pool) (compiled : p.compileUnit lib sources = (.ok grammars, p')) :
    P (p'.register grammars).pool := by
  have same : p'.pool = p.pool := by
    rw [← pool_compileUnit lib p sources, compiled]
  unfold compileUnit at compiled
  split at compiled
  · cases compiled
  · next docs read =>
    rcases ran : (CompilationUnit.ofDocuments docs p.pool).compile.run { symbols := p.symbols } with
      ⟨result, st⟩
    rw [ran] at compiled
    obtain ⟨rfl, _⟩ := Prod.mk.inj compiled
    simp only [Progress.register, same]
    exact kept ⟨_, sources, given, read⟩ holds ran

inductive Advances (lib : Library) (loaded : List LoadedSource) : Progress → Progress → Prop
  | refl (p : Progress) : Advances lib loaded p p
  | skip {p q r : Progress} {sources : List LoadedSource} {fault : SchemaError}
      (failed : p.compileUnit lib sources = (.error fault, q)) (rest : Advances lib loaded q r) :
      Advances lib loaded p r
  | take {p q r : Progress} {sources : List LoadedSource} {grammars : List Grammar}
      (given : sources ⊆ loaded) (compiled : p.compileUnit lib sources = (.ok grammars, q))
      (rest : Advances lib loaded (q.register grammars) r) : Advances lib loaded p r

theorem Advances.trans {p q r : Progress} (first : Advances lib loaded p q)
    (rest : Advances lib loaded q r) : Advances lib loaded p r := by
  induction first with
  | refl p => exact rest
  | skip failed _ ih => exact .skip failed (ih rest)
  | take given compiled _ ih => exact .take given compiled (ih rest)

theorem Advances.kept (kept : KeptBySources lib loaded P) {p p' : Progress}
    (advances : Advances lib loaded p p') (holds : P p.pool) : P p'.pool := by
  induction advances with
  | refl p => exact holds
  | @skip p q _ sources _ failed _ ih =>
    have same : q.pool = p.pool := by rw [← pool_compileUnit lib p sources, failed]
    exact ih (same ▸ holds)
  | take given compiled _ ih => exact ih (register_of_kept kept given holds compiled)

inductive Passing (lib : Library) :
    Progress → List LoadedSource → Progress → List LoadedSource → Bool → Prop
  | done (p : Progress) : Passing lib p [] p [] false
  | putOff {p q p' : Progress} {source : LoadedSource} {rest deferred : List LoadedSource}
      {changed : Bool} {fault : SchemaError}
      (failed : p.compileUnit lib [source] = (.error fault, q))
      (deferrable : fault.isDeferrable = true) (later : Passing lib q rest p' deferred changed) :
      Passing lib p (source :: rest) p' (source :: deferred) changed
  | takeIn {p q p' : Progress} {source : LoadedSource} {rest deferred : List LoadedSource}
      {changed : Bool} {grammars : List Grammar}
      (compiled : p.compileUnit lib [source] = (.ok grammars, q))
      (later : Passing lib (q.register grammars) rest p' deferred changed) :
      Passing lib p (source :: rest) p' deferred true

theorem pass_eq_ok_iff {sources deferred : List LoadedSource} {p p' : Progress} {changed : Bool} :
    p.pass lib sources = .ok (p', deferred, changed) ↔
      Passing lib p sources p' deferred changed := by
  constructor
  · intro passed
    induction sources generalizing p p' deferred changed with
    | nil =>
      cases passed
      exact .done p
    | cons source rest ih =>
      unfold Progress.pass at passed
      rcases compiled : p.compileUnit lib [source] with ⟨fault | grammars, q⟩
      · simp only [compiled] at passed
        split at passed
        · next deferrable =>
          rcases later : q.pass lib rest with fault' | ⟨q', deferred', changed'⟩
          · simp [later, bind, Except.bind] at passed
          · simp only [later, bind, Except.bind, pure, Except.pure, Except.ok.injEq,
              Prod.mk.injEq] at passed
            obtain ⟨rfl, rfl, rfl⟩ := passed
            exact .putOff compiled deferrable (ih later)
        · cases passed
      · simp only [compiled] at passed
        rcases later : (q.register grammars).pass lib rest with fault' | ⟨q', deferred', changed'⟩
        · simp [later, bind, Except.bind] at passed
        · simp only [later, bind, Except.bind, pure, Except.pure, Except.ok.injEq,
            Prod.mk.injEq] at passed
          obtain ⟨rfl, rfl, rfl⟩ := passed
          exact .takeIn compiled (ih later)
  · intro passing
    induction passing with
    | done p => rfl
    | putOff failed deferrable _ ih =>
      simp only [Progress.pass, failed, deferrable, if_true, ih]
      rfl
    | takeIn compiled _ ih =>
      simp only [Progress.pass, compiled, ih]
      rfl

theorem exists_of_pass_eq_error {sources : List LoadedSource} {p : Progress} {fault : SchemaError}
    (failed : p.pass lib sources = .error fault) :
    ∃ before source after q deferred changed r, sources = before ++ source :: after ∧
      Passing lib p before q deferred changed ∧ q.compileUnit lib [source] = (.error fault, r) ∧
      fault.isDeferrable = false := by
  induction sources generalizing p with
  | nil => cases failed
  | cons source rest ih =>
    unfold Progress.pass at failed
    rcases compiled : p.compileUnit lib [source] with ⟨fault' | grammars, q⟩
    · simp only [compiled] at failed
      split at failed
      · next deferrable =>
        rcases later : q.pass lib rest with fault'' | result
        · simp only [later, bind, Except.bind, Except.error.injEq] at failed
          subst failed
          obtain ⟨before, last, after, q', deferred, changed, r, rfl, passing, fails⟩ := ih later
          exact ⟨source :: before, last, after, q', _, _, r, rfl,
            .putOff compiled deferrable passing, fails⟩
        · simp [later, bind, Except.bind, pure, Except.pure] at failed
      · next final =>
        cases failed
        exact ⟨[], source, rest, p, [], false, q, rfl, .done p, compiled, by simpa using final⟩
    · simp only [compiled] at failed
      rcases later : (q.register grammars).pass lib rest with fault'' | result
      · simp only [later, bind, Except.bind, Except.error.injEq] at failed
        subst failed
        obtain ⟨before, last, after, q', deferred, changed, r, rfl, passing, fails⟩ := ih later
        exact ⟨source :: before, last, after, q', _, _, r, rfl, .takeIn compiled passing, fails⟩
      · simp [later, bind, Except.bind, pure, Except.pure] at failed

/-- How passes go: another one follows as long as the last one has changed something and has put off
something. -/
inductive Rounds (lib : Library) :
    Nat → Progress → List LoadedSource → Progress → List LoadedSource → Prop
  | spent (p : Progress) (sources : List LoadedSource) : Rounds lib 0 p sources p sources
  | last {n : Nat} {p p' : Progress} {sources deferred : List LoadedSource} {changed : Bool}
      (passing : Passing lib p sources p' deferred changed)
      (stops : deferred = [] ∨ changed = false) :
      Rounds lib (n + 1) p sources p' deferred
  | more {n : Nat} {p q p' : Progress} {sources put deferred : List LoadedSource}
      (passing : Passing lib p sources q put true) (later : Rounds lib n q put p' deferred) :
      Rounds lib (n + 1) p sources p' deferred

theorem rounds_of_passes {n : Nat} {sources deferred : List LoadedSource} {p p' : Progress}
    (passed : passes lib n p sources = .ok (p', deferred)) :
    Rounds lib n p sources p' deferred := by
  induction n generalizing p sources with
  | zero =>
    cases passed
    exact .spent _ _
  | succ n ih =>
    unfold Progress.passes at passed
    rcases first : p.pass lib sources with fault | ⟨q, put, changed⟩
    · simp [first, bind, Except.bind] at passed
    · simp only [first, bind, Except.bind] at passed
      split at passed
      · next stops =>
        cases passed
        exact .last (pass_eq_ok_iff.1 first) (by simpa using stops)
      · next goesOn =>
        obtain rfl : changed = true := by
          cases changed with
          | true => rfl
          | false => simp at goesOn
        exact .more (pass_eq_ok_iff.1 first) (ih passed)

theorem Passing.advances {sources deferred : List LoadedSource} {p p' : Progress} {changed : Bool}
    (passing : Passing lib p sources p' deferred changed) (given : sources ⊆ loaded) :
    deferred ⊆ sources ∧ Advances lib loaded p p' := by
  induction passing with
  | done p => exact ⟨List.Subset.refl _, .refl _⟩
  | putOff failed _ _ ih =>
    obtain ⟨within, advances⟩ := ih (List.cons_subset.1 given).2
    exact ⟨List.cons_subset_cons _ within, .skip failed advances⟩
  | takeIn compiled _ ih =>
    obtain ⟨givenFirst, givenRest⟩ := List.cons_subset.1 given
    obtain ⟨within, advances⟩ := ih givenRest
    exact ⟨List.subset_cons_of_subset _ within, .take (by simpa using givenFirst) compiled advances⟩

theorem Rounds.advances {n : Nat} {sources deferred : List LoadedSource} {p p' : Progress}
    (rounds : Rounds lib n p sources p' deferred) (given : sources ⊆ loaded) :
    deferred ⊆ sources ∧ Advances lib loaded p p' := by
  induction rounds with
  | spent p sources => exact ⟨List.Subset.refl _, .refl _⟩
  | last passing _ => exact passing.advances given
  | more passing _ ih =>
    obtain ⟨within, advances⟩ := passing.advances given
    obtain ⟨withinPut, later⟩ := ih (List.Subset.trans within given)
    exact ⟨List.Subset.trans withinPut within, advances.trans later⟩

theorem Passing.kept {sources deferred : List LoadedSource} {p p' : Progress} {changed : Bool}
    (passing : Passing lib p sources p' deferred changed) (kept : KeptBySources lib loaded P)
    (given : sources ⊆ loaded) (holds : P p.pool) : P p'.pool :=
  (passing.advances given).2.kept kept holds

theorem Rounds.kept {n : Nat} {sources deferred : List LoadedSource} {p p' : Progress}
    (rounds : Rounds lib n p sources p' deferred) (kept : KeptBySources lib loaded P)
    (given : sources ⊆ loaded) (holds : P p.pool) : P p'.pool :=
  (rounds.advances given).2.kept kept holds

end Progress

abbrev libraryOf (files : Files.Tree) (discover : Bool) (loaded : List LoadedSource) : Library :=
  .ofSources loaded (if discover then some files else none)

inductive Finishes (lib : Library) (p : Progress) : List LoadedSource → Progress → Prop
  | done : Finishes lib p [] p
  | together {deferred : List LoadedSource} {grammars : List Grammar} {p' : Progress}
      (rest : deferred ≠ []) (compiled : p.compileUnit lib deferred = (.ok grammars, p')) :
      Finishes lib p deferred (p'.register grammars)

/-- A schema set is compiled by loading its sources, by passes over them and by compiling together
what has been put off to the end. -/
theorem compile_eq_ok_iff {files : Files.Tree} {discover : Bool} {identity : String}
    {sources : List Source} {bundle : Bundle} :
    compile files discover identity sources = .ok bundle ↔
      sources ≠ [] ∧ ∃ loaded p deferred q, loadAll files sources = .ok loaded ∧
        Progress.passes (libraryOf files discover loaded) loaded.length {} loaded =
          .ok (p, deferred) ∧
        Finishes (libraryOf files discover loaded) p deferred q ∧
        bundle = { identity, symbols := q.symbols, pool := q.pool,
                   validNamespaces := q.validNamespaces } := by
  cases sources with
  | nil => simp [compile, throw, throwThe, MonadExceptOf.throw, bind, Except.bind]
  | cons source others =>
    simp only [compile, List.isEmpty_cons, Bool.false_eq_true, if_false, bind, Except.bind, pure,
      Except.pure]
    constructor
    · intro compiled
      refine ⟨List.cons_ne_nil _ _, ?_⟩
      cases loads : loadAll files (source :: others) with
      | error fault => simp [loads] at compiled
      | ok loaded =>
        simp only [loads] at compiled
        cases passed : Progress.passes (libraryOf files discover loaded) loaded.length {} loaded with
        | error fault => simp [passed] at compiled
        | ok result =>
          obtain ⟨p, deferred⟩ := result
          simp only [passed] at compiled
          cases deferred with
          | nil =>
            cases compiled
            exact ⟨loaded, p, [], p, rfl, passed, .done, rfl⟩
          | cons first rest =>
            rcases last : p.compileUnit (libraryOf files discover loaded) (first :: rest) with
              ⟨fault | grammars, p'⟩
            · simp [last] at compiled
            · simp only [last] at compiled
              cases compiled
              exact ⟨loaded, p, _, _, rfl, passed, .together (List.cons_ne_nil _ _) last, rfl⟩
    · rintro ⟨_, loaded, p, deferred, q, loads, passed, finishes, rfl⟩
      cases finishes with
      | done => simp [loads, passed]
      | together rest last =>
        rw [← List.isEmpty_eq_false_iff] at rest
        simp [loads, passed, rest, last]

theorem compile_advances {files : Files.Tree} {discover : Bool} {identity : String}
    {sources : List Source} {bundle : Bundle} {loaded : List LoadedSource}
    (loads : loadAll files sources = .ok loaded)
    (compiled : compile files discover identity sources = .ok bundle) :
    ∃ q, Progress.Advances (libraryOf files discover loaded) loaded {} q ∧
      bundle = { identity, symbols := q.symbols, pool := q.pool,
                 validNamespaces := q.validNamespaces } := by
  obtain ⟨_, loaded', p, deferred, q, loads', passed, finishes, same⟩ :=
    compile_eq_ok_iff.1 compiled
  obtain rfl := Except.ok.inj (loads.symm.trans loads')
  obtain ⟨within, advances⟩ := (Progress.rounds_of_passes passed).advances (List.Subset.refl _)
  refine ⟨q, ?_, same⟩
  cases finishes with
  | done => exact advances
  | together _ last => exact advances.trans (.take within last (.refl _))

theorem compile_of_keptBySources {P : Pool → Prop} {files : Files.Tree} {discover : Bool}
    {identity : String} {sources : List Source} {bundle : Bundle} {loaded : List LoadedSource}
    (kept : KeptBySources (libraryOf files discover loaded) loaded P) (start : P {})
    (loads : loadAll files sources = .ok loaded)
    (compiled : compile files discover identity sources = .ok bundle) : P bundle.pool := by
  obtain ⟨q, advances, rfl⟩ := compile_advances loads compiled
  exact advances.kept kept start

theorem compile_of_kept {P : Pool → Prop} (kept : KeptByUnits P) (start : P {}) {files : Files.Tree}
    {discover : Bool} {identity : String} {sources : List Source} {bundle : Bundle}
    (compiled : compile files discover identity sources = .ok bundle) : P bundle.pool := by
  obtain ⟨_, loaded, _, _, _, loads, _⟩ := compile_eq_ok_iff.1 compiled
  exact compile_of_keptBySources (kept.bySources _ _) start loads compiled

/-! ## Closed pools -/

theorem closed_foldl_insert {known : Known} {pool : Pool} {grammars : List Grammar}
    (closed : pool.Closed known) (closedNew : ∀ g ∈ grammars, g.Closed known) :
    (grammars.foldl Pool.insert pool).Closed known := by
  induction grammars generalizing pool with
  | nil => exact closed
  | cons g rest ih =>
    obtain ⟨closedFirst, closedRest⟩ := List.forall_mem_cons.1 closedNew
    exact ih (closed.insert closedFirst) closedRest

theorem closed_keptByUnits : KeptByUnits fun pool => pool.Closed pool.known := by
  intro docs pool symbols grammars st closed ran
  let unit := CompilationUnit.ofDocuments docs pool
  have before : unit.pool.Closed unit.known := fun g member part has =>
    (closed g member part has).mono
      (fun name (isSome : (unit.pool.type? name).isSome) =>
        CompilationUnit.known_type_of_pool isSome)
      (fun name (isSome : (unit.pool.element? name).isSome) => by
        simp [CompilationUnit.known, CompilationUnit.isElement, isSome])
  have ofUnit := (CompilationUnit.yields_compile before _ _ _ (closed_initial _) ran).2
  obtain ⟨types, elements⟩ := CompilationUnit.known_of_compile ran
  intro g member part has
  exact (closed_foldl_insert before ofUnit g member part has).mono types elements

theorem closed_of_compile {files : Files.Tree} {discover : Bool} {identity : String}
    {sources : List Source} {bundle : Bundle}
    (compiled : compile files discover identity sources = .ok bundle) :
    bundle.pool.Closed bundle.pool.known := by
  have start : ({} : Pool).Closed (Pool.known {}) := fun _ member => nomatch member
  exact compile_of_kept closed_keptByUnits start compiled

end XmlSchema.Schema
