import Mathlib.Data.List.Perm.Subperm
import XmlSchema.Proofs.Schema.Follow
import XmlSchema.Proofs.Schema.Memory

/-!
# Definitions nest deeply enough

What names mean is found with slots too, although definitions then may not nest more deeply than the
unit has components, and no component may refer to itself (`CompilationUnit.run_compile_of_plain`).
A component that refers to itself means nothing in the first place; and those that are being compiled
inside each other are different, so there are not more of them than the unit has components.
-/

namespace XmlSchema.Schema

open Component
open Xml (Element)
open Compile

/-! ## Simple types -/

def Names.onlySimple (names : Names) : Names where
  isElement _ := false
  isType _ := false
  simpleType := names.simpleType
  complexType d e name := unresolved d e name "type definition"
  type d e name := unresolved d e name "type definition"
  group d e name := unresolved d e name "group"
  attributeGroup d e name := unresolved d e name "attributeGroup"
  attributeDecl d e name := unresolved d e name "attribute declaration"

namespace Definition

variable (names : Names) (d : Document)

theorem simpleType_onlySimple (depth : Nat) (e : Element) (name : Option String) :
    simpleType names.onlySimple d depth e name = simpleType names d depth e name := by
  induction depth generalizing e name with
  | zero => rfl
  | succ depth ih =>
    have named : names.onlySimple.simpleType = names.simpleType := rfl
    simp only [simpleType, ih, named]

theorem simpleTypeOf_onlySimple (e : Element) (name : Option String) :
    simpleTypeOf names.onlySimple d e name = simpleTypeOf names d e name :=
  simpleType_onlySimple names d _ e name

theorem attributeDecl_onlySimple (e : Element) (isGlobal : Bool) :
    attributeDecl names.onlySimple d e isGlobal = attributeDecl names d e isGlobal := by
  have named : names.onlySimple.simpleType = names.simpleType := rfl
  simp only [attributeDecl, simpleTypeOf_onlySimple, named]

end Definition

namespace Slot

def asksOnlySimple : Slot → Bool
  | .simpleType _ | .attribute _ => true
  | _ => false

theorem body_onlySimple {slot : Slot} (only : slot.asksOnlySimple = true) (definition : Definition)
    (names : Names) : slot.body definition names.onlySimple = slot.body definition names := by
  cases slot with
  | simpleType name => exact Definition.simpleTypeOf_onlySimple names _ _ _
  | «attribute» name => exact Definition.attributeDecl_onlySimple names _ _ _
  | _ => cases only

end Slot

/-! ## Components in progress -/

/-- How many further definitions may have to nest in the one that a question asks for. -/
def Query.room : Query → Nat
  | .simpleType .. => 1
  | _ => 2

namespace CompilationUnit

variable {unit : CompilationUnit} {n m nesting : Nat} {inProgress : List ComponentKey}
  {names : Names} {d : Document} {e : Element}

theorem slot_unique {slot other : Slot} {definition definition' : Definition}
    (found : unit.definitionOf? slot = some definition)
    (found' : unit.definitionOf? other = some definition') (same : slot.key = other.key) :
    slot = other := by
  obtain ⟨defined, admits⟩ := Option.filter_eq_some_iff.1 found
  obtain ⟨defined', admits'⟩ := Option.filter_eq_some_iff.1 found'
  rw [same] at defined
  obtain rfl : definition = definition' := Option.some.inj (defined.symm.trans defined')
  cases slot <;> cases other <;> simp_all [Slot.key, Slot.admits]

/-- Components may be in progress: they are different components of the unit, and none of them means
anything with definitions nested less deeply than to some depth. -/
structure MayProgress (unit : CompilationUnit) (n : Nat) (inProgress : List ComponentKey) : Prop where
  distinct : inProgress.Nodup
  known : ∀ key ∈ inProgress, key ∈ unit.index.map (·.1)
  means : ∀ slot : Slot, slot.isGuarded = true → slot.key ∈ inProgress → ∀ m < n, ∀ value,
    ¬unit.MeansWithin m slot value

theorem mayProgress_nil (n : Nat) : unit.MayProgress n [] :=
  ⟨List.nodup_nil, fun _ member => (nomatch member), fun _ _ member => (nomatch member)⟩

theorem MayProgress.length_le (may : unit.MayProgress n inProgress) :
    inProgress.length ≤ unit.index.length := by
  have bound := (List.subperm_of_subset may.distinct may.known).length_le
  rwa [List.length_map] at bound

theorem MayProgress.mono (may : unit.MayProgress n inProgress) (le : m ≤ n) :
    unit.MayProgress m inProgress :=
  ⟨may.distinct, may.known, fun slot guarded member k less =>
    may.means slot guarded member k (by omega)⟩

theorem MayProgress.enter (may : unit.MayProgress n inProgress) {slot : Slot}
    {definition : Definition} (found : unit.definitionOf? slot = some definition)
    (new : slot.key ∉ inProgress) (means : ∀ m < n, ∀ value, ¬unit.MeansWithin m slot value) :
    unit.MayProgress n (slot.key :: inProgress) := by
  refine ⟨List.nodup_cons.2 ⟨new, may.distinct⟩, ?_, ?_⟩
  · obtain ⟨defined, _⟩ := Option.filter_eq_some_iff.1 found
    obtain ⟨before, after, index, _⟩ := List.lookup_eq_some_iff.1 defined
    refine List.forall_mem_cons.2 ⟨?_, may.known⟩
    rw [index]
    simp
  · intro other guarded member k less value meansOther
    rcases List.mem_cons.1 member with same | member
    · obtain ⟨_, foundOther, _⟩ := id meansOther
      obtain rfl := slot_unique found foundOther same.symm
      exact means k less value meansOther
    · exact may.means other guarded member k less value meansOther

/-! ## Answers with slots -/

theorem follows_of_gives {α : Type} {c c' : Compile α} (stateless : c.Stateless)
    (runs : ∀ a, c.Gives a → ∀ st, st.Faithful unit → ∃ st', c'.run st = (.ok a, st'))
    (keeps : Yields (CompilerState.Faithful unit) c' fun _ => True) :
    Compile.Follows (fun _ st => st.Faithful unit) (fun _ => False) c c' := by
  intro st st' faithful
  constructor
  · intro a after ran
    obtain ⟨after', ran'⟩ := runs a (stateless.gives_of_run ran) st' faithful
    exact ⟨after', ran', (keeps st' a after' faithful ran').1⟩
  · intro _ _ _ counted
    cases counted

theorem follows_ask_of_gives {q : Query}
    (runs : ∀ answer, ((unit.plain n).ask q).Gives answer → ∀ st, st.Faithful unit →
      ∃ st', ((unit.namesWithin nesting inProgress).ask q).run st = (.ok answer, st')) :
    Compile.Follows (fun _ st => st.Faithful unit) (fun _ => False) ((unit.plain n).ask q)
      ((unit.namesWithin nesting inProgress).ask q) :=
  follows_of_gives (stateless_plain n q) runs
    ((yields_namesWithin nesting inProgress q).mono fun _ _ => trivial)

theorem run_of_gives {α : Type} {f : Names → Compile α} (uniform : Uniform True f) {names' : Names}
    (answers : ∀ q, Compile.Follows (fun _ st => st.Faithful unit) (fun _ => False) (names.ask q)
      (names'.ask q))
    {a : α} (gives : (f names).Gives a) {st : CompilerState} (faithful : st.Faithful unit) :
    ∃ st', (f names').run st = (.ok a, st') := by
  have follows := uniform.follows
    (fun _ st' _ symbols' _ begun' => ignoresUnread_faithful unit st' symbols' begun') answers
  obtain ⟨after, ran⟩ := gives.run st
  obtain ⟨st', ran', _⟩ := (follows st st faithful).1 a after ran
  exact ⟨st', ran'⟩

theorem run_body_of_plain {slot : Slot} {definition : Definition} {value : slot.Value}
    (gives : (slot.body definition (unit.plain n)).Gives value)
    (answers : ∀ q, (slot.asksOnlySimple = true → q.room = 1) → ∀ answer,
      ((unit.plain n).ask q).Gives answer → ∀ st, st.Faithful unit →
        ∃ st', ((unit.namesWithin nesting inProgress).ask q).run st = (.ok answer, st'))
    {st : CompilerState} (faithful : st.Faithful unit) :
    ∃ st', (slot.body definition (unit.namesWithin nesting inProgress)).run st = (.ok value, st') := by
  cases only : slot.asksOnlySimple with
  | false =>
    refine run_of_gives (slot.uniform_body definition) (fun q => ?_) gives faithful
    exact follows_ask_of_gives (answers q fun simple => by simp [only] at simple)
  | true =>
    -- Only questions for simple types are asked, so no other one needs an answer.
    rw [← Slot.body_onlySimple only] at gives
    refine run_of_gives (slot.uniform_body definition) (fun q => ?_) gives faithful
    cases q with
    | simpleType d e name => exact follows_ask_of_gives (answers (.simpleType d e name) fun _ => rfl)
    | _ => exact follows_of_excused (fun counted => counted) _

theorem run_fetch_of_fresh {slot : Slot} {value : slot.Value}
    (gives : (unit.fresh (unit.plain n) d e slot).Gives value)
    (fills : ∀ definition, unit.definitionOf? slot = some definition →
      (slot.body definition (unit.plain n)).Gives value → ∀ st, st.Faithful unit →
        ∃ st', (fill names inProgress slot definition).run st = (.ok value, st'))
    {st : CompilerState} (faithful : st.Faithful unit) :
    ∃ st', (unit.fetch names inProgress d e slot).run st = (.ok value, st') := by
  have looked : (get : Compile CompilerState).run st = (.ok st, st) := rfl
  unfold fetch
  rw [run_bind_ok looked]
  unfold fresh at gives
  cases held : st.stored slot with
  | some other =>
    obtain ⟨m, means⟩ := faithful slot other held
    obtain ⟨definition, found, _⟩ := id means
    rw [found] at gives
    have meansValue : unit.MeansWithin n slot value := ⟨definition, found, gives⟩
    obtain rfl := means.unique meansValue
    exact ⟨st, rfl⟩
  | none =>
    cases found : unit.definitionOf? slot with
    | none =>
      rw [found] at gives
      exact gives.run st
    | some definition =>
      rw [found] at gives
      obtain ⟨middle, filled⟩ := fills definition found gives st faithful
      exact ⟨middle.keep slot value, by rw [run_bind_ok filled]; rfl⟩

theorem room_le_two (q : Query) : 1 ≤ q.room ∧ q.room ≤ 2 := by
  cases q <;> simp [Query.room]

theorem room_of_origin {q : Query} {slot : Slot} {view : slot.Value → q.Answer}
    (comes : unit.origin q = .slot d e slot view) :
    q.room = 2 ∨ slot.isGuarded = true ∧ slot.asksOnlySimple = true := by
  cases q with
  | simpleType d e name =>
    simp only [origin] at comes
    split at comes
    · cases comes
    · cases comes
      exact .inr ⟨rfl, rfl⟩
  | _ => exact .inl rfl

theorem asksOnlySimple_of_unguarded {slot : Slot} (unguarded : slot.isGuarded = false) :
    slot.asksOnlySimple = true := by
  cases slot with
  | «attribute» name => rfl
  | _ => cases unguarded

def Answers (unit : CompilationUnit) (n : Nat) : Prop :=
  ∀ {nesting : Nat} {inProgress : List ComponentKey} {q : Query} {answer : q.Answer},
    unit.MayProgress n inProgress → unit.index.length + q.room ≤ nesting + inProgress.length →
    ((unit.plain n).ask q).Gives answer → ∀ {st : CompilerState}, st.Faithful unit →
      ∃ st', ((unit.namesWithin nesting inProgress).ask q).run st = (.ok answer, st')

theorem not_means_of_later {q : Query} {slot : Slot} {view : slot.Value → q.Answer}
    {value : slot.Value} (comes : unit.origin q = .slot d e slot view)
    (means : unit.MeansWithin n slot value) (later : ¬((unit.plain n).ask q).Gives (view value)) :
    ∀ m < n, ∀ other, ¬unit.MeansWithin m slot other := by
  intro m less other meansOther
  obtain rfl := meansOther.unique means
  obtain ⟨k, rfl⟩ : ∃ k, n = k + 1 := ⟨n - 1, by omega⟩
  obtain ⟨definition, found, gives⟩ := meansOther.mono (by omega : m ≤ k)
  refine later ?_
  rw [ask_plain, plainAnswer, comes]
  exact (stateless_fresh (stateless_plain k) slot).gives_map_iff.2 ⟨_, by rwa [fresh, found], rfl⟩

theorem run_fill_of_plain {q : Query} {slot : Slot} {view : slot.Value → q.Answer}
    {definition : Definition} {value : slot.Value} (comes : unit.origin q = .slot d e slot view)
    (answers : unit.Answers n) (may : unit.MayProgress (n + 1) inProgress)
    (room : unit.index.length + q.room ≤ nesting + 1 + inProgress.length)
    (found : unit.definitionOf? slot = some definition)
    (gives : (slot.body definition (unit.plain n)).Gives value)
    (first : ∀ m < n, ∀ other, ¬unit.MeansWithin m slot other)
    {st : CompilerState} (faithful : st.Faithful unit) :
    ∃ st', (fill (unit.namesWithin nesting (inside inProgress slot)) inProgress slot definition).run
      st = (.ok value, st') := by
  have below := may.mono (Nat.le_succ n)
  have spare := room_of_origin comes
  have bounds := room_le_two q
  have noted := ignoresUnread_faithful unit st st.symbols (⟨slot.key, inProgress⟩ :: st.begun) faithful
  unfold fill inside
  cases guarded : slot.isGuarded with
  | true =>
    have new : slot.key ∉ inProgress := fun member =>
      may.means slot guarded member n (Nat.lt_succ_self n) value ⟨definition, found, gives⟩
    simp only [if_true, enter, List.contains_iff_mem, new, if_false, run_bind_ok (run_note _ _ _)]
    refine run_body_of_plain gives (fun q' only answer givesAnswer st faithful => ?_) noted
    refine answers (below.enter found new first) ?_ givesAnswer faithful
    have bounds' := room_le_two q'
    rw [List.length_cons]
    rcases spare with two | ⟨_, simple⟩
    · omega
    · have one := only simple
      omega
  | false =>
    have simple := asksOnlySimple_of_unguarded guarded
    simp only [Bool.false_eq_true, if_false, run_bind_ok (run_note _ _ _)]
    refine run_body_of_plain gives (fun q' only answer givesAnswer st faithful => ?_) noted
    refine answers below ?_ givesAnswer faithful
    have one := only simple
    rcases spare with two | ⟨contrary, _⟩
    · omega
    · simp [guarded] at contrary

theorem answers_of_plain (unit : CompilationUnit) (n : Nat) : unit.Answers n := by
  induction n with
  | zero =>
    intro nesting inProgress q answer may room gives st faithful
    cases q with
    | isElement d e name | isType d e name =>
      simp only [Names.ask, isElement_namesWithin, isType_namesWithin, isElement_plain, isType_plain]
        at gives ⊢
      exact gives.run st
    | _ => exact absurd gives not_gives_throw
  | succ n ih =>
    intro nesting inProgress q answer may room gives st faithful
    by_cases earlier : ((unit.plain n).ask q).Gives answer
    · exact ih (may.mono (Nat.le_succ n)) room earlier faithful
    -- Fewer components are in progress than there are, so definitions may nest once more.
    have bound := may.length_le
    have bounds := room_le_two q
    obtain ⟨nesting, rfl⟩ : ∃ less, nesting = less + 1 := ⟨nesting - 1, by omega⟩
    rw [ask_plain, plainAnswer] at gives
    rw [ask_namesWithin]
    cases comes : unit.origin q with
    | settled answer' =>
      rw [comes] at gives
      exact gives.run st
    | slot d e slot view =>
      rw [comes] at gives
      obtain ⟨value, givesValue, rfl⟩ :=
        (stateless_fresh (stateless_plain n) slot).gives_map_iff.1 gives
      obtain ⟨st', ran⟩ := run_fetch_of_fresh givesValue
        (fun definition found givesBody st faithful =>
          run_fill_of_plain comes ih may room found givesBody
            (not_means_of_later comes ⟨definition, found, givesBody⟩ earlier) faithful) faithful
      refine ⟨st', ?_⟩
      dsimp only
      rw [map_eq_pure_bind, run_bind_ok ran]
      rfl

theorem run_compile_of_plain {grammars : List Grammar}
    (gives : (addDocuments (unit.plain n) unit.documents []).Gives grammars) (symbols : SymbolTable) :
    ∃ st', unit.compile.run { symbols } = (.ok grammars, st') := by
  refine run_of_gives (uniform_addDocuments _ _) (fun q => ?_) gives (faithful_initial unit symbols)
  refine follows_ask_of_gives fun answer givesAnswer st faithful => ?_
  refine answers_of_plain unit n (mayProgress_nil n) ?_ givesAnswer faithful
  have bounds := room_le_two q
  rw [List.length_nil]
  omega

theorem run_compile_iff_plain {grammars : List Grammar} {symbols : SymbolTable} :
    (∃ st', unit.compile.run { symbols } = (.ok grammars, st')) ↔
      ∃ n, (addDocuments (unit.plain n) unit.documents []).Gives grammars := by
  constructor
  · rintro ⟨st', ran⟩
    exact (yields_compile_plain unit _ _ _ (faithful_initial unit symbols) ran).2
  · rintro ⟨n, gives⟩
    exact run_compile_of_plain gives symbols

end CompilationUnit

end XmlSchema.Schema
