import XmlSchema.Proofs.Schema.Lenient
import XmlSchema.Proofs.Schema.Nesting

namespace XmlSchema.Schema

open Component
open Datatype (SimpleType)
open Xml (Element)
open Compile

namespace CompilationUnit

def RefusesContent (unit : CompilationUnit) (fault : SchemaError) : Prop :=
  ∃ systemId line name n, ∃ (type : ComplexType ElementDecl) (content : SimpleType),
    fault = .malformed systemId (.component line (.notSimple name.localName)) ∧
      name.ns ≠ schemaNamespace ∧ unit.MeansLeniently n (.complexType name) type ∧
      type.content = .simple content

/-- A compilation has a result, unless a complex type of the unit is refused. -/
def Attains (unit : CompilationUnit) {α : Type} (c : Compile α) (a : α) : Prop :=
  ∀ st, CompilerState.Faithful unit st → (∃ st', c.run st = (.ok a, st')) ∨
    ∃ fault st', c.run st = (.error fault, st') ∧ unit.RefusesContent fault

variable {unit : CompilationUnit} {n m nesting : Nat} {inProgress : List ComponentKey}
  {names names' : Names} {d : Document} {e : Element}

theorem attains_of_gives {α : Type} {c : Compile α} {a : α} (gives : c.Gives a) :
    unit.Attains c a := fun st _ => .inl (gives.run st)

theorem Attains.bind {α β : Type} {c : Compile α} {f : α → Compile β} {a : α} {b : β}
    (first : unit.Attains c a) (keeps : Yields (CompilerState.Faithful unit) c fun _ => True)
    (rest : unit.Attains (f a) b) : unit.Attains (c >>= f) b := by
  intro st faithful
  rcases first st faithful with ⟨middle, ran⟩ | ⟨fault, st', ran, refused⟩
  · rw [run_bind_ok ran]
    exact rest middle (keeps st a middle faithful ran).1
  · exact .inr ⟨fault, st', run_bind_error ran, refused⟩

theorem Attains.note {α : Type} {c : Compile α} {a : α} {key : ComponentKey}
    (attains : unit.Attains c a) : unit.Attains (do note inProgress key; c) a :=
  (attains_of_gives (a := ()) fun _ => rfl).bind (yields_note (ignoresUnread_faithful unit) _ _)
    attains

theorem attains_of_uniform {α : Type} {f : Names → Compile α} (uniform : Uniform True f)
    (stateless : names.Stateless)
    (answers : ∀ q answer, (names.ask q).Gives answer → unit.Attains (names'.ask q) answer)
    (keeps : ∀ q, Yields (CompilerState.Faithful unit) (names'.ask q) fun _ => True) {a : α}
    (gives : (f names).Gives a) : unit.Attains (f names') a := by
  have runStateless (program : Program α) := program.uniform.stateless stateless
  obtain ⟨program, -, runs⟩ := uniform
  rw [runs] at gives ⊢
  clear runs
  induction program with
  | result b | fail fault => exact attains_of_gives gives
  | intern name rest ih =>
    obtain ⟨_, _, givesRest⟩ :=
      ((stateless_modify _).gives_bind_iff fun _ => runStateless rest).1 gives
    exact (attains_of_gives (a := ()) fun _ => rfl).bind
      (yields_intern (ignoresUnread_faithful unit) name) (ih givesRest)
  | ask q rest ih =>
    obtain ⟨answer, answered, givesRest⟩ :=
      ((stateless q).gives_bind_iff fun answer => runStateless (rest answer)).1 gives
    exact (answers q answer answered).bind (keeps q) (ih answer givesRest)

theorem keeps_ask (nesting : Nat) (inProgress : List ComponentKey) (q : Query) :
    Yields (CompilerState.Faithful unit) ((unit.namesWithin nesting inProgress).ask q)
      fun _ => True :=
  (yields_namesWithin nesting inProgress q).mono fun _ _ => trivial

theorem keeps_fetch {slot : Slot} : Yields (CompilerState.Faithful unit)
    (unit.fetch (unit.namesWithin nesting (inside inProgress slot)) inProgress d e slot)
    fun _ => True :=
  (yields_fetch (yields_namesWithin _ _) slot).mono fun _ _ => trivial

theorem attains_body {slot : Slot} {definition : Definition} {value : slot.Value}
    (gives : (slot.body definition (unit.lenient n)).Gives value)
    (answers : ∀ q, (slot.asksOnlySimple = true → q.room = 1) → ∀ answer,
      ((unit.lenient n).ask q).Gives answer →
        unit.Attains ((unit.namesWithin nesting inProgress).ask q) answer) :
    unit.Attains (slot.body definition (unit.namesWithin nesting inProgress)) value := by
  cases only : slot.asksOnlySimple with
  | false =>
    refine attains_of_uniform (slot.uniform_body definition) (stateless_lenient n)
      (fun q => answers q fun simple => ?_) (keeps_ask nesting inProgress) gives
    simp [only] at simple
  | true =>
    -- Only questions for simple types are asked, so no other one needs an answer.
    rw [← Slot.body_onlySimple only] at gives ⊢
    refine attains_of_uniform (slot.uniform_body definition) (fun q => ?_)
      (fun q answer given => ?_)
      (fun q => ?_) gives
    · cases q with
      | simpleType d e name => exact stateless_lenient n (.simpleType d e name)
      | _ => exact stateless_throw _
    · cases q with
      | simpleType d e name => exact answers (.simpleType d e name) (fun _ => rfl) answer given
      | _ => exact absurd given not_gives_throw
    · cases q with
      | simpleType d e name => exact keeps_ask nesting inProgress (.simpleType d e name)
      | _ => exact yields_throw _

theorem attains_fetch {slot : Slot} {value : slot.Value} (isForeign : slot.IsForeign)
    (gives : (unit.lenientFresh (unit.lenient n) d e slot).Gives value)
    (fills : ∀ definition, unit.definitionOf? slot = some definition →
      (slot.body definition (unit.lenient n)).Gives value →
        unit.Attains (fill names inProgress slot definition) value) :
    unit.Attains (unit.fetch names inProgress d e slot) value := by
  intro st faithful
  have looked : (get : Compile CompilerState).run st = (.ok st, st) := rfl
  unfold fetch
  rw [run_bind_ok looked]
  cases held : st.stored slot with
  | some other =>
    obtain ⟨m, means⟩ := faithful slot other held
    obtain ⟨definition, found, _⟩ := id means
    rw [lenientFresh_of_definition found] at gives
    have meansValue : unit.MeansLeniently n slot value := ⟨definition, found, gives⟩
    obtain rfl := means.leniently.unique meansValue
    exact .inl ⟨st, rfl⟩
  | none =>
    cases found : unit.definitionOf? slot with
    | some definition =>
      rw [lenientFresh_of_definition found] at gives
      rcases fills definition found gives st faithful with
        ⟨middle, filled⟩ | ⟨fault, st', failed, refused⟩
      · exact .inl ⟨middle.keep slot value, by rw [run_bind_ok filled]; rfl⟩
      · exact .inr ⟨fault, st', run_bind_error failed, refused⟩
    | none =>
      dsimp only
      by_cases complex : ∃ name definition, slot = .simpleType name ∧
          unit.definitionOf? (.complexType name) = some definition
      -- Here the unit is stricter: the name is the name of a complex type.
      · obtain ⟨name, definition, rfl, foundComplex⟩ := complex
        obtain ⟨type, givesType, content⟩ :=
          (gives_lenientFresh_complex foundComplex (stateless_lenient n)).1 gives
        have defined : unit.definition? .type name = some definition :=
          (Option.filter_eq_some_iff.1 foundComplex).1
        simp only [elsewhere, defined, Option.isSome_some, if_true]
        exact .inr ⟨_, st, rfl, d.systemId, e.line, name, n, type, value, rfl, isForeign,
          ⟨definition, foundComplex, givesType⟩, content⟩
      · rw [lenientFresh_eq_fresh, fresh, found] at gives
        · exact .inl (gives.run st)
        · rintro name rfl
          refine Option.eq_none_iff_forall_ne_some.2 fun definition foundComplex => ?_
          exact complex ⟨name, definition, rfl, foundComplex⟩

structure MayNest (unit : CompilationUnit) (n : Nat) (inProgress : List ComponentKey) : Prop where
  may : unit.MayProgress 0 inProgress
  means : ∀ slot : Slot, slot.isGuarded = true → slot.key ∈ inProgress → ∀ m < n, ∀ value,
    ¬unit.MeansLeniently m slot value

theorem mayNest_nil (n : Nat) : unit.MayNest n [] :=
  ⟨mayProgress_nil 0, fun _ _ member => nomatch member⟩

theorem MayNest.mono (may : unit.MayNest n inProgress) (le : m ≤ n) : unit.MayNest m inProgress :=
  ⟨may.may, fun slot guarded member k less => may.means slot guarded member k (by omega)⟩

theorem MayNest.enter (may : unit.MayNest n inProgress) {slot : Slot} {definition : Definition}
    (found : unit.definitionOf? slot = some definition) (new : slot.key ∉ inProgress)
    (means : ∀ m < n, ∀ value, ¬unit.MeansLeniently m slot value) :
    unit.MayNest n (slot.key :: inProgress) := by
  refine ⟨may.may.enter found new fun m less => absurd less (Nat.not_lt_zero m), ?_⟩
  intro other guarded member k less value meansOther
  rcases List.mem_cons.1 member with same | member
  · obtain ⟨_, foundOther, _⟩ := id meansOther
    obtain rfl := slot_unique found foundOther same.symm
    exact means k less value meansOther
  · exact may.means other guarded member k less value meansOther

def AnswersLeniently (unit : CompilationUnit) (n : Nat) : Prop :=
  ∀ {nesting : Nat} {inProgress : List ComponentKey} {q : Query} {answer : q.Answer},
    unit.MayNest n inProgress → unit.index.length + q.room ≤ nesting + inProgress.length →
    ((unit.lenient n).ask q).Gives answer →
      unit.Attains ((unit.namesWithin nesting inProgress).ask q) answer

theorem not_meansLeniently_of_later {q : Query} {slot : Slot} {view : slot.Value → q.Answer}
    {value : slot.Value} (comes : unit.origin q = .slot d e slot view)
    (means : unit.MeansLeniently n slot value)
    (later : ¬((unit.lenient n).ask q).Gives (view value)) :
    ∀ m < n, ∀ other, ¬unit.MeansLeniently m slot other := by
  intro m less other meansOther
  obtain rfl := meansOther.unique means
  obtain ⟨k, rfl⟩ : ∃ k, n = k + 1 := ⟨n - 1, by omega⟩
  refine later ?_
  rw [ask_lenient, lenientAnswer, comes]
  exact (stateless_lenientFresh (stateless_lenient k) slot).gives_map_iff.2
    ⟨_, (meansOther.mono (by omega : m ≤ k)).gives d e, rfl⟩

theorem attains_fill {q : Query} {slot : Slot} {view : slot.Value → q.Answer}
    {definition : Definition} {value : slot.Value} (comes : unit.origin q = .slot d e slot view)
    (answers : unit.AnswersLeniently n) (may : unit.MayNest (n + 1) inProgress)
    (room : unit.index.length + q.room ≤ nesting + 1 + inProgress.length)
    (found : unit.definitionOf? slot = some definition)
    (gives : (slot.body definition (unit.lenient n)).Gives value)
    (first : ∀ m < n, ∀ other, ¬unit.MeansLeniently m slot other) :
    unit.Attains
      (fill (unit.namesWithin nesting (inside inProgress slot)) inProgress slot definition)
      value := by
  have below := may.mono (Nat.le_succ n)
  have spare := room_of_origin comes
  have bounds := room_le_two q
  unfold fill inside
  cases guarded : slot.isGuarded with
  | true =>
    have new : slot.key ∉ inProgress := fun member =>
      may.means slot guarded member n (Nat.lt_succ_self n) value ⟨definition, found, gives⟩
    simp only [if_true, enter, List.contains_iff_mem, new, if_false]
    refine .note (attains_body gives fun q' only answer => answers (below.enter found new first) ?_)
    have bounds' := room_le_two q'
    rw [List.length_cons]
    rcases spare with two | ⟨_, simple⟩
    · omega
    · have one := only simple
      omega
  | false =>
    have simple := asksOnlySimple_of_unguarded guarded
    simp only [Bool.false_eq_true, if_false]
    refine .note (attains_body gives fun q' only answer => answers below ?_)
    have one := only simple
    rcases spare with two | ⟨contrary, _⟩
    · omega
    · simp [guarded] at contrary

theorem answersLeniently (unit : CompilationUnit) (n : Nat) : unit.AnswersLeniently n := by
  induction n with
  | zero =>
    intro nesting inProgress q answer may room gives
    cases q with
    | isElement d e name | isType d e name =>
      simp only [Names.ask, isElement_namesWithin, isType_namesWithin, isElement_lenient,
        isType_lenient] at gives ⊢
      exact attains_of_gives gives
    | _ => exact absurd gives not_gives_throw
  | succ n ih =>
    intro nesting inProgress q answer may room gives
    by_cases earlier : ((unit.lenient n).ask q).Gives answer
    · exact ih (may.mono (Nat.le_succ n)) room earlier
    -- Fewer components are in progress than there are, so definitions may nest once more.
    have bound := may.may.length_le
    have bounds := room_le_two q
    obtain ⟨nesting, rfl⟩ : ∃ less, nesting = less + 1 := ⟨nesting - 1, by omega⟩
    rw [ask_lenient, lenientAnswer] at gives
    rw [ask_namesWithin]
    cases comes : unit.origin q with
    | settled answer' =>
      rw [comes] at gives
      exact attains_of_gives gives
    | slot d e slot view =>
      rw [comes] at gives
      obtain ⟨value, givesValue, rfl⟩ :=
        (stateless_lenientFresh (stateless_lenient n) slot).gives_map_iff.1 gives
      dsimp only
      rw [map_eq_pure_bind]
      have fetched : unit.Attains (unit.fetch (unit.namesWithin nesting (inside inProgress slot))
          inProgress d e slot) value :=
        attains_fetch (isForeign_of_origin comes) givesValue fun definition found givesBody =>
          attains_fill comes ih may room found givesBody
            (not_meansLeniently_of_later comes ⟨definition, found, givesBody⟩ earlier)
      exact fetched.bind keeps_fetch (attains_of_gives fun _ => rfl)

theorem compile_of_lenient {grammars : List Grammar}
    (gives : (addDocuments (unit.lenient n) unit.documents []).Gives grammars)
    (symbols : SymbolTable) :
    (∃ st', unit.compile.run { symbols } = (.ok grammars, st')) ∨ ∃ fault st',
      unit.compile.run { symbols } = (.error fault, st') ∧ unit.RefusesContent fault := by
  refine attains_of_uniform (uniform_addDocuments _ _) (stateless_lenient n)
    (fun q answer => answersLeniently unit n (mayNest_nil n) ?_) (keeps_ask _ _) gives _
    (faithful_initial unit symbols)
  have bounds := room_le_two q
  rw [List.length_nil]
  omega

end CompilationUnit

end XmlSchema.Schema
