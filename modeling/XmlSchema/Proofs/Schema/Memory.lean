import XmlSchema.Proofs.Schema.Plain

/-!
# What slots hold

While a unit is compiled its slots hold nothing but what the definitions of their components mean
(`CompilerState.Faithful`). So the slots only save work: all that is compiled with them is what is
compiled without them (`CompilationUnit.yields_compile_plain`).
-/

namespace XmlSchema.Schema

open Component
open Xml (Element)
open Compile

namespace CompilationUnit

variable {unit : CompilationUnit}

def MeansWithin (unit : CompilationUnit) (n : Nat) (slot : Slot) (value : slot.Value) : Prop :=
  ∃ definition, unit.definitionOf? slot = some definition ∧
    (slot.body definition (unit.plain n)).Gives value

theorem MeansWithin.mono {n m : Nat} {slot : Slot} {value : slot.Value}
    (means : unit.MeansWithin n slot value) (le : n ≤ m) : unit.MeansWithin m slot value := by
  obtain ⟨definition, found, gives⟩ := means
  exact ⟨definition, found, gives_mono_of_uniform (slot.uniform_body definition) le gives⟩

theorem MeansWithin.unique {n m : Nat} {slot : Slot} {value other : slot.Value}
    (means : unit.MeansWithin n slot value) (meansOther : unit.MeansWithin m slot other) :
    value = other := by
  obtain ⟨definition, found, gives⟩ := means.mono (Nat.le_max_left n m)
  obtain ⟨definition', found', gives'⟩ := meansOther.mono (Nat.le_max_right n m)
  obtain rfl : definition = definition' := Option.some.inj (found.symm.trans found')
  exact gives.unique gives'

end CompilationUnit

def CompilerState.Faithful (unit : CompilationUnit) (st : CompilerState) : Prop :=
  ∀ slot value, st.stored slot = some value → ∃ n, unit.MeansWithin n slot value

theorem faithful_initial (unit : CompilationUnit) (symbols : SymbolTable) :
    CompilerState.Faithful unit { symbols } := fun slot value found => by
  rw [CompilerState.stored_initial] at found
  cases found

theorem ignoresUnread_faithful (unit : CompilationUnit) :
    IgnoresUnread (CompilerState.Faithful unit) := fun st symbols begun faithful slot value found => by
  rw [CompilerState.stored_unread] at found
  exact faithful slot value found

theorem CompilerState.Faithful.keep {unit : CompilationUnit} {st : CompilerState}
    (faithful : st.Faithful unit) {slot : Slot} {value : slot.Value} {n : Nat}
    (means : unit.MeansWithin n slot value) : (st.keep slot value).Faithful unit := by
  intro other held found
  by_cases same : other = slot
  · subst same
    rw [CompilerState.stored_keep_self] at found
    cases found
    exact ⟨n, means⟩
  · rw [CompilerState.stored_keep_of_ne _ _ same] at found
    exact faithful other held found

namespace CompilationUnit

variable {unit : CompilationUnit} {names : Names} {inProgress : List ComponentKey} {d : Document}
  {e : Element}

theorem yields_of_uniform {α : Type} {f : Names → Compile α} (uniform : Uniform True f)
    (answers : ∀ q, Yields (CompilerState.Faithful unit) (names.ask q)
      fun answer => ∃ n, ((unit.plain n).ask q).Gives answer) :
    Yields (CompilerState.Faithful unit) (f names) fun a => ∃ n, (f (unit.plain n)).Gives a := by
  obtain ⟨program, -, runs⟩ := uniform
  simp only [runs]
  clear runs
  induction program with
  | result a => exact yields_pure ⟨0, fun _ => rfl⟩
  | fail fault => exact yields_throw fault
  | intern name rest ih =>
    refine (yields_intern (ignoresUnread_faithful unit) name).bind fun _ _ => ih.mono ?_
    rintro a ⟨n, gives⟩
    exact ⟨n, Gives.bind (fun _ => rfl) gives⟩
  | ask q rest ih =>
    refine (answers q).bind fun answer ⟨n, answered⟩ => (ih answer).mono ?_
    rintro a ⟨m, gives⟩
    -- The answer and what is done with it may need different depths.
    exact ⟨max n m, (gives_plain_mono (Nat.le_max_left n m) q answer answered).bind
      (gives_mono_of_uniform (rest answer).uniform (Nat.le_max_right n m) gives)⟩

theorem yields_fill (answers : ∀ q, Yields (CompilerState.Faithful unit) (names.ask q)
      fun answer => ∃ n, ((unit.plain n).ask q).Gives answer) (slot : Slot)
    (definition : Definition) :
    Yields (CompilerState.Faithful unit) (fill names inProgress slot definition)
      fun value => ∃ n, (slot.body definition (unit.plain n)).Gives value := by
  have noted := (yields_note (ignoresUnread_faithful unit) inProgress slot.key).bind fun _ _ =>
    yields_of_uniform (slot.uniform_body definition) answers
  unfold fill enter
  split
  · split
    · exact yields_throw _
    · exact noted
  · exact noted

theorem yields_fetch (answers : ∀ q, Yields (CompilerState.Faithful unit) (names.ask q)
      fun answer => ∃ n, ((unit.plain n).ask q).Gives answer) (slot : Slot) :
    Yields (CompilerState.Faithful unit) (unit.fetch names inProgress d e slot)
      fun value => ∃ n, (unit.fresh (unit.plain n) d e slot).Gives value := by
  unfold fetch fresh
  refine yields_get fun st faithful => ?_
  split
  · next value held =>
    obtain ⟨n, definition, found, gives⟩ := faithful slot value held
    rw [found]
    exact yields_pure ⟨n, gives⟩
  · cases found : unit.definitionOf? slot with
    | none => exact yields_of_uniform (uniform_elsewhere slot) answers
    | some definition =>
      refine (yields_fill answers slot definition).bind fun value ⟨n, gives⟩ => ?_
      exact (yields_modify fun st faithful => faithful.keep ⟨definition, found, gives⟩).bind
        fun _ _ => yields_pure ⟨n, gives⟩

theorem yields_namesWithin (nesting : Nat) (inProgress : List ComponentKey) (q : Query) :
    Yields (CompilerState.Faithful unit) ((unit.namesWithin nesting inProgress).ask q)
      fun answer => ∃ n, ((unit.plain n).ask q).Gives answer := by
  induction nesting generalizing inProgress q with
  | zero =>
    cases q with
    | isElement d e name | isType d e name =>
      simp only [Names.ask, isElement_namesWithin, isType_namesWithin, isElement_plain, isType_plain]
      split
      · exact yields_pure ⟨0, fun _ => rfl⟩
      · exact yields_throw _
    | _ => exact yields_throw _
  | succ nesting ih =>
    rw [ask_namesWithin]
    cases comes : unit.origin q with
    | settled answer =>
      refine (yields_of_uniform (uniform_settled comes) (ih inProgress)).mono ?_
      rintro a ⟨_, gives⟩
      exact ⟨1, by rwa [ask_plain, plainAnswer, comes]⟩
    | slot d e slot view =>
      dsimp only
      rw [map_eq_pure_bind]
      refine (yields_fetch (ih _) slot).bind ?_
      rintro value ⟨n, gives⟩
      refine yields_pure ⟨n + 1, ?_⟩
      rw [ask_plain, plainAnswer, comes]
      exact (stateless_fresh (stateless_plain n) slot).gives_map_iff.2 ⟨value, gives, rfl⟩

/-- What is compiled with slots is what is compiled without them. -/
theorem yields_compile_plain (unit : CompilationUnit) :
    Yields (CompilerState.Faithful unit) unit.compile
      fun grammars => ∃ n, (addDocuments (unit.plain n) unit.documents []).Gives grammars :=
  yields_of_uniform (uniform_addDocuments _ _) (yields_namesWithin _ _)

end CompilationUnit

end XmlSchema.Schema
