import XmlSchema.Proofs.Schema.Slot
import XmlSchema.Proofs.Schema.Yield

/-!
# Compilations that follow each other

One compilation follows another one if it has the same results from related states, and fails in the
same way where the failure counts (`Compile.Follows`). Uniform compilations follow each other if the
answers to their questions do (`Uniform.follows`).
-/

namespace XmlSchema.Schema

open Component
open Xml (Element)

namespace Compile

variable {α β : Type} {related : CompilerState → CompilerState → Prop} {counts : SchemaError → Prop}

/-- A compilation follows another one: from related states it has the results of that one, and those
of its failures that count. -/
def Follows (related : CompilerState → CompilerState → Prop) (counts : SchemaError → Prop)
    (c c' : Compile α) : Prop :=
  ∀ st st', related st st' →
    (∀ a after, c.run st = (.ok a, after) →
      ∃ after', c'.run st' = (.ok a, after') ∧ related after after') ∧
    ∀ fault after, c.run st = (.error fault, after) → counts fault →
      ∃ after', c'.run st' = (.error fault, after')

theorem follows_pure (a : α) : Follows related counts (pure a) (pure a) := by
  intro st st' before
  constructor
  · rintro b after ran
    cases ran
    exact ⟨st', rfl, before⟩
  · rintro fault after ran _
    cases ran

theorem follows_throw (fault : SchemaError) :
    Follows related counts (throw fault : Compile α) (throw fault) := by
  intro st st' _
  constructor
  · rintro b after ran
    cases ran
  · rintro fault' after ran _
    cases ran
    exact ⟨st', rfl⟩

theorem follows_of_excused {fault : SchemaError} (excused : ¬counts fault) (c : Compile α) :
    Follows related counts (throw fault) c := by
  intro st st' _
  constructor
  · rintro b after ran
    cases ran
  · rintro fault' after ran counted
    cases ran
    exact absurd counted excused

theorem Follows.bind {c c' : Compile α} {f f' : α → Compile β} (first : Follows related counts c c')
    (rest : ∀ a, Follows related counts (f a) (f' a)) :
    Follows related counts (c >>= f) (c' >>= f') := by
  intro st st' before
  obtain ⟨results, failures⟩ := first st st' before
  constructor
  · intro b after ran
    obtain ⟨a, middle, ranFirst, ranRest⟩ := run_bind_eq_ok ran
    obtain ⟨middle', ranFirst', between⟩ := results a middle ranFirst
    obtain ⟨after', ranRest', kept⟩ := (rest a middle middle' between).1 b after ranRest
    exact ⟨after', by rw [run_bind_ok ranFirst', ranRest'], kept⟩
  · intro fault after ran counted
    rcases ranFirst : c.run st with ⟨early | a, middle⟩
    · rw [run_bind_error ranFirst] at ran
      cases ran
      obtain ⟨after', ranFirst'⟩ := failures fault after ranFirst counted
      exact ⟨after', run_bind_error ranFirst'⟩
    · rw [run_bind_ok ranFirst] at ran
      obtain ⟨middle', ranFirst', between⟩ := results a middle ranFirst
      obtain ⟨after', ranRest'⟩ := (rest a middle middle' between).2 fault after ran counted
      exact ⟨after', by rw [run_bind_ok ranFirst', ranRest']⟩

theorem Follows.map {c c' : Compile α} (follows : Follows related counts c c') (f : α → β) :
    Follows related counts (f <$> c) (f <$> c') := by
  rw [map_eq_pure_bind, map_eq_pure_bind]
  exact follows.bind fun _ => follows_pure _

theorem follows_get {f f' : CompilerState → Compile α}
    (rest : ∀ st st', related st st' → Follows related counts (f st) (f' st')) :
    Follows related counts (get >>= f) (get >>= f') :=
  fun st st' before => rest st st' before st st' before

theorem follows_modify {f f' : CompilerState → CompilerState}
    (kept : ∀ st st', related st st' → related (f st) (f' st')) :
    Follows related counts (modify f) (modify f') := by
  intro st st' before
  constructor
  · rintro a after ran
    cases ran
    exact ⟨f' st', rfl, kept st st' before⟩
  · rintro fault after ran _
    cases ran

end Compile

open Compile

/-- A uniform compilation follows itself, if the answers to its questions follow each other. -/
theorem Uniform.follows {α : Type} {f : Names → Compile α} (uniform : Uniform True f)
    {related : CompilerState → CompilerState → Prop} {counts : SchemaError → Prop}
    (ignores : ∀ st st' symbols symbols' begun begun', related st st' →
      related { st with symbols, begun } { st' with symbols := symbols', begun := begun' })
    {names names' : Names}
    (answers : ∀ q, Follows related counts (names.ask q) (names'.ask q)) :
    Follows related counts (f names) (f names') := by
  obtain ⟨program, -, runs⟩ := uniform
  rw [runs, runs]
  clear runs
  induction program with
  | result a => exact follows_pure a
  | fail fault => exact follows_throw fault
  | intern name rest ih =>
    exact (follows_modify fun st st' before => ignores _ _ _ _ _ _ before).bind fun _ => ih
  | ask q rest ih => exact (answers q).bind fun answer => ih answer

def SameSlots (st st' : CompilerState) : Prop := ∀ slot, st.stored slot = st'.stored slot

theorem SameSlots.unread {st st' : CompilerState} (same : SameSlots st st')
    (symbols symbols' : SymbolTable) (begun begun' : List Begun) :
    SameSlots { st with symbols, begun } { st' with symbols := symbols', begun := begun' } :=
  fun slot =>
    (st.stored_unread symbols begun slot).trans
      ((same slot).trans (st'.stored_unread symbols' begun' slot).symm)

theorem SameSlots.keep {st st' : CompilerState} (same : SameSlots st st') (slot : Slot)
    (value : slot.Value) : SameSlots (st.keep slot value) (st'.keep slot value) := by
  intro other
  by_cases equal : other = slot
  · subst equal
    rw [CompilerState.stored_keep_self, CompilerState.stored_keep_self]
  · rw [CompilerState.stored_keep_of_ne _ _ equal, CompilerState.stored_keep_of_ne _ _ equal, same]

theorem follows_note (counts : SchemaError → Prop) (inProgress : List ComponentKey)
    (key : ComponentKey) :
    Compile.Follows SameSlots counts (note inProgress key) (note inProgress key) :=
  follows_modify fun _ _ same => same.unread _ _ _ _

/-! ## Units that know more -/

/-- A unit answers as another one, where that one has an answer or fails in a way that counts,
though its pool may know more. -/
inductive Origin.Follows (counts : SchemaError → Prop) {α : Type} : Origin α → Origin α → Prop
  | settled {answer answer' : Compile α}
      (follows : Compile.Follows SameSlots counts answer answer') :
      Follows counts (.settled answer) (.settled answer')
  | slot {d : Document} {e : Element} {slot : Slot} {view : slot.Value → α} :
      Follows counts (.slot d e slot view) (.slot d e slot view)

structure CompilationUnit.Follows (counts : SchemaError → Prop) (unit unit' : CompilationUnit) :
    Prop where
  definition : ∀ slot, unit'.definitionOf? slot = unit.definitionOf? slot
  elsewhere : ∀ d e slot,
    Compile.Follows SameSlots counts (unit.elsewhere d e slot) (unit'.elsewhere d e slot)
  origin : ∀ q, Origin.Follows counts (unit.origin q) (unit'.origin q)

namespace CompilationUnit

variable {counts : SchemaError → Prop} {unit unit' : CompilationUnit} {names names' : Names}
  {inProgress : List ComponentKey} {d : Document} {e : Element}

theorem follows_fill (answers : ∀ q, Compile.Follows SameSlots counts (names.ask q) (names'.ask q))
    (slot : Slot) (definition : Definition) :
    Compile.Follows SameSlots counts (fill names inProgress slot definition)
      (fill names' inProgress slot definition) := by
  have body := (slot.uniform_body definition).follows
    (fun _ _ _ _ _ _ same => same.unread _ _ _ _) answers
  have noted := (follows_note counts inProgress slot.key).bind fun _ => body
  unfold fill enter
  split
  · split
    · exact follows_throw _
    · exact noted
  · exact noted

theorem Follows.fetch (follows : unit.Follows counts unit')
    (answers : ∀ q, Compile.Follows SameSlots counts (names.ask q) (names'.ask q)) (slot : Slot) :
    Compile.Follows SameSlots counts (unit.fetch names inProgress d e slot)
      (unit'.fetch names' inProgress d e slot) := by
  unfold CompilationUnit.fetch
  refine follows_get fun st st' same => ?_
  rw [← same slot, follows.definition]
  split
  · exact follows_pure _
  · split
    · exact follows.elsewhere d e slot
    · next definition _ =>
      exact (follows_fill answers slot definition).bind fun value =>
        (follows_modify fun st st' same => same.keep slot value).bind fun _ => follows_pure value

theorem Follows.isElement (follows : unit.Follows counts unit') (nesting : Nat) (name : QName) :
    Compile.Follows SameSlots counts
      ((unit.namesWithin nesting inProgress).ask (.isElement d e name))
      ((unit'.namesWithin nesting inProgress).ask (.isElement d e name)) := by
  simp only [Names.ask, isElement_namesWithin]
  cases follows.origin (.isElement d e name) with
  | settled follows => exact follows

theorem Follows.isType (follows : unit.Follows counts unit') (nesting : Nat) (name : QName) :
    Compile.Follows SameSlots counts
      ((unit.namesWithin nesting inProgress).ask (.isType d e name))
      ((unit'.namesWithin nesting inProgress).ask (.isType d e name)) := by
  simp only [Names.ask, isType_namesWithin]
  cases follows.origin (.isType d e name) with
  | settled follows => exact follows

theorem Follows.namesWithin (follows : unit.Follows counts unit') (nesting : Nat)
    (inProgress : List ComponentKey) (q : Query) :
    Compile.Follows SameSlots counts ((unit.namesWithin nesting inProgress).ask q)
      ((unit'.namesWithin nesting inProgress).ask q) := by
  induction nesting generalizing inProgress q with
  | zero =>
    cases q with
    | isElement d e name => exact follows.isElement 0 name
    | isType d e name => exact follows.isType 0 name
    | _ => exact follows_throw _
  | succ nesting ih =>
    rw [ask_namesWithin, ask_namesWithin]
    have sameOrigin := follows.origin q
    generalize unit.origin q = origin, unit'.origin q = origin' at sameOrigin
    cases sameOrigin with
    | settled answers => exact answers
    | slot => exact (follows.fetch (ih _) _).map _

end CompilationUnit

end XmlSchema.Schema
