import Mathlib.Data.Finset.Card
import XmlSchema.Proofs.Schema.Nesting

/-!
# Bodies that are compiled

A compilation keeps a log of the bodies that it begins, with the components in whose bodies this
happens. What a run adds to the log is new: its slots are empty before and filled afterwards, and it
is not in progress (`Traced`). So no body is begun twice, and never more of them are in progress than
there are components. The bounds on how deeply definitions nest are therefore never reached
(`CompilationUnit.finishes_compile`).
-/

namespace XmlSchema.Schema

open Component
open Xml (Element)
open Compile

def Begun.IsOf (unit : CompilationUnit) (entry : Begun) (slot : Slot) : Prop :=
  entry.key = slot.key ∧ (unit.definitionOf? slot).isSome

theorem Begun.IsOf.unique {unit : CompilationUnit} {entry : Begun} {slot other : Slot}
    (isOf : entry.IsOf unit slot) (isOfOther : entry.IsOf unit other) : slot = other := by
  obtain ⟨definition, found⟩ := Option.isSome_iff_exists.1 isOf.2
  obtain ⟨definition', found'⟩ := Option.isSome_iff_exists.1 isOfOther.2
  exact CompilationUnit.slot_unique found found' (isOf.1.symm.trans isOfOther.1)

/-- What is true of a run and of the bodies that are begun in it, the latest first. -/
structure Traced (unit : CompilationUnit) (inProgress : List ComponentKey) {α : Type} (c : Compile α)
    (st : CompilerState) (entries : List Begun) : Prop where
  adds : (c.run st).2.begun = entries ++ st.begun
  fresh : ∀ entry ∈ entries, ∀ slot, entry.IsOf unit slot → st.stored slot = none
  fills : ∀ a st', c.run st = (.ok a, st') → ∀ slot,
    (st'.stored slot).isSome ↔ (st.stored slot).isSome ∨ ∃ entry ∈ entries, entry.IsOf unit slot
  once : entries.Pairwise fun entry other =>
    entry.key.kind ≠ .attribute → entry.key ≠ other.key
  inside : ∀ entry ∈ entries, inProgress <:+ entry.inProgress
  may : ∀ entry ∈ entries, unit.MayProgress 0 (entry.key :: entry.inProgress)
  foreign : ∀ entry ∈ entries, ∃ slot, entry.IsOf unit slot ∧ slot.IsForeign

namespace Traced

variable {unit : CompilationUnit} {inProgress : List ComponentKey} {α β : Type} {c : Compile α}
  {st st' : CompilerState} {entries entries' : List Begun}

theorem nil (adds : (c.run st).2.begun = st.begun) (keeps : ∀ a st', c.run st = (.ok a, st') →
    ∀ slot, (st'.stored slot).isSome ↔ (st.stored slot).isSome) :
    Traced unit inProgress c st [] where
  adds := adds
  fresh _ member := nomatch member
  fills a st' ran slot := by simpa using keeps a st' ran slot
  once := .nil
  inside _ member := nomatch member
  may _ member := nomatch member
  foreign _ member := nomatch member

theorem throw (fault : SchemaError) : Traced unit inProgress (throw fault : Compile α) st [] :=
  nil rfl fun _ _ ran => nomatch ran

theorem pure (a : α) : Traced unit inProgress (pure a : Compile α) st [] :=
  nil rfl fun _ _ ran _ => by cases ran; rfl

theorem intern (name : String) : Traced unit inProgress (intern name) st [] :=
  nil rfl fun _ _ ran slot => by
    cases ran
    exact Eq.to_iff (congrArg (·.isSome = true) (st.stored_unread _ st.begun slot))

theorem get : Traced unit inProgress (get : Compile CompilerState) st [] :=
  nil rfl fun _ _ ran _ => by cases ran; rfl

theorem bind {f : α → Compile β} {a : α} (first : Traced unit inProgress c st entries)
    (ran : c.run st = (.ok a, st')) (rest : Traced unit inProgress (f a) st' entries') :
    Traced unit inProgress (c >>= f) st (entries' ++ entries) where
  adds := by
    have between : st'.begun = entries ++ st.begun := by rw [← first.adds, ran]
    rw [run_bind_ok ran, rest.adds, between, List.append_assoc]
  fresh entry member slot isOf := by
    rcases List.mem_append.1 member with later | member
    · have empty := rest.fresh entry later slot isOf
      have filled := (first.fills a st' ran slot).2
      rw [empty] at filled
      cases held : st.stored slot with
      | none => rfl
      | some value => exact absurd (filled (.inl (by rw [held]; rfl))) (by simp)
    · exact first.fresh entry member slot isOf
  fills b after ranBoth slot := by
    rw [run_bind_ok ran] at ranBoth
    rw [rest.fills b after ranBoth slot, first.fills a st' ran slot]
    simp only [List.mem_append, or_and_right, exists_or, or_assoc]
    exact or_congr_right or_comm
  once := by
    refine List.pairwise_append.2 ⟨rest.once, first.once, fun other later entry member _ same => ?_⟩
    obtain ⟨slot, isOf, _⟩ := first.foreign entry member
    have filled := (first.fills a st' ran slot).2 (.inr ⟨entry, member, isOf⟩)
    rw [rest.fresh other later slot ⟨same.trans isOf.1, isOf.2⟩] at filled
    cases filled
  inside entry member := (List.mem_append.1 member).elim (rest.inside entry) (first.inside entry)
  may entry member := (List.mem_append.1 member).elim (rest.may entry) (first.may entry)
  foreign entry member := (List.mem_append.1 member).elim (rest.foreign entry) (first.foreign entry)

theorem exists_get_bind {f : CompilerState → Compile α}
    (rest : ∃ entries, Traced unit inProgress (f st) st entries) :
    ∃ entries, Traced unit inProgress (MonadState.get >>= f) st entries := by
  obtain ⟨entries, traced⟩ := rest
  exact ⟨_, get.bind rfl traced⟩

theorem bind_error {f : α → Compile β} {fault : SchemaError}
    (first : Traced unit inProgress c st entries) (ran : c.run st = (.error fault, st')) :
    Traced unit inProgress (c >>= f) st entries where
  adds := by rw [run_bind_error ran, ← first.adds, ran]
  fresh := first.fresh
  fills b after ranBoth := by
    rw [run_bind_error ran] at ranBoth
    cases ranBoth
  once := first.once
  inside := first.inside
  may := first.may
  foreign := first.foreign

theorem map (first : Traced unit inProgress c st entries) (f : α → β) :
    Traced unit inProgress (f <$> c) st entries := by
  rw [map_eq_pure_bind]
  rcases ran : c.run st with ⟨fault | a, st'⟩
  · exact first.bind_error ran
  · exact first.bind (f := fun a => Pure.pure (f a)) ran (pure (f a))

theorem exists_of_uniform {f : Names → Compile α} (uniform : Uniform True f) {names : Names}
    (answers : ∀ q st, ∃ entries, Traced unit inProgress (names.ask q) st entries)
    (st : CompilerState) : ∃ entries, Traced unit inProgress (f names) st entries := by
  obtain ⟨program, -, runs⟩ := uniform
  rw [runs]
  clear runs
  induction program generalizing st with
  | result a => exact ⟨_, pure a⟩
  | fail fault => exact ⟨_, throw fault⟩
  | intern name rest ih =>
    obtain ⟨_, later⟩ := ih _
    exact ⟨_, (intern name).bind rfl later⟩
  | ask q rest ih =>
    obtain ⟨_, first⟩ := answers q st
    rcases ran : (names.ask q).run st with ⟨fault | answer, st'⟩
    · exact ⟨_, first.bind_error ran⟩
    · obtain ⟨_, later⟩ := ih answer st'
      exact ⟨_, first.bind ran later⟩

theorem body {slot : Slot} {definition : Definition} {c body : Compile slot.Value}
    (begins : c.run st = body.run { st with begun := ⟨slot.key, inProgress⟩ :: st.begun })
    (found : unit.definitionOf? slot = some definition) (foreign : slot.IsForeign)
    (empty : st.stored slot = none) (may : unit.MayProgress 0 (slot.key :: inProgress))
    (inner : Traced unit (CompilationUnit.inside inProgress slot) body
      { st with begun := ⟨slot.key, inProgress⟩ :: st.begun } entries) :
    Traced unit inProgress (do
      let value ← c
      modify fun st => st.keep slot value
      return value) st (entries ++ [⟨slot.key, inProgress⟩]) := by
  have unread (other : Slot) : CompilerState.stored
      { st with begun := ⟨slot.key, inProgress⟩ :: st.begun } other = st.stored other :=
    st.stored_unread st.symbols _ other
  have isOf : Begun.IsOf unit ⟨slot.key, inProgress⟩ slot := ⟨rfl, by rw [found]; rfl⟩
  exact {
    adds := by
      have added := inner.adds
      rcases ran : body.run { st with begun := ⟨slot.key, inProgress⟩ :: st.begun } with
        ⟨fault | value, middle⟩
      · rw [ran] at begins added
        rw [run_bind_error begins, List.append_assoc]
        exact added
      · rw [ran] at begins added
        rw [run_bind_ok begins, List.append_assoc]
        exact (middle.begun_keep slot value).trans added
    fresh := fun entry member other isOther => by
      rcases List.mem_append.1 member with member | last
      · rw [← unread]
        exact inner.fresh entry member other isOther
      · obtain rfl := List.mem_singleton.1 last
        rw [isOther.unique isOf, empty]
    fills := fun value after ran other => by
      obtain ⟨value, middle, ranBody, ranRest⟩ := run_bind_eq_ok ran
      rw [begins] at ranBody
      cases ranRest
      by_cases same : other = slot
      · subst same
        simp only [CompilerState.stored_keep_self, Option.isSome_some, true_iff]
        exact .inr ⟨_, List.mem_append_right _ List.mem_cons_self, isOf⟩
      · rw [CompilerState.stored_keep_of_ne _ _ same, inner.fills value middle ranBody other, unread]
        have differs : ¬Begun.IsOf unit ⟨slot.key, inProgress⟩ other := fun isOther =>
          same (isOther.unique isOf)
        simp [differs, or_and_right, exists_or]
    once := by
      refine List.pairwise_append.2 ⟨inner.once, List.pairwise_singleton _ _, ?_⟩
      rintro entry member other last guarded same
      obtain rfl := List.mem_singleton.1 last
      -- The body has the key in progress, so nothing in it has this key.
      have within := inner.inside entry member
      have same : entry.key = slot.key := same
      rw [CompilationUnit.inside, if_pos (Slot.isGuarded_iff.2 (by rwa [← same]))] at within
      have distinct := (inner.may entry member).distinct
      rw [same] at distinct
      exact (List.nodup_cons.1 distinct).1 (within.mem List.mem_cons_self)
    inside := fun entry member => by
      rcases List.mem_append.1 member with member | last
      · exact CompilationUnit.suffix_inside.trans (inner.inside entry member)
      · obtain rfl := List.mem_singleton.1 last
        exact List.suffix_refl _
    may := fun entry member => by
      rcases List.mem_append.1 member with member | last
      · exact inner.may entry member
      · obtain rfl := List.mem_singleton.1 last
        exact may
    foreign := fun entry member => by
      rcases List.mem_append.1 member with member | last
      · exact inner.foreign entry member
      · obtain rfl := List.mem_singleton.1 last
        exact ⟨slot, isOf, foreign⟩ }

end Traced

namespace CompilationUnit

variable {unit : CompilationUnit} {n nesting : Nat} {inProgress : List ComponentKey} {names : Names}
  {d : Document} {e : Element} {st : CompilerState} {symbols : SymbolTable}

theorem exists_traced_of_uniform {α : Type} {c : Compile α} (uniform : Uniform True fun _ => c)
    (st : CompilerState) : ∃ entries, Traced unit inProgress c st entries := by
  have answers (q : Query) (st : CompilerState) :
      ∃ entries, Traced unit inProgress ((unit.plain 0).ask q) st entries := by
    cases q with
    | isElement d e name | isType d e name =>
      simp only [Names.ask]
      split
      · exact ⟨_, .pure _⟩
      · exact ⟨_, .throw _⟩
    | _ => exact ⟨_, .throw _⟩
  exact Traced.exists_of_uniform uniform answers st

structure IsStack (unit : CompilationUnit) (inProgress : List ComponentKey) : Prop where
  may : unit.MayProgress 0 inProgress
  noAttribute : ∀ key ∈ inProgress, key.kind ≠ .attribute

theorem isStack_nil : unit.IsStack [] := ⟨mayProgress_nil 0, fun _ member => nomatch member⟩

theorem IsStack.may_cons (stack : unit.IsStack inProgress) {slot : Slot} {definition : Definition}
    (found : unit.definitionOf? slot = some definition)
    (new : slot.isGuarded = true → slot.key ∉ inProgress) :
    unit.MayProgress 0 (slot.key :: inProgress) := by
  refine stack.may.enter found (fun member => ?_) fun _ less => absurd less (Nat.not_lt_zero _)
  exact new (Slot.isGuarded_iff.2 (stack.noAttribute _ member)) member

theorem IsStack.inside (stack : unit.IsStack inProgress) {slot : Slot} {definition : Definition}
    (found : unit.definitionOf? slot = some definition)
    (new : slot.isGuarded = true → slot.key ∉ inProgress) :
    unit.IsStack (inside inProgress slot) := by
  unfold CompilationUnit.inside
  split
  · next guarded =>
    exact ⟨stack.may_cons found new,
      List.forall_mem_cons.2 ⟨Slot.isGuarded_iff.1 guarded, stack.noAttribute⟩⟩
  · exact stack

theorem exists_traced_fetch {slot : Slot} (foreign : slot.IsForeign) (stack : unit.IsStack inProgress)
    (inner : ∀ definition, unit.IsStack (inside inProgress slot) → ∀ st, ∃ entries,
      Traced unit (inside inProgress slot) (slot.body definition names) st entries) :
    ∃ entries, Traced unit inProgress (unit.fetch names inProgress d e slot) st entries := by
  refine Traced.exists_get_bind ?_
  cases empty : st.stored slot with
  | some value => exact ⟨_, .pure value⟩
  | none =>
    cases found : unit.definitionOf? slot with
    | none => exact exists_traced_of_uniform (uniform_elsewhere slot) st
    | some definition =>
      have begun {c : Compile slot.Value} (new : slot.isGuarded = true → slot.key ∉ inProgress)
          (begins : c.run st = (slot.body definition names).run
            { st with begun := ⟨slot.key, inProgress⟩ :: st.begun }) :
          ∃ entries, Traced unit inProgress (do
            let value ← c
            modify fun st => st.keep slot value
            pure value) st entries := by
        obtain ⟨_, traced⟩ := inner definition (stack.inside found new) _
        exact ⟨_, .body begins found foreign empty (stack.may_cons found new) traced⟩
      dsimp only
      cases guarded : slot.isGuarded with
      | false =>
        simp only [fill, guarded, Bool.false_eq_true, if_false]
        exact begun (by simp [guarded]) rfl
      | true =>
        simp only [fill, guarded, enter, if_true]
        split
        · exact ⟨_, (Traced.throw _).bind_error rfl⟩
        · next new => exact begun (fun _ => by simpa using new) rfl

theorem exists_traced_namesWithin (stack : unit.IsStack inProgress) (q : Query) (st : CompilerState) :
    ∃ entries, Traced unit inProgress ((unit.namesWithin nesting inProgress).ask q) st entries := by
  induction nesting generalizing inProgress q st with
  | zero =>
    cases q with
    | isElement d e name | isType d e name =>
      exact exists_traced_of_uniform (uniform_known _ _) st
    | _ => exact ⟨_, .throw _⟩
  | succ nesting ih =>
    rw [ask_namesWithin]
    cases comes : unit.origin q with
    | settled answer => exact exists_traced_of_uniform (uniform_settled comes) st
    | slot d e slot view =>
      have fetched := @exists_traced_fetch unit inProgress _ d e st slot (isForeign_of_origin comes)
        stack fun definition inside =>
          Traced.exists_of_uniform (slot.uniform_body definition) fun q st => ih inside q st
      obtain ⟨_, traced⟩ := fetched
      exact ⟨_, traced.map view⟩

theorem traced_compile (unit : CompilationUnit) (symbols : SymbolTable) : Traced unit [] unit.compile
    { symbols } (unit.compile.run { symbols }).2.begun := by
  obtain ⟨entries, traced⟩ := Traced.exists_of_uniform (uniform_addDocuments unit.documents [])
    (exists_traced_namesWithin isStack_nil) { symbols }
  have all : (unit.compile.run { symbols }).2.begun = entries :=
    traced.adds.trans (List.append_nil _)
  rwa [all]

theorem nodup_begun (unit : CompilationUnit) (symbols : SymbolTable) :
    (((unit.compile.run { symbols }).2.begun.filter fun entry => entry.key.kind ≠ .attribute).map
      (·.key)).Nodup := by
  rw [List.nodup_iff_pairwise_ne, List.pairwise_map, List.pairwise_filter]
  exact (traced_compile unit symbols).once.imp fun distinct guarded _ =>
    distinct (of_decide_eq_true guarded)

theorem MayProgress.length_le_card (may : unit.MayProgress n inProgress) :
    inProgress.length ≤ (unit.index.map (·.1)).toFinset.card := by
  rw [← List.toFinset_card_of_nodup may.distinct]
  refine Finset.card_le_card fun key member => ?_
  exact List.mem_toFinset.2 (may.known key (List.mem_toFinset.1 member))

theorem isForeign_of_begun {slot : Slot} {entry : Begun}
    (among : entry ∈ (unit.compile.run { symbols }).2.begun) (isOf : entry.IsOf unit slot) :
    slot.IsForeign := by
  obtain ⟨other, isOther, foreign⟩ := (traced_compile unit symbols).foreign entry among
  rwa [isOf.unique isOther]

theorem isSome_stored_iff {grammars : List Grammar}
    (ran : unit.compile.run { symbols } = (.ok grammars, st)) (slot : Slot) :
    (st.stored slot).isSome ↔ ∃ entry ∈ st.begun, entry.IsOf unit slot := by
  have traced := traced_compile unit symbols
  rw [ran] at traced
  simpa using traced.fills grammars st ran slot

end CompilationUnit

/-! ## Bounds

The bounds on how deeply definitions nest are never reached, since the components in progress are
different ones and no definition is deeper than its element. -/

/-- No bound on how deeply definitions nest is reached, whatever has been compiled before. -/
def Compile.Finishes {α : Type} (c : Compile α) : Prop :=
  ∀ st fault, (c.run st).1 = .error fault → ¬fault.IsUnfinished

namespace Compile

variable {α β : Type}

theorem finishes_pure (a : α) : Finishes (pure a) := fun _ _ failed => nomatch failed

theorem finishes_throw {fault : SchemaError} (other : ¬fault.IsUnfinished) :
    Finishes (throw fault : Compile α) := by
  intro st fault' failed
  cases failed
  exact other

theorem finishes_get : Finishes get := fun _ _ failed => nomatch failed

theorem finishes_modify (f : CompilerState → CompilerState) : Finishes (modify f) :=
  fun _ _ failed => nomatch failed

theorem Finishes.bind {c : Compile α} {f : α → Compile β} (first : c.Finishes)
    (rest : ∀ a, (f a).Finishes) : (c >>= f).Finishes := by
  intro st fault failed
  rcases ran : c.run st with ⟨early | a, middle⟩
  · rw [run_bind_error ran] at failed
    cases failed
    exact first st fault (by rw [ran])
  · rw [run_bind_ok ran] at failed
    exact rest a middle fault failed

theorem Finishes.map {c : Compile α} (finishes : c.Finishes) (f : α → β) : (f <$> c).Finishes := by
  rw [map_eq_pure_bind]
  exact finishes.bind fun a => finishes_pure (f a)

end Compile

namespace Uniform

variable {α : Type} {f : Names → Compile α}

theorem finishes (uniform : Uniform False f) {names : Names}
    (answers : ∀ q, (names.ask q).Finishes) : (f names).Finishes := by
  obtain ⟨program, never, runs⟩ := uniform
  rw [runs]
  clear runs
  induction program with
  | result a => exact finishes_pure a
  | fail fault => exact finishes_throw never
  | intern name rest ih => exact (finishes_modify _).bind fun _ => ih never
  | ask q rest ih =>
    exact (answers q).bind fun answer => ih answer fun stops => never ⟨answer, stops⟩

theorem congr (uniform : Uniform True f) {names names' : Names}
    (same : ∀ q, names.ask q = names'.ask q) : f names = f names' := by
  obtain ⟨program, -, runs⟩ := uniform
  rw [runs, runs]
  clear runs
  induction program with
  | result a => rfl
  | fail fault => rfl
  | intern name rest ih => simp only [Program.run, ih]
  | ask q rest ih => simp only [Program.run, same, ih]

end Uniform

namespace CompilationUnit

variable {unit : CompilationUnit} {nesting : Nat} {inProgress : List ComponentKey} {names : Names}
  {d : Document} {e : Element}

theorem body_congr {slot : Slot} {names' : Names} (definition : Definition)
    (same : ∀ q, (slot.asksOnlySimple = true → q.room = 1) → names.ask q = names'.ask q) :
    slot.body definition names = slot.body definition names' := by
  cases only : slot.asksOnlySimple with
  | false =>
    exact (slot.uniform_body definition).congr fun q => same q fun simple => by simp [only] at simple
  | true =>
    have sameSimple : names.simpleType = names'.simpleType := by
      funext d e name
      exact same (.simpleType d e name) fun _ => rfl
    rw [← Slot.body_onlySimple only, ← Slot.body_onlySimple only definition names']
    simp only [Names.onlySimple, sameSimple]

theorem finishes_body {slot : Slot} (definition : Definition)
    (answers : ∀ q, (slot.asksOnlySimple = true → q.room = 1) → (names.ask q).Finishes) :
    (slot.body definition names).Finishes := by
  cases only : slot.asksOnlySimple with
  | false =>
    exact (slot.uniform_body definition).finishes fun q =>
      answers q fun simple => by simp [only] at simple
  | true =>
    rw [← Slot.body_onlySimple only]
    refine (slot.uniform_body definition).finishes fun q => ?_
    cases q with
    | simpleType d e name => exact answers (.simpleType d e name) fun _ => rfl
    | _ => exact finishes_throw id

theorem fill_congr {slot : Slot} {definition : Definition} {names' : Names}
    (same : (slot.isGuarded = true → slot.key ∉ inProgress) →
      slot.body definition names = slot.body definition names') :
    fill names inProgress slot definition = fill names' inProgress slot definition := by
  unfold fill enter
  split
  · split
    · rfl
    · next new => rw [same fun _ => by simpa using new]
  · next unguarded => rw [same fun guarded => absurd guarded unguarded]

theorem finishes_fill {slot : Slot} {definition : Definition}
    (finishes : (slot.isGuarded = true → slot.key ∉ inProgress) →
      (slot.body definition names).Finishes) :
    (fill names inProgress slot definition).Finishes := by
  unfold fill enter
  split
  · split
    · exact finishes_throw id
    · next new => exact (finishes_modify _).bind fun _ => finishes fun _ => by simpa using new
  · next unguarded =>
    exact (finishes_modify _).bind fun _ => finishes fun guarded => absurd guarded unguarded

theorem finishes_of_uniform {α : Type} {c : Compile α} (uniform : Uniform False fun _ => c) :
    c.Finishes := by
  -- The answers do not matter, so there need not be any.
  let answerless : Names := .answering (fun _ => false) (fun _ => false) fun _ => throw (.noSources "")
  have answers (q : Query) : (answerless.ask q).Finishes := by
    cases q <;> exact finishes_throw id
  exact uniform.finishes answers

theorem finishes_fetch {slot : Slot} (fills : ∀ definition, unit.definitionOf? slot = some definition →
      (fill names inProgress slot definition).Finishes) :
    (unit.fetch names inProgress d e slot).Finishes := by
  refine finishes_get.bind fun st => ?_
  split
  · exact finishes_pure _
  · split
    · exact finishes_of_uniform (uniform_elsewhere slot)
    · next definition found =>
      exact (fills definition found).bind fun _ => (finishes_modify _).bind fun _ => finishes_pure _

theorem room_inside {q q' : Query} {slot : Slot} {view : slot.Value → q.Answer}
    (comes : unit.origin q = .slot d e slot view) (only : slot.asksOnlySimple = true → q'.room = 1)
    (room : unit.index.length + q.room ≤ nesting + 1 + inProgress.length) :
    unit.index.length + q'.room ≤ nesting + (inside inProgress slot).length := by
  have bounds := room_le_two q
  have bounds' := room_le_two q'
  have spare := room_of_origin comes
  unfold inside
  cases guarded : slot.isGuarded with
  | true =>
    rw [if_pos rfl, List.length_cons]
    rcases spare with two | ⟨_, simple⟩
    · omega
    · have one := only simple
      omega
  | false =>
    have one := only (asksOnlySimple_of_unguarded guarded)
    rw [if_neg Bool.false_ne_true]
    rcases spare with two | ⟨contrary, _⟩
    · omega
    · simp [guarded] at contrary

theorem ask_namesWithin_eq {other : Nat} (stack : unit.IsStack inProgress) (q : Query)
    (room : unit.index.length + q.room ≤ nesting + inProgress.length)
    (roomOther : unit.index.length + q.room ≤ other + inProgress.length) :
    (unit.namesWithin nesting inProgress).ask q = (unit.namesWithin other inProgress).ask q := by
  have bound := stack.may.length_le
  have bounds := room_le_two q
  induction nesting generalizing other inProgress q with
  | zero => omega
  | succ nesting ih =>
    obtain ⟨other, rfl⟩ : ∃ less, other = less + 1 := ⟨other - 1, by omega⟩
    rw [ask_namesWithin, ask_namesWithin]
    cases comes : unit.origin q with
    | settled answer => rfl
    | slot d e slot view =>
      have sameFill (definition : Definition) (found : unit.definitionOf? slot = some definition) :
          fill (unit.namesWithin nesting (inside inProgress slot)) inProgress slot definition =
            fill (unit.namesWithin other (inside inProgress slot)) inProgress slot definition := by
        refine fill_congr fun new => body_congr definition fun q' only => ?_
        have stackInside := stack.inside found new
        exact ih stackInside q' (room_inside comes only room) (room_inside comes only roomOther)
          stackInside.may.length_le (room_le_two q')
      dsimp only
      refine congrArg (view <$> ·) ?_
      unfold fetch
      refine congrArg (get >>= ·) (funext fun st => ?_)
      cases st.stored slot with
      | some value => rfl
      | none =>
        cases found : unit.definitionOf? slot with
        | none => rfl
        | some definition =>
          dsimp only
          rw [sameFill definition found]

theorem finishes_namesWithin (stack : unit.IsStack inProgress) (q : Query)
    (room : unit.index.length + q.room ≤ nesting + inProgress.length) :
    ((unit.namesWithin nesting inProgress).ask q).Finishes := by
  have bound := stack.may.length_le
  have bounds := room_le_two q
  induction nesting generalizing inProgress q with
  | zero => omega
  | succ nesting ih =>
    rw [ask_namesWithin]
    cases comes : unit.origin q with
    | settled answer => exact finishes_of_uniform (uniform_settled comes)
    | slot d e slot view =>
      refine (finishes_fetch fun definition found => finishes_fill fun new => ?_).map view
      have stackInside := stack.inside found new
      exact finishes_body definition fun q' only => ih stackInside q' (room_inside comes only room)
        stackInside.may.length_le (room_le_two q')

/-- No bound on how deeply definitions nest is reached when a unit is compiled. -/
theorem finishes_compile (unit : CompilationUnit) : unit.compile.Finishes := by
  refine (uniform_addDocuments unit.documents []).finishes fun q => ?_
  have bounds := room_le_two q
  refine finishes_namesWithin isStack_nil q ?_
  rw [List.length_nil]
  omega

/-- Whatever bound is put on how deeply definitions nest, nothing else comes out. -/
theorem addDocuments_eq_compile (unit : CompilationUnit) {n : Nat} (enough : unit.index.length + 2 ≤ n) :
    addDocuments (unit.namesWithin n []) unit.documents [] = unit.compile := by
  refine (uniform_addDocuments unit.documents []).congr fun q => ?_
  have bounds := room_le_two q
  refine ask_namesWithin_eq isStack_nil q ?_ ?_ <;> rw [List.length_nil] <;> omega

end CompilationUnit

end XmlSchema.Schema
