import XmlSchema.Proofs.Schema.Program

namespace XmlSchema.Schema

open Xml (Element)

namespace Compile

variable {α β : Type}

theorem run_bind_ok {c : Compile α} {f : α → Compile β} {st st' : CompilerState} {a : α}
    (ran : c.run st = (.ok a, st')) : (c >>= f).run st = (f a).run st' := by
  change (match c.run st with | (r, st') => ExceptT.bindCont f r st') = _
  rw [ran]
  rfl

theorem run_bind_error {c : Compile α} {f : α → Compile β} {st st' : CompilerState}
    {fault : SchemaError} (ran : c.run st = (.error fault, st')) :
    (c >>= f).run st = (.error fault, st') := by
  change (match c.run st with | (r, st') => ExceptT.bindCont f r st') = _
  rw [ran]
  rfl

theorem run_bind_eq_ok {c : Compile α} {f : α → Compile β} {st st' : CompilerState} {b : β}
    (ran : (c >>= f).run st = (.ok b, st')) :
    ∃ a middle, c.run st = (.ok a, middle) ∧ (f a).run middle = (.ok b, st') := by
  rcases first : c.run st with ⟨_ | a, middle⟩
  · rw [run_bind_error first] at ran
    cases ran
  · rw [run_bind_ok first] at ran
    exact ⟨a, middle, rfl, ran⟩

theorem run_note (inProgress : List ComponentKey) (key : ComponentKey) (st : CompilerState) :
    (note inProgress key).run st = (.ok (), { st with begun := ⟨key, inProgress⟩ :: st.begun }) :=
  rfl

/-- A compilation keeps an invariant and has results with a property, unless it fails. -/
def Yields (inv : CompilerState → Prop) (c : Compile α) (post : α → Prop) : Prop :=
  ∀ st a st', inv st → c.run st = (.ok a, st') → inv st' ∧ post a

variable {inv : CompilerState → Prop} {c : Compile α} {P : α → Prop}

theorem yields_pure {a : α} (holds : P a) : Yields inv (pure a) P := by
  intro st b st' before ran
  cases ran
  exact ⟨before, holds⟩

theorem yields_throw (fault : SchemaError) : Yields inv (throw fault : Compile α) P := by
  intro st b st' _ ran
  cases ran

theorem Yields.bind {f : α → Compile β} {result : β → Prop} (first : Yields inv c P)
    (rest : ∀ a, P a → Yields inv (f a) result) : Yields inv (c >>= f) result := by
  intro st b st' before ran
  obtain ⟨a, middle, ranFirst, ranRest⟩ := run_bind_eq_ok ran
  obtain ⟨kept, holds⟩ := first st a middle before ranFirst
  exact rest a holds middle b st' kept ranRest

theorem Yields.map {f : α → β} {result : β → Prop} (yields : Yields inv c P)
    (implies : ∀ a, P a → result (f a)) : Yields inv (f <$> c) result := by
  rw [map_eq_pure_bind]
  exact yields.bind fun a holds => yields_pure (implies a holds)

theorem Yields.mono {result : α → Prop} (yields : Yields inv c P)
    (implies : ∀ a, P a → result a) : Yields inv c result := by
  intro st a st' before ran
  obtain ⟨kept, holds⟩ := yields st a st' before ran
  exact ⟨kept, implies a holds⟩

theorem yields_get {f : CompilerState → Compile β} {result : β → Prop}
    (rest : ∀ st, inv st → Yields inv (f st) result) : Yields inv (get >>= f) result :=
  fun st b st' before ran => rest st before st b st' before ran

theorem yields_modify {f : CompilerState → CompilerState} (kept : ∀ st, inv st → inv (f st)) :
    Yields inv (modify f) fun _ => True := by
  intro st _ st' before ran
  cases ran
  exact ⟨kept st before, trivial⟩

theorem yields_mapM_of_mem {f : α → Compile β} {result : β → Prop} {items : List α}
    (each : ∀ a ∈ items, Yields inv (f a) result) :
    Yields inv (items.mapM f) fun results => ∀ b ∈ results, result b := by
  induction items with
  | nil =>
    rw [List.mapM_nil]
    exact yields_pure fun _ member => nomatch member
  | cons a items ih =>
    obtain ⟨first, rest⟩ := List.forall_mem_cons.1 each
    rw [List.mapM_cons]
    refine first.bind fun b holds => (ih rest).bind fun bs hold => yields_pure ?_
    exact List.forall_mem_cons.2 ⟨holds, hold⟩

theorem yields_mapM {f : α → Compile β} {result : β → Prop} (items : List α)
    (each : ∀ a, Yields inv (f a) result) :
    Yields inv (items.mapM f) fun results => ∀ b ∈ results, result b :=
  yields_mapM_of_mem fun a _ => each a

end Compile

open Compile

/-- An invariant says nothing about the parts of the state that compilation never reads. -/
def IgnoresUnread (inv : CompilerState → Prop) : Prop :=
  ∀ st symbols begun, inv st → inv { st with symbols, begun }

theorem yields_intern {inv : CompilerState → Prop} (ignores : IgnoresUnread inv) (name : String) :
    Yields inv (intern name) fun _ => True := by
  intro st _ st' before ran
  cases ran
  exact ⟨ignores _ _ _ before, trivial⟩

theorem yields_note {inv : CompilerState → Prop} (ignores : IgnoresUnread inv)
    (inProgress : List ComponentKey) (key : ComponentKey) :
    Yields inv (note inProgress key) fun _ => True :=
  yields_modify fun _ before => ignores _ _ _ before

theorem yields_internName {inv : CompilerState → Prop} (ignores : IgnoresUnread inv)
    (name : Component.QName) : Yields inv (internName name) fun result => result = name :=
  (yields_intern ignores _).bind fun _ _ => (yields_intern ignores _).bind fun _ _ =>
    yields_pure rfl

theorem Uniform.yields {α : Type} {f : Names → Compile α} (uniform : Uniform True f)
    {inv : CompilerState → Prop} (ignores : IgnoresUnread inv) {names : Names}
    (answers : ∀ q, Yields inv (names.ask q) fun _ => True) :
    Yields inv (f names) fun _ => True := by
  obtain ⟨program, -, runs⟩ := uniform
  rw [runs]
  clear runs
  induction program with
  | result a => exact yields_pure trivial
  | fail fault => exact yields_throw fault
  | intern name rest ih => exact (yields_intern ignores name).bind fun _ _ => ih
  | ask q rest ih => exact (answers q).bind fun answer _ => ih answer

end XmlSchema.Schema
