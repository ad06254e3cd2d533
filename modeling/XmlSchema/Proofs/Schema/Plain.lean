import XmlSchema.Proofs.Schema.Coverage
import XmlSchema.Proofs.Schema.Slot
import XmlSchema.Proofs.Schema.Uniform

namespace XmlSchema.Schema

open Component
open Xml (Element)

namespace Compile

variable {α β : Type}

def Gives (c : Compile α) (a : α) : Prop := ∀ st, (c.run st).1 = .ok a

def Stateless (c : Compile α) : Prop := ∀ st st', (c.run st).1 = (c.run st').1

theorem Gives.run {c : Compile α} {a : α} (gives : c.Gives a) (st : CompilerState) :
    ∃ st', c.run st = (.ok a, st') :=
  ⟨(c.run st).2, Prod.ext (gives st) rfl⟩

theorem Gives.unique {c : Compile α} {a b : α} (gives : c.Gives a) (gives' : c.Gives b) : a = b :=
  Except.ok.inj ((gives {}).symm.trans (gives' {}))

theorem Gives.post {c : Compile α} {P : α → Prop} {a : α} (gives : c.Gives a)
    (yields : Yields (fun _ => True) c P) : P a := by
  obtain ⟨st', ran⟩ := gives.run {}
  exact (yields {} a st' trivial ran).2

theorem Stateless.gives_of_run {c : Compile α} {a : α} {st st' : CompilerState}
    (stateless : c.Stateless) (ran : c.run st = (.ok a, st')) : c.Gives a := fun other => by
  rw [stateless other st, ran]

theorem Stateless.gives_of_canGive {c : Compile α} {a : α} (stateless : c.Stateless)
    (gives : c.CanGive a) : c.Gives a := by
  obtain ⟨st, st', ran⟩ := gives
  exact stateless.gives_of_run ran

theorem stateless_pure (a : α) : Stateless (pure a) := fun _ _ => rfl

theorem stateless_throw (fault : SchemaError) : Stateless (throw fault : Compile α) := fun _ _ => rfl

theorem stateless_modify (f : CompilerState → CompilerState) : Stateless (modify f) := fun _ _ => rfl

theorem Stateless.bind {c : Compile α} {f : α → Compile β} (first : c.Stateless)
    (rest : ∀ a, (f a).Stateless) : (c >>= f).Stateless := by
  intro st st'
  have same := first st st'
  rcases ran : c.run st with ⟨fault | a, middle⟩ <;>
    rcases ran' : c.run st' with ⟨fault' | a', middle'⟩ <;>
    rw [ran, ran'] at same <;> cases same
  · rw [run_bind_error ran, run_bind_error ran']
  · rw [run_bind_ok ran, run_bind_ok ran', rest a]

theorem Stateless.map {c : Compile α} (stateless : c.Stateless) (f : α → β) :
    (f <$> c).Stateless := by
  rw [map_eq_pure_bind]
  exact stateless.bind fun _ => stateless_pure _

theorem gives_pure {a b : α} : Gives (pure a) b ↔ a = b := by
  constructor
  · intro gives
    exact Except.ok.inj (gives {})
  · rintro rfl st
    rfl

theorem not_gives_throw {fault : SchemaError} {a : α} : ¬Gives (throw fault) a :=
  fun gives => nomatch gives {}

theorem Gives.bind {c : Compile α} {f : α → Compile β} {a : α} {b : β} (first : c.Gives a)
    (rest : (f a).Gives b) : (c >>= f).Gives b := by
  intro st
  obtain ⟨middle, ran⟩ := first.run st
  rw [run_bind_ok ran]
  exact rest middle

theorem Stateless.gives_bind_iff {c : Compile α} {f : α → Compile β} {b : β}
    (first : c.Stateless) (rest : ∀ a, (f a).Stateless) :
    (c >>= f).Gives b ↔ ∃ a, c.Gives a ∧ (f a).Gives b := by
  constructor
  · intro gives
    obtain ⟨st', ran⟩ := gives.run {}
    obtain ⟨a, middle, ranFirst, ranRest⟩ := run_bind_eq_ok ran
    exact ⟨a, first.gives_of_run ranFirst, (rest a).gives_of_run ranRest⟩
  · rintro ⟨a, gives, givesRest⟩
    exact gives.bind givesRest

theorem Stateless.gives_map_iff {c : Compile α} {f : α → β} {b : β} (stateless : c.Stateless) :
    (f <$> c).Gives b ↔ ∃ a, c.Gives a ∧ f a = b := by
  rw [map_eq_pure_bind, stateless.gives_bind_iff fun _ => stateless_pure _]
  simp only [gives_pure]

end Compile

open Compile

def Names.Stateless (names : Names) : Prop := ∀ q, (names.ask q).Stateless

theorem Uniform.stateless {α : Type} {f : Names → Compile α} (uniform : Uniform True f) {names : Names}
    (answers : names.Stateless) : (f names).Stateless := by
  obtain ⟨program, -, runs⟩ := uniform
  rw [runs]
  clear runs
  induction program with
  | result a => exact stateless_pure a
  | fail fault => exact stateless_throw fault
  | intern name rest ih => exact (stateless_modify _).bind fun _ => ih
  | ask q rest ih => exact (answers q).bind fun answer => ih answer

theorem Uniform.gives_mono {α : Type} {f : Names → Compile α} (uniform : Uniform True f)
    {names names' : Names} (stateless : names.Stateless)
    (better : ∀ q answer, (names.ask q).Gives answer → (names'.ask q).Gives answer) {a : α}
    (gives : (f names).Gives a) : (f names').Gives a := by
  have runStateless (program : Program α) := program.uniform.stateless stateless
  obtain ⟨program, -, runs⟩ := uniform
  rw [runs] at gives ⊢
  clear runs
  induction program with
  | result b => exact gives
  | fail fault => exact gives
  | intern name rest ih =>
    obtain ⟨_, _, givesRest⟩ :=
      ((stateless_modify _).gives_bind_iff fun _ => runStateless rest).1 gives
    exact Gives.bind (fun _ => rfl) (ih givesRest)
  | ask q rest ih =>
    obtain ⟨answer, answered, givesRest⟩ :=
      ((stateless q).gives_bind_iff fun answer => runStateless (rest answer)).1 gives
    exact (better q answer answered).bind (ih answer givesRest)

def Names.answering (isElement isType : QName → Bool) (answer : (q : Query) → Compile q.Answer) :
    Names where
  isElement := isElement
  isType := isType
  simpleType d e name := answer (.simpleType d e name)
  complexType d e name := answer (.complexType d e name)
  type d e name := answer (.type d e name)
  group d e name := answer (.group d e name)
  attributeGroup d e name := answer (.attributeGroup d e name)
  attributeDecl d e name := answer (.attributeDecl d e name)

namespace CompilationUnit

variable (unit : CompilationUnit)

/-- What a slot would hold, by names that are known already. -/
def fresh (names : Names) (d : Document) (e : Element) (slot : Slot) : Compile slot.Value :=
  match unit.definitionOf? slot with
  | none => unit.elsewhere d e slot
  | some definition => slot.body definition names

def plainAnswer (names : Names) (q : Query) : Compile q.Answer :=
  match unit.origin q with
  | .settled answer => answer
  | .slot d e slot view => view <$> unit.fresh names d e slot

/-- How the names in a unit are resolved without slots, if definitions do not nest too deeply. -/
def plain : Nat → Names
  | 0 => unit.namesWithin 0 []
  | n + 1 => .answering unit.isElement unit.isType (unit.plainAnswer (plain n))

variable {unit} {n m : Nat} {d : Document} {e : Element} {stops : Prop}

theorem ask_plain (q : Query) :
    (unit.plain (n + 1)).ask q = unit.plainAnswer (unit.plain n) q := by
  cases q <;> rfl

theorem isElement_plain : (unit.plain n).isElement = unit.isElement := by cases n <;> rfl

theorem isType_plain : (unit.plain n).isType = unit.isType := by cases n <;> rfl

theorem stateless_plain_zero {unit : CompilationUnit} : (unit.plain 0).Stateless := by
  intro q
  cases q with
  | isElement d e name | isType d e name =>
    simp only [Names.ask]
    split
    · exact stateless_pure _
    · exact stateless_throw _
  | _ => exact stateless_throw _

theorem uniform_elsewhere (slot : Slot) : Uniform stops fun _ => unit.elsewhere d e slot := by
  cases slot with
  | simpleType name =>
    simp only [elsewhere]
    split
    · exact .throw False.elim
    · unfold earlierSimpleType
      split
      · exact .pure _
      · split
        · exact .pure _
        · exact .throw False.elim
      · exact .throw False.elim
  | complexType name =>
    simp only [elsewhere]
    split
    · exact .throw False.elim
    · split
      · split
        · exact .pure _
        · exact .throw False.elim
      · exact .throw False.elim
  | group name | attributeGroup name | «attribute» name =>
    simp only [elsewhere]
    split
    · exact .pure _
    · exact .throw False.elim

theorem uniform_known {known : Bool} (name : QName) (kind : String) : Uniform stops fun _ =>
    (if known then pure () else unresolved d e name kind : Compile Unit) := by
  split
  · exact .pure _
  · exact .unresolved _ _ _ _

theorem uniform_settled {q : Query} {answer : Compile q.Answer}
    (settled : unit.origin q = .settled answer) : Uniform stops fun _ => answer := by
  cases q with
  | isElement d e name | isType d e name =>
    cases settled
    exact uniform_known _ _
  | simpleType d e name | complexType d e name =>
    simp only [origin] at settled
    split at settled
    · cases settled
      split
      · exact .pure _
      all_goals exact .throw False.elim
    · cases settled
  | type d e name =>
    simp only [origin] at settled
    split at settled
    · cases settled
      split
      · exact .pure _
      · exact .throw False.elim
    · split at settled
      · split at settled <;> cases settled
      · cases settled
        split
        · exact .pure _
        · exact .throw False.elim
  | group d e name | attributeGroup d e name => cases settled
  | attributeDecl d e name =>
    simp only [origin] at settled
    split at settled
    · cases settled
      exact .bind (.internName _) fun _ => .pure _
    · cases settled

theorem stateless_fresh {names : Names} (stateless : names.Stateless) (slot : Slot) :
    (unit.fresh names d e slot).Stateless := by
  unfold fresh
  split
  · exact (uniform_elsewhere slot).stateless stateless
  · exact (slot.uniform_body _).stateless stateless

theorem stateless_plainAnswer {names : Names} (stateless : names.Stateless) (q : Query) :
    (unit.plainAnswer names q).Stateless := by
  unfold plainAnswer
  split
  · next settled => exact (uniform_settled settled).stateless stateless
  · exact (stateless_fresh stateless _).map _

theorem stateless_plain (n : Nat) : (unit.plain n).Stateless := by
  induction n with
  | zero => exact stateless_plain_zero
  | succ n ih =>
    intro q
    rw [ask_plain]
    exact stateless_plainAnswer ih q

theorem gives_fresh_mono {names names' : Names} (stateless : names.Stateless)
    (better : ∀ q answer, (names.ask q).Gives answer → (names'.ask q).Gives answer) {slot : Slot}
    {value : slot.Value} (gives : (unit.fresh names d e slot).Gives value) :
    (unit.fresh names' d e slot).Gives value := by
  unfold fresh at gives ⊢
  split at gives
  · exact gives
  · exact (slot.uniform_body _).gives_mono stateless better gives

theorem gives_plain_succ (n : Nat) (q : Query) (answer : q.Answer)
    (gives : ((unit.plain n).ask q).Gives answer) : ((unit.plain (n + 1)).ask q).Gives answer := by
  induction n generalizing q with
  | zero =>
    cases q with
    | isElement d e name | isType d e name => exact gives
    | _ => exact absurd gives not_gives_throw
  | succ n ih =>
    rw [ask_plain] at gives ⊢
    unfold plainAnswer at gives ⊢
    split at gives
    · exact gives
    · obtain ⟨value, holds, rfl⟩ := (stateless_fresh (stateless_plain n) _).gives_map_iff.1 gives
      exact (stateless_fresh (stateless_plain (n + 1)) _).gives_map_iff.2
        ⟨value, gives_fresh_mono (stateless_plain n) ih holds, rfl⟩

theorem exists_fresh_of_gives {q : Query} {slot : Slot} {view : slot.Value → q.Answer}
    {answer : q.Answer} (comes : unit.origin q = .slot d e slot view)
    (gives : ((unit.plain n).ask q).Gives answer) :
    ∃ value, (unit.fresh (unit.plain n) d e slot).Gives value ∧ view value = answer := by
  have later := gives_plain_succ n q answer gives
  rw [ask_plain, plainAnswer, comes] at later
  exact (stateless_fresh (stateless_plain n) slot).gives_map_iff.1 later

theorem gives_plain_mono (le : n ≤ m) (q : Query) (answer : q.Answer)
    (gives : ((unit.plain n).ask q).Gives answer) : ((unit.plain m).ask q).Gives answer := by
  induction le with
  | refl => exact gives
  | step _ ih => exact gives_plain_succ _ q answer ih

theorem gives_mono_of_uniform {α : Type} {f : Names → Compile α} (uniform : Uniform True f) (le : n ≤ m)
    {a : α} (gives : (f (unit.plain n)).Gives a) : (f (unit.plain m)).Gives a :=
  uniform.gives_mono (stateless_plain n) (gives_plain_mono le) gives

end CompilationUnit

end XmlSchema.Schema
