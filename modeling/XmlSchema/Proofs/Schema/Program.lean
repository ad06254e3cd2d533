import XmlSchema.Schema.Resolution

/-!
# Definitions as programs

The meaning of a definition depends on how names are resolved only through the answers to the
questions that it asks. A program says which names are asked for next and what is done with the
answer (`Program`), and every definition runs some program, whatever the names are (`Uniform`). What
two ways of resolving names have in common carries over to all definitions by one induction over
programs.
-/

/-- An error says that a bound on how deeply definitions nest has been reached. -/
def XmlSchema.SchemaError.IsUnfinished : XmlSchema.SchemaError → Prop
  | .malformed _ (.component _ .unfinished) => True
  | _ => False

namespace XmlSchema.Schema

open Component
open ContentModel (Particle)
open Datatype (SimpleType)
open Xml (Element)

inductive Query where
  | isElement (d : Document) (e : Element) (name : QName)
  | isType (d : Document) (e : Element) (name : QName)
  | simpleType (d : Document) (e : Element) (name : QName)
  | complexType (d : Document) (e : Element) (name : QName)
  | type (d : Document) (e : Element) (name : QName)
  | group (d : Document) (e : Element) (name : QName)
  | attributeGroup (d : Document) (e : Element) (name : QName)
  | attributeDecl (d : Document) (e : Element) (name : QName)

def Query.Answer : Query → Type
  | .isElement .. | .isType .. => Unit
  | .simpleType .. => SimpleType
  | .complexType .. => ComplexType ElementDecl
  | .type .. => TypeDefinition ElementDecl
  | .group .. => Particle ElementDecl
  | .attributeGroup .. => AttributeGroup
  | .attributeDecl .. => AttributeDecl

def Names.ask (names : Names) : (q : Query) → Compile q.Answer
  | .isElement d e name =>
    if names.isElement name then pure () else Compile.unresolved d e name "element declaration"
  | .isType d e name =>
    if names.isType name then pure () else Compile.unresolved d e name "type definition"
  | .simpleType d e name => names.simpleType d e name
  | .complexType d e name => names.complexType d e name
  | .type d e name => names.type d e name
  | .group d e name => names.group d e name
  | .attributeGroup d e name => names.attributeGroup d e name
  | .attributeDecl d e name => names.attributeDecl d e name

namespace CompilationUnit

variable (unit : CompilationUnit) (nesting : Nat) (inProgress : List ComponentKey) (d : Document)
  (e : Element) (name : QName)

theorem isElement_namesWithin : (unit.namesWithin nesting inProgress).isElement = unit.isElement := by
  cases nesting <;> rfl

theorem isType_namesWithin : (unit.namesWithin nesting inProgress).isType = unit.isType := by
  cases nesting <;> rfl

theorem ask_simpleType : (unit.namesWithin (nesting + 1) inProgress).ask (.simpleType d e name) =
    unit.simpleType (fun key => unit.namesWithin nesting (key :: inProgress)) inProgress d e name :=
  rfl

theorem ask_complexType : (unit.namesWithin (nesting + 1) inProgress).ask (.complexType d e name) =
    unit.complexType (fun key => unit.namesWithin nesting (key :: inProgress)) inProgress d e name :=
  rfl

theorem ask_type : (unit.namesWithin (nesting + 1) inProgress).ask (.type d e name) =
    unit.type (fun key => unit.namesWithin nesting (key :: inProgress)) inProgress d e name :=
  rfl

theorem ask_group : (unit.namesWithin (nesting + 1) inProgress).ask (.group d e name) =
    unit.group (fun key => unit.namesWithin nesting (key :: inProgress)) inProgress d e name :=
  rfl

theorem ask_attributeGroup :
    (unit.namesWithin (nesting + 1) inProgress).ask (.attributeGroup d e name) =
    unit.attributeGroup (fun key => unit.namesWithin nesting (key :: inProgress)) inProgress d e name :=
  rfl

theorem ask_attributeDecl :
    (unit.namesWithin (nesting + 1) inProgress).ask (.attributeDecl d e name) =
      unit.attributeDecl (unit.namesWithin nesting inProgress) inProgress d e name :=
  rfl

end CompilationUnit

inductive Program (α : Type) where
  | result (a : α)
  | fail (fault : SchemaError)
  | intern (name : String) (rest : Program α)
  | ask (q : Query) (rest : q.Answer → Program α)

namespace Program

variable {α β : Type}

@[simp]
def run (names : Names) : Program α → Compile α
  | .result a => pure a
  | .fail fault => throw fault
  | .intern name rest => do
    Compile.intern name
    rest.run names
  | .ask q rest => do
    let answer ← names.ask q
    (rest answer).run names

def bind (next : α → Program β) : Program α → Program β
  | .result a => next a
  | .fail fault => .fail fault
  | .intern name rest => .intern name (rest.bind next)
  | .ask q rest => .ask q fun answer => (rest answer).bind next

theorem run_bind (names : Names) (program : Program α) (next : α → Program β) :
    (program.bind next).run names = program.run names >>= fun a => (next a).run names := by
  induction program with
  | result a => simp [bind]
  | fail fault => rfl
  | intern name rest ih => simp [bind, ih]
  | ask q rest ih => simp [bind, ih]

/-- A program gives up by itself, whatever the answers to its questions are. -/
def Stops : Program α → Prop
  | .result _ => False
  | .fail fault => fault.IsUnfinished
  | .intern _ rest => rest.Stops
  | .ask _ rest => ∃ answer, (rest answer).Stops

theorem stops_of_bind {program : Program α} {next : α → Program β}
    (stops : (program.bind next).Stops) : program.Stops ∨ ∃ a, (next a).Stops := by
  induction program with
  | result a => exact .inr ⟨a, stops⟩
  | fail fault => exact .inl stops
  | intern name rest ih => exact ih stops
  | ask q rest ih =>
    obtain ⟨answer, stops⟩ := stops
    exact (ih answer stops).imp_left fun stops => ⟨answer, stops⟩

end Program

/-- A compilation uses names only by asking questions. It reaches a bound on how deeply definitions
nest only if it `stops`, and otherwise leaves that to the answers. -/
def Uniform (stops : Prop) {α : Type} (f : Names → Compile α) : Prop :=
  ∃ program : Program α, (program.Stops → stops) ∧ ∀ names, f names = program.run names

theorem Program.uniform {α : Type} (program : Program α) :
    Uniform True fun names => program.run names := ⟨program, fun _ => trivial, fun _ => rfl⟩

namespace Uniform

variable {stops : Prop} {α β : Type} {f : Names → Compile α}

theorem pure (a : α) : Uniform stops fun _ => (Pure.pure a : Compile α) :=
  ⟨.result a, False.elim, fun _ => rfl⟩

theorem throw {fault : SchemaError} (ends : fault.IsUnfinished → stops) :
    Uniform stops fun _ => (MonadExcept.throw fault : Compile α) :=
  ⟨.fail fault, ends, fun _ => rfl⟩

theorem malformed (d : Document) (e : Element) {fault : ComponentFault}
    (ends : (SchemaError.malformed d.systemId (.component e.line fault)).IsUnfinished → stops) :
    Uniform stops fun _ => (Compile.malformed d e fault : Compile α) := throw ends

theorem unresolved (d : Document) (e : Element) (name : QName) (kind : String) :
    Uniform stops fun _ => (Compile.unresolved d e name kind : Compile α) := throw False.elim

theorem intern (name : String) : Uniform stops fun _ => Compile.intern name :=
  ⟨.intern name (.result ()), False.elim, fun _ => by simp⟩

theorem bind {g : Names → α → Compile β} (first : Uniform stops f)
    (rest : ∀ a, Uniform stops fun names => g names a) :
    Uniform stops fun names => f names >>= g names := by
  obtain ⟨program, ends, runs⟩ := first
  have programs : ∀ a, ∃ program : Program β, (program.Stops → stops) ∧
      ∀ names, g names a = program.run names := rest
  obtain ⟨next, isNext⟩ := Classical.axiomOfChoice programs
  refine ⟨program.bind next, fun stopped => ?_, fun names => ?_⟩
  · rcases Program.stops_of_bind stopped with first | ⟨a, later⟩
    · exact ends first
    · exact (isNext a).1 later
  · simp only [Program.run_bind, runs]
    exact congrArg (program.run names >>= ·) (funext fun a => (isNext a).2 names)

theorem internName (name : QName) : Uniform stops fun _ => Compile.internName name :=
  bind (intern _) fun _ => bind (intern _) fun _ => pure _

theorem ask (q : Query) : Uniform stops fun names => names.ask q :=
  ⟨.ask q .result, fun ⟨_, stopped⟩ => stopped.elim, fun _ => by simp⟩

theorem simpleType (d : Document) (e : Element) (name : QName) :
    Uniform stops fun names => names.simpleType d e name := ask (.simpleType d e name)

theorem complexType (d : Document) (e : Element) (name : QName) :
    Uniform stops fun names => names.complexType d e name := ask (.complexType d e name)

theorem type (d : Document) (e : Element) (name : QName) :
    Uniform stops fun names => names.type d e name := ask (.type d e name)

theorem group (d : Document) (e : Element) (name : QName) :
    Uniform stops fun names => names.group d e name := ask (.group d e name)

theorem attributeGroup (d : Document) (e : Element) (name : QName) :
    Uniform stops fun names => names.attributeGroup d e name := ask (.attributeGroup d e name)

theorem attributeDecl (d : Document) (e : Element) (name : QName) :
    Uniform stops fun names => names.attributeDecl d e name := ask (.attributeDecl d e name)

theorem ifElement (d : Document) (e : Element) (name : QName) (uniform : Uniform stops f) :
    Uniform stops fun names => if names.isElement name then f names
      else Compile.unresolved d e name "element declaration" := by
  obtain ⟨program, ends, runs⟩ := uniform
  refine ⟨.ask (.isElement d e name) fun _ => program, fun ⟨_, stopped⟩ => ends stopped,
    fun names => ?_⟩
  simp only [Program.run, Names.ask, runs]
  by_cases known : names.isElement name = true
  · simp only [known, if_true]
    rfl
  · simp only [known, Bool.false_eq_true, if_false]
    rfl

theorem ifType (d : Document) (e : Element) (name : QName) (uniform : Uniform stops f) :
    Uniform stops fun names => if names.isType name then f names
      else Compile.unresolved d e name "type definition" := by
  obtain ⟨program, ends, runs⟩ := uniform
  refine ⟨.ask (.isType d e name) fun _ => program, fun ⟨_, stopped⟩ => ends stopped,
    fun names => ?_⟩
  simp only [Program.run, Names.ask, runs]
  by_cases known : names.isType name = true
  · simp only [known, if_true]
    rfl
  · simp only [known, Bool.false_eq_true, if_false]
    rfl

theorem mapM {g : Names → α → Compile β} {items : List α}
    (uniform : ∀ a ∈ items, Uniform stops fun names => g names a) :
    Uniform stops fun names => items.mapM (g names) := by
  induction items with
  | nil => simpa using pure []
  | cons a items ih =>
    obtain ⟨first, rest⟩ := List.forall_mem_cons.1 uniform
    simpa using bind first fun _ => bind (ih rest) fun _ => pure _

theorem forM {g : α → Compile Unit} (uniform : ∀ a, Uniform stops fun _ => g a) (items : List α) :
    Uniform stops fun _ => items.forM g := by
  induction items with
  | nil => simpa using pure ()
  | cons a items ih => simpa using bind (uniform a) fun _ => ih

end Uniform

end XmlSchema.Schema
