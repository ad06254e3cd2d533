import XmlSchema.Proofs.Schema.Memory

namespace XmlSchema.Schema

open Component
open Datatype (SimpleType)
open Xml (Element)
open Compile

namespace CompilationUnit

variable (unit : CompilationUnit)

def simpleTypeIn (d : Document) (e : Element) (name : QName) (type : ComplexType ElementDecl) :
    Compile SimpleType :=
  match type.content with
  | .simple type => pure type
  | _ => malformed d e (.notSimple name.localName)

def lenientFresh (names : Names) (d : Document) (e : Element) : (slot : Slot) → Compile slot.Value
  | .simpleType name =>
    match unit.definitionOf? (.complexType name) with
    | some definition => do
      let type ← (Slot.complexType name).body definition names
      simpleTypeIn d e name type
    | none => unit.fresh names d e (.simpleType name)
  | slot => unit.fresh names d e slot

def lenientAnswer (names : Names) (q : Query) : Compile q.Answer :=
  match unit.origin q with
  | .settled answer => answer
  | .slot d e slot view => view <$> unit.lenientFresh names d e slot

/-- How names are resolved leniently, if definitions do not nest too deeply. -/
def lenient : Nat → Names
  | 0 => unit.namesWithin 0 []
  | n + 1 => .answering unit.isElement unit.isType (unit.lenientAnswer (lenient n))

variable {unit} {n m : Nat} {d : Document} {e : Element} {names names' : Names}

theorem ask_lenient (q : Query) :
    (unit.lenient (n + 1)).ask q = unit.lenientAnswer (unit.lenient n) q := by
  cases q <;> rfl

theorem isElement_lenient : (unit.lenient n).isElement = unit.isElement := by cases n <;> rfl

theorem isType_lenient : (unit.lenient n).isType = unit.isType := by cases n <;> rfl

theorem lenientFresh_of_complex {name : QName} {definition : Definition}
    (found : unit.definitionOf? (.complexType name) = some definition) :
    unit.lenientFresh names d e (.simpleType name) =
      (Slot.complexType name).body definition names >>= simpleTypeIn d e name := by
  simp only [lenientFresh, found]

theorem lenientFresh_eq_fresh {slot : Slot}
    (notComplex : ∀ name, slot = .simpleType name →
      unit.definitionOf? (.complexType name) = none) :
    unit.lenientFresh names d e slot = unit.fresh names d e slot := by
  cases slot with
  | simpleType name => simp only [lenientFresh, notComplex name rfl]
  | _ => rfl

theorem definitionOf?_complexType_eq_none {name : QName} {definition : Definition}
    (found : unit.definitionOf? (.simpleType name) = some definition) :
    unit.definitionOf? (.complexType name) = none := by
  obtain ⟨defined, admits⟩ := Option.filter_eq_some_iff.1 found
  have isSimple : definition.element.name.localName = "simpleType" := by
    simpa [Slot.admits] using admits
  have others := @definitionOf?_eq_some unit (.complexType name) definition defined
  rw [others]
  simp [Slot.admits, isSimple]

theorem lenientFresh_of_definition {slot : Slot} {definition : Definition}
    (found : unit.definitionOf? slot = some definition) :
    unit.lenientFresh names d e slot = slot.body definition names := by
  have notComplex : ∀ name, slot = .simpleType name →
      unit.definitionOf? (.complexType name) = none := by
    rintro name rfl
    exact definitionOf?_complexType_eq_none found
  rw [lenientFresh_eq_fresh notComplex, fresh, found]

theorem stateless_simpleTypeIn (name : QName) (type : ComplexType ElementDecl) :
    (simpleTypeIn d e name type).Stateless := by
  unfold simpleTypeIn
  split
  · exact stateless_pure _
  · exact stateless_throw _

theorem gives_simpleTypeIn {name : QName} {type : ComplexType ElementDecl} {value : SimpleType} :
    (simpleTypeIn d e name type).Gives value ↔ type.content = .simple value := by
  unfold simpleTypeIn
  split
  · next content =>
    rw [content, gives_pure, ContentType.simple.injEq]
  · next notSimple =>
    exact ⟨fun gives => absurd gives not_gives_throw,
      fun content => absurd content (notSimple value)⟩

theorem gives_lenientFresh_complex {name : QName} {definition : Definition} {value : SimpleType}
    (found : unit.definitionOf? (.complexType name) = some definition)
    (stateless : names.Stateless) :
    (unit.lenientFresh names d e (.simpleType name)).Gives value ↔
      ∃ type : ComplexType ElementDecl,
        ((Slot.complexType name).body definition names).Gives type ∧
          type.content = .simple value := by
  rw [lenientFresh_of_complex found, Stateless.gives_bind_iff
    ((Slot.uniform_body definition _).stateless stateless) (stateless_simpleTypeIn name)]
  simp only [gives_simpleTypeIn]

theorem stateless_lenientFresh (stateless : names.Stateless) (slot : Slot) :
    (unit.lenientFresh names d e slot).Stateless := by
  cases slot with
  | simpleType name =>
    simp only [lenientFresh]
    split
    · exact ((Slot.uniform_body _ _).stateless stateless).bind (stateless_simpleTypeIn name)
    · exact stateless_fresh stateless _
  | _ => exact stateless_fresh stateless _

theorem stateless_lenient (n : Nat) : (unit.lenient n).Stateless := by
  induction n with
  | zero => exact stateless_plain_zero
  | succ n ih =>
    intro q
    rw [ask_lenient]
    unfold lenientAnswer
    split
    · next settled => exact (uniform_settled settled).stateless ih
    · exact (stateless_lenientFresh ih _).map _

theorem gives_lenientFresh_mono (stateless : names.Stateless)
    (better : ∀ q answer, (names.ask q).Gives answer → (names'.ask q).Gives answer) {slot : Slot}
    {value : slot.Value} (gives : (unit.lenientFresh names d e slot).Gives value) :
    (unit.lenientFresh names' d e slot).Gives value := by
  cases slot with
  | simpleType name =>
    cases found : unit.definitionOf? (.complexType name) with
    | some definition =>
      obtain ⟨type, givesType, content⟩ := (gives_lenientFresh_complex found stateless).1 gives
      rw [lenientFresh_of_complex found]
      exact ((Slot.uniform_body definition (.complexType name)).gives_mono stateless better
        givesType).bind (gives_simpleTypeIn.2 content)
    | none =>
      simp only [lenientFresh, found] at gives ⊢
      exact gives_fresh_mono stateless better gives
  | _ => exact gives_fresh_mono stateless better gives

theorem gives_lenient_succ (n : Nat) (q : Query) (answer : q.Answer)
    (gives : ((unit.lenient n).ask q).Gives answer) :
    ((unit.lenient (n + 1)).ask q).Gives answer := by
  induction n generalizing q with
  | zero =>
    cases q with
    | isElement d e name | isType d e name => exact gives
    | _ => exact absurd gives not_gives_throw
  | succ n ih =>
    rw [ask_lenient] at gives ⊢
    unfold lenientAnswer at gives ⊢
    split at gives
    · exact gives
    · have stateless : (unit.lenient n).Stateless := stateless_lenient n
      have stateless' : (unit.lenient (n + 1)).Stateless := stateless_lenient (n + 1)
      obtain ⟨value, holds, rfl⟩ := (stateless_lenientFresh stateless _).gives_map_iff.1 gives
      exact (stateless_lenientFresh stateless' _).gives_map_iff.2
        ⟨value, gives_lenientFresh_mono stateless ih holds, rfl⟩

theorem gives_lenient_mono (le : n ≤ m) (q : Query) (answer : q.Answer)
    (gives : ((unit.lenient n).ask q).Gives answer) : ((unit.lenient m).ask q).Gives answer := by
  induction le with
  | refl => exact gives
  | step _ ih => exact gives_lenient_succ _ q answer ih

theorem gives_lenient_mono_of_uniform {α : Type} {f : Names → Compile α} (uniform : Uniform True f)
    (le : n ≤ m) {a : α} (gives : (f (unit.lenient n)).Gives a) : (f (unit.lenient m)).Gives a :=
  uniform.gives_mono (stateless_lenient n) (gives_lenient_mono le) gives

theorem gives_lenientFresh_of_fresh {slot : Slot} {value : slot.Value}
    (gives : (unit.fresh names d e slot).Gives value) :
    (unit.lenientFresh names d e slot).Gives value := by
  rw [lenientFresh_eq_fresh]
  · exact gives
  · rintro name rfl
    -- Strictly, the name of a complex type of the unit has no answer here.
    cases found : unit.definitionOf? (.complexType name) with
    | none => rfl
    | some definition =>
      exfalso
      obtain ⟨defined, admits⟩ := Option.filter_eq_some_iff.1 found
      have isComplex : definition.element.name.localName = "complexType" := by
        simpa [Slot.admits] using admits
      have defined : unit.definition? .type name = some definition := defined
      have others := @definitionOf?_eq_some unit (.simpleType name) definition defined
      rw [fresh, others] at gives
      simp only [Slot.admits, isComplex, elsewhere, defined] at gives
      exact not_gives_throw gives

theorem gives_lenient_of_plain (n : Nat) (q : Query) (answer : q.Answer)
    (gives : ((unit.plain n).ask q).Gives answer) : ((unit.lenient n).ask q).Gives answer := by
  induction n generalizing q with
  | zero => exact gives
  | succ n ih =>
    rw [ask_plain, plainAnswer] at gives
    rw [ask_lenient, lenientAnswer]
    cases comes : unit.origin q with
    | settled answer' =>
      rw [comes] at gives
      exact gives
    | slot d e slot view =>
      rw [comes] at gives
      obtain ⟨value, holds, rfl⟩ := (stateless_fresh (stateless_plain n) slot).gives_map_iff.1 gives
      exact (stateless_lenientFresh (stateless_lenient n) _).gives_map_iff.2
        ⟨value, gives_lenientFresh_of_fresh (gives_fresh_mono (stateless_plain n) ih holds), rfl⟩

theorem gives_lenient_of_plain_of_uniform {α : Type} {f : Names → Compile α} (uniform : Uniform True f)
    {a : α} (gives : (f (unit.plain n)).Gives a) : (f (unit.lenient n)).Gives a :=
  uniform.gives_mono (stateless_plain n) (gives_lenient_of_plain n) gives

def MeansLeniently (unit : CompilationUnit) (n : Nat) (slot : Slot) (value : slot.Value) : Prop :=
  ∃ definition, unit.definitionOf? slot = some definition ∧
    (slot.body definition (unit.lenient n)).Gives value

theorem MeansLeniently.mono {slot : Slot} {value : slot.Value}
    (means : unit.MeansLeniently n slot value) (le : n ≤ m) : unit.MeansLeniently m slot value := by
  obtain ⟨definition, found, gives⟩ := means
  exact ⟨definition, found, gives_lenient_mono_of_uniform (slot.uniform_body definition) le gives⟩

theorem MeansLeniently.unique {slot : Slot} {value other : slot.Value}
    (means : unit.MeansLeniently n slot value) (meansOther : unit.MeansLeniently m slot other) :
    value = other := by
  obtain ⟨definition, found, gives⟩ := means.mono (Nat.le_max_left n m)
  obtain ⟨definition', found', gives'⟩ := meansOther.mono (Nat.le_max_right n m)
  obtain rfl : definition = definition' := Option.some.inj (found.symm.trans found')
  exact gives.unique gives'

theorem MeansLeniently.gives {slot : Slot} {value : slot.Value}
    (means : unit.MeansLeniently n slot value) (d : Document) (e : Element) :
    (unit.lenientFresh (unit.lenient n) d e slot).Gives value := by
  obtain ⟨definition, found, gives⟩ := means
  rwa [lenientFresh_of_definition found]

theorem MeansWithin.leniently {slot : Slot} {value : slot.Value}
    (means : unit.MeansWithin n slot value) : unit.MeansLeniently n slot value := by
  obtain ⟨definition, found, gives⟩ := means
  exact ⟨definition, found, gives_lenient_of_plain_of_uniform (slot.uniform_body definition) gives⟩

end CompilationUnit

end XmlSchema.Schema
