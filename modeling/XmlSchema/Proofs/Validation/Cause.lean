import XmlSchema.Validation.Frame

namespace XmlSchema

open Component ContentModel Datatype
open Instance (StartTag)

namespace Report.Cause

def isStructural : Cause → Bool
  | .root _ | .ns _ => true
  | _ => false

def isMissing : Cause → Bool
  | .violation (.missingType _) | .violation (.undeclaredElement _) => true
  | _ => false

def isSchema : Cause → Bool
  | .schema _ => true
  | _ => false

def isRequired (cause : Cause) : Bool := !cause.isStructural && !cause.isSchema

def isOrdinary (cause : Cause) : Bool := cause.isRequired && !cause.isMissing

@[simp] theorem isOrdinary_value (fault : ValueFault) : (value fault).isOrdinary = true := rfl

@[simp] theorem isOrdinary_violation (v : Validation.Violation) :
    (violation v).isOrdinary = !(violation v).isMissing := rfl

end Report.Cause

namespace Validation

open Report (Cause)

def Required (causes : List Cause) : Prop := ∀ cause ∈ causes, cause.isRequired = true

@[simp] theorem required_nil : Required [] := fun _ member => nomatch member

@[simp] theorem required_cons {cause : Cause} {causes : List Cause} :
    Required (cause :: causes) ↔ cause.isRequired = true ∧ Required causes :=
  List.forall_mem_cons

@[simp] theorem required_append {causes more : List Cause} :
    Required (causes ++ more) ↔ Required causes ∧ Required more :=
  List.forall_mem_append

@[simp] theorem isRequired_violated (v : Violation) : (violated v).isRequired = true := rfl

def Ordinary (causes : List Cause) : Prop := ∀ cause ∈ causes, cause.isOrdinary = true

@[simp] theorem ordinary_nil : Ordinary [] := fun _ member => nomatch member

@[simp] theorem ordinary_cons {cause : Cause} {causes : List Cause} :
    Ordinary (cause :: causes) ↔ cause.isOrdinary = true ∧ Ordinary causes :=
  List.forall_mem_cons

@[simp] theorem ordinary_append {causes more : List Cause} :
    Ordinary (causes ++ more) ↔ Ordinary causes ∧ Ordinary more :=
  List.forall_mem_append

theorem Ordinary.required {causes : List Cause} (ordinary : Ordinary causes) : Required causes := by
  intro cause member
  have isOrdinary := ordinary cause member
  rw [Cause.isOrdinary, Bool.and_eq_true] at isOrdinary
  exact isOrdinary.1

theorem isOrdinary_violated {v : Violation} (present : (violated v).isMissing = false) :
    (violated v).isOrdinary = true := by
  rw [violated, Cause.isOrdinary_violation]
  simpa [violated] using present

theorem ordinary_map {α : Type} {f : α → Violation} {items : List α}
    (each : ∀ item, (violated (f item)).isMissing = false) :
    Ordinary (items.map fun item => violated (f item)) := by
  intro cause member
  obtain ⟨item, _, rfl⟩ := List.mem_map.1 member
  exact isOrdinary_violated (each item)

variable {pool : Pool} {frame : Frame} {tag : StartTag}

theorem ordinary_checkElementValue {type : SimpleType} {decl : ElementDecl}
    {text element : String} : Ordinary (checkElementValue type decl text element) := by
  unfold checkElementValue
  dsimp only
  generalize (if text.isEmpty then emptyValue decl else text) = raw
  cases type.validate raw with
  | error fault => simp [violated, Cause.isMissing]
  | ok value => cases decl.fixed? with
    | none => simp
    | some fixed =>
      dsimp only
      split <;> simp [violated, Cause.isMissing]

theorem ordinary_checkAttributeValue {decl : AttributeDecl} {given : Instance.Attribute}
    {element : String} : Ordinary (checkAttributeValue decl given element) := by
  unfold checkAttributeValue
  dsimp only
  cases decl.type.validate given.value with
  | error fault => simp [violated, Cause.isMissing]
  | ok value => cases decl.fixed? with
    | none => simp
    | some fixed =>
      dsimp only
      split <;> simp [violated, Cause.isMissing]

theorem ordinary_checkAttribute {type : ComplexType ElementDecl} {element : String}
    {given : Instance.Attribute} : Ordinary (checkAttribute pool type element given) := by
  unfold checkAttribute
  dsimp only
  repeat' split
  all_goals first
    | exact ordinary_checkAttributeValue
    | simp [violated, Cause.isMissing]

theorem ordinary_checkAttributes {type : ComplexType ElementDecl} {element : String} :
    Ordinary (checkAttributes pool type tag element) := by
  refine ordinary_append.2 ⟨fun cause member => ?_, ordinary_map fun _ => rfl⟩
  obtain ⟨given, _, member⟩ := List.mem_flatMap.1 member
  exact ordinary_checkAttribute cause member

theorem ordinary_chooseType {element : String} {identity : TypeIdentity}
    {declared : TypeDefinition ElementDecl} :
    Ordinary (chooseType pool tag element identity declared).2.2 := by
  unfold chooseType
  repeat' split
  all_goals simp [violated, Cause.isMissing]

theorem ordinary_checkNil {decl : ElementDecl} : Ordinary (checkNil decl tag).2 := by
  unfold checkNil
  cases tag.value? nilAttribute with
  | none => simp
  | some value =>
    dsimp only
    generalize Text.trim value = said
    split <;> cases decl.nillable <;> cases decl.fixed? <;>
      simp [violated, Cause.isMissing]

theorem ordinary_characters {text : String} : Ordinary (frame.characters text).2 := by
  unfold Frame.characters
  split
  · simp
  · simp
  · next violation use =>
    have missing : (violated violation).isMissing = false := by
      unfold Frame.textUse at use
      repeat' split at use
      all_goals first | cases use; rfl | cases use
    split <;> simp [isOrdinary_violated missing]

theorem ordinary_close : Ordinary frame.close := by
  unfold Frame.close
  repeat' split
  all_goals first
    | exact ordinary_checkElementValue
    | simp [violated, Cause.isMissing]

theorem required_strictLookup {name : QName} {missing : Violation} :
    Required (strictLookup pool name missing).2 := by
  unfold strictLookup
  split <;> simp

theorem required_resolveInModel {model : ContentModel ElementDecl} {state : State} {name : QName} :
    Required (resolveInModel pool model state name).2.2 := by
  unfold resolveInModel resolveLabel
  dsimp only
  repeat' split
  all_goals first | exact required_strictLookup | simp

theorem required_child {name : QName} : Required (frame.child pool name).2.2 := by
  simp only [Frame.child]
  repeat' split
  all_goals first | exact required_resolveInModel | simp

inductive Opens (opened : SchemaChecks → Frame × SchemaChecks × List Cause) : Prop where
  | unchecked (frame : Frame) (causes : List Cause) (required : Required causes)
      (eq : ∀ checks, opened checks = (frame, checks, causes))
  | checked (frame : Frame) (identity : TypeIdentity) (type : ComplexType ElementDecl)
      (isType : ∃ state decl, frame.kind = .complex type state decl) (before after : List Cause)
      (required : Required (before ++ after))
      (eq : ∀ checks, opened checks = (frame, (checks.report identity type).1,
        before ++ (checks.report identity type).2 ++ after))

theorem opens_openComplex {before : List Cause} (required : Required before)
    (identity : TypeIdentity) (type : ComplexType ElementDecl) (decl : ElementDecl) (nil : Bool) :
    Opens fun checks =>
      let (frame, checks, causes) := openComplex pool checks identity type decl nil tag
      (frame, checks, before ++ causes) := by
  have ofAbstract : Required (if type.isAbstract then
      [violated (.abstractType tag.name.localName)] else []) := by
    split <;> simp
  have ofAttributes : Required (checkAttributes pool type tag tag.name.localName) :=
    ordinary_checkAttributes.required
  have all := required_append.2 ⟨required_append.2 ⟨required, ofAbstract⟩, ofAttributes⟩
  refine .checked { localName := tag.name.localName, kind := .complex type (startState type) decl, nil }
    identity type ⟨_, _, rfl⟩ _ _ all fun checks => ?_
  simp only [openComplex, List.append_assoc]

theorem opens_openFrame (pool : Pool) (resolution : Resolution) (tag : StartTag) :
    Opens (openFrame pool · resolution tag) := by
  cases resolution with
  | skip => exact .unchecked _ [] required_nil fun _ => rfl
  | lax => exact .unchecked _ [] required_nil fun _ => rfl
  | declared decl =>
    have ofAbstract : Required (if decl.isAbstract then
        [violated (.abstractElement tag.name.localName)] else []) := by
      split <;> simp
    cases found : pool.typeOf? decl.type with
    | none =>
      simp only [openFrame, openDeclared, found]
      exact .unchecked _ _ (required_append.2 ⟨ofAbstract, by simp⟩) fun _ => rfl
    | some declared =>
      have ofType : Required
          (chooseType pool tag tag.name.localName decl.type.identity declared).2.2 :=
        ordinary_chooseType.required
      have ofNil : Required (checkNil decl tag).2 := ordinary_checkNil.required
      have before := required_append.2 ⟨required_append.2 ⟨ofAbstract, ofType⟩, ofNil⟩
      simp only [openFrame, openDeclared, found]
      cases (chooseType pool tag tag.name.localName decl.type.identity declared).2.1 with
      | simple type =>
        exact .unchecked _ _
          (required_append.2 ⟨before, (ordinary_map fun _ => rfl).required⟩) fun _ => rfl
      | anyType => exact opens_openComplex before _ .anyType decl _
      | complex type => exact opens_openComplex before _ type decl _

end Validation

end XmlSchema
