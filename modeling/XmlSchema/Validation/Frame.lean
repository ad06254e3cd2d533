import XmlSchema.Component.Grammar
import XmlSchema.Report.Basic

namespace XmlSchema.Validation

open Component ContentModel Datatype
open Instance (StartTag Attribute)
open Report (Cause)

def violated (v : Violation) : Cause := .violation v

inductive Resolution where
  | declared (decl : ElementDecl)
  | lax
  | skip

inductive FrameKind where
  | skip
  | lax
  | complex (type : ComplexType ElementDecl) (state : State) (decl : ElementDecl)
  | simple (type : SimpleType) (decl : ElementDecl)

structure Frame where
  localName : String
  kind : FrameKind
  text : String := ""
  nil : Bool := false
  /-- Whether a text has been complained of that may not stand here. -/
  textReported : Bool := false

def laxLookup (pool : Pool) (name : QName) : Resolution :=
  match pool.element? name with
  | some decl => .declared decl
  | none => .lax

def strictLookup (pool : Pool) (name : QName) (missing : Violation) : Resolution × List Cause :=
  match pool.element? name with
  | some decl => (.declared decl, [])
  | none => (.lax, [violated missing])

def resolveLabel (pool : Pool) (name : QName) : Label ElementDecl → Resolution × List Cause
  | .element ⟨_, some decl⟩ => (.declared decl, [])
  | .element ⟨global, none⟩ => strictLookup pool global (.undeclaredElement name.localName)
  | .wildcard w =>
    match w.process with
    | .skip => (.skip, [])
    | .lax => (laxLookup pool name, [])
    | .strict => strictLookup pool name (.undeclaredForWildcard name.localName)

/-- How a child is checked that a content model meets in some state, and the state after it. -/
def resolveInModel (pool : Pool) (model : ContentModel ElementDecl) (state : State) (name : QName) :
    Resolution × State × List Cause :=
  match model.step state name with
  | some (label, next) =>
    let (resolution, causes) := resolveLabel pool name label
    (resolution, next, causes)
  | none =>
    (laxLookup pool name, state, [violated (.unexpectedElement name (model.expected state))])

def resolveRoot (pool : Pool) (name : QName) : Resolution × List Cause :=
  strictLookup pool name (.undeclaredElement name.localName)

/-- How a child is checked, and the frame of its parent after it. -/
def Frame.child (pool : Pool) (parent : Frame) (name : QName) : Resolution × Frame × List Cause :=
  if parent.nil then (.skip, parent, [violated (.contentOfNil parent.localName)])
  else match parent.kind with
    | .skip => (.skip, parent, [])
    | .lax => (laxLookup pool name, parent, [])
    | .simple .. => (.skip, parent, [violated (.childOfSimpleType parent.localName)])
    | .complex type state decl =>
      match type.content with
      | .empty => (.skip, parent, [violated (.contentOfEmpty parent.localName)])
      | .simple _ => (.skip, parent, [violated (.childOfSimpleContent parent.localName)])
      | .elementOnly model | .mixed model =>
        let (resolution, state, causes) := resolveInModel pool model state name
        (resolution, { parent with kind := .complex type state decl }, causes)

def nilAttribute : QName := ⟨instanceNamespace, "nil"⟩

def checkNil (decl : ElementDecl) (tag : StartTag) : Bool × List Cause :=
  match tag.value? nilAttribute with
  | none => (false, [])
  | some value =>
    let element := decl.name.localName
    let decide (nil : Bool) : Bool × List Cause :=
      if !decl.nillable then (false, [violated (.notNillable element)])
      else (nil, if nil && decl.fixed?.isSome then [violated (.nilWithFixed element)] else [])
    match Text.trim value with
    | "true" | "1" => decide true
    | "false" | "0" => decide false
    | other => (false, [violated (.invalidNil other)])

def checkAttributeValue (decl : AttributeDecl) (given : Attribute) (element : String) :
    List Cause :=
  let localName := given.name.localName
  match decl.type.validate given.value with
  | .ok value =>
    match decl.fixed? with
    | some fixed =>
      if value == decl.type.whiteSpace.apply fixed then []
      else [violated (.attributeNotFixed given.value localName element fixed)]
    | none => []
  | .error fault =>
    [.value fault,
      violated (.attributeInvalid given.value localName element decl.type.displayName)]

def checkAttribute (pool : Pool) (type : ComplexType ElementDecl) (element : String)
    (given : Attribute) : List Cause :=
  let notAllowed := [violated (.attributeNotAllowed given.name.localName element)]
  if given.name.ns == instanceNamespace then []
  else match type.attribute? given.name with
    | some use => checkAttributeValue use.decl given element
    | none =>
      match type.attributeWildcard with
      | none => notAllowed
      | some w =>
        if !w.allows given.name.ns then notAllowed
        else match w.process, pool.attribute? given.name with
          | .skip, _ => []
          | _, some decl => checkAttributeValue decl given element
          | .strict, none => notAllowed
          | .lax, none => []

def missingAttributes (type : ComplexType ElementDecl) (tag : StartTag) (element : String) :
    List Cause :=
  let missing := type.attributes.filter fun use =>
    use.required && !tag.attributes.any fun a => a.name == use.decl.name
  missing.map fun use => violated (.attributeMissing use.decl.name.localName element)

def checkAttributes (pool : Pool) (type : ComplexType ElementDecl) (tag : StartTag)
    (element : String) : List Cause :=
  tag.attributes.flatMap (checkAttribute pool type element) ++ missingAttributes type tag element

def checkSimpleTypeAttributes (tag : StartTag) (element : String) : List Cause :=
  (tag.attributes.filter fun a => a.name.ns != instanceNamespace).map fun a =>
    violated (.attributeOfSimpleType a.name.localName element)

abbrev TypeIdentity := QName ⊕ TypeKey

/-- The type of an element: the declared one, or the one that the element asks for if it derives
from that. -/
def chooseType (pool : Pool) (tag : StartTag) (element : String) (identity : TypeIdentity)
    (declared : TypeDefinition ElementDecl) :
    TypeIdentity × TypeDefinition ElementDecl × List Cause :=
  match tag.typeRequest? with
  | none => (identity, declared, [])
  | some request =>
    match request.name? with
    | none => (identity, declared, [violated (.unknownType request.text element)])
    | some name =>
      match pool.type? name with
      | none => (identity, declared, [violated (.unknownType request.text element)])
      | some type =>
        if pool.isDerivedFrom type declared then (.inl name, type, [])
        else (identity, declared,
          [violated (.typeNotDerived request.text declared.displayName element)])

def startState (type : ComplexType ElementDecl) : State :=
  match type.content with
  | .elementOnly model | .mixed model => model.start
  | _ => .empty

/-- The types whose violations of conditions on schemas are to be reported, and those for which
this has been done. -/
structure SchemaChecks where
  enabled : Bool
  done : List TypeIdentity := []

/-- The violations of a type that have not been reported yet. -/
def SchemaChecks.report (checks : SchemaChecks) (identity : TypeIdentity)
    (type : ComplexType ElementDecl) : SchemaChecks × List Cause :=
  if !checks.enabled || type.violations.isEmpty || checks.done.contains identity then (checks, [])
  else ({ checks with done := identity :: checks.done }, type.violations.map .schema)

def openComplex (pool : Pool) (checks : SchemaChecks) (identity : TypeIdentity)
    (type : ComplexType ElementDecl) (decl : ElementDecl) (nil : Bool) (tag : StartTag) :
    Frame × SchemaChecks × List Cause :=
  let element := tag.name.localName
  let (checks, schemaCauses) := checks.report identity type
  ({ localName := element, kind := .complex type (startState type) decl, nil }, checks,
    (if type.isAbstract then [violated (.abstractType element)] else []) ++ schemaCauses ++
      checkAttributes pool type tag element)

def openDeclared (pool : Pool) (checks : SchemaChecks) (decl : ElementDecl) (tag : StartTag) :
    Frame × SchemaChecks × List Cause :=
  let element := tag.name.localName
  let abstractCauses := if decl.isAbstract then [violated (.abstractElement element)] else []
  match pool.typeOf? decl.type with
  | none =>
    ({ localName := element, kind := .lax }, checks,
      abstractCauses ++ [violated (.missingType element)])
  | some declared =>
    let (identity, type, typeCauses) := chooseType pool tag element decl.type.identity declared
    let (nil, nilCauses) := checkNil decl tag
    let before := abstractCauses ++ typeCauses ++ nilCauses
    match type with
    | .simple type =>
      ({ localName := element, kind := .simple type decl, nil }, checks,
        before ++ checkSimpleTypeAttributes tag element)
    | .anyType =>
      let (frame, checks, causes) := openComplex pool checks identity .anyType decl nil tag
      (frame, checks, before ++ causes)
    | .complex type =>
      let (frame, checks, causes) := openComplex pool checks identity type decl nil tag
      (frame, checks, before ++ causes)

def openFrame (pool : Pool) (checks : SchemaChecks) (resolution : Resolution) (tag : StartTag) :
    Frame × SchemaChecks × List Cause :=
  match resolution with
  | .skip => ({ localName := tag.name.localName, kind := .skip }, checks, [])
  | .lax => ({ localName := tag.name.localName, kind := .lax }, checks, [])
  | .declared decl => openDeclared pool checks decl tag

inductive TextUse where
  | ignored
  | collected
  | forbidden (violation : Violation)

def Frame.textUse (frame : Frame) : TextUse :=
  if frame.nil then .forbidden (.contentOfNil frame.localName)
  else match frame.kind with
    | .skip | .lax => .ignored
    | .simple .. => .collected
    | .complex type _ _ =>
      match type.content with
      | .simple _ => .collected
      | .mixed _ => .ignored
      | .empty => .forbidden (.contentOfEmpty frame.localName)
      | .elementOnly _ => .forbidden (.textInElementOnly frame.localName)

/-- The frame after some text. Text that may not stand there is reported once. -/
def Frame.characters (frame : Frame) (text : String) : Frame × List Cause :=
  match frame.textUse with
  | .ignored => (frame, [])
  | .collected => ({ frame with text := frame.text ++ text }, [])
  | .forbidden violation =>
    if Instance.Progress.isBlankText text || frame.textReported then (frame, [])
    else ({ frame with textReported := true }, [violated violation])

def emptyValue (decl : ElementDecl) : String := (decl.default?.or decl.fixed?).getD ""

def checkElementValue (type : SimpleType) (decl : ElementDecl) (text element : String) :
    List Cause :=
  let raw := if text.isEmpty then emptyValue decl else text
  match type.validate raw with
  | .ok value =>
    match decl.fixed? with
    | some fixed =>
      if value == type.whiteSpace.apply fixed then []
      else [violated (.elementNotFixed value element fixed)]
    | none => []
  | .error fault => [.value fault, violated (.elementInvalid raw element)]

def Frame.close (frame : Frame) : List Cause :=
  if frame.nil then []
  else match frame.kind with
    | .skip | .lax => []
    | .simple type decl => checkElementValue type decl frame.text frame.localName
    | .complex type state decl =>
      match type.content with
      | .empty => []
      | .simple type => checkElementValue type decl frame.text frame.localName
      | .elementOnly model | .mixed model =>
        if model.isAccepting state then []
        else [violated (.incompleteContent frame.localName (model.expected state))]

end XmlSchema.Validation
