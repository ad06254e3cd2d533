import XmlSchema.Proofs.ContentModel.Run
import XmlSchema.Validation.Frame

namespace XmlSchema.Validation

open Component ContentModel Datatype
open Instance (Event StartTag Attribute)

mutual

structure ElementTree where
  tag : StartTag
  content : List ContentNode

inductive ContentNode where
  | text (piece : String)
  | child (element : ElementTree)

end

mutual

def ElementTree.events : ElementTree → List Event
  | ⟨tag, content⟩ => .start tag :: (contentEvents content ++ [.finish])

def contentEvents : List ContentNode → List Event
  | [] => []
  | .text piece :: rest => .text piece :: contentEvents rest
  | .child element :: rest => element.events ++ contentEvents rest

end

def childNames : List ContentNode → List QName
  | [] => []
  | .text _ :: rest => childNames rest
  | .child element :: rest => element.tag.name :: childNames rest

def wholeText : List ContentNode → String
  | [] => ""
  | .text piece :: rest => piece ++ wholeText rest
  | .child _ :: rest => wholeText rest

def governingType? (pool : Pool) (decl : ElementDecl) (tag : StartTag) :
    Option (TypeDefinition ElementDecl) := do
  let declared ← pool.typeOf? decl.type
  match tag.typeRequest? with
  | none => some declared
  | some request =>
    let type ← pool.type? (← request.name?)
    if pool.isDerivedFrom type declared then some type else none

def nil? (decl : ElementDecl) (tag : StartTag) : Option Bool :=
  match tag.value? nilAttribute with
  | none => some false
  | some value =>
    match Text.trim value with
    | "true" | "1" => if decl.nillable && decl.fixed?.isNone then some true else none
    | "false" | "0" => if decl.nillable then some false else none
    | _ => none

def isValueOf (type : SimpleType) (fixed? : Option String) (text : String) : Bool :=
  match type.validate text with
  | .ok value => fixed?.all fun fixed => value == type.whiteSpace.apply fixed
  | .error _ => false

def allowsAttribute (pool : Pool) (type : ComplexType ElementDecl) (given : Attribute) : Bool :=
  given.name.ns == instanceNamespace ||
    match type.attribute? given.name with
    | some use => isValueOf use.decl.type use.decl.fixed? given.value
    | none => type.attributeWildcard.any fun w =>
      w.allows given.name.ns &&
        match w.process, pool.attribute? given.name with
        | .skip, _ => true
        | _, some decl => isValueOf decl.type decl.fixed? given.value
        | .strict, none => false
        | .lax, none => true

/-- Whether the attributes of an element are those that its type allows and demands. -/
def acceptsAttributes (pool : Pool) (tag : StartTag) : TypeDefinition ElementDecl → Bool
  | .simple _ => tag.attributes.all fun a => a.name.ns == instanceNamespace
  | .anyType => ofComplex .anyType
  | .complex type => ofComplex type
where
  ofComplex (type : ComplexType ElementDecl) : Bool :=
    tag.attributes.all (allowsAttribute pool type) &&
      type.attributes.all fun use =>
        !use.required || tag.attributes.any fun a => a.name == use.decl.name

inductive ChildDemand where
  | unchecked
  | lax
  | none
  | model (model : ContentModel ElementDecl)

inductive TextDemand where
  | anything
  | blank
  | value (type : SimpleType) (decl : ElementDecl)

def complexDemands (decl : ElementDecl) (type : ComplexType ElementDecl) :
    ChildDemand × TextDemand :=
  match type.content with
  | .empty => (.none, .blank)
  | .simple type => (.none, .value type decl)
  | .elementOnly model => (.model model, .blank)
  | .mixed model => (.model model, .anything)

def contentDemands (decl : ElementDecl) : TypeDefinition ElementDecl → ChildDemand × TextDemand
  | .simple type => (.none, .value type decl)
  | .anyType => complexDemands decl .anyType
  | .complex type => complexDemands decl type

def isAbstractType : TypeDefinition ElementDecl → Bool
  | .complex type => type.isAbstract
  | _ => false

def demands? (pool : Pool) (resolution : Resolution) (tag : StartTag) :
    Option (ChildDemand × TextDemand) :=
  match resolution with
  | .skip => some (.unchecked, .anything)
  | .lax => some (.lax, .anything)
  | .declared decl => do
    let type ← governingType? pool decl tag
    let nil ← nil? decl tag
    if !decl.isAbstract && !isAbstractType type && acceptsAttributes pool tag type then
      some (if nil then (.none, .blank) else contentDemands decl type)
    else Option.none

def labelResolution? (pool : Pool) (name : QName) : Label ElementDecl → Option Resolution
  | .element ⟨_, some decl⟩ => some (.declared decl)
  | .element ⟨global, Option.none⟩ => (pool.element? global).map .declared
  | .wildcard w =>
    match w.process with
    | .skip => some .skip
    | .lax => some (laxLookup pool name)
    | .strict => (pool.element? name).map .declared

def ChildDemand.resolution? (pool : Pool) (before : List QName) (name : QName) :
    ChildDemand → Option Resolution
  | .unchecked => some .skip
  | .lax => some (laxLookup pool name)
  | .none => Option.none
  | .model m => do
    let (label, _) ← m.step (← m.run m.start before) name
    labelResolution? pool name label

def ChildDemand.admits (names : List QName) : ChildDemand → Bool
  | .unchecked | .lax => true
  | .none => names.isEmpty
  | .model m => m.accepts names

def TextDemand.admits (text : String) : TextDemand → Bool
  | .anything => true
  | .blank => Instance.Progress.isBlankText text
  | .value type decl =>
    isValueOf type decl.fixed? (if text.isEmpty then (decl.default?.or decl.fixed?).getD "" else text)

mutual

def ElementTree.isValid (pool : Pool) (resolution : Resolution) : ElementTree → Bool
  | ⟨tag, content⟩ =>
    match demands? pool resolution tag with
    | none => false
    | some (children, text) =>
      children.admits (childNames content) && text.admits (wholeText content) &&
        childrenAreValid pool children [] content

def childrenAreValid (pool : Pool) (demand : ChildDemand) (before : List QName) :
    List ContentNode → Bool
  | [] => true
  | .text _ :: rest => childrenAreValid pool demand before rest
  | .child element :: rest =>
    (match demand.resolution? pool before element.tag.name with
      | none => false
      | some resolution => element.isValid pool resolution) &&
      childrenAreValid pool demand (before ++ [element.tag.name]) rest

end

/-- Whether an element is valid as the root of a document. It must be declared globally. -/
def ElementTree.isValidRoot (pool : Pool) (t : ElementTree) : Bool :=
  match pool.element? t.tag.name with
  | none => false
  | some decl => t.isValid pool (.declared decl)

end XmlSchema.Validation
