import XmlSchema.Component.Name
import XmlSchema.Instance.Reference
import XmlSchema.Instance.Token
import XmlSchema.Text.Basic
import XmlSchema.Xml.Name
import XmlSchema.Xml.Reader

namespace XmlSchema.Instance

open Component (QName)

structure RawAttribute where
  key : Bytes
  value : Bytes
  deriving DecidableEq, Repr

inductive AttributeFault where
  | equalsExpected (position : Nat)
  | valueExpected (position : Nat)
  | quoteExpected (position : Nat)
  | quoteUnclosed (position : Nat) (quote : Char)
  | duplicate (position previous : Nat)
  deriving DecidableEq, Repr

def AttributeFault.message : AttributeFault → String
  | .equalsExpected position =>
    s!"position {position}: attribute key must be directly followed by `=` or space"
  | .valueExpected position => s!"position {position}: `=` must be followed by an attribute value"
  | .quoteExpected position =>
    s!"position {position}: attribute value must be enclosed in `\"` or `'`"
  | .quoteUnclosed position quote =>
    s!"position {position}: missing closing quote `{quote}` in attribute value"
  | .duplicate position previous =>
    s!"position {position}: duplicated attribute, previous declaration at position {previous}"

structure Cursor where
  position : Nat
  rest : Bytes

namespace Cursor

def span (c : Cursor) (p : UInt8 → Bool) : Bytes × Cursor :=
  let read := c.rest.takeWhile p
  (read, ⟨c.position + read.length, c.rest.dropWhile p⟩)

def skipBlanks (c : Cursor) : Cursor := (c.span isBlankByte).2

end Cursor

def elementName (content : Bytes) : Bytes := content.takeWhile fun b => !isBlankByte b

def afterName (content : Bytes) : Cursor :=
  ((Cursor.mk 0 content).span fun b => !isBlankByte b).2

def readKey (first : UInt8) (c : Cursor) : Except AttributeFault (Bytes × Cursor) :=
  let (more, c) := c.span fun b => !isBlankByte b && b != '='.toUInt8
  let c := c.skipBlanks
  match c.rest with
  | [] => .error (.equalsExpected c.position)
  | b :: rest =>
    if b == '='.toUInt8 then .ok (first :: more, ⟨c.position + 1, rest⟩)
    else .error (.equalsExpected c.position)

def readValue (c : Cursor) : Except AttributeFault (Bytes × Cursor) :=
  let c := c.skipBlanks
  match c.rest with
  | [] => .error (.valueExpected c.position)
  | quote :: rest =>
    if quote == '"'.toUInt8 || quote == '\''.toUInt8 then
      let (value, c) := (Cursor.mk (c.position + 1) rest).span (· != quote)
      match c.rest with
      | [] => .error (.quoteUnclosed c.position (Char.ofNat quote.toNat))
      | _ :: rest => .ok (value, ⟨c.position + 1, rest⟩)
    else .error (.quoteExpected c.position)

/-- Reads an attribute, if there is one more. Some keys may have been read before, each of which is
given with its place. The result has the place of the attribute. -/
def readAttribute? (keys : List (Bytes × Nat)) (c : Cursor) :
    Option (Except AttributeFault (RawAttribute × Nat × Cursor)) :=
  let start := c.skipBlanks
  match start.rest with
  | [] => none
  | first :: rest => some do
    let (key, c) ← readKey first ⟨start.position + 1, rest⟩
    if let some (_, previous) := keys.find? (·.1 == key) then
      throw (.duplicate start.position previous)
    let (value, c) ← readValue c
    pure (⟨key, value⟩, start.position, c)

structure AttributeList where
  attributes : List RawAttribute
  fault? : Option AttributeFault

/-- Reads as many attributes as fuel permits. An attribute has more than one byte. -/
def readAttributes (distinct : Bool) : Nat → List (Bytes × Nat) → Cursor → AttributeList
  | 0, _, _ => ⟨[], none⟩
  | fuel + 1, keys, c =>
    match readAttribute? keys c with
    | none => ⟨[], none⟩
    | some (.error fault) => ⟨[], some fault⟩
    | some (.ok (item, position, c)) =>
      let keys := if distinct then (item.key, position) :: keys else keys
      let ⟨attributes, fault?⟩ := readAttributes distinct fuel keys c
      ⟨item :: attributes, fault?⟩

/-- The attributes in the content of a tag, up to the first that cannot be read. If they are to be
distinct, one with the key of an earlier one cannot be read. -/
def attributesOf (distinct : Bool) (content : Bytes) : AttributeList :=
  readAttributes distinct content.length [] (afterName content)

structure Declaration where
  label : Option Bytes
  uri : Bytes
  deriving DecidableEq, Repr

/-- The declarations that hold at some place, the latest one first. -/
abbrev Scope := List Declaration

inductive DeclarationFault where
  | xmlPrefix (uri : Bytes)
  | xmlnsPrefix (uri : Bytes)
  | xmlNamespace (label : Bytes)
  | xmlnsNamespace (label : Bytes)
  deriving DecidableEq, Repr

def hexByte (b : UInt8) : String := (String.ofList (Nat.toDigits 16 b.toNat)).toUpper

def quotedBytes (bytes : Bytes) : String :=
  let shown (b : UInt8) : String :=
    if b == '"'.toUInt8 then "\\\""
    else if 0x20 ≤ b && b ≤ 0x7E then String.singleton (Char.ofNat b.toNat)
    else "0x" ++ hexByte b
  "\"" ++ String.join (bytes.map shown) ++ "\""

def DeclarationFault.message : DeclarationFault → String
  | .xmlPrefix uri => s!"the namespace prefix 'xml' cannot be bound to '{quotedBytes uri}'"
  | .xmlnsPrefix uri => s!"the namespace prefix 'xmlns' cannot be bound to '{quotedBytes uri}'"
  | .xmlNamespace label =>
    s!"the namespace prefix '{quotedBytes label}' cannot be bound to '{Xml.xmlUri}'"
  | .xmlnsNamespace label =>
    s!"the namespace prefix '{quotedBytes label}' cannot be bound to '{Xml.xmlnsUri}'"

def Scope.initial : Scope :=
  [⟨some (ascii "xmlns"), ascii Xml.xmlnsUri⟩, ⟨some (ascii "xml"), ascii Xml.xmlUri⟩]

def declaredLabel? (key : Bytes) : Option (Option Bytes) :=
  if key == ascii "xmlns" then some none
  else if (ascii "xmlns:").isPrefixOf key then some (some (key.drop 6))
  else none

def isDeclaration (key : Bytes) : Bool := (declaredLabel? key).isSome

namespace Scope

def declare (scope : Scope) (item : RawAttribute) : Except DeclarationFault Scope :=
  let uri := item.value
  match declaredLabel? item.key with
  | none => .ok scope
  | some none => .ok (⟨none, uri⟩ :: scope)
  | some (some label) =>
    if label == ascii "xml" then
      if uri == ascii Xml.xmlUri then .ok scope else .error (.xmlPrefix uri)
    else if label == ascii "xmlns" then .error (.xmlnsPrefix uri)
    else if uri == ascii Xml.xmlUri then .error (.xmlNamespace label)
    else if uri == ascii Xml.xmlnsUri then .error (.xmlnsNamespace label)
    else .ok (⟨some label, uri⟩ :: scope)

def enter (scope : Scope) (content : Bytes) : Except DeclarationFault Scope :=
  (attributesOf false content).attributes.foldlM declare scope

/-- The namespace that a prefix stands for. A declaration with an empty namespace takes the meaning
of the prefix away. -/
def uri? (scope : Scope) (label : Bytes) : Option Bytes :=
  match scope.find? (·.label == some label) with
  | some d => if d.uri.isEmpty then none else some d.uri
  | none => none

def defaultUri (scope : Scope) : Bytes :=
  ((scope.find? (·.label == none)).map (·.uri)).getD []

end Scope

def splitName (name : Bytes) : Option Bytes × Bytes :=
  let isLabel := fun b => b != ':'.toUInt8
  match name.dropWhile isLabel with
  | [] => (none, name)
  | _ :: localPart => (some (name.takeWhile isLabel), localPart)

structure Attribute where
  name : QName
  value : String
  deriving DecidableEq, Repr

structure TypeRequest where
  text : String
  name? : Option QName
  deriving DecidableEq, Repr

structure StartTag where
  name : QName
  attributes : List Attribute
  typeRequest? : Option TypeRequest
  deriving DecidableEq, Repr

def StartTag.value? (tag : StartTag) (name : QName) : Option String :=
  (tag.attributes.find? fun a => a.name == name).map (·.value)

inductive ContentFault where
  | encoding (fault : Utf8.Fault)
  | reference (fault : ReferenceFault)
  deriving DecidableEq, Repr

def ContentFault.message : ContentFault → String
  | .encoding fault => "cannot decode input using UTF-8: " ++ fault.message
  | .reference fault => fault.message

def readContent (bytes : Bytes) : Except ContentFault String := do
  let text ← (Utf8.decode bytes).mapError .encoding
  (replaceReferences text).mapError .reference

inductive TagFault where
  | elementName (name : String)
  | elementPrefix (label name : String)
  | attributeSyntax (fault : AttributeFault)
  | attributeName (name element : String)
  | attributePrefix (label name element : String)
  | content (fault : ContentFault)
  | illegalChar (c : Char) (name element : String)
  deriving DecidableEq, Repr

def charNumber (c : Char) : String := "0x" ++ String.ofList (Nat.toDigits 16 c.toNat)

def TagFault.message : TagFault → String
  | .elementName name => s!"Element type \"{name}\" is not a legal XML name."
  | .elementPrefix label name => s!"The prefix \"{label}\" for element \"{name}\" is not bound."
  | .attributeSyntax fault => fault.message
  | .attributeName name element =>
    s!"Attribute name \"{name}\" associated with an element type \"{element}\" is not a legal XML name."
  | .attributePrefix label name element =>
    s!"The prefix \"{label}\" for attribute \"{name}\" associated with an element type \"{element}\" is not bound."
  | .content fault => fault.message
  | .illegalChar c name element =>
    s!"An invalid XML character (Unicode: {charNumber c}) was found in the value of attribute \"{name}\" and element is \"{element}\"."

/-- The name that some bytes stand for in a scope. Without a prefix it is in the given namespace.
The error is a prefix without a meaning. -/
def resolveName (scope : Scope) (unprefixed : Bytes) (name : Bytes) : Except Bytes QName :=
  match splitName name with
  | (none, localName) => .ok ⟨Utf8.decodeLossy unprefixed, Utf8.decodeLossy localName⟩
  | (some label, localName) =>
    match scope.uri? label with
    | some uri => .ok ⟨Utf8.decodeLossy uri, Utf8.decodeLossy localName⟩
    | none => .error label

def readOneAttribute (scope : Scope) (element : String) (raw : RawAttribute) :
    Except TagFault (Option Attribute) := do
  let name := Utf8.decodeLossy raw.key
  if !Xml.isQName name.toList then throw (.attributeName name element)
  if isDeclaration raw.key then return none
  let resolved ← (resolveName scope [] raw.key).mapError fun label =>
    .attributePrefix (Utf8.decodeLossy label) name element
  let value ← (readContent raw.value).mapError .content
  match Xml.firstIllegalChar? value.toList with
  | some c => throw (.illegalChar c name element)
  | none => return some ⟨resolved, value⟩

def readAllAttributes (scope : Scope) (element : String) (list : AttributeList) :
    Except TagFault (List Attribute) := do
  let attributes ← list.attributes.mapM (readOneAttribute scope element)
  match list.fault? with
  | some fault => throw (.attributeSyntax fault)
  | none => pure (attributes.filterMap id)

def typeAttribute : QName := ⟨Component.instanceNamespace, "type"⟩

def TypeRequest.ofValue (scope : Scope) (value : String) : TypeRequest :=
  let text := Text.trim value
  ⟨text, (resolveName scope scope.defaultUri (Utf8.encode text)).toOption⟩

def StartTag.read (scope : Scope) (content : Bytes) : Except TagFault StartTag := do
  let rawName := elementName content
  let element := Utf8.decodeLossy rawName
  if !Xml.isQName element.toList then throw (.elementName element)
  let name ← (resolveName scope scope.defaultUri rawName).mapError fun label =>
    .elementPrefix (Utf8.decodeLossy label) element
  let attributes ← readAllAttributes scope element (attributesOf true content)
  let request := attributes.find? fun a => a.name == typeAttribute
  pure ⟨name, attributes, request.map fun a => .ofValue scope a.value⟩

end XmlSchema.Instance
