import XmlSchema.Component.Name
import XmlSchema.Files.Tree
import XmlSchema.Schema.Error
import XmlSchema.Xml.Reader

namespace XmlSchema.Schema

open Component (schemaNamespace)
open Xml (Element)

structure Source where
  ns : Option String := none
  systemId : String
  content : Option String := none
  deriving DecidableEq, Repr

def isRemote (location : String) : Bool := Text.occursIn "://".toList location.toList

def withoutFileScheme (location : String) : String :=
  if location.startsWith "file://" then (location.drop "file://".length).toString else location

def Source.load (files : Files.Tree) (source : Source) : Except SchemaError String :=
  match source.content with
  | some text => .ok text
  | none =>
    let location := withoutFileScheme source.systemId
    if isRemote location then .error (.unsupported source.systemId .remote)
    else match files.readText location with
      | .ok text => .ok text
      | .error .notFound => .error (.sourceNotFound source.systemId)
      | .error .invalidText => .error (.unreadable source.systemId .notText)
      | .error fault => .error (.unreadable source.systemId (.words fault.message))

def normalizeLocation (location : String) : String :=
  if isRemote location then location else (Files.Path.ofText location).normalize.text

def beforeLastSlash (text : String) : String :=
  "/".intercalate (Text.cutAt '/' text).dropLast

def resolveLocation (base location : String) : String :=
  if isRemote location || location.startsWith "/" then normalizeLocation location
  else if isRemote base then beforeLastSlash base ++ "/" ++ location
  else
    let path := Files.Path.ofText location
    match (Files.Path.ofText base).parent? with
    | some directory => (directory.append path).normalize.text
    | none => normalizeLocation location

def isSchemaElement (e : Element) : Bool :=
  e.name.ns == some schemaNamespace && e.name.localName != "annotation"

def schemaChildren (e : Element) : List Element := e.children.filter isSchemaElement

def schemaChild? (e : Element) (name : String) : Option Element :=
  (schemaChildren e).find? fun c => c.name.localName == name

def isTrue (e : Element) (name : String) : Bool :=
  e.attribute? name == some "true" || e.attribute? name == some "1"

def parse (systemId text : String) : Except SchemaError Element :=
  match Xml.parse? text with
  | none => .error (.malformed systemId .notWellFormed)
  | some root =>
    if root.name == ⟨some schemaNamespace, "schema"⟩ then .ok root
    else .error (.malformed systemId (.notSchema root.name.localName))

structure UnitText where
  systemId : String
  content : String
  source : String
  /-- The namespace of the document that includes this one. -/
  includer : Option String

structure Library where
  catalog : List (String × String)
  files : Option Files.Tree

namespace Library

/-- The catalog of some sources with their texts. The last source of a name counts. -/
def ofSources (sources : List (String × String)) (files : Option Files.Tree) : Library where
  catalog := (sources.map fun (systemId, text) => (normalizeLocation systemId, text)).reverse
  files := files

def source? (lib : Library) (location : String) : Option String := lib.catalog.lookup location

def discover? (lib : Library) (location : String) : Option String :=
  if isRemote location then none
  else lib.files.bind fun files => (files.readText location).toOption

end Library

def targetOf (root : Element) (includer : Option String) : String :=
  (root.attribute? "targetNamespace" <|> includer).getD ""

/-- The documents that some children of the root of a document refer to. `known` tells which
namespaces are compiled already. -/
def referencedBy (lib : Library) (known : String → Bool) (text : UnitText) (target : String) :
    List Element → Except SchemaError (List UnitText)
  | [] => .ok []
  | child :: rest => do
    let first ← match child.attribute? "schemaLocation" with
      | none => pure none
      | some location =>
        let resolved := resolveLocation text.systemId location
        match child.name.localName with
        | "include" =>
          match lib.source? resolved <|> lib.discover? resolved with
          | none => throw (.sourceNotFound resolved)
          | some content => pure (some (content, some target, resolved))
        | "import" =>
          if known ((child.attribute? "namespace").getD "") || (lib.source? resolved).isSome then
            pure none
          else pure ((lib.discover? resolved).map fun content => (content, none, resolved))
        | _ => pure none
    let others ← referencedBy lib known text target rest
    pure (match first with
      | some (content, includer, systemId) =>
        { systemId, content, source := text.source, includer } :: others
      | none => others)

def referencedDocuments (lib : Library) (known : String → Bool) (text : UnitText) :
    Except SchemaError (List UnitText) := do
  let root ← parse text.systemId text.content
  referencedBy lib known text (targetOf root text.includer) (schemaChildren root)

/-- Gathers the documents of a stack and all that they refer to, each once. `fuel` bounds the number
of documents. -/
def gather (lib : Library) (known : String → Bool) (fuel : Nat) (seen : List String) :
    List UnitText → Except SchemaError (List UnitText)
  | [] => .ok []
  | text :: stack =>
    let name := normalizeLocation text.systemId
    if seen.contains name then gather lib known fuel seen stack
    else
      match fuel with
      | 0 => .ok []
      | fuel + 1 => do
        let referenced ← referencedDocuments lib known text
        pure (text :: (← gather lib known fuel (name :: seen) (referenced.reverse ++ stack)))
termination_by stack => (fuel, stack.length)

def unitTexts (lib : Library) (known : String → Bool) (sources : List (String × String)) :
    Except SchemaError (List UnitText) :=
  let bound := sources.length + lib.catalog.length + (lib.files.map (·.entries.length)).getD 0
  gather lib known (bound + 1) [] (sources.map fun (systemId, content) =>
    { systemId, content, source := systemId, includer := none })

structure Document where
  systemId : String
  source : String
  root : Element
  target : String
  /-- Whether the document takes the namespace of the one that includes it. -/
  adopted : Bool
  elementsQualified : Bool
  attributesQualified : Bool

def Document.ofRoot (text : UnitText) (root : Element) : Except SchemaError Document :=
  let own := root.attribute? "targetNamespace"
  if own == some "" then .error (.malformed text.systemId .emptyTarget)
  else .ok
    { systemId := text.systemId, source := text.source, root
      target := targetOf root text.includer
      adopted := own.isNone && text.includer.isSome
      elementsQualified := root.attribute? "elementFormDefault" == some "qualified"
      attributesQualified := root.attribute? "attributeFormDefault" == some "qualified" }

def documents (texts : List UnitText) : Except SchemaError (List Document) := do
  let roots ← texts.mapM fun text => parse text.systemId text.content
  (texts.zip roots).mapM fun (text, root) => Document.ofRoot text root

end XmlSchema.Schema
