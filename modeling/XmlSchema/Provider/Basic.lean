import XmlSchema.Files.Path
import XmlSchema.Provider.Hint
import XmlSchema.Validation.Session

namespace XmlSchema.Provider

open Structure (RootPath)
open Validation (Options Outcome)

structure Context where
  properties : List (String × String) := []
  rootPaths? : Option (List RootPath) := none
  ignoreUnknownNamespaces? : Option Bool := none
  fullSchemaChecking? : Option Bool := none
  reasonsSink? : Option String := none
  xmlReasonsSink? : Option String := none

def documentPathProperty : String := "xsdgate.document.path"

namespace Context

def property? (c : Context) (name : String) : Option String := c.properties.lookup name

def setProperty (c : Context) (name value : String) : Context :=
  { c with properties := (name, value) :: c.properties.filter (·.1 != name) }

def ofPath (path : String) : Context := { properties := [(documentPathProperty, path)] }

/-- The options for a document: those of its context go before the given ones. -/
def options (c : Context) (defaults : Options) : Options :=
  { defaults with
    rootPaths := c.rootPaths?.getD defaults.rootPaths
    ignoreUnknownNamespaces := c.ignoreUnknownNamespaces?.getD defaults.ignoreUnknownNamespaces
    fullSchemaChecking := c.fullSchemaChecking?.getD defaults.fullSchemaChecking }

def writeReport (c : Context) (outcome : Outcome) : Context :=
  let c := match c.reasonsSink? with
    | some name => c.setProperty name outcome.report.plainText
    | none => c
  match c.xmlReasonsSink? with
  | some name => c.setProperty name outcome.report.xml
  | none => c

end Context

end XmlSchema.Provider

namespace XmlSchema

open Provider (Context Hint hintsOf documentPathProperty)
open Schema (Source isRemote)

structure Provider where
  /-- The set that serves all documents, if there is one. -/
  identity? : Option String
  sources : Except SchemaError (List Source)
  identityFor : Bytes → Context → Except SchemaError String
  sourcesFor : Bytes → Context → Except SchemaError (List Source)

namespace Provider

def sourceLabel (source : Source) : String :=
  match source.ns with
  | some ns => ns ++ "=" ++ source.systemId
  | none => source.systemId

def identityOf (sources : List Source) : String := ";".intercalate (sources.map sourceLabel)

def resolveAgainst (base? : Option String) (location : String) : String :=
  if isRemote location || Files.isAbsolute location then location
  else match base? with
    | some base => Files.joinText base location
    | none => location

def fixed (sources : List Source) : Except SchemaError Provider :=
  let identity := identityOf sources
  if sources.isEmpty then .error (.noSources identity)
  else .ok {
    identity? := some identity
    sources := .ok sources
    identityFor := fun _ _ => .ok identity
    sourcesFor := fun _ _ => .ok sources }

def sourcesAt (files : List String) (locations : List (String × String)) : List Source :=
  files.map ({ systemId := · }) ++
    locations.map fun (ns, location) => { ns := some ns, systemId := location }

def listedLocations (name : String) (base? : Option String) (context : Context) :
    Except SchemaError (List String) :=
  let items := (Text.cutAt ',' ((context.property? name).getD "")).map Text.trim
  match (items.filter (!·.isEmpty)).map (resolveAgainst base?) with
  | [] => .error (.noSources s!"context property '{name}'")
  | locations => .ok locations

def byProperty (name : String) (base? : Option String) : Provider where
  identity? := none
  sources := .error (.noSources s!"context property '{name}'")
  identityFor := fun _ context =>
    (listedLocations name base? context).map fun locations => ",".intercalate locations
  sourcesFor := fun _ context =>
    (listedLocations name base? context).map fun locations => locations.map ({ systemId := · })

/-- The directory that the hints of a document are relative to: the one of the document, or the
given one. -/
def hintDirectory? (base? : Option String) (context : Context) : Option String :=
  let directory? := do
    let directory ← Files.parentText? (← context.property? documentPathProperty)
    guard (!directory.isEmpty)
    pure directory
  directory? <|> base?

def hintedSource (base? : Option String) (hint : Hint) : Source where
  ns := if hint.ns.isEmpty then none else some hint.ns
  systemId := resolveAgainst base? hint.location

def hintedSources (base? : Option String) (document : Bytes) (context : Context) :
    Except SchemaError (List Source) :=
  match (hintsOf document).map (hintedSource (hintDirectory? base? context)) with
  | [] => .error (.noSources "document without schema location hints")
  | sources => .ok sources

def byHints (base? : Option String) : Provider where
  identity? := none
  sources := .error (.noSources "schema location hints")
  identityFor := fun document context => (hintedSources base? document context).map identityOf
  sourcesFor := hintedSources base?

end Provider

end XmlSchema
