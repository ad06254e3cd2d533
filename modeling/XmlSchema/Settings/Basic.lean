import XmlSchema.Report.Verbosity
import XmlSchema.Text.Json
import XmlSchema.Validation.Session

namespace XmlSchema

namespace Settings

open Structure (RootPath)

structure Validation where
  threads : Option Nat := none
  failFast : Bool := false
  showProgress : Bool := false
  rootPaths : List RootPath := []
  ignoreUnknownNamespaces : Bool := false
  fullSchemaChecking : Bool := false
  maxNamespaceWarnings : Nat := 100
  timeoutSeconds : Nat := 30

structure Cache where
  maxEntries : Option Nat := none

structure SchemaLocation where
  namespaceName : String
  location : String
  deriving DecidableEq, Repr

structure Schemas where
  files : List String := []
  locations : List SchemaLocation := []

def Schemas.isEmpty (schemas : Schemas) : Bool :=
  schemas.files.isEmpty && schemas.locations.isEmpty

structure Output where
  form : Report.Form := .human
  verbose : Bool := false
  quiet : Bool := false

structure Documents where
  extensions : List String := ["xml"]
  includes : List String := []
  excludes : List String := []

end Settings

structure Settings where
  validation : Settings.Validation := {}
  cache : Settings.Cache := {}
  schemas : Settings.Schemas := {}
  output : Settings.Output := {}
  documents : Settings.Documents := {}

namespace Settings

def options (s : Settings) : Validation.Options where
  rootPaths := s.validation.rootPaths
  ignoreUnknownNamespaces := s.validation.ignoreUnknownNamespaces
  fullSchemaChecking := s.validation.fullSchemaChecking
  maxNamespaceWarnings := s.validation.maxNamespaceWarnings

def textsJson (texts : List String) : Json := .array (texts.map .string)

def Validation.json (v : Validation) : Json :=
  .object [("threads", .option .nat v.threads), ("fail_fast", .bool v.failFast),
    ("show_progress", .bool v.showProgress),
    ("root_paths", textsJson (v.rootPaths.map (·.text))),
    ("ignore_unknown_namespaces", .bool v.ignoreUnknownNamespaces),
    ("full_schema_checking", .bool v.fullSchemaChecking),
    ("max_namespace_warnings", .nat v.maxNamespaceWarnings),
    ("timeout_seconds", .nat v.timeoutSeconds)]

def SchemaLocation.json (l : SchemaLocation) : Json :=
  .object [("namespace", .string l.namespaceName), ("location", .string l.location)]

def json (s : Settings) : Json :=
  .object [("validation", s.validation.json),
    ("cache", .object [("max_entries", .option .nat s.cache.maxEntries)]),
    ("schemas", .object [("files", textsJson s.schemas.files),
      ("locations", .array (s.schemas.locations.map (·.json)))]),
    ("output", .object [("format", .string s.output.form.word), ("verbose", .bool s.output.verbose),
      ("quiet", .bool s.output.quiet)]),
    ("files", .object [("extensions", textsJson s.documents.extensions),
      ("include_patterns", textsJson s.documents.includes),
      ("exclude_patterns", textsJson s.documents.excludes)])]

end Settings

end XmlSchema
