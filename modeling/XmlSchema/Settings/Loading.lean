import XmlSchema.CommandLine.Reader
import XmlSchema.Files.Path
import XmlSchema.Settings.Reading

namespace XmlSchema.Settings

open CommandLine (Arguments)

def orElse {α : Type} (list other : List α) : List α := if list.isEmpty then other else list

/-- Settings with later ones over them. Numbers that may be missing, lists and schema sets are replaced
only where they are given, all else is replaced anyway. -/
def overlaid (base later : Settings) : Settings where
  validation := { later.validation with
    threads := later.validation.threads <|> base.validation.threads
    rootPaths := orElse later.validation.rootPaths base.validation.rootPaths }
  cache := { maxEntries := later.cache.maxEntries <|> base.cache.maxEntries }
  schemas := if later.schemas.isEmpty then base.schemas else later.schemas
  output := later.output
  documents := {
    extensions := orElse later.documents.extensions base.documents.extensions
    includes := orElse later.documents.includes base.documents.includes
    excludes := orElse later.documents.excludes base.documents.excludes }

def Output.withArguments (o : Output) (a : Arguments) : Output :=
  let form := a.form.getD o.form
  if a.quiet then { form, verbose := false, quiet := true }
  else if 0 < a.verbose then { form, verbose := true, quiet := false }
  else { o with form }

def withArguments (s : Settings) (a : Arguments) : Settings where
  validation := {
    threads := a.threads <|> s.validation.threads
    failFast := s.validation.failFast || a.failFast
    showProgress := s.validation.showProgress || a.progress
    rootPaths := orElse a.rootPaths s.validation.rootPaths
    ignoreUnknownNamespaces := s.validation.ignoreUnknownNamespaces || a.ignoreUnknownNamespaces
    fullSchemaChecking := s.validation.fullSchemaChecking || a.fullChecking
    maxNamespaceWarnings := a.maxNamespaceWarnings.getD s.validation.maxNamespaceWarnings
    timeoutSeconds := a.timeout.getD s.validation.timeoutSeconds }
  cache := { maxEntries := a.cacheEntries <|> s.cache.maxEntries }
  schemas := {
    files := orElse a.schemas s.schemas.files
    locations := orElse a.schemaLocations s.schemas.locations }
  output := s.output.withArguments a
  documents := {
    extensions := a.extensions.getD s.documents.extensions
    includes := orElse a.includes s.documents.includes
    excludes := orElse a.excludes s.documents.excludes }

def ofToml (text : String) : Except Failure Settings :=
  match ofTomlText? text with
  | some s => .ok s
  | none => .error (.toml "the text does not hold settings")

def ofJson (text : String) : Except Failure Settings :=
  match ofJsonText? text with
  | some s => .ok s
  | none => .error (.json "the text does not hold settings")

/-- Reads a file. Its extension tells what it is written in; without one, both are tried. -/
def ofFile (files : Files.Tree) (path : String) : Except Failure Settings :=
  match files.readText path with
  | .error fault => .error (.io (.fault fault))
  | .ok text =>
    match Files.extension? path with
    | some "toml" => ofToml text
    | some "json" => ofJson text
    | some other => .error (.unsupportedFormat other)
    | none =>
      match ofToml text with
      | .ok s => .ok s
      | .error _ => ofJson text

def fileNames : List String := ["xsdgate.toml", "xsdgate.json", ".xsdgate.toml", ".xsdgate.json"]

/-- The places where files are looked for: the current directory, and then the directory of the
user's settings. -/
def filePlaces (home : Option String) : List String :=
  fileNames ++ match home with
    | some directory => fileNames.map fun name => s!"{directory}/xsdgate/{name}"
    | none => []

def ofFiles (files : Files.Tree) (home : Option String) (a : Arguments) :
    Except Failure (Option Settings) :=
  match a.config with
  | some path => (ofFile files path).map some
  | none =>
    match (filePlaces home).find? fun place => (files.find place).toOption.isSome with
    | some place => (ofFile files place).map some
    | none => .ok none

def load (files : Files.Tree) (home : Option String) (environment : Environment) (a : Arguments) :
    Except Failure Settings := do
  let base : Settings := {}
  let s := match ← ofFiles files home a with
    | some found => base.overlaid found
    | none => base
  checked ((← s.withEnvironment environment).withArguments a)

end XmlSchema.Settings
