import XmlSchema.Settings.Failure
import XmlSchema.Unicode.Lowercase

namespace XmlSchema.Settings

open Structure (RootPath)

abbrev Environment := List (String × String)

def splitList (text : String) : List String :=
  ((Text.cutAt ',' text).map Text.trim).filter (!·.isEmpty)

def truthOfWord? : String → Option Bool
  | "true" => some true
  | "false" => some false
  | _ => none

def naturalOfText? (text : String) : Option Nat := Text.naturalBelow? (Nat.pow 2 64) text

def formOfWord? (word : String) : Option Report.Form := Report.Form.ofWord? (Unicode.lowercase word)

namespace Environment

def names : List String :=
  ["XSDGATE_THREADS", "XSDGATE_FAIL_FAST", "XSDGATE_TIMEOUT", "XSDGATE_ROOT_PATHS",
   "XSDGATE_IGNORE_UNKNOWN_NAMESPACES", "XSDGATE_FULL_SCHEMA_CHECKING",
   "XSDGATE_MAX_NAMESPACE_WARNINGS", "XSDGATE_CACHE_ENTRIES", "XSDGATE_SCHEMAS", "XSDGATE_VERBOSE",
   "XSDGATE_QUIET", "XSDGATE_FORMAT", "XSDGATE_EXTENSIONS"]

def get? {α : Type} (e : Environment) (name : String) (read : String → Option α) :
    Except Failure (Option α) :=
  match e.lookup name with
  | none => .ok none
  | some value =>
    match read (Text.trim value) with
    | some a => .ok (some a)
    | none => .error (.environment (.value name value))

def list? (e : Environment) (name : String) : Option (List String) := (e.lookup name).map splitList

def rootPaths? (e : Environment) (name : String) : Except Failure (Option (List RootPath)) :=
  match e.list? name with
  | none => .ok none
  | some texts =>
    match texts.mapM RootPath.parse with
    | .ok paths => .ok (some paths)
    | .error fault => .error (.environment (.rootPath name fault))

end Environment

def withEnvironment (s : Settings) (e : Environment) : Except Failure Settings := do
  let v := s.validation
  let threads ← e.get? "XSDGATE_THREADS" naturalOfText?
  let failFast ← e.get? "XSDGATE_FAIL_FAST" truthOfWord?
  let timeout ← e.get? "XSDGATE_TIMEOUT" naturalOfText?
  let rootPaths ← e.rootPaths? "XSDGATE_ROOT_PATHS"
  let ignoring ← e.get? "XSDGATE_IGNORE_UNKNOWN_NAMESPACES" truthOfWord?
  let full ← e.get? "XSDGATE_FULL_SCHEMA_CHECKING" truthOfWord?
  let cap ← e.get? "XSDGATE_MAX_NAMESPACE_WARNINGS" naturalOfText?
  let entries ← e.get? "XSDGATE_CACHE_ENTRIES" naturalOfText?
  let verbose ← e.get? "XSDGATE_VERBOSE" truthOfWord?
  let quiet ← e.get? "XSDGATE_QUIET" truthOfWord?
  let form ← e.get? "XSDGATE_FORMAT" formOfWord?
  pure {
    validation := { v with
      threads := threads <|> v.threads
      failFast := failFast.getD v.failFast
      timeoutSeconds := timeout.getD v.timeoutSeconds
      rootPaths := rootPaths.getD v.rootPaths
      ignoreUnknownNamespaces := ignoring.getD v.ignoreUnknownNamespaces
      fullSchemaChecking := full.getD v.fullSchemaChecking
      maxNamespaceWarnings := cap.getD v.maxNamespaceWarnings }
    cache := { maxEntries := entries <|> s.cache.maxEntries }
    schemas := { s.schemas with
      files := (e.list? "XSDGATE_SCHEMAS").getD s.schemas.files }
    output := {
      form := form.getD s.output.form
      verbose := verbose.getD s.output.verbose
      quiet := quiet.getD s.output.quiet }
    documents := { s.documents with
      extensions := (e.list? "XSDGATE_EXTENSIONS").getD s.documents.extensions } }

end XmlSchema.Settings
