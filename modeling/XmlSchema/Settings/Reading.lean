import XmlSchema.Settings.Basic
import XmlSchema.Text.Json.Reader
import XmlSchema.Toml.Reader

namespace XmlSchema.Settings

open Structure (RootPath)

inductive Data where
  | nothing
  | truth (b : Bool)
  | integer (n : Int)
  | text (s : String)
  | items (list : List Data)
  | fields (list : List (String × Data))
  | other

namespace Data

/-- The value of a number in JSON. A zero with a minus sign is not a whole number. -/
def ofNumber (number : String) : Data :=
  match number.toList with
  | '-' :: digits =>
    if digits == ['0'] || !digits.all Char.isDigit then .other
    else .integer (-(Toml.numberOf 10 digits : Int))
  | digits => if digits.all Char.isDigit then .integer (Toml.numberOf 10 digits) else .other

mutual

def ofJson : Json → Data
  | .null => .nothing
  | .bool b => .truth b
  | .number digits => ofNumber digits
  | .string s => .text s
  | .array list => .items (ofJsons list)
  | .object members => .fields (ofMembers members)

def ofJsons : List Json → List Data
  | [] => []
  | value :: rest => ofJson value :: ofJsons rest

def ofMembers : List (String × Json) → List (String × Data)
  | [] => []
  | (name, value) :: rest => (name, ofJson value) :: ofMembers rest

end

mutual

def ofToml : Toml → Data
  | .boolean b => .truth b
  | .integer n => .integer n
  | .string s => .text s
  | .float _ => .other
  | .moment _ => .other
  | .array _ list => .items (ofTomls list)
  | .table _ list => .fields (ofEntries list)

def ofTomls : List Toml → List Data
  | [] => []
  | value :: rest => ofToml value :: ofTomls rest

def ofEntries : List (String × Toml) → List (String × Data)
  | [] => []
  | (name, value) :: rest => (name, ofToml value) :: ofEntries rest

end

end Data

structure Dialect where
  isEmpty : Data → Bool
  ignoresSurplus : Bool

def Dialect.json : Dialect where
  isEmpty
    | .nothing => true
    | _ => false
  ignoresSurplus := false

def Dialect.toml : Dialect where
  isEmpty
    | .items list => list.isEmpty
    | .fields list => list.isEmpty
    | _ => false
  ignoresSurplus := true

abbrev Given := List (String × Data)

namespace Data

def truth? : Data → Option Bool
  | .truth b => some b
  | _ => none

def text? : Data → Option String
  | .text s => some s
  | _ => none

def natural? : Data → Option Nat
  | .integer n => if 0 ≤ n ∧ n < Nat.pow 2 64 then some n.toNat else none
  | _ => none

def optional? {α : Type} (read : Data → Option α) : Data → Option (Option α)
  | .nothing => some none
  | value => (read value).map some

def list? {α : Type} (read : Data → Option α) : Data → Option (List α)
  | .items list => list.mapM read
  | _ => none

def word? {α : Type} (dialect : Dialect) (ofWord? : String → Option α) : Data → Option α
  | .text s => ofWord? s
  | .fields [(name, value)] => if dialect.isEmpty value then ofWord? name else none
  | _ => none

def record? (dialect : Dialect) (names : List String) : Data → Option Given
  | .items list =>
    if list.length ≤ names.length || dialect.ignoresSurplus then some (names.zip list) else none
  | .fields list =>
    let known := list.filter fun field => names.contains field.1
    if (known.map (·.1)).Nodup then some known else none
  | _ => none

end Data

def Given.get? {α : Type} (given : Given) (name : String) (default : α) (read : Data → Option α) :
    Option α :=
  match given.lookup name with
  | some value => read value
  | none => some default

def Data.rootPath? (value : Data) : Option RootPath := do
  (RootPath.parse (← value.text?)).toOption

def Validation.ofData? (dialect : Dialect) (value : Data) : Option Validation := do
  let given ← value.record? dialect ["threads", "fail_fast", "show_progress", "root_paths",
    "ignore_unknown_namespaces", "full_schema_checking", "max_namespace_warnings",
    "timeout_seconds"]
  let default : Validation := {}
  some {
    threads := ← given.get? "threads" default.threads (Data.optional? Data.natural?)
    failFast := ← given.get? "fail_fast" default.failFast Data.truth?
    showProgress := ← given.get? "show_progress" default.showProgress Data.truth?
    rootPaths := ← given.get? "root_paths" default.rootPaths (Data.list? Data.rootPath?)
    ignoreUnknownNamespaces :=
      ← given.get? "ignore_unknown_namespaces" default.ignoreUnknownNamespaces Data.truth?
    fullSchemaChecking := ← given.get? "full_schema_checking" default.fullSchemaChecking Data.truth?
    maxNamespaceWarnings :=
      ← given.get? "max_namespace_warnings" default.maxNamespaceWarnings Data.natural?
    timeoutSeconds := ← given.get? "timeout_seconds" default.timeoutSeconds Data.natural? }

def Cache.ofData? (dialect : Dialect) (value : Data) : Option Cache := do
  let given ← value.record? dialect ["max_entries"]
  let default : Cache := {}
  some { maxEntries := ← given.get? "max_entries" default.maxEntries (Data.optional? Data.natural?) }

def SchemaLocation.ofData? (dialect : Dialect) (value : Data) : Option SchemaLocation := do
  let given ← value.record? dialect ["namespace", "location"]
  some {
    namespaceName := ← (← given.lookup "namespace").text?
    location := ← (← given.lookup "location").text? }

def Schemas.ofData? (dialect : Dialect) (value : Data) : Option Schemas := do
  let given ← value.record? dialect ["files", "locations"]
  let default : Schemas := {}
  some {
    files := ← given.get? "files" default.files (Data.list? Data.text?)
    locations :=
      ← given.get? "locations" default.locations (Data.list? (SchemaLocation.ofData? dialect)) }

def Output.ofData? (dialect : Dialect) (value : Data) : Option Output := do
  let given ← value.record? dialect ["format", "verbose", "quiet"]
  let default : Output := {}
  some {
    form := ← given.get? "format" default.form (Data.word? dialect Report.Form.ofWord?)
    verbose := ← given.get? "verbose" default.verbose Data.truth?
    quiet := ← given.get? "quiet" default.quiet Data.truth? }

def Documents.ofData? (dialect : Dialect) (value : Data) : Option Documents := do
  let given ← value.record? dialect ["extensions", "include_patterns", "exclude_patterns"]
  let default : Documents := {}
  some {
    extensions := ← given.get? "extensions" default.extensions (Data.list? Data.text?)
    includes := ← given.get? "include_patterns" default.includes (Data.list? Data.text?)
    excludes := ← given.get? "exclude_patterns" default.excludes (Data.list? Data.text?) }

def ofData? (dialect : Dialect) (value : Data) : Option Settings := do
  let given ← value.record? dialect ["validation", "cache", "schemas", "output", "files"]
  some {
    validation := ← given.get? "validation" {} (Validation.ofData? dialect)
    cache := ← given.get? "cache" {} (Cache.ofData? dialect)
    schemas := ← given.get? "schemas" {} (Schemas.ofData? dialect)
    output := ← given.get? "output" {} (Output.ofData? dialect)
    documents := ← given.get? "files" {} (Documents.ofData? dialect) }

def ofJsonText? (text : String) : Option Settings := do
  ofData? .json (Data.ofJson (← Json.parse? text))

def ofTomlText? (text : String) : Option Settings := do
  ofData? .toml (Data.ofToml (← Toml.parse? text))

end XmlSchema.Settings
