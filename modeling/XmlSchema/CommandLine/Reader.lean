import XmlSchema.Files.Tree
import XmlSchema.Settings.Environment

namespace XmlSchema.CommandLine

open Structure (RootPath)

inductive Item where
  | path
  | schema
  | schemaLocation
  | root
  | ignoreUnknownNamespaces
  | fullChecking
  | maxNamespaceWarnings
  | threads
  | timeout
  | form
  | verbose
  | quiet
  | extensions
  | includes
  | excludes
  | failFast
  | progress
  | config
  | cacheEntries
  | help
  | version
  deriving DecidableEq, Repr

namespace Item

def spellings : List (Item × String × Option Char) :=
  [(schema, "schema", some 's'), (schemaLocation, "schema-location", none),
   (root, "root", some 'r'), (ignoreUnknownNamespaces, "ignore-unknown-namespaces", none),
   (fullChecking, "full-checking", none), (maxNamespaceWarnings, "max-namespace-warnings", none),
   (threads, "threads", some 't'), (timeout, "timeout", none), (form, "format", some 'f'),
   (verbose, "verbose", some 'v'), (quiet, "quiet", some 'q'),
   (extensions, "extensions", some 'e'), (includes, "include", none), (excludes, "exclude", none),
   (failFast, "fail-fast", none), (progress, "progress", none), (config, "config", some 'c'),
   (cacheEntries, "cache-entries", none), (help, "help", some 'h'),
   (version, "version", some 'V')]

def ofName? (name : String) : Option Item := (spellings.find? (·.2.1 == name)).map (·.1)

def ofLetter? (letter : Char) : Option Item := (spellings.find? (·.2.2 == some letter)).map (·.1)

def takesValue : Item → Bool
  | path | schema | schemaLocation | root | maxNamespaceWarnings | threads | timeout | form
  | extensions | includes | excludes | config | cacheEntries => true
  | ignoreUnknownNamespaces | fullChecking | verbose | quiet | failFast | progress | help
  | version => false

def repeats : Item → Bool
  | schema | schemaLocation | root | verbose | includes | excludes => true
  | _ => false

end Item

inductive Fault where
  | unknown (arg : String)
  | missingValue (item : Item)
  | noChoice (item : Item) (value : String)
  | refused (item : Item) (value : String)
  | surplusValue (item : Item)
  | repeated (item : Item)
  | conflict (first second : Item)
  | missingPath
  | helpWanted
  | versionWanted
  deriving DecidableEq, Repr

structure Arguments where
  path : String := ""
  schemas : List String := []
  schemaLocations : List Settings.SchemaLocation := []
  rootPaths : List RootPath := []
  ignoreUnknownNamespaces : Bool := false
  fullChecking : Bool := false
  maxNamespaceWarnings : Option Nat := none
  threads : Option Nat := none
  timeout : Option Nat := none
  form : Option Report.Form := none
  verbose : Nat := 0
  quiet : Bool := false
  extensionList : Option String := none
  includes : List String := []
  excludes : List String := []
  failFast : Bool := false
  progress : Bool := false
  config : Option String := none
  cacheEntries : Option Nat := none

def schemaLocation? (text : String) : Option Settings.SchemaLocation :=
  let text := text.toList
  let name := text.takeWhile (· != '=')
  match text.drop name.length with
  | [] => none
  | _ :: location =>
    let found : Settings.SchemaLocation :=
      ⟨String.ofList (Text.trimChars name), String.ofList (Text.trimChars location)⟩
    if found.isIncomplete then none else some found

def maxVerbose : Nat := 255

namespace Arguments

def pathValue (item : Item) (value : String) : Except Fault String :=
  if value.isEmpty then .error (.missingValue item) else .ok value

def readValue {α : Type} (item : Item) (read : String → Option α) (value : String) :
    Except Fault α :=
  match read value with
  | some a => .ok a
  | none => .error (.refused item value)

def withValue (a : Arguments) (item : Item) (value : String) : Except Fault Arguments := do
  let natural := readValue item Settings.naturalOfText? value
  match item with
  | .path => pure { a with path := ← pathValue item value }
  | .schema => pure { a with schemas := a.schemas ++ [← pathValue item value] }
  | .schemaLocation =>
    let found ← readValue item schemaLocation? value
    pure { a with schemaLocations := a.schemaLocations ++ [found] }
  | .root =>
    let found ← readValue item (fun text => (RootPath.parse text).toOption) value
    pure { a with rootPaths := a.rootPaths ++ [found] }
  | .maxNamespaceWarnings => pure { a with maxNamespaceWarnings := some (← natural) }
  | .threads => pure { a with threads := some (← natural) }
  | .timeout => pure { a with timeout := some (← natural) }
  | .form =>
    match Report.Form.ofWord? value with
    | some form => pure { a with form := some form }
    | none => throw (.noChoice item value)
  | .extensions => pure { a with extensionList := some value }
  | .includes => pure { a with includes := a.includes ++ [value] }
  | .excludes => pure { a with excludes := a.excludes ++ [value] }
  | .config => pure { a with config := some (← pathValue item value) }
  | .cacheEntries => pure { a with cacheEntries := some (← natural) }
  | .ignoreUnknownNamespaces | .fullChecking | .verbose | .quiet | .failFast | .progress | .help
  | .version => throw (.surplusValue item)

def withFlag (a : Arguments) (item : Item) : Except Fault Arguments :=
  match item with
  | .ignoreUnknownNamespaces => .ok { a with ignoreUnknownNamespaces := true }
  | .fullChecking => .ok { a with fullChecking := true }
  | .verbose => .ok { a with verbose := min maxVerbose (a.verbose + 1) }
  | .quiet => .ok { a with quiet := true }
  | .failFast => .ok { a with failFast := true }
  | .progress => .ok { a with progress := true }
  | .help => .error .helpWanted
  | .version => .error .versionWanted
  | .path | .schema | .schemaLocation | .root | .maxNamespaceWarnings | .threads | .timeout
  | .form | .extensions | .includes | .excludes | .config | .cacheEntries =>
    .error (.missingValue item)

def extensions (a : Arguments) : Option (List String) := a.extensionList.map Settings.splitList

def verbosity (a : Arguments) : Report.Verbosity := .ofDemands a.verbose a.quiet

end Arguments

end XmlSchema.CommandLine

namespace XmlSchema.CommandLine

def versionText : String := "xsdgate 0.1.0"

def Item.description : Item → String
  | path => "Directory or file to validate"
  | schema => "Schema document of the static schema set (repeatable, order kept)"
  | schemaLocation => "Schema document for a namespace, as NAMESPACE=LOCATION (repeatable)"
  | root => "Required root path such as 'Envelope/Body' (repeatable)"
  | ignoreUnknownNamespaces => "Do not warn about namespaces the schema set does not declare"
  | fullChecking => "Also report schema component constraint violations"
  | maxNamespaceWarnings => "Distinct unknown namespaces reported before suppressing the rest"
  | threads => "Number of documents validated concurrently"
  | timeout => "Per-document timeout in seconds"
  | form => "Form of the results: human, json or summary"
  | verbose => "Show every document; repeat for debug output"
  | quiet => "Only report failures"
  | extensions => "File extensions to process (e.g. 'xml,cmdi')"
  | includes => "Include file patterns (glob syntax)"
  | excludes => "Exclude file patterns (glob syntax)"
  | failFast => "Stop validating once a document fails"
  | progress => "Show progress"
  | config => "Configuration file (TOML or JSON)"
  | cacheEntries => "Maximum number of compiled schema sets kept in memory"
  | help => "Print help"
  | version => "Print version"

def Item.name (item : Item) : String :=
  match Item.spellings.lookup item with
  | some (long, _) => "--" ++ long
  | none => "<PATH>"

def Item.helpLine (item : Item) (letter : Option Char) : String :=
  "  " ++ (match letter with
    | some c => "-" ++ String.singleton c ++ ", "
    | none => "    ") ++ item.name ++ (if item.takesValue then " <VALUE>" else "") ++
    "  " ++ item.description ++ "\n"

def usageText : String := "Usage: xsdgate [OPTIONS] <PATH>"

def helpText : String :=
  "Validate XML documents against cached, compiled XML Schema sets\n\n" ++ usageText ++
    "\n\nArguments:\n  <PATH>  " ++ Item.path.description ++ "\n\nOptions:\n" ++
    String.join (Item.spellings.map fun (item, _, letter) => item.helpLine letter)

def Fault.message : Fault → String
  | .unknown arg => s!"unexpected argument '{arg}' found"
  | .missingValue item => s!"a value is required for '{item.name}' but none was supplied"
  | .noChoice item given => s!"invalid value '{given}' for '{item.name}'"
  | .refused item given => s!"invalid value '{given}' for '{item.name}'"
  | .surplusValue item => s!"unexpected value for '{item.name}' found; no more were expected"
  | .repeated item => s!"the argument '{item.name}' cannot be used multiple times"
  | .conflict first second =>
    s!"the argument '{first.name}' cannot be used with '{second.name}'"
  | .missingPath => "the following required arguments were not provided:\n  <PATH>"
  | .helpWanted => helpText
  | .versionWanted => versionText

end XmlSchema.CommandLine

namespace XmlSchema.CommandLine

structure Reading where
  arguments : Arguments := {}
  taken : List Item := []
  pending : Option (Item × Option String) := none
  hasPath : Bool := false
  ended : Bool := false

namespace Reading

/-- Takes an item for good, unless it has been taken before and does not repeat. -/
def take (r : Reading) (item : Item) (value : Option String) : Except Fault Reading :=
  if !item.repeats && r.taken.contains item then .error (.repeated item)
  else do
    let arguments ← match value with
      | some text => r.arguments.withValue item text
      | none => r.arguments.withFlag item
    pure { r with arguments, taken := item :: r.taken }

def settle (r : Reading) : Except Fault Reading :=
  match r.pending with
  | none => .ok r
  | some (item, none) => .error (.missingValue item)
  | some (item, some text) => { r with pending := none }.take item (some text)

def value (r : Reading) (item : Item) (attached : Option String) : Except Fault Reading := do
  let r ← r.settle
  match attached with
  | some text => r.take item (some text)
  | none => pure { r with pending := some (item, none) }

def flag (r : Reading) (item : Item) : Except Fault Reading := do (← r.settle).take item none

def standing (r : Reading) (arg : String) : Except Fault Reading := do
  if r.hasPath then throw (.unknown arg)
  let r ← r.settle
  pure { r with pending := some (.path, some arg), hasPath := true }

def long (r : Reading) (text : List Char) : Except Fault Reading :=
  let name := text.takeWhile (· != '=')
  let attached := match text.drop name.length with
    | [] => none
    | _ :: rest => some (String.ofList rest)
  match Item.ofName? (String.ofList name) with
  | none => .error (.unknown ("--" ++ String.ofList text))
  | some item =>
    if item.takesValue then r.value item attached
    else if attached.isSome then .error (.surplusValue item)
    else r.flag item

/-- Reads letters. What follows the letter of an item with a value is its value. -/
def letters (r : Reading) : List Char → Except Fault Reading
  | [] => .ok r
  | letter :: rest =>
    match Item.ofLetter? letter with
    | none => .error (.unknown ("-" ++ String.singleton letter))
    | some item =>
      if item.takesValue then
        r.value item (match rest with
          | [] => none
          | '=' :: rest => some (String.ofList rest)
          | rest => some (String.ofList rest))
      else do letters (← r.flag item) rest

/-- Reads the next argument. A hyphen that stands alone is a path. -/
def next (r : Reading) (arg : String) : Except Fault Reading :=
  if r.ended then r.standing arg
  else match arg.toList with
    | ['-', '-'] => .ok { r with ended := true }
    | '-' :: '-' :: rest => r.long rest
    | '-' :: letter :: rest => r.letters (letter :: rest)
    | _ =>
      match r.pending with
      | some (item, none) => .ok { r with pending := some (item, some arg) }
      | _ => r.standing arg

def finish (r : Reading) : Except Fault Arguments := do
  let r ← r.settle
  if r.taken.contains .quiet && r.taken.contains .verbose then throw (.conflict .quiet .verbose)
  if !r.hasPath then throw .missingPath
  pure r.arguments

end Reading

def Arguments.ofList (args : List String) : Except Fault Arguments := do
  (← args.foldlM Reading.next {}).finish

inductive StartFault where
  | missingPath (path : String)
  | noThreads
  deriving DecidableEq, Repr

def StartFault.message : StartFault → String
  | .missingPath path => "Path does not exist: " ++ path
  | .noThreads => "Number of threads must be greater than 0"

def Arguments.startFault? (a : Arguments) (files : Files.Tree) : Option StartFault :=
  match files.find a.path with
  | .error _ => some (.missingPath a.path)
  | .ok _ => if a.threads = some 0 then some .noThreads else none

end XmlSchema.CommandLine
