import XmlSchema.Report.Verbosity
import XmlSchema.Text.Json
import XmlSchema.Unicode.Property
import XmlSchema.Validation.Failure

namespace XmlSchema.Text.Dump

def hexDigits (n : Nat) : String := String.ofList (Nat.toDigits 16 n)

def invisible : Unicode.Property :=
  .category [.cc, .cf, .cs, .co, .cn, .zl, .zp, .zs]

def charText (c : Char) : String :=
  match c with
  | '"' => "\\\""
  | '\\' => "\\\\"
  | '\n' => "\\n"
  | '\r' => "\\r"
  | '\t' => "\\t"
  | '\x00' => "\\0"
  | ' ' => " "
  | c =>
    if Unicode.extendsGrapheme.holds c || invisible.holds c then
      "\\u\x7b" ++ hexDigits c.toNat ++ "\x7d"
    else String.singleton c

def quoted (text : String) : String := "\"" ++ String.join (text.toList.map charText) ++ "\""

def call (name : String) (args : List String) : String :=
  name ++ "(" ++ ", ".intercalate args ++ ")"

def record (name : String) (fields : List (String × String)) : String :=
  name ++ " \x7b " ++ ", ".intercalate (fields.map fun (key, value) => key ++ ": " ++ value) ++ " \x7d"

def list (items : List String) : String := "[" ++ ", ".intercalate items ++ "]"

def option : Option String → String
  | some text => call "Some" [text]
  | none => "None"

end XmlSchema.Text.Dump

namespace XmlSchema

open Text

def Files.ReadFault.dump (f : Files.ReadFault) : String :=
  match f.code? with
  | some code =>
    Dump.record "Os"
      [("code", toString code), ("kind", f.kind), ("message", Dump.quoted f.words)]
  | none => Dump.record "Error" [("kind", f.kind), ("message", Dump.quoted f.words)]

namespace SchemaError

def dump : SchemaError → String
  | .sourceNotFound systemId =>
    Dump.record "SourceNotFound" [("system_id", Dump.quoted systemId)]
  | .unreadable systemId detail => detailed "Unreadable" systemId detail
  | .malformed systemId detail => detailed "Malformed" systemId detail
  | .unresolvedReference systemId detail => detailed "UnresolvedReference" systemId detail
  | .invalidPattern systemId pattern detail =>
    Dump.record "InvalidPattern" [("system_id", Dump.quoted systemId),
      ("pattern", Dump.quoted pattern), ("details", Dump.quoted detail.message)]
  | .unsupported systemId detail => detailed "Unsupported" systemId detail
  | .noSources identity => Dump.record "NoSources" [("identity", Dump.quoted identity)]
where
  detailed (name systemId : String) (detail : Schema.Detail) : String :=
    Dump.record name
      [("system_id", Dump.quoted systemId), ("details", Dump.quoted detail.message)]

def help : SchemaError → String
  | .sourceNotFound _ | .unreadable .. =>
    "Check the configured schema paths and the documents' xsi:schemaLocation hints"
  | .malformed .. | .invalidPattern .. | .unsupported .. =>
    "Fix the schema document and run again"
  | .unresolvedReference .. =>
    "Add the schema declaring the referenced component to the schema set"
  | .noSources _ =>
    "Configure a schema set with --schema or add xsi:schemaLocation hints to the documents"

end SchemaError

def Location.dump (l : Location) : String :=
  Dump.record "Location" [("line", toString l.line), ("column", toString l.column)]

namespace Report

def Severity.dump : Severity → String
  | .warning => "Warning"
  | .error => "Error"
  | .fatal => "Fatal"

def Reason.dump (r : Reason) : String :=
  Dump.record "Reason" [("message", Dump.quoted r.message),
    ("location", Dump.option (r.location?.map (·.dump))),
    ("xpath", Dump.option (r.xpath?.map Dump.quoted)), ("severity", r.severity.dump)]

end Report

namespace Validation

open Report (Verbosity)

def ReadCause.dump : ReadCause → String
  | .fault f => f.dump
  | .stated text => Dump.record "Custom" [("kind", "NotFound"), ("error", Dump.quoted text)]

def Verdict.dump : Verdict → String
  | .valid => "Valid"
  | .notValid => "NotValid"
  | .illegalRoot => "IllegalRoot"
  | .parserError => "ParserError"

namespace Failure

def dump : Failure → String
  | .io cause => Dump.call "Io" [cause.dump]
  | .schema error => Dump.call "Schema" [error.dump]
  | .config text => Dump.call "Config" [Dump.quoted text]
  | .traversal path reason =>
    Dump.record "FileSystemTraversal"
      [("path", Dump.quoted path), ("reason", Dump.quoted reason)]
  | .concurrency details => Dump.record "Concurrency" [("details", Dump.quoted details)]
  | .rejected verdict summary reasons =>
    Dump.record "Rejected" [("kind", verdict.dump), ("summary", Dump.quoted summary),
      ("reasons", Dump.list (reasons.map (·.dump)))]

def chain : Failure → List String
  | .io cause => [cause.message]
  | .schema error => [error.message]
  | _ => []

/-- Whether a failure stops a whole batch, and not only a single document. -/
def isCritical : Failure → Bool
  | .config _ | .schema _ | .concurrency _ => true
  | .io _ | .traversal .. | .rejected .. => false

def briefText (f : Failure) : String :=
  match f with
  | .rejected verdict _ _ => s!"REJECTED ({verdict.word})"
  | .schema (.sourceNotFound systemId) => "SCHEMA NOT FOUND: " ++ systemId
  | _ => "ERROR: " ++ f.message

def verboseText (f : Failure) : String :=
  f.message ++ match f with
    | .schema error => "\nSuggestion: " ++ error.help
    | .rejected _ _ reasons => String.join (reasons.map fun reason => "\n    " ++ reason.text)
    | .traversal path _ => s!"\nSuggestion: Check that {path} exists and is readable"
    | .io _ | .config _ | .concurrency _ => ""

def debugText (f : Failure) : String :=
  f.verboseText ++ "\nDebug Info: " ++ f.dump ++ "\nError Chain:" ++
    String.join (f.chain.zipIdx.map fun (text, i) => s!"\n  {i + 1}: " ++ text)

/-- What is told of a failure, unless it is not worth telling. -/
def text? (verbosity : Verbosity) (f : Failure) : Option String :=
  match verbosity with
  | .quiet => if f.isCritical then some f.briefText else none
  | .normal => some f.message
  | .verbose => some f.verboseText
  | .debug => some f.debugText

end Failure

end Validation

end XmlSchema
