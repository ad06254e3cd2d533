import XmlSchema.ContentModel.Constraint
import XmlSchema.Datatype.SimpleType
import XmlSchema.Instance.Document
import XmlSchema.Structure.Monitor
import XmlSchema.Text.Json
import XmlSchema.Validation.Violation

namespace XmlSchema

namespace Report

inductive Severity where
  | warning
  | error
  | fatal
  deriving DecidableEq, Repr

def Severity.word : Severity → String
  | .warning => "warning"
  | .error => "error"
  | .fatal => "fatal"

inductive Cause where
  | malformed (fault : Instance.Fault)
  | root (fault : Structure.RootFault)
  | ns (warning : Structure.NamespaceWarning)
  | value (fault : Datatype.ValueFault)
  | violation (violation : Validation.Violation)
  | schema (violation : ContentModel.Violation)
  | stated (text : String)

def Cause.message : Cause → String
  | .malformed fault => fault.message
  | .root fault => fault.message
  | .ns warning => warning.message
  | .value fault => fault.message
  | .violation v => v.message
  | .schema v => v.message
  | .stated text => text

structure Reason where
  severity : Severity
  cause : Cause
  location? : Option Location := none
  xpath? : Option String := none

namespace Reason

def message (r : Reason) : String := r.cause.message

def text (r : Reason) : String :=
  (match r.location? with
    | some l => l.text ++ ": "
    | none => "") ++ r.message ++
  (match r.xpath? with
    | some path => " [" ++ path ++ "]"
    | none => "")

end Reason

structure Tally where
  warnings : Nat
  errors : Nat
  fatal : Nat
  deriving DecidableEq, Repr

def countOf (severity : Severity) (reasons : List Reason) : Nat :=
  reasons.countP fun r => r.severity == severity

def Tally.ofReasons (reasons : List Reason) : Tally :=
  ⟨countOf .warning reasons, countOf .error reasons, countOf .fatal reasons⟩

def xmlChar (c : Char) : String :=
  match c with
  | '<' => "&lt;"
  | '>' => "&gt;"
  | '&' => "&amp;"
  | '\'' => "&apos;"
  | '"' => "&quot;"
  | c => String.singleton c

def xmlText (text : String) : String := String.join (text.toList.map xmlChar)

def Reason.xml (r : Reason) : String :=
  "<reason severity=\"" ++ r.severity.word ++ "\">" ++
  (match r.xpath? with
    | some path => "<xpath>" ++ xmlText path ++ "</xpath>"
    | none => "") ++
  (match r.location? with
    | some l => s!"<location line=\"{l.line}\" column=\"{l.column}\"/>"
    | none => "") ++
  "<message>" ++ xmlText r.message ++ "</message></reason>"

def Reason.json (r : Reason) : Json :=
  .object (
    [("message", .string r.message)] ++
    (r.location?.map fun l =>
      ("location", .object [("line", .nat l.line), ("column", .nat l.column)])).toList ++
    (r.xpath?.map fun path => ("xpath", .string path)).toList ++
    [("severity", .string r.severity.word)])

end Report

open Report (Reason) in
structure Report where
  summary : String
  reasons : List Reason

namespace Report

def plainText (r : Report) : String :=
  String.join (r.summary :: r.reasons.map fun reason => "\n" ++ reason.text)

def xml (r : Report) : String :=
  "<reasons>" ++ String.join (r.reasons.map (·.xml)) ++ "</reasons>"

def json (r : Report) : Json :=
  .object [("summary", .string r.summary), ("reasons", .array (r.reasons.map (·.json)))]

end Report

end XmlSchema
