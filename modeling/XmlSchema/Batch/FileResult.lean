import XmlSchema.Number.Binary64
import XmlSchema.Number.Notation
import XmlSchema.Text.Json
import XmlSchema.Validation.Failure

namespace XmlSchema.Batch

open Number (Binary64)

structure Duration where
  nanoseconds : Nat
  deriving DecidableEq, Repr

namespace Duration

def zero : Duration := ⟨0⟩

def ofMilliseconds (n : Nat) : Duration := ⟨n * 1000000⟩

def add (a b : Duration) : Duration := ⟨a.nanoseconds + b.nanoseconds⟩

def part (d : Duration) (count : Nat) : Duration := ⟨d.nanoseconds / count⟩

def wholeSeconds (d : Duration) : Nat := d.nanoseconds / 1000000000

def restNanoseconds (d : Duration) : Nat := d.nanoseconds % 1000000000

def seconds (d : Duration) : Binary64 :=
  (Binary64.ofNat d.wholeSeconds).add
    ((Binary64.ofNat d.restNanoseconds).div (.ofNat 1000000000))

def text (d : Duration) : String :=
  let seconds := d.seconds
  let minute := Binary64.ofNat 60
  if seconds.lt (.ofNat 1) then s!"{d.nanoseconds / 1000000}ms"
  else if seconds.lt minute then seconds.fixed 2 ++ "s"
  else s!"{(seconds.div minute).wholePart}m" ++ (seconds.rem minute).fixed 1 ++ "s"

def json (d : Duration) : Json :=
  .object [("secs", .nat d.wholeSeconds), ("nanos", .nat d.restNanoseconds)]

end Duration

end XmlSchema.Batch

namespace XmlSchema.Batch

open Report (Reason)
open Validation (Failure Outcome Verdict)

inductive SkipReason where
  | noSchemaSet (identity : String)
  | failFast
  | stated (text : String)
  deriving DecidableEq, Repr

def SkipReason.message : SkipReason → String
  | .noSchemaSet identity => "No schema set applies: " ++ identity
  | .failFast => "Skipped after an earlier document failed (fail-fast)"
  | .stated text => text

inductive Finding where
  | judged (schemaSet : String) (verdict : Verdict) (reasons : List Reason)
  | failed (failure : Failure)
  | skipped (reason : SkipReason)

structure FileResult where
  path : String
  finding : Finding
  duration : Duration := .zero

namespace FileResult

def ofOutcome (path schemaSet : String) (outcome : Outcome) (duration : Duration) : FileResult :=
  ⟨path, .judged schemaSet outcome.verdict outcome.report.reasons, duration⟩

def verdict? (r : FileResult) : Option Verdict :=
  match r.finding with
  | .judged _ verdict _ => some verdict
  | _ => none

def schemaSet? (r : FileResult) : Option String :=
  match r.finding with
  | .judged schemaSet _ _ => some schemaSet
  | _ => none

def reasons (r : FileResult) : List Reason :=
  match r.finding with
  | .judged _ _ reasons => reasons
  | _ => []

def details? (r : FileResult) : Option String :=
  match r.finding with
  | .judged .. => none
  | .failed failure => some failure.message
  | .skipped reason => some reason.message

def isValid (r : FileResult) : Bool := r.verdict? == some .valid

def isFailure (r : FileResult) : Bool :=
  match r.finding with
  | .judged _ verdict _ => verdict != .valid
  | .failed _ => true
  | .skipped _ => false

/-- The exit code that tells what came of a file. What could not be validated counts like a document
that is not well formed. -/
def exitCode (r : FileResult) : Nat :=
  match r.finding with
  | .judged _ verdict _ => verdict.exitCode
  | .failed _ => Verdict.parserError.exitCode
  | .skipped _ => 0

def statusJson (r : FileResult) : Json :=
  match r.finding with
  | .judged _ .valid _ => .string "Valid"
  | .judged _ verdict reasons =>
    .object [("Invalid",
      .object [("kind", .string verdict.word), ("reason_count", .nat reasons.length)])]
  | .failed failure => .object [("Error", .object [("message", .string failure.message)])]
  | .skipped reason => .object [("Skipped", .object [("reason", .string reason.message)])]

def json (r : FileResult) : Json :=
  .object [("path", .string r.path), ("status", r.statusJson),
    ("schema_set", .option .string r.schemaSet?), ("duration", r.duration.json),
    ("reasons", .array (r.reasons.map (·.json))), ("details", .option .string r.details?)]

end FileResult

end XmlSchema.Batch
