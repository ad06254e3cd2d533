import XmlSchema.Files.Tree
import XmlSchema.Schema.Error
import XmlSchema.Validation.Outcome

namespace XmlSchema.Validation

open Report (Reason)

inductive ReadCause where
  | fault (fault : Files.ReadFault)
  | stated (text : String)
  deriving DecidableEq, Repr

def ReadCause.message : ReadCause → String
  | .fault f => f.message
  | .stated text => text

inductive Failure where
  | io (cause : ReadCause)
  | schema (error : SchemaError)
  | config (text : String)
  | traversal (path reason : String)
  | concurrency (details : String)
  | rejected (verdict : Verdict) (summary : String) (reasons : List Reason)

def Failure.message : Failure → String
  | .io cause => "IO error: " ++ cause.message
  | .schema error => "Schema configuration error: " ++ error.message
  | .config text => "Configuration error: " ++ text
  | .traversal path reason => s!"File system traversal error: {path} - {reason}"
  | .concurrency details => "Concurrent operation error: " ++ details
  | .rejected verdict summary _ => s!"Document rejected ({verdict.word}): {summary}"

def Outcome.toReport (outcome : Outcome) : Except Failure Report :=
  if outcome.verdict = .valid then .ok outcome.report
  else .error (.rejected outcome.verdict outcome.report.summary outcome.report.reasons)

end XmlSchema.Validation
