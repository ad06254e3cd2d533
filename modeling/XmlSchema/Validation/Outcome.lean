import XmlSchema.Report.Basic

namespace XmlSchema.Validation

inductive Verdict where
  | valid
  | notValid
  | illegalRoot
  | parserError
  deriving DecidableEq, Repr

namespace Verdict

def word : Verdict → String
  | .valid => "valid"
  | .notValid => "not-valid"
  | .illegalRoot => "illegal-root"
  | .parserError => "parser-error"

def exitCode : Verdict → Nat
  | .valid => 0
  | .notValid => 1
  | .illegalRoot => 2
  | .parserError => 3

def summary (identity : String) : Verdict → String
  | .valid => "Document is valid"
  | .parserError => "Document is not well-formed"
  | .illegalRoot => "Document does not match the configured root elements"
  | .notValid => s!"Document is not valid against schema set '{identity}'"

end Verdict

structure Outcome where
  verdict : Verdict
  report : Report

end XmlSchema.Validation
