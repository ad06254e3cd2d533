namespace XmlSchema.Report

inductive Verbosity where
  | quiet
  | normal
  | verbose
  | debug
  deriving DecidableEq, Repr

namespace Verbosity

def ofDemands (count : Nat) (silent : Bool) : Verbosity :=
  if silent then .quiet
  else match count with
    | 0 => .normal
    | 1 => .verbose
    | _ => .debug

def logLevel : Verbosity → String
  | .quiet => "error"
  | .normal => "warn"
  | .verbose => "info"
  | .debug => "debug"

end Verbosity

inductive Form where
  | human
  | json
  | summary
  deriving DecidableEq, Repr

namespace Form

def all : List Form := [.human, .json, .summary]

def word : Form → String
  | .human => "human"
  | .json => "json"
  | .summary => "summary"

def ofWord? (word : String) : Option Form := all.find? (·.word == word)

end Form

end XmlSchema.Report
