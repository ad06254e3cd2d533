import XmlSchema.Batch.Results
import XmlSchema.Report.Verbosity

namespace XmlSchema.Batch

open Number (Binary64)
open Report (Form Verbosity)
open Validation (Verdict)

structure Style where
  verbosity : Verbosity := .normal
  colors : Bool := false

inductive Color where
  | red
  | green
  | yellow
  | cyan
  deriving DecidableEq, Repr

def Color.code : Color → String
  | .red => "31"
  | .green => "32"
  | .yellow => "33"
  | .cyan => "36"

namespace Style

def paint (s : Style) (color : Color) (text : String) : String :=
  if s.colors then "\x1b[" ++ color.code ++ "m" ++ text ++ "\x1b[0m" else text

def isVerbose (s : Style) : Bool := s.verbosity == .verbose || s.verbosity == .debug

def fileText (s : Style) (r : FileResult) : String :=
  let line (color : Color) (word rest : String) : String :=
    s.paint color word ++ "  " ++ r.path ++ " (" ++ r.duration.text ++ ")" ++ rest
  match r.finding with
  | .judged _ .valid _ => line .green "✓ VALID" ""
  | .judged _ verdict reasons =>
    let count := s!" - {reasons.length} reason" ++ if reasons.length = 1 then "" else "s"
    let told := if s.verbosity = .quiet then [] else reasons.map fun reason => "\n    " ++ reason.text
    line .red ("✗ " ++ verdict.word.toUpper) (count ++ String.join told)
  | .failed failure => line .yellow "⚠ ERROR" (" - " ++ failure.message)
  | .skipped reason => line .cyan "- SKIPPED" (" - " ++ reason.message)

def cacheText (c : CacheSummary) : String :=
  s!"  Grammar cache: {c.use.compilations} compiled, {c.use.failures} failed, {c.entries} cached, hit rate "
    ++ (c.use.hitRate.mul (.ofNat 100)).fixed 1 ++ "%\n"

def metricsText (s : Style) (m : Metrics) : String :=
  "\nPerformance Metrics:\n" ++ "  Throughput: " ++ m.filesPerSecond.fixed 1 ++ " files/sec\n" ++
    s!"  Concurrent validations: {m.concurrent}\n" ++ "  Discovery: " ++ m.discovery.text ++ "\n" ++
    if s.verbosity = .debug then cacheText m.cache else ""

def countText (s : Style) (color : Color) (label : String) (count : Nat) : String :=
  if count = 0 then "" else "  " ++ s.paint color label ++ s!" {count}\n"

def summaryText (s : Style) (r : Results) : String :=
  let c := r.counts
  "Validation Summary:\n" ++ s!"  Total files: {c.total}\n" ++
    "  " ++ s.paint .green "Valid:" ++ s!" {c.valid}\n" ++
    s.countText .red "Not valid:" c.notValid ++
    s.countText .red "Illegal root:" c.illegalRoot ++
    s.countText .red "Parser errors:" c.parserError ++
    s.countText .yellow "Errors:" c.failed ++
    s.countText .cyan "Skipped:" c.skipped ++
    "  Success rate: " ++ c.successRate.fixed 1 ++ "%\n" ++
    "  Duration: " ++ r.metrics.total.text ++ "\n" ++
    if s.isVerbose then s.metricsText r.metrics else ""

def schemaSetsText (c : Counts) : String :=
  "\nDebug Information:\n" ++ s!"  Schema sets used: {c.schemaSets.length}\n" ++
    String.join (c.schemaSets.zipIdx.map fun (name, i) => s!"    {i + 1}: " ++ name ++ "\n")

def resultsText (s : Style) (r : Results) : String :=
  let lines (files : List FileResult) : String :=
    String.join (files.map fun file => s.fileText file ++ "\n")
  if s.verbosity = .quiet then lines (r.files.filter (·.isFailure))
  else
    lines (r.files.filter fun file => s.isVerbose || !file.isValid) ++
      (if r.files.isEmpty then "" else "\n") ++ s.summaryText r ++
      if s.verbosity = .debug then schemaSetsText r.counts else ""

def text (s : Style) (form : Form) (r : Results) : String :=
  match form with
  | .human => s.resultsText r
  | .summary => s.summaryText r
  | .json => r.json.text

end Style

end XmlSchema.Batch
