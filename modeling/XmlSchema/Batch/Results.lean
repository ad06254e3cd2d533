import XmlSchema.Batch.FileResult
import XmlSchema.Validation.Cache

namespace XmlSchema.Batch

open Number (Binary64)
open Validation (CacheUse Verdict)

def insertName (name : String) : List String → List String
  | [] => [name]
  | first :: rest =>
    if name < first then name :: first :: rest
    else if name = first then first :: rest
    else first :: insertName name rest

structure Counts where
  total : Nat := 0
  valid : Nat := 0
  invalid : Nat := 0
  parserError : Nat := 0
  illegalRoot : Nat := 0
  notValid : Nat := 0
  failed : Nat := 0
  skipped : Nat := 0
  duration : Duration := .zero
  schemaSets : List String := []
  deriving DecidableEq, Repr

namespace Counts

def addVerdict (c : Counts) : Verdict → Counts
  | .valid => { c with valid := c.valid + 1 }
  | .parserError => { c with invalid := c.invalid + 1, parserError := c.parserError + 1 }
  | .illegalRoot => { c with invalid := c.invalid + 1, illegalRoot := c.illegalRoot + 1 }
  | .notValid => { c with invalid := c.invalid + 1, notValid := c.notValid + 1 }

def addFile (c : Counts) (r : FileResult) : Counts :=
  let c := { c with total := c.total + 1, duration := c.duration.add r.duration }
  match r.finding with
  | .judged schemaSet verdict _ =>
    { c with schemaSets := insertName schemaSet c.schemaSets }.addVerdict verdict
  | .failed _ => { c with failed := c.failed + 1 }
  | .skipped _ => { c with skipped := c.skipped + 1 }

def ofFiles (files : List FileResult) : Counts := files.foldl addFile {}

def allValid (c : Counts) : Bool := c.valid == c.total && 0 < c.total

def hasErrors (c : Counts) : Bool := 0 < c.failed || 0 < c.invalid

def successRate (c : Counts) : Binary64 :=
  if c.total = 0 then .zero false
  else ((Binary64.ofNat c.valid).div (.ofNat c.total)).mul (.ofNat 100)

end Counts

structure CacheSummary where
  use : CacheUse := {}
  entries : Nat := 0

def CacheSummary.json (s : CacheSummary) : Json :=
  .object [("hits", .nat s.use.hits), ("misses", .nat s.use.misses),
    ("compilations", .nat s.use.compilations), ("failures", .nat s.use.failures),
    ("entries", .nat s.entries)]

structure Metrics where
  total : Duration := .zero
  discovery : Duration := .zero
  validation : Duration := .zero
  average : Duration := .zero
  filesPerSecond : Binary64 := .zero false
  concurrent : Nat := 0
  cache : CacheSummary := {}

namespace Metrics

def throughput (files : Nat) (elapsed : Duration) : Binary64 :=
  if elapsed.nanoseconds = 0 then .zero false else (Binary64.ofNat files).div elapsed.seconds

def ofCounts (c : Counts) : Metrics where
  total := c.duration
  validation := c.duration
  average := c.duration.part c.total
  filesPerSecond := throughput c.total c.duration
  concurrent := 1

def json (m : Metrics) : Json :=
  .object [("total_duration", m.total.json), ("discovery_duration", m.discovery.json),
    ("validation_duration", m.validation.json), ("average_time_per_file", m.average.json),
    ("throughput_files_per_second", .option .number m.filesPerSecond.shortest?),
    ("concurrent_validations", .nat m.concurrent), ("grammar_cache", m.cache.json)]

end Metrics

structure Results where
  files : List FileResult
  metrics : Metrics

namespace Results

def ofFiles (files : List FileResult) : Results := ⟨files, .ofCounts (.ofFiles files)⟩

def counts (r : Results) : Counts := .ofFiles r.files

def exitCode (r : Results) : Nat := (r.files.map (·.exitCode)).foldl max 0

def json (r : Results) : Json :=
  let c := r.counts
  .object [("total_files", .nat c.total), ("valid_files", .nat c.valid),
    ("invalid_files", .nat c.invalid), ("parser_error_files", .nat c.parserError),
    ("illegal_root_files", .nat c.illegalRoot), ("not_valid_files", .nat c.notValid),
    ("error_files", .nat c.failed), ("skipped_files", .nat c.skipped),
    ("total_duration", c.duration.json), ("average_duration", (c.duration.part c.total).json),
    ("file_results", .array (r.files.map (·.json))),
    ("schema_sets_used", .array (c.schemaSets.map .string)),
    ("performance_metrics", r.metrics.json)]

end Results

end XmlSchema.Batch
