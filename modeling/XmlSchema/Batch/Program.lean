import XmlSchema.Batch.Run
import XmlSchema.Batch.Text
import XmlSchema.Settings.FailureText
import XmlSchema.Settings.Loading

namespace XmlSchema.Batch

open CommandLine (Arguments)
open Report (Verbosity)
open Validation (Failure Validator)

structure World where
  files : Files.Tree
  environment : Settings.Environment
  home : Option String

structure Refusal where
  text : String
  exitCode : Nat
  wanted : Bool := false

def startFailure : Nat := 4

def usageFailure : Nat := 2

def refusalOf (fault : CommandLine.Fault) : Refusal :=
  match fault with
  | .helpWanted | .versionWanted => { text := fault.message ++ "\n", exitCode := 0, wanted := true }
  | _ =>
    { text := "error: " ++ fault.message ++ "\n\n" ++ CommandLine.usageText ++ "\n"
      exitCode := usageFailure }

def refusalOfFailure (verbosity : Verbosity) (failure : Failure) : Refusal where
  text := match failure.text? verbosity with
    | some text => text ++ "\n"
    | none => ""
  exitCode := startFailure

structure Plan where
  batch : Batch Validator
  validator : Validator
  settings : Settings
  verbosity : Verbosity

def verbosityOf (a : Arguments) (s : Settings) : Verbosity :=
  if 2 ≤ a.verbose then .debug
  else .ofDemands s.output.verbose.toNat s.output.quiet

def providerOf (s : Settings) : Except SchemaError Provider :=
  if s.schemas.isEmpty then .ok (Provider.byHints none)
  else Provider.fixed (Provider.sourcesAt s.schemas.files
    (s.schemas.locations.map fun l => (l.namespaceName, l.location)))

def searchOf (s : Settings) : Files.Search where
  extensions := s.documents.extensions
  includes := s.documents.includes
  excludes := s.documents.excludes

def validatorOf (files : Files.Tree) (s : Settings) : Except SchemaError Validator := do
  let v : Validator := {
    provider := ← providerOf s
    options := s.options
    compile := fun identity sources => Schema.compile files true identity sources }
  let (result, v) := v.configure
  let _ ← result
  pure v

def documentsOf (files : Files.Tree) (s : Settings) (path : String) :
    Except Failure (List String) :=
  match (searchOf s).run files path with
  | .ok documents => .ok documents
  | .error (.pattern text) => .error (.config s!"Invalid glob pattern '{text}'")
  | .error (.read fault) => .error (.io (.fault fault))

def Plan.ofArgs (w : World) (args : List String) : Except Refusal Plan := do
  let a ← (Arguments.ofList args).mapError refusalOf
  if let some fault := a.startFault? w.files then
    throw { text := "Error: " ++ fault.message ++ "\n", exitCode := startFailure }
  let settings ← (Settings.load w.files w.home w.environment a).mapError fun failure =>
    { text := failure.text a.verbosity ++ "\n", exitCode := startFailure }
  let verbosity := verbosityOf a settings
  let validator ← (validatorOf w.files settings).mapError fun error =>
    refusalOfFailure verbosity (.schema error)
  let documents ← (documentsOf w.files settings a.path).mapError (refusalOfFailure verbosity)
  pure {
    batch := { documents, judge := judgeFile w.files, failFast := settings.validation.failFast }
    validator, settings, verbosity }

def Plan.start (p : Plan) : Run Validator := { state := p.validator }

def Plan.metrics (p : Plan) (r : Run Validator) (discovery validation : Duration) : Metrics where
  total := discovery.add validation
  discovery
  validation
  average := validation.part p.batch.documents.length
  filesPerSecond := Metrics.throughput p.batch.documents.length (discovery.add validation)
  concurrent := p.settings.validation.threads.getD 1
  cache := ⟨r.state.cache.use, r.state.cache.size⟩

def Plan.results (p : Plan) (r : Run Validator) (discovery validation : Duration) : Results :=
  ⟨p.batch.results r, p.metrics r discovery validation⟩

def Plan.text (p : Plan) (colors : Bool) (results : Results) : String :=
  Style.text { verbosity := p.verbosity, colors } p.settings.output.form results

end XmlSchema.Batch
