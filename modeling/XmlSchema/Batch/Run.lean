import XmlSchema.Batch.Results
import XmlSchema.Files.Discovery
import XmlSchema.Validation.Validator

namespace XmlSchema

open Provider (Context)
open Validation (Failure Validator)

open Batch (FileResult) in
structure Batch (σ : Type) where
  documents : List String
  judge : σ → String → FileResult × σ
  failFast : Bool := false

namespace Batch

structure Run (σ : Type) where
  state : σ
  stopped : Bool := false
  finished : List (Nat × FileResult) := []

variable {σ : Type}

def turn (b : Batch σ) (r : Run σ) (place : Nat) : Run σ :=
  match b.documents[place]? with
  | none => r
  | some path =>
    let (result, state) :=
      if r.stopped then ({ path, finding := .skipped .failFast }, r.state) else b.judge r.state path
    { state
      stopped := r.stopped || (b.failFast && result.isFailure)
      finished := (place, result) :: r.finished }

def run (b : Batch σ) (start : σ) (order : List Nat) : Run σ :=
  order.foldl b.turn { state := start }

def inOrder (b : Batch σ) : List Nat := List.range b.documents.length

def results (b : Batch σ) (r : Run σ) : List FileResult :=
  b.inOrder.filterMap fun place => r.finished.lookup place

inductive Phase where
  | discovery
  | validation
  | aggregation
  | complete
  deriving DecidableEq, Repr

structure Progress where
  phase : Phase
  file? : Option String := none
  completed : Nat
  total : Nat
  deriving DecidableEq, Repr

def Run.progress (r : Run σ) (total : Nat) : List Progress :=
  r.finished.reverse.zipIdx.map fun ((_, result), i) =>
    ⟨.validation, some result.path, i + 1, total⟩

def fullProgress (validation : List Progress) (total : Nat) : List Progress :=
  ⟨.discovery, none, 0, 0⟩ :: validation ++
    [⟨.aggregation, none, total, total⟩, ⟨.complete, none, total, total⟩]

def judgeFile (files : Files.Tree) (v : Validator) (path : String) : FileResult × Validator :=
  match files.read path with
  | .error fault => ({ path, finding := .failed (.io (.fault fault)) }, v)
  | .ok content =>
    let document := content.toList
    let context := Context.ofPath path
    match v.bundleFor document context with
    | (.error (.noSources identity), v) =>
      ({ path, finding := .skipped (.noSchemaSet identity) }, v)
    | (.error error, v) => ({ path, finding := .failed (.schema error) }, v)
    | (.ok bundle, v) =>
      (.ofOutcome path bundle.identity (v.validateAgainst bundle document context).1 .zero, v)

end Batch

end XmlSchema
