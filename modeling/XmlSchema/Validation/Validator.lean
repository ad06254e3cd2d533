import XmlSchema.Provider.Basic
import XmlSchema.Validation.Cache

namespace XmlSchema.Validation

open Provider (Context)
open Schema (Source)

structure Validator where
  provider : Provider
  options : Options := {}
  compile : String → List Source → Except SchemaError Bundle
  cache : Cache Bundle := {}

namespace Validator

def lookUp (v : Validator) (identity : String)
    (sources : Unit → Except SchemaError (List Source)) : Except SchemaError Bundle × Validator :=
  let (result, cache) := v.cache.getOrCompile v.compile identity sources
  (result, { v with cache })

def configure (v : Validator) : Except SchemaError (Option Bundle) × Validator :=
  match v.provider.identity? with
  | none => (.ok none, v)
  | some identity =>
    let (result, v) := v.lookUp identity fun _ => v.provider.sources
    (result.map some, v)

def bundleFor (v : Validator) (document : Bytes) (context : Context) :
    Except SchemaError Bundle × Validator :=
  match v.provider.identity? with
  | some identity => v.lookUp identity fun _ => v.provider.sources
  | none =>
    match v.provider.identityFor document context with
    | .error e => (.error e, v)
    | .ok identity => v.lookUp identity fun _ => v.provider.sourcesFor document context

def validateAgainst (v : Validator) (bundle : Bundle) (document : Bytes) (context : Context) :
    Outcome × Context :=
  let outcome := Validation.validate bundle (context.options v.options) document
  (outcome, context.writeReport outcome)

def validate (v : Validator) (document : Bytes) (context : Context) :
    Except SchemaError (Outcome × Context) × Validator :=
  let (result, v) := v.bundleFor document context
  (result.map fun bundle => v.validateAgainst bundle document context, v)

end Validator

end XmlSchema.Validation
