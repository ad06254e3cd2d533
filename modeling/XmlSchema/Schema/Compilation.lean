import XmlSchema.Schema.Resolution

/-!
# Compiling schema sets

The sources of a schema set are compiled one by one. A source that refers to a component which is
not known yet is put off and tried again once others have been compiled. What is still put off when
nothing more gets done is compiled together, and then has to succeed.
-/

namespace XmlSchema

open Component

structure Bundle where
  identity : String
  symbols : SymbolTable
  pool : Pool
  /-- The namespaces that documents may use. The empty text stands for names without one. -/
  validNamespaces : List String

namespace Schema

abbrev LoadedSource := String × String

structure Progress where
  symbols : SymbolTable := {}
  pool : Pool := {}
  validNamespaces : List String := []

namespace Progress

/-- Takes compiled grammars in. The namespaces that they import, directly or through others, become
valid. -/
def register (p : Progress) (grammars : List Grammar) : Progress :=
  let pool := grammars.foldl Pool.insert p.pool
  { p with
    pool
    validNamespaces := grammars.foldl
      (fun valid g => addMissing valid (pool.transitiveNamespaces g.target)) p.validNamespaces }

def compileUnit (lib : Library) (p : Progress) (sources : List LoadedSource) :
    Except SchemaError (List Grammar) × Progress :=
  match (do documents (← unitTexts lib p.pool.containsNamespace sources)) with
  | .error e => (.error e, p)
  | .ok docs =>
    let (result, st) :=
      ((CompilationUnit.ofDocuments docs p.pool).compile.run { symbols := p.symbols })
    (result, { p with symbols := st.symbols })

/-- Compiles sources one by one. The result is what was put off, in order, and whether anything got
done. -/
def pass (lib : Library) (p : Progress) :
    List LoadedSource → Except SchemaError (Progress × List LoadedSource × Bool)
  | [] => .ok (p, [], false)
  | source :: rest =>
    match p.compileUnit lib [source] with
    | (.ok grammars, p) => do
      let (p, deferred, _) ← pass lib (p.register grammars) rest
      pure (p, deferred, true)
    | (.error e, p) =>
      if e.isDeferrable then do
        let (p, deferred, changed) ← pass lib p rest
        pure (p, source :: deferred, changed)
      else .error e

/-- Compiles sources one by one as long as something gets done. The result is what was put off to the
end. -/
def passes (lib : Library) :
    Nat → Progress → List LoadedSource → Except SchemaError (Progress × List LoadedSource)
  | 0, p, sources => .ok (p, sources)
  | n + 1, p, sources => do
    let (p, deferred, changed) ← p.pass lib sources
    if deferred.isEmpty || !changed then pure (p, deferred) else passes lib n p deferred

end Progress

def loadAll (files : Files.Tree) : List Source → Except SchemaError (List LoadedSource)
  | [] => .ok []
  | source :: rest => do
    let text ← source.load files
    pure ((source.systemId, text) :: (← loadAll files rest))

/-- Compiles a schema set. `discover` tells whether documents that are included or imported are
looked for on disk. -/
def compile (files : Files.Tree) (discover : Bool) (identity : String) (sources : List Source) :
    Except SchemaError Bundle := do
  if sources.isEmpty then throw (.noSources identity)
  let loaded ← loadAll files sources
  let lib := Library.ofSources loaded (if discover then some files else none)
  let (p, deferred) ← Progress.passes lib loaded.length {} loaded
  let p ←
    if deferred.isEmpty then pure p
    else match p.compileUnit lib deferred with
      | (.ok grammars, p) => pure (p.register grammars)
      | (.error e, _) => throw e
  pure { identity, symbols := p.symbols, pool := p.pool, validNamespaces := p.validNamespaces }

end Schema

end XmlSchema
