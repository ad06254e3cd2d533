import XmlSchema.Number.Binary64

namespace XmlSchema.Validation

structure CacheUse where
  hits : Nat := 0
  misses : Nat := 0
  compilations : Nat := 0
  failures : Nat := 0
  deriving DecidableEq, Repr

namespace CacheUse

def hitRate (use : CacheUse) : Number.Binary64 :=
  .ofRatio false use.hits (use.hits + use.misses)

def hit (use : CacheUse) : CacheUse := { use with hits := use.hits + 1 }

def miss (use : CacheUse) : CacheUse := { use with misses := use.misses + 1 }

def compilation (use : CacheUse) : CacheUse := { use with compilations := use.compilations + 1 }

def failure (use : CacheUse) : CacheUse := { use with failures := use.failures + 1 }

end CacheUse

structure Cache (β : Type) where
  entries : List (String × β) := []
  use : CacheUse := {}

namespace Cache
variable {β ε σ : Type} {m : Type → Type} [Monad m]

def get? (cache : Cache β) (identity : String) : Option β := cache.entries.lookup identity

def contains (cache : Cache β) (identity : String) : Bool := (cache.get? identity).isSome

def size (cache : Cache β) : Nat := cache.entries.length

def make (compile : String → List σ → m (Except ε β)) (identity : String)
    (sources : Unit → m (Except ε (List σ))) : m (Except ε β) := do
  match ← sources () with
  | .ok list => compile identity list
  | .error e => pure (.error e)

/-- The entry of a name. If there is none it is made, and it is kept unless that fails. -/
def getOrInsert (entries : List (String × β)) (identity : String) (init : m (Except ε β)) :
    m (Except ε β × List (String × β)) :=
  match entries.lookup identity with
  | some set => pure (.ok set, entries)
  | none => do
    match ← init with
    | .ok set => pure (.ok set, entries ++ [(identity, set)])
    | .error e => pure (.error e, entries)

def fetch (compile : String → List σ → m (Except ε β)) (cache : Cache β) (identity : String)
    (sources : Unit → m (Except ε (List σ))) : m (Except ε β × Cache β) :=
  match cache.get? identity with
  | some set => pure (.ok set, { cache with use := cache.use.hit })
  | none => do
    let init : StateT CacheUse m (Except ε β) := do
      modify CacheUse.compilation
      StateT.lift (make compile identity sources)
    let ((result, entries), use) ← (getOrInsert cache.entries identity init).run cache.use.miss
    match result with
    | .ok set => pure (.ok set, ⟨entries, use⟩)
    | .error e => pure (.error e, ⟨entries, use.failure⟩)

def getOrCompile (compile : String → List σ → Except ε β) (cache : Cache β) (identity : String)
    (sources : Unit → Except ε (List σ)) : Except ε β × Cache β :=
  Id.run (cache.fetch (m := Id) compile identity sources)

end Cache

end XmlSchema.Validation
