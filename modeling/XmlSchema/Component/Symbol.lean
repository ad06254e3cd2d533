namespace XmlSchema.Component

structure SymbolTable where
  names : List String := []
  deriving DecidableEq, Repr

namespace SymbolTable

def index? (t : SymbolTable) (name : String) : Option Nat := t.names.idxOf? name

def contains (t : SymbolTable) (name : String) : Bool := t.names.contains name

def size (t : SymbolTable) : Nat := t.names.length

def intern (t : SymbolTable) (name : String) : Nat × SymbolTable :=
  match t.index? name with
  | some i => (i, t)
  | none => (t.size, { names := t.names ++ [name] })

end SymbolTable

inductive Symbol where
  | shared (index : Nat)
  | overlay (index : Nat)
  deriving DecidableEq, Repr

structure ShadowTable where
  shared : SymbolTable
  overlay : SymbolTable := {}
  deriving DecidableEq, Repr

namespace ShadowTable

def intern (t : ShadowTable) (name : String) : Symbol × ShadowTable :=
  match t.shared.index? name with
  | some i => (.shared i, t)
  | none =>
    let (i, overlay) := t.overlay.intern name
    (.overlay i, { t with overlay })

end ShadowTable

end XmlSchema.Component
