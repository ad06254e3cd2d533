import XmlSchema.Component.Basic

namespace XmlSchema.Component

open ContentModel (Particle)

structure Table (α : Type) where
  entries : List (String × α) := []

namespace Table
variable {α : Type}

def get? (t : Table α) (name : String) : Option α := t.entries.lookup name

def contains (t : Table α) (name : String) : Bool := (t.get? name).isSome

def insertNew (t : Table α) (name : String) (a : α) : Table α :=
  if t.contains name then t else { entries := t.entries ++ [(name, a)] }

def merge (t u : Table α) : Table α :=
  u.entries.foldl (fun t (name, a) => t.insertNew name a) t

end Table

structure Grammar where
  target : String
  systemIds : List String
  imports : List String := []
  elements : Table ElementDecl := {}
  types : Table (TypeDefinition ElementDecl) := {}
  attributes : Table AttributeDecl := {}
  groups : Table (Particle ElementDecl) := {}
  attributeGroups : Table AttributeGroup := {}

def addMissing (items more : List String) : List String :=
  more.foldl (fun items item => if items.contains item then items else items ++ [item]) items

/-- Adds the components of another grammar that a grammar does not define yet. -/
def Grammar.merge (g h : Grammar) : Grammar where
  target := g.target
  systemIds := addMissing g.systemIds h.systemIds
  imports := addMissing g.imports h.imports
  elements := g.elements.merge h.elements
  types := g.types.merge h.types
  attributes := g.attributes.merge h.attributes
  groups := g.groups.merge h.groups
  attributeGroups := g.attributeGroups.merge h.attributeGroups

structure Pool where
  grammars : List Grammar := []

namespace Pool

def grammar? (pool : Pool) (ns : String) : Option Grammar :=
  pool.grammars.find? fun g => g.target == ns

def containsNamespace (pool : Pool) (ns : String) : Bool := (pool.grammar? ns).isSome

def insertInto (g : Grammar) : List Grammar → List Grammar
  | [] => [g]
  | h :: rest => if h.target == g.target then h.merge g :: rest else h :: insertInto g rest

def insert (pool : Pool) (g : Grammar) : Pool := { grammars := insertInto g pool.grammars }

def element? (pool : Pool) (name : QName) : Option ElementDecl := do
  (← pool.grammar? name.ns).elements.get? name.localName

def type? (pool : Pool) (name : QName) : Option (TypeDefinition ElementDecl) :=
  if name.ns == schemaNamespace then TypeDefinition.builtin? name.localName
  else do (← pool.grammar? name.ns).types.get? name.localName

def attribute? (pool : Pool) (name : QName) : Option AttributeDecl := do
  (← pool.grammar? name.ns).attributes.get? name.localName

def group? (pool : Pool) (name : QName) : Option (Particle ElementDecl) := do
  (← pool.grammar? name.ns).groups.get? name.localName

def attributeGroup? (pool : Pool) (name : QName) : Option AttributeGroup := do
  (← pool.grammar? name.ns).attributeGroups.get? name.localName

def typeOf? (pool : Pool) : TypeRef ElementDecl → Option (TypeDefinition ElementDecl)
  | .named name => pool.type? name
  | .inline _ definition => some definition

def importsOf (pool : Pool) (ns : String) : List String :=
  ((pool.grammar? ns).map (·.imports)).getD []

def unvisited (pool : Pool) (visited : List String) : Nat :=
  pool.grammars.countP fun g => !visited.contains g.target

theorem unvisited_cons_le (pool : Pool) (visited : List String) (ns : String) :
    pool.unvisited (ns :: visited) ≤ pool.unvisited visited :=
  List.countP_mono_left fun g _ h => by
    simp only [List.contains_cons, Bool.not_or, Bool.and_eq_true] at h
    exact h.2

theorem unvisited_cons_lt {pool : Pool} {visited : List String} {ns : String}
    (new : visited.contains ns = false) (known : (pool.grammar? ns).isSome) :
    pool.unvisited (ns :: visited) < pool.unvisited visited := by
  obtain ⟨g, found⟩ := Option.isSome_iff_exists.1 known
  have member := List.mem_of_find?_eq_some found
  have target : g.target = ns := by simpa using List.find?_some found
  unfold unvisited
  generalize pool.grammars = grammars at member
  induction grammars with
  | nil => simp at member
  | cons h rest ih =>
    have le : rest.countP (fun g => !(ns :: visited).contains g.target) ≤
        rest.countP (fun g => !visited.contains g.target) :=
      List.countP_mono_left fun g _ h => by
        simp only [List.contains_cons, Bool.not_or, Bool.and_eq_true] at h
        exact h.2
    have flip : ∀ c : Bool, (!c) = true ↔ c = false := by decide
    simp only [List.countP_cons, flip, List.contains_cons, Bool.or_eq_false_iff] at le ih ⊢
    by_cases same : h.target = ns
    · simp only [same, beq_self_eq_true, Bool.true_eq_false, false_and, if_false, new, if_true]
      omega
    · have unequal : (h.target == ns) = false := by simpa using same
      have lt := ih (by
        cases member with
        | head => exact absurd target same
        | tail _ member => exact member)
      simp only [unequal, true_and]
      omega

def visit (pool : Pool) (visited ordered : List String) : List String → List String
  | [] => ordered
  | ns :: stack =>
    if _new : visited.contains ns then visit pool visited ordered stack
    else if _known : (pool.grammar? ns).isSome then
      visit pool (ns :: visited) (ordered ++ [ns]) ((pool.importsOf ns).reverse ++ stack)
    else visit pool (ns :: visited) (ordered ++ [ns]) stack
termination_by stack => (pool.unvisited visited, stack.length)
decreasing_by
  · exact Prod.Lex.right _ (by simp)
  · exact Prod.Lex.left _ _ (unvisited_cons_lt (by simpa using _new) _known)
  · rcases Nat.lt_or_eq_of_le (unvisited_cons_le pool visited ns) with h | h
    · exact Prod.Lex.left _ _ h
    · rw [h]
      exact Prod.Lex.right _ (by simp)

def transitiveNamespaces (pool : Pool) (ns : String) : List String := visit pool [] [] [ns]

/-- The most types that are looked at on the way from a type to one that it derives from. -/
def maxDerivations : Nat := 65

def baseOf? (pool : Pool) (t : ComplexType ElementDecl) : Option (ComplexType ElementDecl) := do
  let (name, _) ← t.base
  (← pool.type? name).complex?

/-- Whether a type, or one of those that it derives from, is another one or has its name. -/
def derivesFrom (pool : Pool) (base : ComplexType ElementDecl) : Nat → ComplexType ElementDecl → Bool
  | 0, _ => false
  | n + 1, t =>
    t.same base || (t.name.isSome && t.name == base.name) ||
      (pool.baseOf? t).any (derivesFrom pool base n)

def isDerivedFrom (pool : Pool) (derived base : TypeDefinition ElementDecl) : Bool :=
  match derived, base with
  | _, .anyType => true
  | .simple d, .simple b =>
    b.primitive? == some .anySimpleType || (d.name.isSome && d.name == b.name) ||
      (d.primitive?.isSome && d.primitive? == b.primitive?)
  | .complex d, .complex b => pool.derivesFrom b maxDerivations d
  | .complex d, .simple b =>
    match d.content with
    | .simple t => t.primitive? == b.primitive?
    | _ => false
  | .anyType, _ => false
  | .simple _, .complex _ => false

end Pool

end XmlSchema.Component
