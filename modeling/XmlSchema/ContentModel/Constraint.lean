import XmlSchema.ContentModel.Basic

namespace XmlSchema.ContentModel

open Component (QName)

inductive Violation where
  | ambiguous (first second : String)
  | inconsistent (typeName localName : String)
  | notRestriction (typeName : String)
  deriving DecidableEq, Repr

def Violation.message : Violation → String
  | .ambiguous first second =>
    s!"cos-nonambig: {first} and {second} (or elements from their substitution group) violate \"Unique Particle Attribution\". During validation against this schema, ambiguity would be created for those two particles."
  | .inconsistent typeName localName =>
    s!"cos-element-consistent: Error for type '{typeName}'. Multiple elements with name '{localName}', with different types, appear in the model group."
  | .notRestriction typeName =>
    s!"derivation-ok-restriction.5.4.2: Error for type '{typeName}'. The particle of the type is not a valid restriction of the particle of the base."

def firstPair {α : Type} (related : α → α → Bool) : List α → Option (α × α)
  | [] => none
  | a :: rest =>
    match rest.find? (related a) with
    | some b => some (a, b)
    | none => firstPair related rest

variable {δ : Type}

def overlappingLabels (labels : List (Label δ)) : Option Violation :=
  (firstPair Label.overlaps labels).map fun (a, b) => .ambiguous a.description b.description

def maxSubsets : Nat := 512

namespace Graph

def successors (g : Graph δ) (active : List Nat) : List (List Nat) :=
  let out := (g.outgoing active).filterMap fun (label, target) =>
    (g.labels[label]?).map fun l => (l, target)
  (g.labelsFrom active).filterMap fun label => do
    let l ← g.labels[label]?
    pure (g.closure ((out.filter fun t => l.overlaps t.1).map (·.2)))

def findAmbiguity (g : Graph δ) (visited queue : List (List Nat)) : Option Violation :=
  match queue with
  | [] => none
  | active :: queue =>
    if maxSubsets ≤ visited.length then none
    else if visited.contains active then findAmbiguity g visited queue
    else
      match overlappingLabels ((g.labelsFrom active).filterMap (g.labels[·]?)) with
      | some violation => some violation
      | none =>
        let visited := active :: visited
        findAmbiguity g visited
          (queue ++ (g.successors active).filter fun next => !visited.contains next)
termination_by (maxSubsets - visited.length, queue.length)
decreasing_by
  · exact Prod.Lex.right _ (by simp)
  · exact Prod.Lex.left _ _ (by simp only [List.length_cons]; omega)

end Graph

/-- Two particles that an element could be taken for after the same children. -/
def ambiguity? : ContentModel δ → Option Violation
  | .empty => none
  | .automaton a => a.findAmbiguity [] [a.closure [a.start]]
  | .all ms _ => overlappingLabels (ms.map fun m => Label.element m.term)

def inconsistency? {ι : Type} [DecidableEq ι] (typeOf : δ → ι) (typeName : String)
    (model : ContentModel δ) : Option Violation :=
  let declared := model.elements.filterMap fun e => e.declaration.map fun d => (e.name, typeOf d)
  (firstPair (fun a b => a.1 == b.1 && a.2 != b.2) declared.eraseDups).map fun (a, _) =>
    .inconsistent typeName a.1.localName

end XmlSchema.ContentModel
