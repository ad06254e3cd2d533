import XmlSchema.ContentModel.Basic
import XmlSchema.Proofs.ContentModel.Path

namespace XmlSchema.ContentModel

open Component (QName)

variable {δ : Type}

namespace Graph

def transitionsOf (g : Graph δ) (state : Nat) : List (Nat × Nat) := (g.transitions[state]?).getD []

def size (g : Graph δ) : Nat := g.epsilons.size

inductive Edge (g : Graph δ) : Edges QName where
  | epsilon {s t : Nat} (member : t ∈ g.epsilonsOf s) : Edge g s [] t
  | read {s t label : Nat} {name : QName} (member : (label, t) ∈ g.transitionsOf s)
      (accepted : g.accepts name label = true) : Edge g s [name] t

structure WellFormed (g : Graph δ) : Prop where
  sizes : g.transitions.size = g.epsilons.size
  epsilon_lt : ∀ s t, t ∈ g.epsilonsOf s → t < g.size
  transition_lt : ∀ s label t, (label, t) ∈ g.transitionsOf s → label < g.labels.size ∧ t < g.size

theorem wellFormed_empty : (⟨#[], #[], #[]⟩ : Graph δ).WellFormed where
  sizes := rfl
  epsilon_lt := by simp [epsilonsOf]
  transition_lt := by simp [transitionsOf]

theorem epsilonsOf_of_size_le {g : Graph δ} {s : Nat} (le : g.size ≤ s) : g.epsilonsOf s = [] := by
  simp [epsilonsOf, Array.getElem?_eq_none (show g.epsilons.size ≤ s from le)]

theorem WellFormed.transitionsOf_of_size_le {g : Graph δ} (h : g.WellFormed) {s : Nat}
    (le : g.size ≤ s) : g.transitionsOf s = [] := by
  simp [transitionsOf, Array.getElem?_eq_none (show g.transitions.size ≤ s from h.sizes ▸ le)]

theorem WellFormed.source_lt {g : Graph δ} (h : g.WellFormed) {s t : Nat} {u : List QName}
    (edge : g.Edge s u t) : s < g.size := by
  by_contra le
  have le : g.size ≤ s := Nat.le_of_not_lt le
  cases edge with
  | epsilon member => simp [epsilonsOf_of_size_le le] at member
  | read member _ => simp [h.transitionsOf_of_size_le le] at member

theorem WellFormed.target_lt {g : Graph δ} (h : g.WellFormed) {s t : Nat} {u : List QName}
    (edge : g.Edge s u t) : t < g.size := by
  cases edge with
  | epsilon member => exact h.epsilon_lt _ _ member
  | read member _ => exact (h.transition_lt _ _ _ member).2

def addState (g : Graph δ) : Graph δ :=
  { g with transitions := g.transitions.push [], epsilons := g.epsilons.push [] }

def addEpsilon (g : Graph δ) (source target : Nat) : Graph δ :=
  { g with epsilons := g.epsilons.modify source (target :: ·) }

def addLabelled (g : Graph δ) (label : Label δ) (source target : Nat) : Graph δ :=
  { g with
    labels := g.labels.push label
    transitions := g.transitions.modify source ((g.labels.size, target) :: ·) }

@[simp] theorem size_addState (g : Graph δ) : g.addState.size = g.size + 1 := by
  simp [addState, size]

@[simp] theorem size_addEpsilon (g : Graph δ) (a b : Nat) : (g.addEpsilon a b).size = g.size := by
  simp [addEpsilon, size]

@[simp] theorem size_addLabelled (g : Graph δ) (label : Label δ) (a b : Nat) :
    (g.addLabelled label a b).size = g.size := rfl

theorem epsilonsOf_addState (g : Graph δ) (s : Nat) : g.addState.epsilonsOf s = g.epsilonsOf s := by
  simp only [epsilonsOf, addState, Array.getElem?_push]
  split
  · simp_all
  · rfl

theorem transitionsOf_addState (g : Graph δ) (s : Nat) :
    g.addState.transitionsOf s = g.transitionsOf s := by
  simp only [transitionsOf, addState, Array.getElem?_push]
  split
  · simp_all
  · rfl

theorem epsilonsOf_addEpsilon {g : Graph δ} {a : Nat} (b : Nat) (lt : a < g.size) (s : Nat) :
    (g.addEpsilon a b).epsilonsOf s = if s = a then b :: g.epsilonsOf s else g.epsilonsOf s := by
  simp only [epsilonsOf, addEpsilon, Array.getElem?_modify]
  have lt : a < g.epsilons.size := lt
  by_cases equal : s = a
  · subst equal
    simp [lt]
  · simp [equal, Ne.symm equal]

theorem transitionsOf_addLabelled {g : Graph δ} {a : Nat} (h : g.WellFormed) (label : Label δ)
    (b : Nat) (lt : a < g.size) (s : Nat) :
    (g.addLabelled label a b).transitionsOf s =
      if s = a then (g.labels.size, b) :: g.transitionsOf s else g.transitionsOf s := by
  simp only [transitionsOf, addLabelled, Array.getElem?_modify]
  have lt : a < g.transitions.size := h.sizes ▸ lt
  by_cases equal : s = a
  · subst equal
    simp [lt]
  · simp [equal, Ne.symm equal]

theorem accepts_addLabelled {g : Graph δ} {label : Label δ} {a b i : Nat} (lt : i < g.labels.size)
    (name : QName) : (g.addLabelled label a b).accepts name i = g.accepts name i := by
  simp [accepts, addLabelled, Array.getElem?_push, Nat.ne_of_lt lt]

theorem accepts_addLabelled_size (g : Graph δ) (label : Label δ) (a b : Nat) (name : QName) :
    (g.addLabelled label a b).accepts name g.labels.size = label.accepts name := by
  simp [accepts, addLabelled]

theorem edge_addState {g : Graph δ} {s t : Nat} {u : List QName} :
    g.addState.Edge s u t ↔ g.Edge s u t := by
  constructor
  · rintro (⟨member⟩ | ⟨member, accepted⟩)
    · exact .epsilon (epsilonsOf_addState g s ▸ member)
    · exact .read (transitionsOf_addState g s ▸ member) accepted
  · rintro (⟨member⟩ | ⟨member, accepted⟩)
    · exact .epsilon ((epsilonsOf_addState g s).symm ▸ member)
    · exact .read ((transitionsOf_addState g s).symm ▸ member) accepted

theorem edge_addEpsilon {g : Graph δ} {a b s t : Nat} {u : List QName} (lt : a < g.size) :
    (g.addEpsilon a b).Edge s u t ↔ g.Edge s u t ∨ s = a ∧ u = [] ∧ t = b := by
  constructor
  · rintro (⟨member⟩ | ⟨member, accepted⟩)
    · rw [epsilonsOf_addEpsilon b lt] at member
      split at member
      · next equal =>
        rcases List.mem_cons.1 member with rfl | member
        · exact .inr ⟨equal, rfl, rfl⟩
        · exact .inl (.epsilon member)
      · exact .inl (.epsilon member)
    · exact .inl (.read member accepted)
  · rintro ((⟨member⟩ | ⟨member, accepted⟩) | ⟨rfl, rfl, rfl⟩)
    · refine .epsilon ?_
      rw [epsilonsOf_addEpsilon b lt]
      split
      · exact List.mem_cons_of_mem _ member
      · exact member
    · exact .read member accepted
    · refine .epsilon ?_
      simp [epsilonsOf_addEpsilon t lt]

theorem edge_addLabelled {g : Graph δ} (h : g.WellFormed) {label : Label δ} {a b s t : Nat}
    {u : List QName} (lt : a < g.size) : (g.addLabelled label a b).Edge s u t ↔
      g.Edge s u t ∨ s = a ∧ t = b ∧ ∃ name, u = [name] ∧ label.accepts name = true := by
  constructor
  · rintro (⟨member⟩ | ⟨member, accepted⟩)
    · exact .inl (.epsilon member)
    · rw [transitionsOf_addLabelled h label b lt] at member
      split at member
      · next equal =>
        rcases List.mem_cons.1 member with new | member
        · obtain ⟨rfl, rfl⟩ := Prod.mk.inj new
          rw [accepts_addLabelled_size] at accepted
          exact .inr ⟨equal, rfl, _, rfl, accepted⟩
        · rw [accepts_addLabelled (h.transition_lt _ _ _ member).1] at accepted
          exact .inl (.read member accepted)
      · rw [accepts_addLabelled (h.transition_lt _ _ _ member).1] at accepted
        exact .inl (.read member accepted)
  · rintro ((⟨member⟩ | ⟨member, accepted⟩) | ⟨rfl, rfl, name, rfl, accepted⟩)
    · exact .epsilon member
    · refine .read ?_ ((accepts_addLabelled (h.transition_lt _ _ _ member).1 _).trans
        accepted)
      rw [transitionsOf_addLabelled h label b lt]
      split
      · exact List.mem_cons_of_mem _ member
      · exact member
    · refine .read ?_ ((accepts_addLabelled_size ..).trans accepted)
      simp [transitionsOf_addLabelled h label t lt]

theorem WellFormed.addState {g : Graph δ} (h : g.WellFormed) : g.addState.WellFormed where
  sizes := by simp [Graph.addState, h.sizes]
  epsilon_lt s t member := by
    rw [epsilonsOf_addState] at member
    exact Nat.lt_of_lt_of_le (h.epsilon_lt s t member) (by simp)
  transition_lt s label t member := by
    rw [transitionsOf_addState] at member
    obtain ⟨label_lt, target_lt⟩ := h.transition_lt s label t member
    exact ⟨label_lt, Nat.lt_of_lt_of_le target_lt (by simp)⟩

theorem WellFormed.addEpsilon {g : Graph δ} (h : g.WellFormed) {a b : Nat} (source : a < g.size)
    (target : b < g.size) : (g.addEpsilon a b).WellFormed where
  sizes := by simp [Graph.addEpsilon, h.sizes]
  epsilon_lt s t member := by
    rw [epsilonsOf_addEpsilon b source] at member
    rw [size_addEpsilon]
    split at member
    · rcases List.mem_cons.1 member with rfl | member
      · exact target
      · exact h.epsilon_lt s t member
    · exact h.epsilon_lt s t member
  transition_lt := by
    rw [size_addEpsilon]
    exact h.transition_lt

theorem WellFormed.addLabelled {g : Graph δ} (h : g.WellFormed) {a b : Nat} (label : Label δ)
    (source : a < g.size) (target : b < g.size) : (g.addLabelled label a b).WellFormed where
  sizes := by simp [Graph.addLabelled, h.sizes]
  epsilon_lt := h.epsilon_lt
  transition_lt s i t member := by
    rw [transitionsOf_addLabelled h label b source] at member
    have old : (i, t) ∈ g.transitionsOf s →
        i < (g.addLabelled label a b).labels.size ∧ t < (g.addLabelled label a b).size := by
      intro member
      obtain ⟨label_lt, target_lt⟩ := h.transition_lt s i t member
      exact ⟨by simp [Graph.addLabelled]; omega, target_lt⟩
    split at member
    · rcases List.mem_cons.1 member with new | member
      · obtain ⟨rfl, rfl⟩ := Prod.mk.inj new
        exact ⟨by simp [Graph.addLabelled], target⟩
      · exact old member
    · exact old member

end Graph

end XmlSchema.ContentModel
