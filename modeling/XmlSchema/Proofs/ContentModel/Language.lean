import Mathlib.Algebra.BigOperators.Group.Finset.Basic
import Mathlib.Computability.Language
import XmlSchema.ContentModel.Automaton

namespace XmlSchema.ContentModel

open Component (QName)
open scoped Computability

variable {δ : Type}

def bounded (min : Nat) (max : Option Nat) (l : Language QName) : Language QName :=
  {w | ∃ k, min ≤ k ∧ (∀ m ∈ max, k ≤ m) ∧ w ∈ l ^ k}

mutual

/-- The sequences of child names that a particle takes. -/
def Particle.language : Particle δ → Language QName
  | ⟨min, max, term⟩ => bounded min max term.language

/-- The sequences of child names that one occurrence of a term takes. -/
def Term.language : Term δ → Language QName
  | .element e => {[e.name]}
  | .wildcard w => {u | ∃ name, u = [name] ∧ w.allows name.ns}
  | .sequence children => (languages children).prod
  | .choice children => (languages children).sum
  | .all children => {u | ∃ order : List (Language QName), order.Perm (languages children) ∧ u ∈ order.prod}

def languages : List (Particle δ) → List (Language QName)
  | [] => []
  | p :: ps => p.language :: languages ps

end

mutual

def Particle.containsAll : Particle δ → Bool
  | ⟨_, _, term⟩ => term.containsAll

def Term.containsAll : Term δ → Bool
  | .element _ | .wildcard _ => false
  | .sequence children | .choice children => anyContainsAll children
  | .all _ => true

def anyContainsAll : List (Particle δ) → Bool
  | [] => false
  | p :: ps => p.containsAll || anyContainsAll ps

end

mutual

/-- Whether no particle in a particle must occur more often than it may. -/
def Particle.boundsOrdered : Particle δ → Bool
  | ⟨min, max, term⟩ => max.all (min ≤ ·) && term.boundsOrdered

def Term.boundsOrdered : Term δ → Bool
  | .element _ | .wildcard _ => true
  | .sequence children | .choice children | .all children => allBoundsOrdered children

def allBoundsOrdered : List (Particle δ) → Bool
  | [] => true
  | p :: ps => p.boundsOrdered && allBoundsOrdered ps

end

theorem bounded_none (min : Nat) (l : Language QName) :
    bounded min none l = l ^ min * l∗ := by
  ext w
  constructor
  · rintro ⟨k, le, -, member⟩
    obtain ⟨n, rfl⟩ := Nat.exists_eq_add_of_le le
    rw [pow_add, Language.mem_mul] at member
    obtain ⟨u, hu, v, hv, rfl⟩ := member
    refine Language.append_mem_mul hu ?_
    rw [Language.kstar_eq_iSup_pow, Language.mem_iSup]
    exact ⟨n, hv⟩
  · intro member
    obtain ⟨u, hu, v, hv, rfl⟩ := Language.mem_mul.1 member
    rw [Language.kstar_eq_iSup_pow, Language.mem_iSup] at hv
    obtain ⟨n, hv⟩ := hv
    refine ⟨min + n, by omega, by simp, ?_⟩
    rw [pow_add]
    exact Language.append_mem_mul hu hv

theorem mem_sum_range {n : Nat} {f : Nat → Language QName} {w : List QName} :
    w ∈ ∑ i ∈ Finset.range n, f i ↔ ∃ i < n, w ∈ f i := by
  induction n with
  | zero => simp
  | succ n ih =>
      rw [Finset.sum_range_succ, Language.mem_add, ih, Nat.exists_lt_succ_right]

theorem bounded_some {min max : Nat} (le : min ≤ max) (l : Language QName) :
    bounded min (some max) l = ∑ i ∈ Finset.range (max - min + 1), l ^ min * l ^ i := by
  ext w
  rw [mem_sum_range]
  constructor
  · rintro ⟨k, lower, upper, member⟩
    have upper := upper max rfl
    refine ⟨k - min, by omega, ?_⟩
    rwa [← pow_add, Nat.add_sub_cancel' lower]
  · rintro ⟨i, upper, member⟩
    refine ⟨min + i, by omega, fun m equal => ?_, ?_⟩
    · obtain rfl := Option.some.inj equal
      omega
    · rwa [pow_add]

end XmlSchema.ContentModel
