import XmlSchema.ContentModel.Automaton
import XmlSchema.Proofs.ContentModel.Language

namespace XmlSchema.ContentModel

open Component (QName)

variable {δ : Type}

inductive Occurrence where
  | leaf (copy : Nat)
  | inside (copy child : Nat) (deeper : Occurrence)
  deriving DecidableEq

namespace Occurrence

def copy : Occurrence → Nat
  | leaf copy | inside copy _ _ => copy

def position : Occurrence → List Nat
  | leaf _ => []
  | inside _ child deeper => child :: deeper.position

end Occurrence

structure Leaf (δ : Type) where
  occurrence : Occurrence
  label : Label δ

def Leaf.within (copy child : Nat) (leaf : Leaf δ) : Leaf δ :=
  ⟨.inside copy child leaf.occurrence, leaf.label⟩

def copyCount (min : Nat) (max : Option Nat) : Nat := max.getD (min + 1)

def copyAfter (min : Nat) (max : Option Nat) (times : Nat) : Nat :=
  match max with
  | none => Nat.min times min
  | some _ => times

theorem copyAfter_of_le {min : Nat} {max : Option Nat} {times : Nat} (le : times ≤ min) :
    copyAfter min max times = times := by
  cases max with
  | none => exact Nat.min_eq_left le
  | some max => rfl

theorem copyAfter_lt {min : Nat} {max : Option Nat} {times : Nat} (lt : ∀ m ∈ max, times < m) :
    copyAfter min max times < copyCount min max := by
  cases max with
  | none => exact Nat.lt_succ_of_le (Nat.min_le_right _ _)
  | some max => exact lt max rfl

mutual

def Particle.leaves : Particle δ → List (Leaf δ)
  | ⟨min, max, term⟩ => (List.range (copyCount min max)).flatMap fun copy => term.leaves copy

def Term.leaves : Term δ → Nat → List (Leaf δ)
  | .element e, copy => [⟨.leaf copy, .element e⟩]
  | .wildcard w, copy => [⟨.leaf copy, .wildcard w⟩]
  | .sequence children, copy | .choice children, copy => leavesWithin copy 0 children
  | .all _, _ => []

def leavesWithin (copy : Nat) : Nat → List (Particle δ) → List (Leaf δ)
  | _, [] => []
  | child, p :: ps => p.leaves.map (Leaf.within copy child) ++ leavesWithin copy (child + 1) ps

end

mutual

/-- A leaf may take the next child after children of some names. -/
def Particle.Offers : Particle δ → List QName → Leaf δ → Prop
  | ⟨min, max, term⟩, before, leaf => ∃ times u v, (∀ m ∈ max, times < m) ∧
      u ∈ term.language ^ times ∧ u ++ v = before ∧ term.Offers (copyAfter min max times) v leaf

/-- A leaf may take the next child after children that one copy of a term has taken. -/
def Term.Offers : Term δ → Nat → List QName → Leaf δ → Prop
  | .element e, copy, before, leaf => before = [] ∧ leaf = ⟨.leaf copy, .element e⟩
  | .wildcard w, copy, before, leaf => before = [] ∧ leaf = ⟨.leaf copy, .wildcard w⟩
  | .sequence children, copy, before, leaf => SequenceOffers copy 0 children before leaf
  | .choice children, copy, before, leaf => ChoiceOffers copy 0 children before leaf
  | .all _, _, _, _ => False

def SequenceOffers (copy : Nat) : Nat → List (Particle δ) → List QName → Leaf δ → Prop
  | _, [], _, _ => False
  | child, p :: ps, before, leaf =>
    (∃ inner, p.Offers before inner ∧ inner.within copy child = leaf) ∨
      ∃ u v, u ∈ p.language ∧ u ++ v = before ∧ SequenceOffers copy (child + 1) ps v leaf

def ChoiceOffers (copy : Nat) : Nat → List (Particle δ) → List QName → Leaf δ → Prop
  | _, [], _, _ => False
  | child, p :: ps, before, leaf =>
    (∃ inner, p.Offers before inner ∧ inner.within copy child = leaf) ∨
      ChoiceOffers copy (child + 1) ps before leaf

end

theorem mem_leavesWithin {copy child : Nat} {ps : List (Particle δ)} {leaf : Leaf δ}
    (member : leaf ∈ leavesWithin copy child ps) :
    ∃ i, child ≤ i ∧ ∃ inner, leaf.occurrence = .inside copy i inner := by
  induction ps generalizing child with
  | nil => simp [leavesWithin] at member
  | cons p ps ih =>
    rw [leavesWithin, List.mem_append, List.mem_map] at member
    rcases member with ⟨inner, -, rfl⟩ | member
    · exact ⟨child, le_rfl, inner.occurrence, rfl⟩
    · obtain ⟨i, le, inner⟩ := ih member
      exact ⟨i, by omega, inner⟩

theorem Term.copy_of_mem_leaves {t : Term δ} {copy : Nat} {leaf : Leaf δ}
    (member : leaf ∈ t.leaves copy) : leaf.occurrence.copy = copy := by
  cases t with
  | element | wildcard =>
    obtain rfl := List.mem_singleton.1 member
    rfl
  | sequence children | choice children =>
    obtain ⟨i, -, inner, equal⟩ := mem_leavesWithin member
    rw [equal]
    rfl
  | all children => cases member

mutual

theorem Particle.nodup_leaves (p : Particle δ) : (p.leaves.map (·.occurrence)).Nodup := by
  obtain ⟨min, max, t⟩ := p
  rw [Particle.leaves, List.map_flatMap, List.nodup_flatMap]
  refine ⟨fun copy _ => t.nodup_leaves copy, List.nodup_range.imp fun apart => ?_⟩
  rw [Function.onFun, List.disjoint_left]
  intro occurrence first second
  obtain ⟨leaf, member, rfl⟩ := List.mem_map.1 first
  obtain ⟨other, member', equal⟩ := List.mem_map.1 second
  have copies := Term.copy_of_mem_leaves member'
  rw [equal, Term.copy_of_mem_leaves member] at copies
  exact apart copies

theorem Term.nodup_leaves (t : Term δ) (copy : Nat) :
    ((t.leaves copy).map (·.occurrence)).Nodup := by
  cases t with
  | element | wildcard => exact List.nodup_singleton _
  | sequence children | choice children => exact nodup_leavesWithin copy 0 children
  | all children => exact List.nodup_nil

theorem nodup_leavesWithin (copy child : Nat) (ps : List (Particle δ)) :
    ((leavesWithin copy child ps).map (·.occurrence)).Nodup := by
  cases ps with
  | nil => exact List.nodup_nil
  | cons p ps =>
    rw [leavesWithin, List.map_append, List.nodup_append']
    have inner : ((p.leaves.map (Leaf.within copy child)).map (·.occurrence)) =
        (p.leaves.map (·.occurrence)).map (.inside copy child) := by
      simp only [List.map_map]
      rfl
    refine ⟨?_, nodup_leavesWithin copy (child + 1) ps, ?_⟩
    · rw [inner]
      exact p.nodup_leaves.map fun a b equal => by injection equal
    · rw [inner, List.disjoint_left]
      intro occurrence first second
      obtain ⟨leaf, -, rfl⟩ := List.mem_map.1 first
      obtain ⟨other, member, equal⟩ := List.mem_map.1 second
      obtain ⟨i, le, deeper, same⟩ := mem_leavesWithin member
      rw [equal] at same
      injection same
      omega

end

mutual

theorem Particle.mem_leaves_of_offers (p : Particle δ) {before : List QName} {leaf : Leaf δ}
    (offered : p.Offers before leaf) : leaf ∈ p.leaves := by
  obtain ⟨min, max, t⟩ := p
  obtain ⟨times, u, v, lt, -, -, offered⟩ := offered
  rw [Particle.leaves, List.mem_flatMap]
  exact ⟨_, List.mem_range.2 (copyAfter_lt lt), t.mem_leaves_of_offers offered⟩

theorem Term.mem_leaves_of_offers (t : Term δ) {copy : Nat} {before : List QName} {leaf : Leaf δ}
    (offered : t.Offers copy before leaf) : leaf ∈ t.leaves copy := by
  cases t with
  | element | wildcard => exact List.mem_singleton.2 offered.2
  | sequence children => exact mem_leavesWithin_of_sequenceOffers children offered
  | choice children => exact mem_leavesWithin_of_choiceOffers children offered
  | all children => cases offered

theorem mem_leavesWithin_of_sequenceOffers (ps : List (Particle δ)) {copy child : Nat}
    {before : List QName} {leaf : Leaf δ} (offered : SequenceOffers copy child ps before leaf) :
    leaf ∈ leavesWithin copy child ps := by
  cases ps with
  | nil => cases offered
  | cons p ps =>
    rw [leavesWithin, List.mem_append]
    rcases offered with ⟨inner, offered, rfl⟩ | ⟨u, v, -, -, offered⟩
    · exact .inl (List.mem_map_of_mem (p.mem_leaves_of_offers offered))
    · exact .inr (mem_leavesWithin_of_sequenceOffers ps offered)

theorem mem_leavesWithin_of_choiceOffers (ps : List (Particle δ)) {copy child : Nat}
    {before : List QName} {leaf : Leaf δ} (offered : ChoiceOffers copy child ps before leaf) :
    leaf ∈ leavesWithin copy child ps := by
  cases ps with
  | nil => cases offered
  | cons p ps =>
    rw [leavesWithin, List.mem_append]
    rcases offered with ⟨inner, offered, rfl⟩ | offered
    · exact .inl (List.mem_map_of_mem (p.mem_leaves_of_offers offered))
    · exact .inr (mem_leavesWithin_of_choiceOffers ps offered)

end

theorem mem_left_or_right {α : Type} {x y w rest : List α} {name : α}
    (equal : x ++ y = w ++ name :: rest) :
    (∃ z, w = x ++ z ∧ y = z ++ name :: rest) ∨ ∃ z, x = w ++ name :: z := by
  rcases List.append_eq_append_iff.1 equal with ⟨z, rfl, rfl⟩ | ⟨z, rfl, split⟩
  · exact .inl ⟨z, rfl, rfl⟩
  · cases z with
    | nil => exact .inl ⟨[], by simp, split.symm⟩
    | cons first z =>
      obtain ⟨rfl, -⟩ := List.cons.inj split
      exact .inr ⟨z, rfl⟩

theorem exists_mem_of_mem_pow {l : Language QName} {times : Nat} {w rest : List QName} {name : QName}
    (member : w ++ name :: rest ∈ l ^ times) :
    ∃ i < times, ∃ u v z, u ∈ l ^ i ∧ u ++ v = w ∧ v ++ name :: z ∈ l := by
  induction times generalizing w with
  | zero => simp at member
  | succ times ih =>
    rw [pow_succ', Language.mem_mul] at member
    obtain ⟨x, hx, y, hy, equal⟩ := member
    rcases mem_left_or_right equal with ⟨w, rfl, rfl⟩ | ⟨z, rfl⟩
    · obtain ⟨i, lt, u, v, z, hu, rfl, hv⟩ := ih hy
      refine ⟨i + 1, by omega, x ++ u, v, z, ?_, List.append_assoc .., hv⟩
      rw [pow_succ']
      exact Language.append_mem_mul hx hu
    · exact ⟨0, by omega, [], w, z, by simp, rfl, hx⟩

theorem exists_offers_of_mem_pow {min times : Nat} {max : Option Nat} {t : Term δ}
    (inTerm : ∀ copy v z name, v ++ name :: z ∈ t.language →
      ∃ leaf, t.Offers copy v leaf ∧ leaf.label.accepts name = true)
    (le : ∀ m ∈ max, times ≤ m) {w rest : List QName} {name : QName}
    (member : w ++ name :: rest ∈ t.language ^ times) :
    ∃ leaf, Particle.Offers ⟨min, max, t⟩ w leaf ∧ leaf.label.accepts name = true := by
  obtain ⟨i, lt, u, v, z, before, rfl, inside⟩ := exists_mem_of_mem_pow member
  obtain ⟨leaf, offered, accepts⟩ := inTerm (copyAfter min max i) v z name inside
  exact ⟨leaf, ⟨i, u, v, fun m bound => Nat.lt_of_lt_of_le lt (le m bound), before, rfl, offered⟩,
    accepts⟩

mutual

theorem Particle.exists_offers_of_mem (p : Particle δ) (noAll : p.containsAll = false)
    {w rest : List QName} {name : QName} (member : w ++ name :: rest ∈ p.language) :
    ∃ leaf, p.Offers w leaf ∧ leaf.label.accepts name = true := by
  obtain ⟨min, max, t⟩ := p
  obtain ⟨times, -, le, member⟩ := member
  exact exists_offers_of_mem_pow (fun copy _ _ _ => t.exists_offers_of_mem noAll copy) le member

theorem Term.exists_offers_of_mem (t : Term δ) (noAll : t.containsAll = false) (copy : Nat)
    {w rest : List QName} {name : QName} (member : w ++ name :: rest ∈ t.language) :
    ∃ leaf, t.Offers copy w leaf ∧ leaf.label.accepts name = true := by
  cases t with
  | element e =>
    have only : w ++ name :: rest = [e.name] := member
    obtain ⟨rfl, equal⟩ : w = [] ∧ name = e.name := by
      cases w <;> simp_all
    exact ⟨_, ⟨rfl, rfl⟩, by simp [Label.accepts, equal]⟩
  | wildcard wc =>
    obtain ⟨other, only, allowed⟩ := member
    obtain ⟨rfl, rfl⟩ : w = [] ∧ name = other := by
      cases w <;> simp_all
    exact ⟨_, ⟨rfl, rfl⟩, allowed⟩
  | sequence children => exact exists_sequenceOffers_of_mem children noAll copy 0 member
  | choice children => exact exists_choiceOffers_of_mem children noAll copy 0 member
  | all children => cases noAll

theorem exists_sequenceOffers_of_mem (ps : List (Particle δ)) (noAll : anyContainsAll ps = false)
    (copy child : Nat) {w rest : List QName} {name : QName}
    (member : w ++ name :: rest ∈ (languages ps).prod) :
    ∃ leaf, SequenceOffers copy child ps w leaf ∧ leaf.label.accepts name = true := by
  cases ps with
  | nil => simp [languages] at member
  | cons p ps =>
    obtain ⟨noAllFirst, noAllRest⟩ := Bool.or_eq_false_iff.1 noAll
    rw [languages, List.prod_cons, Language.mem_mul] at member
    obtain ⟨x, hx, y, hy, equal⟩ := member
    rcases mem_left_or_right equal with ⟨w, rfl, rfl⟩ | ⟨z, rfl⟩
    · obtain ⟨leaf, offered, accepts⟩ :=
        exists_sequenceOffers_of_mem ps noAllRest copy (child + 1) hy
      exact ⟨leaf, .inr ⟨x, w, hx, rfl, offered⟩, accepts⟩
    · obtain ⟨leaf, offered, accepts⟩ := p.exists_offers_of_mem noAllFirst hx
      exact ⟨leaf.within copy child, .inl ⟨leaf, offered, rfl⟩, accepts⟩

theorem exists_choiceOffers_of_mem (ps : List (Particle δ)) (noAll : anyContainsAll ps = false)
    (copy child : Nat) {w rest : List QName} {name : QName}
    (member : w ++ name :: rest ∈ (languages ps).sum) :
    ∃ leaf, ChoiceOffers copy child ps w leaf ∧ leaf.label.accepts name = true := by
  cases ps with
  | nil => exact absurd member (Language.notMem_zero _)
  | cons p ps =>
    obtain ⟨noAllFirst, noAllRest⟩ := Bool.or_eq_false_iff.1 noAll
    rw [languages, List.sum_cons, Language.mem_add] at member
    rcases member with member | member
    · obtain ⟨leaf, offered, accepts⟩ := p.exists_offers_of_mem noAllFirst member
      exact ⟨leaf.within copy child, .inl ⟨leaf, offered, rfl⟩, accepts⟩
    · obtain ⟨leaf, offered, accepts⟩ :=
        exists_choiceOffers_of_mem ps noAllRest copy (child + 1) member
      exact ⟨leaf, .inr offered, accepts⟩

end

mutual

theorem Particle.exists_offers_of_offers (p : Particle δ) (noAll : p.containsAll = false)
    {w rest : List QName} {name : QName} {leaf : Leaf δ}
    (offered : p.Offers (w ++ name :: rest) leaf) :
    ∃ earlier, p.Offers w earlier ∧ earlier.label.accepts name = true := by
  obtain ⟨min, max, t⟩ := p
  obtain ⟨times, u, v, lt, before, equal, offered⟩ := offered
  rcases mem_left_or_right equal with ⟨w, rfl, rfl⟩ | ⟨z, rfl⟩
  · obtain ⟨earlier, offered, accepts⟩ := t.exists_offers_of_offers noAll offered
    exact ⟨earlier, ⟨times, u, w, lt, before, rfl, offered⟩, accepts⟩
  · exact exists_offers_of_mem_pow (fun copy _ _ _ => t.exists_offers_of_mem noAll copy)
      (fun m bound => (lt m bound).le) before

theorem Term.exists_offers_of_offers (t : Term δ) (noAll : t.containsAll = false) {copy : Nat}
    {w rest : List QName} {name : QName} {leaf : Leaf δ}
    (offered : t.Offers copy (w ++ name :: rest) leaf) :
    ∃ earlier, t.Offers copy w earlier ∧ earlier.label.accepts name = true := by
  cases t with
  | element | wildcard => simp [Term.Offers] at offered
  | sequence children => exact exists_sequenceOffers_of_sequenceOffers children noAll offered
  | choice children => exact exists_choiceOffers_of_choiceOffers children noAll offered
  | all children => cases noAll

theorem exists_sequenceOffers_of_sequenceOffers (ps : List (Particle δ))
    (noAll : anyContainsAll ps = false) {copy child : Nat} {w rest : List QName} {name : QName}
    {leaf : Leaf δ} (offered : SequenceOffers copy child ps (w ++ name :: rest) leaf) :
    ∃ earlier, SequenceOffers copy child ps w earlier ∧ earlier.label.accepts name = true := by
  cases ps with
  | nil => cases offered
  | cons p ps =>
    obtain ⟨noAllFirst, noAllRest⟩ := Bool.or_eq_false_iff.1 noAll
    rcases offered with ⟨inner, offered, rfl⟩ | ⟨u, v, member, equal, offered⟩
    · obtain ⟨earlier, offered, accepts⟩ := p.exists_offers_of_offers noAllFirst offered
      exact ⟨earlier.within copy child, .inl ⟨earlier, offered, rfl⟩, accepts⟩
    · rcases mem_left_or_right equal with ⟨w, rfl, rfl⟩ | ⟨z, rfl⟩
      · obtain ⟨earlier, offered, accepts⟩ :=
          exists_sequenceOffers_of_sequenceOffers ps noAllRest offered
        exact ⟨earlier, .inr ⟨u, w, member, rfl, offered⟩, accepts⟩
      · obtain ⟨earlier, offered, accepts⟩ := p.exists_offers_of_mem noAllFirst member
        exact ⟨earlier.within copy child, .inl ⟨earlier, offered, rfl⟩, accepts⟩

theorem exists_choiceOffers_of_choiceOffers (ps : List (Particle δ))
    (noAll : anyContainsAll ps = false) {copy child : Nat} {w rest : List QName} {name : QName}
    {leaf : Leaf δ} (offered : ChoiceOffers copy child ps (w ++ name :: rest) leaf) :
    ∃ earlier, ChoiceOffers copy child ps w earlier ∧ earlier.label.accepts name = true := by
  cases ps with
  | nil => cases offered
  | cons p ps =>
    obtain ⟨noAllFirst, noAllRest⟩ := Bool.or_eq_false_iff.1 noAll
    rcases offered with ⟨inner, offered, rfl⟩ | offered
    · obtain ⟨earlier, offered, accepts⟩ := p.exists_offers_of_offers noAllFirst offered
      exact ⟨earlier.within copy child, .inl ⟨earlier, offered, rfl⟩, accepts⟩
    · obtain ⟨earlier, offered, accepts⟩ :=
        exists_choiceOffers_of_choiceOffers ps noAllRest offered
      exact ⟨earlier, .inr offered, accepts⟩

end

end XmlSchema.ContentModel
