import XmlSchema.Proofs.ContentModel.Occurrence

/-!
# Leaves in each other's way

Two occurrences of one leaf that are offered after the same children do not compete: the child is
taken by the same leaf either way. But if groups are not repeated, two ways to one leaf part at some
child before, and there two leaves at different positions may take the same child
(`Particle.clash_of_same_position`).
-/

namespace XmlSchema.ContentModel

open Component (QName)

variable {δ : Type}

/-! ## Positions -/

/-- Leaves at two positions may take one and the same child, after the same children. -/
def Clash (offers : List QName → Leaf δ → Prop) : Prop :=
  ∃ before name a b, offers before a ∧ offers before b ∧
    a.occurrence.position ≠ b.occurrence.position ∧
    a.label.accepts name = true ∧ b.label.accepts name = true

theorem Clash.lift {offers offers' : List QName → Leaf δ → Prop} (clash : Clash offers)
    (u : List QName) (f : Leaf δ → Leaf δ) (label : ∀ leaf, (f leaf).label = leaf.label)
    (apart : ∀ a b, (f a).occurrence.position = (f b).occurrence.position →
      a.occurrence.position = b.occurrence.position)
    (offered : ∀ v leaf, offers v leaf → offers' (u ++ v) (f leaf)) : Clash offers' := by
  obtain ⟨v, name, a, b, first, second, positions, acceptsFirst, acceptsSecond⟩ := clash
  refine ⟨u ++ v, name, f a, f b, offered v a first, offered v b second,
    fun equal => positions (apart a b equal), ?_, ?_⟩
  · rwa [label]
  · rwa [label]

theorem position_within_inj {copy child : Nat} {a b : Leaf δ}
    (equal : (a.within copy child).occurrence.position = (b.within copy child).occurrence.position) :
    a.occurrence.position = b.occurrence.position :=
  (List.cons.inj equal).2

theorem position_within_ne {copy child : Nat} {ps : List (Particle δ)} {inner leaf : Leaf δ}
    (member : leaf ∈ leavesWithin copy (child + 1) ps) :
    (inner.within copy child).occurrence.position ≠ leaf.occurrence.position := by
  obtain ⟨i, le, deeper, equal⟩ := mem_leavesWithin member
  rw [equal]
  intro same
  have : child = i := (List.cons.inj same).1
  omega

def Term.isLeaf : Term δ → Bool
  | .element _ | .wildcard _ => true
  | .sequence _ | .choice _ | .all _ => false

mutual

def Particle.groupsOnce : Particle δ → Bool
  | ⟨_, max, term⟩ => (term.isLeaf || max.any (· ≤ 1)) && term.groupsOnce

def Term.groupsOnce : Term δ → Bool
  | .element _ | .wildcard _ => true
  | .sequence children | .choice children | .all children => allGroupsOnce children

def allGroupsOnce : List (Particle δ) → Bool
  | [] => true
  | p :: ps => p.groupsOnce && allGroupsOnce ps

end

theorem Term.length_of_mem_language {t : Term δ} (leaf : t.isLeaf = true) {w : List QName}
    (member : w ∈ t.language) : w.length = 1 := by
  cases t with
  | element e =>
    obtain rfl : w = [e.name] := member
    rfl
  | wildcard wc =>
    obtain ⟨name, rfl, -⟩ := member
    rfl
  | sequence | choice | all => cases leaf

theorem length_of_mem_pow {l : Language QName} (single : ∀ w ∈ l, w.length = 1) {times : Nat}
    {w : List QName} (member : w ∈ l ^ times) : w.length = times := by
  induction times generalizing w with
  | zero => simpa using member
  | succ times ih =>
    rw [pow_succ', Language.mem_mul] at member
    obtain ⟨u, hu, v, hv, rfl⟩ := member
    rw [List.length_append, single u hu, ih hv, Nat.add_comm]

theorem Term.offers_of_isLeaf {t : Term δ} (isLeaf : t.isLeaf = true) {copy copy' : Nat}
    {before before' : List QName} {a b : Leaf δ} (first : t.Offers copy before a)
    (second : t.Offers copy' before' b) :
    before = [] ∧ before' = [] ∧ (copy = copy' → a = b) := by
  cases t with
  | element | wildcard =>
    obtain ⟨rfl, rfl⟩ := first
    obtain ⟨rfl, rfl⟩ := second
    exact ⟨rfl, rfl, by rintro rfl; rfl⟩
  | sequence | choice | all => cases isLeaf

theorem clash_of_longer {p : Particle δ} {ps : List (Particle δ)}
    (noAllFirst : p.containsAll = false) (noAllRest : anyContainsAll ps = false)
    {copy child : Nat} {u z rest : List QName} {name : QName} {leaf : Leaf δ}
    (member : u ∈ p.language) (longer : u ++ name :: z ∈ p.language)
    (offered : SequenceOffers copy (child + 1) ps (name :: rest) leaf) :
    Clash (SequenceOffers copy child (p :: ps)) := by
  obtain ⟨a, first, acceptsFirst⟩ := p.exists_offers_of_mem noAllFirst longer
  obtain ⟨b, second, acceptsSecond⟩ :=
    @exists_sequenceOffers_of_sequenceOffers _ ps noAllRest _ _ [] _ _ _ offered
  exact ⟨u, name, a.within copy child, b, .inl ⟨a, first, rfl⟩,
    .inr ⟨u, [], member, List.append_nil u, second⟩,
    position_within_ne (mem_leavesWithin_of_sequenceOffers ps second), acceptsFirst, acceptsSecond⟩

mutual

/-- If two occurrences of one leaf are offered after the same children, then two leaves at different
positions are in each other's way, provided that groups are not repeated. Where the two occurrences
are reached by different ways, the ways part at some child, and that is taken by two leaves. -/
theorem Particle.clash_of_same_position (p : Particle δ) (noAll : p.containsAll = false)
    (once : p.groupsOnce = true) {before : List QName} {a b : Leaf δ}
    (first : p.Offers before a) (second : p.Offers before b)
    (position : a.occurrence.position = b.occurrence.position)
    (apart : a.occurrence ≠ b.occurrence) : Clash p.Offers := by
  obtain ⟨min, max, t⟩ := p
  obtain ⟨times, u, v, lt, before, rfl, first⟩ := first
  obtain ⟨times', u', v', lt', before', equal, second⟩ := second
  obtain ⟨repeats, onceTerm⟩ := Bool.and_eq_true_iff.1 once
  by_cases isLeaf : t.isLeaf = true
  · -- The children before say how often the leaf has been taken.
    obtain ⟨rfl, rfl, same⟩ := t.offers_of_isLeaf isLeaf first second
    have single : ∀ w ∈ t.language, w.length = 1 := fun w => Term.length_of_mem_language isLeaf
    have counted : times' = times := by
      rw [← length_of_mem_pow single before, ← length_of_mem_pow single before']
      simpa using congrArg List.length equal
    exact absurd (congrArg Leaf.occurrence (same (by rw [counted]))) apart
  · obtain ⟨m, rfl, few⟩ : ∃ m, max = some m ∧ m ≤ 1 := by
      cases max with
      | none => simp [isLeaf] at repeats
      | some m => exact ⟨m, rfl, by simpa [isLeaf] using repeats⟩
    have lt := lt m rfl
    have lt' := lt' m rfl
    obtain rfl : times = 0 := by omega
    obtain rfl : times' = 0 := by omega
    obtain rfl : u = [] := by simpa using before
    obtain rfl : u' = [] := by simpa using before'
    obtain rfl : v' = v := equal
    refine (t.clash_of_same_position noAll onceTerm first second position apart).lift [] id
      (fun _ => rfl) (fun _ _ => id) fun w leaf offered => ?_
    exact ⟨0, [], w, fun m' bound => by cases bound; exact lt, by simp, rfl, offered⟩

theorem Term.clash_of_same_position (t : Term δ) (noAll : t.containsAll = false)
    (once : t.groupsOnce = true) {copy : Nat} {before : List QName} {a b : Leaf δ}
    (first : t.Offers copy before a) (second : t.Offers copy before b)
    (position : a.occurrence.position = b.occurrence.position)
    (apart : a.occurrence ≠ b.occurrence) : Clash (t.Offers copy) := by
  cases t with
  | element | wildcard =>
    exact absurd (congrArg Leaf.occurrence (first.2.trans second.2.symm)) apart
  | sequence children =>
    exact sequence_clash_of_same_position children noAll once first second position apart
  | choice children =>
    exact choice_clash_of_same_position children noAll once first second position apart
  | all children => cases noAll

theorem sequence_clash_of_same_position (ps : List (Particle δ)) (noAll : anyContainsAll ps = false)
    (once : allGroupsOnce ps = true) {copy child : Nat} {before : List QName} {a b : Leaf δ}
    (first : SequenceOffers copy child ps before a) (second : SequenceOffers copy child ps before b)
    (position : a.occurrence.position = b.occurrence.position)
    (apart : a.occurrence ≠ b.occurrence) : Clash (SequenceOffers copy child ps) := by
  cases ps with
  | nil => cases first
  | cons p ps =>
    obtain ⟨noAllFirst, noAllRest⟩ := Bool.or_eq_false_iff.1 noAll
    obtain ⟨onceFirst, onceRest⟩ := Bool.and_eq_true_iff.1 once
    rcases first with ⟨a, first, rfl⟩ | ⟨u, v, hu, rfl, first⟩ <;>
      rcases second with ⟨b, second, rfl⟩ | ⟨u', v', hu', equal, second⟩
    · have clash := p.clash_of_same_position noAllFirst onceFirst first second
        (position_within_inj position) fun same => apart (by simp [Leaf.within, same])
      exact clash.lift [] (Leaf.within copy child) (fun _ => rfl) (fun _ _ => position_within_inj)
        fun w leaf offered => .inl ⟨leaf, offered, rfl⟩
    · exact absurd position
        (position_within_ne (mem_leavesWithin_of_sequenceOffers ps second))
    · exact absurd position.symm
        (position_within_ne (mem_leavesWithin_of_sequenceOffers ps first))
    · by_cases same : u' = u
      · subst same
        obtain rfl := List.append_cancel_left equal
        exact (sequence_clash_of_same_position ps noAllRest onceRest first second position apart).lift
          u' id (fun _ => rfl) (fun _ _ => id) fun w leaf offered => .inr ⟨u', w, hu, rfl, offered⟩
      · rcases List.append_eq_append_iff.1 equal with ⟨_ | ⟨name, z⟩, rfl, rfl⟩ |
          ⟨_ | ⟨name, z⟩, rfl, rfl⟩
        · exact absurd (List.append_nil u').symm same
        · exact clash_of_longer noAllFirst noAllRest hu' hu second
        · exact absurd (List.append_nil u) same
        · exact clash_of_longer noAllFirst noAllRest hu hu' first

theorem choice_clash_of_same_position (ps : List (Particle δ)) (noAll : anyContainsAll ps = false)
    (once : allGroupsOnce ps = true) {copy child : Nat} {before : List QName} {a b : Leaf δ}
    (first : ChoiceOffers copy child ps before a) (second : ChoiceOffers copy child ps before b)
    (position : a.occurrence.position = b.occurrence.position)
    (apart : a.occurrence ≠ b.occurrence) : Clash (ChoiceOffers copy child ps) := by
  cases ps with
  | nil => cases first
  | cons p ps =>
    obtain ⟨noAllFirst, noAllRest⟩ := Bool.or_eq_false_iff.1 noAll
    obtain ⟨onceFirst, onceRest⟩ := Bool.and_eq_true_iff.1 once
    rcases first with ⟨a, first, rfl⟩ | first <;> rcases second with ⟨b, second, rfl⟩ | second
    · have clash := p.clash_of_same_position noAllFirst onceFirst first second
        (position_within_inj position) fun same => apart (by simp [Leaf.within, same])
      exact clash.lift [] (Leaf.within copy child) (fun _ => rfl) (fun _ _ => position_within_inj)
        fun w leaf offered => .inl ⟨leaf, offered, rfl⟩
    · exact absurd position (position_within_ne (mem_leavesWithin_of_choiceOffers ps second))
    · exact absurd position.symm (position_within_ne (mem_leavesWithin_of_choiceOffers ps first))
    · exact (choice_clash_of_same_position ps noAllRest onceRest first second position apart).lift []
        id (fun _ => rfl) (fun _ _ => id) fun w leaf offered => .inr offered

end

end XmlSchema.ContentModel
