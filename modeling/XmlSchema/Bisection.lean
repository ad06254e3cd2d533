namespace XmlSchema.Bisection

inductive Place where
  | found (index : Nat)
  | missing (index : Nat)
  deriving DecidableEq, Repr

namespace Place

def index : Place → Nat
  | .found index | .missing index => index

def isFound : Place → Bool
  | .found _ => true
  | .missing _ => false

end Place

variable {α : Type}

/-- Searches the items from `low` on and below `high`. How an item compares to what is sought is told
by `order`. -/
def search (order : α → Ordering) (items : Array α) (low high : Nat) : Place :=
  if _h : low < high then
    let middle := low + (high - low) / 2
    match (items[middle]?).map order with
    | some .lt => search order items (middle + 1) high
    | some .gt => search order items low middle
    | some .eq => .found middle
    | none => .missing low
  else .missing low
termination_by high - low

def contains (items : Array Nat) (n : Nat) : Bool :=
  (search (compare · n) items 0 items.size).isFound

def side (before : α → Bool) (item : α) : Ordering := if before item then .lt else .gt

def partitionPoint (before : α → Bool) (items : Array α) : Nat :=
  (search (side before) items 0 items.size).index

def Sorted (order : α → Ordering) (items : Array α) : Prop :=
  items.toList.Pairwise fun a b => (order b = .lt → order a = .lt) ∧ (order a = .gt → order b = .gt)

def Place.IsRight (order : α → Ordering) (items : Array α) : Place → Prop
  | .found i => ∃ item, items[i]? = some item ∧ order item = .eq
  | .missing i => i ≤ items.size ∧
      ∀ (j : Nat) (item : α), items[j]? = some item → order item = if j < i then .lt else .gt

section
variable {order : α → Ordering} {items : Array α} {j k low high : Nat} {a b : α}

theorem Sorted.before (sorted : Sorted order items) (le : j ≤ k) (atJ : items[j]? = some a)
    (atK : items[k]? = some b) : (order b = .lt → order a = .lt) ∧ (order a = .gt → order b = .gt) := by
  rcases Nat.lt_or_eq_of_le le with lt | rfl
  · obtain ⟨j_lt, rfl⟩ := Array.getElem?_eq_some_iff.1 atJ
    obtain ⟨k_lt, rfl⟩ := Array.getElem?_eq_some_iff.1 atK
    exact List.pairwise_iff_getElem.1 sorted j k j_lt k_lt lt
  · obtain rfl := Option.some.inj (atJ.symm.trans atK)
    exact ⟨id, id⟩

theorem isRight_search (sorted : Sorted order items)
    (front : ∀ (j : Nat) (item : α), items[j]? = some item → j < low → order item = .lt)
    (rear : ∀ (j : Nat) (item : α), items[j]? = some item → high ≤ j → order item = .gt)
    (le : low ≤ high) (inside : high ≤ items.size) :
    (search order items low high).IsRight order items := by
  fun_induction search order items low high with
  | case1 low high apart middle less ih =>
    obtain ⟨item, here, less⟩ := Option.map_eq_some_iff.1 less
    refine ih (fun j a atJ lt => ?_) rear (by omega) inside
    exact (sorted.before (Nat.le_of_lt_succ lt) atJ here).1 less
  | case2 low high apart middle greater ih =>
    obtain ⟨item, here, greater⟩ := Option.map_eq_some_iff.1 greater
    refine ih front (fun j b atJ le => ?_) (by omega) (by omega)
    exact (sorted.before le here atJ).2 greater
  | case3 low high apart middle equal => exact Option.map_eq_some_iff.1 equal
  | case4 low high apart middle none =>
    have := Array.getElem?_eq_none_iff.1 (Option.map_eq_none_iff.1 none)
    omega
  | case5 low high met =>
    refine ⟨by omega, fun j item atJ => ?_⟩
    split
    · next lt => exact front j item atJ lt
    · next behind => exact rear j item atJ (by omega)

theorem isRight_search_all (sorted : Sorted order items) :
    (search order items 0 items.size).IsRight order items := by
  refine isRight_search sorted (fun _ _ _ lt => absurd lt (Nat.not_lt_zero _))
    (fun j item atJ le => ?_) (Nat.zero_le _) (Nat.le_refl _)
  rw [Array.getElem?_eq_none le] at atJ
  cases atJ

end

theorem contains_iff {items : Array Nat} (increasing : items.toList.Pairwise (· < ·)) (n : Nat) :
    contains items n = true ↔ n ∈ items := by
  have sorted : Sorted (fun item => compare item n) items := increasing.imp fun {a b} lt => by
    simp only [Nat.compare_eq_lt, Nat.compare_eq_gt]
    omega
  have right := isRight_search_all sorted
  unfold contains
  cases result : search (fun item => compare item n) items 0 items.size with
  | found i =>
    obtain ⟨item, here, equal⟩ := result ▸ right
    exact iff_of_true rfl (Nat.compare_eq_eq.1 equal ▸ Array.mem_of_getElem? here)
  | missing i =>
    refine iff_of_false Bool.false_ne_true fun member => ?_
    obtain ⟨j, here⟩ := Array.mem_iff_getElem?.1 member
    have apart : compare n n = if j < i then .lt else .gt := (result ▸ right).2 j n here
    rw [Nat.compare_eq_eq.2 rfl] at apart
    split at apart <;> cases apart

theorem partitionPoint_append {before : α → Bool} {front rear : List α}
    (met : ∀ item ∈ front, before item = true) (unmet : ∀ item ∈ rear, before item = false) :
    partitionPoint before (front ++ rear).toArray = front.length := by
  have less : ∀ item ∈ front, side before item = .lt := fun item member => by
    rw [side, if_pos (met item member)]
  have greater : ∀ item ∈ rear, side before item = .gt := fun item member => by
    rw [side, unmet item member, if_neg Bool.false_ne_true]
  have sorted : Sorted (side before) (front ++ rear).toArray := by
    refine List.pairwise_append.2 ⟨?_, ?_, ?_⟩
    · exact List.pairwise_of_forall_mem_list fun a memberA b memberB => by simp [less a memberA]
    · exact List.pairwise_of_forall_mem_list fun a memberA b memberB => by simp [greater b memberB]
    · exact fun a memberA b memberB => by simp [less a memberA, greater b memberB]
  have right := isRight_search_all sorted
  unfold partitionPoint
  cases result : search (side before) (front ++ rear).toArray 0 (front ++ rear).toArray.size with
  | found i =>
    obtain ⟨item, here, equal⟩ := result ▸ right
    rcases List.mem_append.1 (List.mem_toArray.1 (Array.mem_of_getElem? here)) with member | member
    · cases (less item member).symm.trans equal
    · cases (greater item member).symm.trans equal
  | missing i =>
    obtain ⟨le, sides⟩ := result ▸ right
    simp only [List.getElem?_toArray, List.size_toArray, List.length_append] at le sides
    rcases Nat.lt_trichotomy i front.length with lt | equal | lt
    · have last := sides i front[i] (by simp [List.getElem?_append_left lt])
      rw [less _ (List.getElem_mem lt), if_neg (Nat.lt_irrefl i)] at last
      cases last
    · exact equal
    · have inside : 0 < rear.length := by omega
      have first := sides front.length rear[0] (by simp [List.getElem?_append_right])
      rw [greater _ (List.getElem_mem inside), if_pos lt] at first
      cases first

end XmlSchema.Bisection
