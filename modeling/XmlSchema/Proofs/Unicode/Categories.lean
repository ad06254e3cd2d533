import XmlSchema.Proofs.Text.Ascii
import XmlSchema.Unicode.Category

namespace XmlSchema.Unicode

namespace Runs

variable {α : Type} {runs : Runs α} {lengths : List (α × Nat)} {n start lo hi i : Nat} {value : α}

def valueAt : List (α × Nat) → Nat → Option α
  | [], _ => none
  | (value, length) :: rest, n => if n < length then some value else valueAt rest (n - length)

theorem bisect_eq (last : ∀ j run, runs[j]? = some run → (run.1 ≤ n ↔ j ≤ i)) (above : lo ≤ i)
    (below : i < hi) (inside : hi ≤ runs.size) : bisect runs n lo hi = i := by
  -- The run stays between the bounds, as each run that is looked at tells the side on which it is.
  fun_induction bisect runs n lo hi with
  | case1 lo hi apart mid run found starts ih =>
    exact ih ((last mid run found).1 starts) below inside
  | case2 lo hi apart mid run found notYet ih =>
    have before : i < mid := Nat.lt_of_not_le fun within => notYet ((last mid run found).2 within)
    exact ih above before (by omega)
  | case3 lo hi apart mid missing =>
    have := Array.getElem?_eq_none_iff.1 missing
    omega
  | case4 lo hi near => omega

def withStarts (start : Nat) : List (α × Nat) → List (Nat × α)
  | [] => []
  | (value, length) :: rest => (start, value) :: withStarts (start + length) rest

theorem ofLengths_eq (lengths : List (α × Nat)) :
    ofLengths lengths = (withStarts 0 lengths).toArray := by
  suffices continued : ∀ (runs : Runs α) (start : Nat),
      (lengths.foldl (fun (acc : Runs α × Nat) run =>
        (acc.1.push (acc.2, run.1), acc.2 + run.2)) (runs, start)).1 =
      runs ++ (withStarts start lengths).toArray from by
    rw [ofLengths, continued, Array.empty_append]
  induction lengths with
  | nil => simp [withStarts]
  | cons run lengths ih =>
    intro runs start
    rw [List.foldl_cons, ih]
    simp [withStarts]

theorem le_of_mem_withStarts {run : Nat × α} (member : run ∈ withStarts start lengths) :
    start ≤ run.1 := by
  induction lengths generalizing start with
  | nil => cases member
  | cons first lengths ih =>
    rcases List.mem_cons.1 member with rfl | later
    · exact Nat.le_refl _
    · exact Nat.le_trans (Nat.le_add_right _ _) (ih later)

theorem exists_last_start (within : valueAt lengths (n - start) = some value) (reached : start ≤ n) :
    ∃ i s, (withStarts start lengths)[i]? = some (s, value) ∧
      ∀ (j : Nat) (run : Nat × α), (withStarts start lengths)[j]? = some run → (run.1 ≤ n ↔ j ≤ i) := by
  induction lengths generalizing start with
  | nil => cases within
  | cons first lengths ih =>
    obtain ⟨other, length⟩ := first
    rw [valueAt] at within
    split at within
    · next ends =>
      obtain rfl := Option.some.inj within
      refine ⟨0, start, rfl, fun j run found => ?_⟩
      cases j with
      | zero =>
        obtain rfl := Option.some.inj found
        simpa using reached
      | succ j =>
        have later : start + length ≤ run.1 :=
          le_of_mem_withStarts (List.mem_of_getElem? (i := j) found)
        exact iff_of_false (by omega) (by omega)
    · next continues =>
      rw [Nat.sub_sub] at within
      obtain ⟨i, s, found, last⟩ := ih within (by omega)
      refine ⟨i + 1, s, found, fun j run among => ?_⟩
      cases j with
      | zero =>
        obtain rfl := Option.some.inj among
        simpa using reached
      | succ j => rw [last j run among, Nat.add_le_add_iff_right]

theorem at?_ofLengths (within : valueAt lengths n = some value) :
    (ofLengths lengths).at? n = some value := by
  obtain ⟨i, s, found, last⟩ := exists_last_start (show valueAt lengths (n - 0) = _ from within) n.zero_le
  have inside := (List.getElem?_eq_some_iff.1 found).1
  rw [at?, ofLengths_eq, bisect_eq (i := i) (by simpa using last) (Nat.zero_le i)
    (by simpa using inside) (Nat.le_refl _), List.getElem?_toArray, found]
  rfl

end Runs

def categoryLengths : List (Category × Nat) := (wordsOf categoryRuns).map categoryRun

theorem category_eq {c : Char} {k : Category}
    (within : Runs.valueAt categoryLengths c.toNat = some k) : category c = k := by
  rw [category, categories, ← categoryLengths, Runs.at?_ofLengths within]
  rfl

theorem categoryLengths_ascii : ∀ n < 128,
    (Runs.valueAt categoryLengths n).any (fun k => (k == .nd) == (48 ≤ n && n ≤ 57)) = true := by
  unfold categoryLengths wordsOf
  rw [Text.toList_eq_letters]
  decide +kernel

theorem category_eq_nd_iff {c : Char} (ascii : c.toNat < 128) :
    category c = .nd ↔ c.isDigit = true := by
  obtain ⟨k, within, same⟩ := Option.any_eq_true _ _ |>.1 (categoryLengths_ascii c.toNat ascii)
  have digits : k = .nd ↔ 48 ≤ c.toNat ∧ c.toNat ≤ 57 := by
    rw [beq_iff_eq, Bool.eq_iff_iff] at same
    simpa using same
  rw [category_eq within, digits, Char.isDigit_iff_toNat]
  rfl

theorem category_arabicNine : category '٩' = .nd := by
  apply category_eq
  unfold categoryLengths wordsOf
  rw [Text.toList_eq_letters]
  decide +kernel

end XmlSchema.Unicode
