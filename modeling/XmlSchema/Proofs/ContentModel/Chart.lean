import XmlSchema.Proofs.ContentModel.Layout
import XmlSchema.Proofs.ContentModel.Occurrence

/-!
# Where a layout reads leaves

A layout of a particle adds a label for each occurrence of a leaf, in the order of
`Particle.leaves`, and a label is read in one state only. The words that lead to that state are
words after which the leaf is offered (`Layout.particle_charts`). As for the languages of fragments,
there is one lemma for each way in which fragments are put together.
-/

namespace XmlSchema.ContentModel

open Component (QName)
open scoped Computability

variable {δ : Type}

/-- The labels that a graph has grown by are those of some leaves, in their order, and each is read
in one new state, where its leaf is offered. -/
structure Charted (g g' : Graph δ) (entry : Nat) (leaves : List (Leaf δ))
    (offers : List QName → Leaf δ → Prop) : Prop where
  labels : g'.labels.toList = g.labels.toList ++ leaves.map (·.label)
  old : ∀ s < g.size, g'.transitionsOf s = g.transitionsOf s
  few : ∀ s, g.size ≤ s → (g'.transitionsOf s).length ≤ 1
  once : ∀ s s' i t t', g.size ≤ s → g.size ≤ s' → (i, t) ∈ g'.transitionsOf s →
    (i, t') ∈ g'.transitionsOf s' → s = s'
  read : ∀ s i t, g.size ≤ s → (i, t) ∈ g'.transitionsOf s → ∃ n leaf, i = g.labels.size + n ∧
    leaves[n]? = some leaf ∧ ∀ w, Path g'.Edge entry w s → offers w leaf

namespace Charted

variable {g g₁ g₂ : Graph δ} {a b c d z : Nat} {k l m : Language QName}
  {leaves more : List (Leaf δ)} {offers offers' : List QName → Leaf δ → Prop}

theorem mono (h : Charted g g₁ a leaves offers) (le : ∀ w leaf, offers w leaf → offers' w leaf) :
    Charted g g₁ a leaves offers' where
  labels := h.labels
  old := h.old
  few := h.few
  once := h.once
  read s i t ge member := by
    obtain ⟨n, leaf, equal, found, offered⟩ := h.read s i t ge member
    exact ⟨n, leaf, equal, found, fun w path => le w leaf (offered w path)⟩

theorem map (h : Charted g g₁ a leaves offers) (f : Leaf δ → Leaf δ)
    (label : ∀ leaf, (f leaf).label = leaf.label)
    (le : ∀ w leaf, offers w leaf → offers' w (f leaf)) :
    Charted g g₁ a (leaves.map f) offers' where
  labels := by
    rw [h.labels, List.map_map]
    simp [Function.comp_def, label]
  old := h.old
  few := h.few
  once := h.once
  read s i t ge member := by
    obtain ⟨n, leaf, equal, found, offered⟩ := h.read s i t ge member
    exact ⟨n, f leaf, equal, by simp [found], fun w path => le w leaf (offered w path)⟩

theorem size_labels (h : Charted g g₁ a leaves offers) :
    g₁.labels.size = g.labels.size + leaves.length := by
  rw [← Array.length_toList, h.labels, List.length_append, List.length_map, Array.length_toList]

/-! ## Steps of a layout -/

theorem of_no_leaves (wellFormed : g.WellFormed) (offers : List QName → Leaf δ → Prop) :
    Charted g g.addState g.size [] offers where
  labels := by simp [Graph.addState]
  old s _ := g.transitionsOf_addState s
  few s ge := by simp [g.transitionsOf_addState, wellFormed.transitionsOf_of_size_le ge]
  once s _ i t _ ge _ member := by
    simp [g.transitionsOf_addState, wellFormed.transitionsOf_of_size_le ge] at member
  read s i t ge member := by
    simp [g.transitionsOf_addState, wellFormed.transitionsOf_of_size_le ge] at member

theorem addState (h : Charted g g₁ a leaves offers) : Charted g g₁.addState a leaves offers where
  labels := h.labels
  old s lt := (g₁.transitionsOf_addState s).trans (h.old s lt)
  few s ge := by
    rw [g₁.transitionsOf_addState]
    exact h.few s ge
  once s s' i t t' ge ge' := by
    rw [g₁.transitionsOf_addState, g₁.transitionsOf_addState]
    exact h.once s s' i t t' ge ge'
  read s i t ge := by
    rw [g₁.transitionsOf_addState]
    intro member
    obtain ⟨n, leaf, equal, found, offered⟩ := h.read s i t ge member
    exact ⟨n, leaf, equal, found, fun w path =>
      offered w (path.mono fun _ _ _ => Graph.edge_addState.1)⟩

theorem addLabelled (wellFormed : g.WellFormed) (leaf : Leaf δ) (offered : offers [] leaf) :
    Charted g (g.addState.addState.addLabelled leaf.label g.size (g.size + 1)) g.size [leaf]
      offers := by
  have grown := wellFormed.addState.addState
  have lt : g.size < g.addState.addState.size := by simp only [Graph.size_addState]; omega
  have transitions (s : Nat) :
      (g.addState.addState.addLabelled leaf.label g.size (g.size + 1)).transitionsOf s =
        if s = g.size then (g.labels.size, g.size + 1) :: g.transitionsOf s
        else g.transitionsOf s := by
    rw [Graph.transitionsOf_addLabelled grown leaf.label _ lt s, Graph.transitionsOf_addState,
      Graph.transitionsOf_addState]
    rfl
  have only (s i t : Nat) (ge : g.size ≤ s) (member : (i, t) ∈
      (g.addState.addState.addLabelled leaf.label g.size (g.size + 1)).transitionsOf s) :
      s = g.size ∧ i = g.labels.size := by
    rw [transitions, wellFormed.transitionsOf_of_size_le ge] at member
    split at member
    · next equal => exact ⟨equal, (Prod.mk.inj (List.mem_singleton.1 member)).1⟩
    · cases member
  exact
    { labels := by simp [Graph.addState, Graph.addLabelled]
      old := fun s old => by rw [transitions, if_neg (Nat.ne_of_lt old)]
      few := fun s ge => by
        rw [transitions, wellFormed.transitionsOf_of_size_le ge]
        split <;> simp
      once := fun s s' i t t' ge ge' member member' =>
        (only s i t ge member).1.trans (only s' i t' ge' member').1.symm
      read := fun s i t ge member => by
        obtain ⟨rfl, rfl⟩ := only s i t ge member
        refine ⟨0, leaf, rfl, rfl, fun w path => ?_⟩
        -- Nothing leads back to the state that the label is read in.
        have unentered (r : Nat) (u : List QName) :
            ¬ (g.addState.addState.addLabelled leaf.label g.size (g.size + 1)).Edge r u g.size := by
          rw [Graph.edge_addLabelled grown lt, Graph.edge_addState, Graph.edge_addState]
          rintro (edge | ⟨-, equal, -⟩)
          · exact Nat.lt_irrefl _ (wellFormed.target_lt edge)
          · omega
        obtain rfl := (path_iff_of_unentered unentered).1 path
        exact offered }

theorem of_edge_iff (h : Charted g g₁ a leaves offers) (labels : g₂.labels = g₁.labels)
    (transitions : ∀ s, g₂.transitionsOf s = g₁.transitionsOf s)
    (same : ∀ s u t, g₂.Edge s u t → g₁.Edge s u t) : Charted g g₂ a leaves offers where
  labels := labels ▸ h.labels
  old s lt := (transitions s).trans (h.old s lt)
  few s ge := by
    rw [transitions]
    exact h.few s ge
  once s s' i t t' ge ge' := by
    rw [transitions, transitions]
    exact h.once s s' i t t' ge ge'
  read s i t ge := by
    rw [transitions]
    intro member
    obtain ⟨n, leaf, equal, found, offered⟩ := h.read s i t ge member
    exact ⟨n, leaf, equal, found, fun w path => offered w (path.mono same)⟩

/-! ## One after another -/

theorem append (first : Fragment g g₁ a b l) (second : Fragment g₁ g₂ c d k)
    (h : Charted g g₁ a leaves offers)
    (h' : Charted g₁ g₂ c more fun v leaf => ∀ u ∈ l, offers (u ++ v) leaf) :
    Charted g (g₂.addEpsilon b c) a (leaves ++ more) offers := by
  have joined := first.joined second
  -- A transition and its label belong to one of the two fragments.
  have side (s i t : Nat) (ge : g.size ≤ s) (member : (i, t) ∈ g₂.transitionsOf s) :
      (s < g₁.size ∧ (i, t) ∈ g₁.transitionsOf s ∧ i < g₁.labels.size) ∨
        (g₁.size ≤ s ∧ g₁.labels.size ≤ i) := by
    by_cases early : s < g₁.size
    · rw [h'.old s early] at member
      exact .inl ⟨early, member, (first.wellFormed.transition_lt _ _ _ member).1⟩
    · obtain ⟨n, leaf, rfl, -, -⟩ := h'.read s i t (Nat.le_of_not_lt early) member
      exact .inr ⟨Nat.le_of_not_lt early, Nat.le_add_right _ _⟩
  exact
    { labels := by
        change g₂.labels.toList = _
        rw [h'.labels, h.labels, List.map_append, List.append_assoc]
      old := fun s lt =>
        (h'.old s (Nat.lt_of_lt_of_le lt first.size_le)).trans (h.old s lt)
      few := fun s ge => by
        change (g₂.transitionsOf s).length ≤ 1
        by_cases early : s < g₁.size
        · rw [h'.old s early]
          exact h.few s ge
        · exact h'.few s (Nat.le_of_not_lt early)
      once := fun s s' i t t' ge ge' member member' => by
        rcases side s i t ge member with ⟨-, early, lt⟩ | ⟨late, le⟩ <;>
          rcases side s' i t' ge' member' with ⟨-, early', lt'⟩ | ⟨late', le'⟩
        · exact h.once s s' i t t' ge ge' early early'
        · omega
        · omega
        · exact h'.once s s' i t t' late late' member member'
      read := fun s i t ge member => by
        rcases side s i t ge member with ⟨lt, early, -⟩ | ⟨late, -⟩
        · obtain ⟨n, leaf, equal, found, offered⟩ := h.read s i t ge early
          refine ⟨n, leaf, equal, ?_, fun w path =>
            offered w ((joined.early_path first.entry_lt lt).1 path)⟩
          rw [List.getElem?_append_left (List.getElem?_eq_some_iff.1 found).1, found]
        · obtain ⟨n, leaf, equal, found, offered⟩ := h'.read s i t late member
          refine ⟨leaves.length + n, leaf, ?_, ?_, fun w path => ?_⟩
          · rw [equal, h.size_labels, Nat.add_assoc]
          · rw [List.getElem?_append_right (Nat.le_add_right _ _), Nat.add_sub_cancel_left, found]
          · obtain ⟨u, v, rfl, left, right⟩ :=
              (joined.path_iff first.entry_lt (Nat.not_lt.2 late)).1 path
            exact offered v right u ((first.path_iff u).1 left) }

theorem leave (forked : Forked g g₁ a b z l m) (h : Charted g g₁ a leaves offers)
    (bare : g₁.transitionsOf z = []) : Charted g (g₁.addEpsilon b z) a leaves offers where
  labels := h.labels
  old := h.old
  few := h.few
  once := h.once
  read s i t ge member := by
    have other : s ≠ z := by
      rintro rfl
      rw [show (g₁.addEpsilon b s).transitionsOf s = g₁.transitionsOf s from rfl, bare] at member
      cases member
    obtain ⟨n, leaf, equal, found, offered⟩ := h.read s i t ge member
    exact ⟨n, leaf, equal, found, fun w path => offered w ((forked.drained.path_of_ne other).1 path)⟩

theorem hub (wellFormed : g.WellFormed) (body : Fragment g.addState g₁ c d k)
    (h : Charted g.addState g₁ c leaves fun v leaf => ∀ u ∈ k∗, offers (u ++ v) leaf) :
    Charted g ((g₁.addEpsilon g.size c).addEpsilon d g.size) g.size leaves offers := by
  have size : g.addState.size = g.size + 1 := Graph.size_addState g
  have bare : g₁.transitionsOf g.size = [] := by
    rw [h.old g.size (by omega), g.transitionsOf_addState,
      wellFormed.transitionsOf_of_size_le le_rfl]
  have inside (s i t : Nat) (ge : g.size ≤ s) (member : (i, t) ∈ g₁.transitionsOf s) :
      g.addState.size ≤ s := by
    have : s ≠ g.size := by
      rintro rfl
      rw [bare] at member
      cases member
    omega
  exact
    { labels := h.labels
      old := fun s lt => (h.old s (by omega)).trans (g.transitionsOf_addState s)
      few := fun s ge => by
        by_cases equal : s = g.size
        · rw [equal, show ((g₁.addEpsilon g.size c).addEpsilon d g.size).transitionsOf g.size =
            g₁.transitionsOf g.size from rfl, bare]
          exact Nat.zero_le _
        · exact h.few s (by omega)
      once := fun s s' i t t' ge ge' member member' =>
        h.once s s' i t t' (inside s i t ge member) (inside s' i t' ge' member') member member'
      read := fun s i t ge member => by
        have late := inside s i t ge member
        obtain ⟨n, leaf, equal, found, offered⟩ := h.read s i t late member
        refine ⟨n, leaf, equal, found, fun w path => ?_⟩
        obtain ⟨u, v, rfl, round, rest⟩ := ((body.cycled wellFormed).exists_of_path
          (fun w => (body.path_iff w).1) late path).1 rfl
        exact offered v rest u round }

end Charted

namespace Layout

def Charts (body : Layout δ (Nat × Nat)) (leaves : List (Leaf δ))
    (offers : List QName → Leaf δ → Prop) : Prop :=
  ∀ (g g' : Graph δ) (a b : Nat), g.WellFormed → body g = .ok ((a, b), g') →
    Charted g g' a leaves offers

section Repetition
variable {body : Layout δ (Nat × Nat)} {k l m : Language QName} {g g₁ g' : Graph δ} {a b c z : Nat}
  {done more : List (Leaf δ)} {leaves : Nat → List (Leaf δ)} {offers : List QName → Leaf δ → Prop}

theorem copies_charted (lays : Lays body k) (n : Nat) (laid : Fragment g g₁ a b l)
    (h : Charted g g₁ a done offers)
    (charts : ∀ i < n, Charts body (leaves i) fun v leaf => ∀ u ∈ l * k ^ i, offers (u ++ v) leaf)
    (run : copies body n b g₁ = .ok (c, g')) :
    Charted g g' a (done ++ (List.range n).flatMap leaves) offers := by
  induction n generalizing b g₁ l done leaves with
  | zero =>
      obtain ⟨rfl, rfl⟩ := pure_ok.1 run
      simpa using h
  | succ n ih =>
      rw [copies, bind_ok] at run
      obtain ⟨⟨entry, exit⟩, g₂, ran, run⟩ := run
      rw [bind_ok] at run
      obtain ⟨_, g₃, edge, run⟩ := run
      obtain rfl := epsilon_ok.1 edge
      have next := lays laid.wellFormed ran
      have first : Charted g₁ g₂ entry (leaves 0) fun v leaf => ∀ u ∈ l, offers (u ++ v) leaf :=
        (charts 0 (Nat.zero_lt_succ n) _ _ _ _ laid.wellFormed ran).mono fun v leaf offered u member =>
          offered u (by simpa using member)
      have later (i : Nat) (lt : i < n) : Charts body (leaves (i + 1)) fun v leaf =>
          ∀ u ∈ l * k * k ^ i, offers (u ++ v) leaf := by
        simpa only [mul_assoc, ← pow_succ'] using charts (i + 1) (by omega)
      have rest := ih (laid.append next) (h.append laid next first) later run
      rwa [List.range_succ_eq_map, List.flatMap_cons, List.flatMap_map, ← List.append_assoc]

theorem optionalCopies_charted (lays : Lays body k) (n : Nat) (laid : Forked g g₁ a b z l m)
    (h : Charted g g₁ a done offers) (bare : g₁.transitionsOf z = [])
    (charts : ∀ i < n, Charts body (leaves i) fun v leaf => ∀ u ∈ l * k ^ i, offers (u ++ v) leaf)
    (run : optionalCopies body z n b g₁ = .ok (c, g')) :
    Charted g g' a (done ++ (List.range n).flatMap leaves) offers ∧ g'.transitionsOf z = [] := by
  induction n generalizing b g₁ l m done leaves with
  | zero =>
      obtain ⟨rfl, rfl⟩ := pure_ok.1 run
      simpa using ⟨h, bare⟩
  | succ n ih =>
      rw [optionalCopies, bind_ok] at run
      obtain ⟨_, g₂, edge, run⟩ := run
      obtain rfl := epsilon_ok.1 edge
      rw [bind_ok] at run
      obtain ⟨⟨entry, exit⟩, g₃, ran, run⟩ := run
      rw [bind_ok] at run
      obtain ⟨_, g₄, edge, run⟩ := run
      obtain rfl := epsilon_ok.1 edge
      have next := lays laid.leave.wellFormed ran
      have left := h.leave laid bare
      have first : Charted (g₁.addEpsilon b z) g₃ entry (leaves 0) fun v leaf =>
          ∀ u ∈ l, offers (u ++ v) leaf :=
        (charts 0 (Nat.zero_lt_succ n) _ _ _ _ laid.leave.wellFormed ran).mono
          fun v leaf offered u member => offered u (by simpa using member)
      have later (i : Nat) (lt : i < n) : Charts body (leaves (i + 1)) fun v leaf =>
          ∀ u ∈ l * k * k ^ i, offers (u ++ v) leaf := by
        simpa only [mul_assoc, ← pow_succ'] using charts (i + 1) (by omega)
      have rest := ih (laid.leave.append next) (left.append laid.leave.toFragment next first)
        ((first.old z laid.leave.final_lt).trans bare) later run
      rwa [List.range_succ_eq_map, List.flatMap_cons, List.flatMap_map, ← List.append_assoc]

theorem loop_charted (lays : Lays body k) (laid : Fragment g g₁ a b l)
    (h : Charted g g₁ a done offers)
    (charts : Charts body more fun v leaf => ∀ u ∈ l * k∗, offers (u ++ v) leaf)
    (run : loop body b g₁ = .ok (c, g')) : Charted g g' a (done ++ more) offers := by
  rw [loop, bind_ok] at run
  obtain ⟨hub, g₂, state, run⟩ := run
  obtain ⟨rfl, rfl⟩ := newState_ok laid.wellFormed state
  rw [bind_ok] at run
  obtain ⟨⟨entry, exit⟩, g₃, ran, run⟩ := run
  simp only [bind_ok, epsilon_ok, pure_ok] at run
  obtain ⟨_, _, rfl, _, _, rfl, _, _, rfl, rfl, rfl⟩ := run
  have body := lays laid.wellFormed.addState ran
  have around : Charted g₁.addState g₃ entry more fun v leaf =>
      ∀ u ∈ k∗, ∀ w ∈ l, offers (w ++ (u ++ v)) leaf :=
    (charts _ _ _ _ laid.wellFormed.addState ran).mono fun v leaf offered u rounds w before => by
      rw [← List.append_assoc]
      exact offered _ (Language.append_mem_mul before rounds)
  have round : Charted g₁ ((g₃.addEpsilon g₁.size entry).addEpsilon exit g₁.size) g₁.size more
      fun v leaf => ∀ w ∈ l, offers (w ++ v) leaf := Charted.hub laid.wellFormed body around
  exact (h.append laid (Fragment.hub laid.wellFormed body) round).of_edge_iff rfl (fun _ => rfl)
    fun s u t => (laid.edge_loop body s u t).1

end Repetition

/-! ## Particles -/

theorem parallel_charted {g g₁ g₂ : Graph δ} {a c d z : Nat} {k m : Language QName}
    {leaves more : List (Leaf δ)} {offers : List QName → Leaf δ → Prop}
    (parallel : Parallel g g₁ a z m) (second : Fragment g₁ g₂ c d k)
    (h : Charted g g₁ a leaves offers) (bare : g₁.transitionsOf z = [])
    (h' : Charted g₁ g₂ c more offers) :
    Charted g ((g₂.addEpsilon a c).addEpsilon d z) a (leaves ++ more) offers ∧
      ((g₂.addEpsilon a c).addEpsilon d z).transitionsOf z = [] := by
  have still : g₂.transitionsOf z = [] := (h'.old z parallel.final_lt).trans bare
  have appended := h.append parallel.toFragment second
    (h'.mono fun v leaf offered u empty => by
      obtain rfl : u = [] := Language.mem_one u |>.1 empty
      exact offered)
  exact ⟨appended.leave (parallel.toForked.append second) still, still⟩

section Bounds
variable {t : Term δ} {min : Nat} {g g' : Graph δ} {a b : Nat}

theorem Charts.after {max : Option Nat} {times copy : Nat}
    (charts : ∀ copy, Charts (term t) (t.leaves copy) (t.Offers copy))
    (lt : ∀ m ∈ max, times < m) (equal : copyAfter min max times = copy) :
    Charts (term t) (t.leaves copy) fun v leaf =>
      ∀ u ∈ t.language ^ times, Particle.Offers ⟨min, max, t⟩ (u ++ v) leaf := by
  intro g g' a b h run
  exact (charts copy g g' a b h run).mono fun v leaf offered u member =>
    ⟨times, u, v, lt, member, rfl, equal ▸ offered⟩

theorem mandatory_charted {max : Option Nat} {c : Nat} (h : g.WellFormed)
    (charts : ∀ copy, Charts (term t) (t.leaves copy) (t.Offers copy))
    (le : ∀ m ∈ max, min ≤ m) (copied : copies (term t) min g.size g.addState = .ok (c, g')) :
    Charted g g' g.size ((List.range min).flatMap t.leaves) (Particle.Offers ⟨min, max, t⟩) := by
  have charted := copies_charted (term_lays t) min h.fragment_addState
    (Charted.of_no_leaves h (Particle.Offers ⟨min, max, t⟩))
    (fun i lt => by
      rw [one_mul]
      exact Charts.after charts (fun m bound => Nat.lt_of_lt_of_le lt (le m bound))
        (copyAfter_of_le lt.le)) copied
  rwa [List.nil_append] at charted

theorem unbounded_charts (charts : ∀ copy, Charts (term t) (t.leaves copy) (t.Offers copy)) :
    Charts (particle ⟨min, none, t⟩) (Particle.leaves ⟨min, none, t⟩)
      (Particle.Offers ⟨min, none, t⟩) := by
  intro g g' a b h run
  simp only [particle, bind_ok] at run
  obtain ⟨start, g₁, state, current, g₂, copied, hub, g₃, looped, run⟩ := run
  obtain ⟨rfl, rfl⟩ := newState_ok h state
  obtain ⟨ends, rfl⟩ := pure_ok.1 run
  obtain ⟨rfl, rfl⟩ := Prod.mk.inj ends
  have further : Charts (term t) (t.leaves min) fun v leaf =>
      ∀ u ∈ 1 * t.language ^ min * t.language∗, Particle.Offers ⟨min, none, t⟩ (u ++ v) leaf := by
    intro g g' a b h run
    refine (charts min g g' a b h run).mono fun v leaf offered u member => ?_
    rw [one_mul, ← bounded_none] at member
    obtain ⟨times, le, -, member⟩ := member
    have last : copyAfter min none times = min := Nat.min_eq_right le
    exact ⟨times, u, v, by simp, member, rfl, last.symm ▸ offered⟩
  have charted := loop_charted (term_lays t)
    (copies_fragment (term_lays t) min h.fragment_addState copied)
    (mandatory_charted h charts (by simp) copied) further looped
  rw [Particle.leaves, copyCount, Option.getD_none, List.range_succ, List.flatMap_append]
  simpa using charted

theorem bounded_charts {max : Nat}
    (charts : ∀ copy, Charts (term t) (t.leaves copy) (t.Offers copy)) :
    Charts (particle ⟨min, some max, t⟩) (Particle.leaves ⟨min, some max, t⟩)
      (Particle.Offers ⟨min, some max, t⟩) := by
  intro g g' a b h run
  simp only [particle] at run
  split at run
  · cases run
  next le =>
  have le : min ≤ max := Nat.le_of_not_lt le
  rw [bind_ok] at run
  obtain ⟨start, g₁, state, run⟩ := run
  obtain ⟨rfl, rfl⟩ := newState_ok h state
  cases max with
  | zero =>
      obtain ⟨ends, rfl⟩ := pure_ok.1 run
      obtain ⟨rfl, rfl⟩ := Prod.mk.inj ends
      exact Charted.of_no_leaves h _
  | succ max =>
      simp only [bind_ok] at run
      obtain ⟨current, g₂, copied, final, g₃, state, last, g₄, options, _, g₅, edge, run⟩ := run
      have mandatory := copies_fragment (term_lays t) min h.fragment_addState copied
      obtain ⟨rfl, rfl⟩ := newState_ok mandatory.wellFormed state
      obtain rfl := epsilon_ok.1 edge
      obtain ⟨ends, rfl⟩ := pure_ok.1 run
      obtain ⟨rfl, rfl⟩ := Prod.mk.inj ends
      have forked := optionalCopies_forked (term_lays t) (max + 1 - min) mandatory.fork options
      have bare : g₂.addState.transitionsOf g₂.size = [] := by
        rw [Graph.transitionsOf_addState, mandatory.wellFormed.transitionsOf_of_size_le le_rfl]
      -- The leaves of an optional copy are offered once all copies before it have been read.
      have optional (i : Nat) (lt : i < max + 1 - min) :
          Charts (term t) (t.leaves (min + i)) fun v leaf =>
            ∀ u ∈ 1 * t.language ^ min * t.language ^ i,
              Particle.Offers ⟨min, some (max + 1), t⟩ (u ++ v) leaf := by
        rw [one_mul, ← pow_add]
        exact Charts.after charts (by simp; omega) rfl
      obtain ⟨charted, still⟩ := optionalCopies_charted (term_lays t) (max + 1 - min) mandatory.fork
        (mandatory_charted h charts (by simpa using le) copied).addState bare optional options
      have all : List.range (max + 1) = List.range (min + (max + 1 - min)) := by
        rw [Nat.add_sub_cancel' le]
      rw [Particle.leaves, copyCount, Option.getD_some, all, List.range_add,
        List.flatMap_append, List.flatMap_map]
      exact charted.leave forked still

end Bounds

mutual

theorem particle_charts (p : Particle δ) : Charts (particle p) p.leaves p.Offers := by
  obtain ⟨min, max, t⟩ := p
  cases max with
  | none => exact unbounded_charts (term_charts t)
  | some max => exact bounded_charts (term_charts t)

theorem term_charts (t : Term δ) (copy : Nat) :
    Charts (term t) (t.leaves copy) (t.Offers copy) := by
  intro g g' a b h run
  cases t with
  | element e =>
      obtain ⟨rfl, rfl, rfl⟩ := labelled_ok h run
      exact Charted.addLabelled h ⟨.leaf copy, .element e⟩ ⟨rfl, rfl⟩
  | wildcard w =>
      obtain ⟨rfl, rfl, rfl⟩ := labelled_ok h run
      exact Charted.addLabelled h ⟨.leaf copy, .wildcard w⟩ ⟨rfl, rfl⟩
  | sequence children =>
      simp only [term, bind_ok] at run
      obtain ⟨start, g₁, state, last, g₂, laid, run⟩ := run
      obtain ⟨rfl, rfl⟩ := newState_ok h state
      obtain ⟨ends, rfl⟩ := pure_ok.1 run
      obtain ⟨rfl, rfl⟩ := Prod.mk.inj ends
      have charted := inSequence_charted children copy 0 h.fragment_addState
        (Charted.of_no_leaves h ((Term.sequence children).Offers copy)) (fun u empty v leaf offered => by
          obtain rfl : u = [] := Language.mem_one u |>.1 empty
          exact offered) laid
      rwa [List.nil_append] at charted
  | choice children =>
      simp only [term, bind_ok] at run
      obtain ⟨start, g₁, state, final, g₂, state', _, g₃, laid, run⟩ := run
      obtain ⟨rfl, rfl⟩ := newState_ok h state
      obtain ⟨rfl, rfl⟩ := newState_ok h.addState state'
      obtain ⟨ends, rfl⟩ := pure_ok.1 run
      obtain ⟨rfl, rfl⟩ := Prod.mk.inj ends
      have empty := Charted.of_no_leaves h ((Term.choice children).Offers copy)
      have bare : g.addState.addState.transitionsOf g.addState.size = [] := by
        rw [Graph.transitionsOf_addState, h.addState.transitionsOf_of_size_le le_rfl]
      have charted := inParallel_charted children copy 0 (parallel_addState h) empty.addState bare
        (fun _ _ => id) laid
      rwa [List.nil_append] at charted
  | all children => cases run

theorem inSequence_charted (ps : List (Particle δ)) (copy child : Nat) {g g₁ g' : Graph δ}
    {a b c : Nat} {l : Language QName} {done : List (Leaf δ)} {offers : List QName → Leaf δ → Prop}
    (before : Fragment g g₁ a b l) (h : Charted g g₁ a done offers)
    (offered : ∀ u ∈ l, ∀ v leaf, SequenceOffers copy child ps v leaf → offers (u ++ v) leaf)
    (run : inSequence ps b g₁ = .ok (c, g')) :
    Charted g g' a (done ++ leavesWithin copy child ps) offers := by
  cases ps with
  | nil =>
      obtain ⟨rfl, rfl⟩ := pure_ok.1 run
      simpa [leavesWithin] using h
  | cons p ps =>
      simp only [inSequence, bind_ok] at run
      obtain ⟨⟨entry, exit⟩, g₂, laid, _, g₃, edge, run⟩ := run
      obtain rfl := epsilon_ok.1 edge
      have next := particle_lays p before.wellFormed laid
      have first : Charted g₁ g₂ entry (p.leaves.map (Leaf.within copy child)) fun v leaf =>
          ∀ u ∈ l, offers (u ++ v) leaf :=
        (particle_charts p _ _ _ _ before.wellFormed laid).map (Leaf.within copy child)
          (fun _ => rfl) fun v leaf inner u member => offered u member v _ (.inl ⟨leaf, inner, rfl⟩)
      have rest := inSequence_charted ps copy (child + 1) (before.append next)
        (h.append before next first) (fun u member v leaf later => by
          obtain ⟨x, hx, y, hy, rfl⟩ := Language.mem_mul.1 member
          rw [List.append_assoc]
          exact offered x hx _ _ (.inr ⟨y, v, hy, rfl, later⟩)) run
      rwa [leavesWithin, ← List.append_assoc]

theorem inParallel_charted (ps : List (Particle δ)) (copy child : Nat) {g g₁ g' : Graph δ}
    {a z : Nat} {m : Language QName} {x : Unit} {done : List (Leaf δ)}
    {offers : List QName → Leaf δ → Prop} (before : Parallel g g₁ a z m)
    (h : Charted g g₁ a done offers) (bare : g₁.transitionsOf z = [])
    (offered : ∀ v leaf, ChoiceOffers copy child ps v leaf → offers v leaf)
    (run : inParallel ps a z g₁ = .ok (x, g')) :
    Charted g g' a (done ++ leavesWithin copy child ps) offers := by
  cases ps with
  | nil =>
      obtain ⟨-, rfl⟩ := pure_ok.1 run
      simpa [leavesWithin] using h
  | cons p ps =>
      simp only [inParallel, bind_ok] at run
      obtain ⟨⟨entry, exit⟩, g₂, laid, _, g₃, edge, _, g₄, edge', run⟩ := run
      obtain rfl := epsilon_ok.1 edge
      obtain rfl := epsilon_ok.1 edge'
      have next := particle_lays p before.wellFormed laid
      have first : Charted g₁ g₂ entry (p.leaves.map (Leaf.within copy child)) offers :=
        (particle_charts p _ _ _ _ before.wellFormed laid).map (Leaf.within copy child)
          (fun _ => rfl) fun v leaf inner => offered v _ (.inl ⟨leaf, inner, rfl⟩)
      obtain ⟨charted, still⟩ := parallel_charted before next h bare first
      have rest := inParallel_charted ps copy (child + 1) (before.add next) charted still
        (fun v leaf later => offered v leaf (.inr later)) run
      rwa [leavesWithin, ← List.append_assoc]

end

end Layout

end XmlSchema.ContentModel
