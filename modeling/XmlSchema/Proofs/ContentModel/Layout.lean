import Mathlib.Algebra.BigOperators.Group.Finset.Basic
import XmlSchema.Proofs.ContentModel.Graph
import XmlSchema.Proofs.ContentModel.Language

/-!
# What a layout lays out

A layout of a particle adds a fragment to a graph: new states, among them one in front and one
behind, such that the words on the paths from the one to the other are the language of the particle
(`Layout.particle_lays`). Exits may be left again inside of a fragment, as the hub of a loop is, so
the invariant speaks of all paths and not of the edges at the two ends. Fragments are put together by
`Fragment.append`, `Forked.append`, `Forked.leave` and `Fragment.loop`.
-/

namespace XmlSchema.ContentModel

open Component (QName)
open scoped Computability

variable {δ : Type}

/-! ## Fragments -/

structure Graph.Extends (g g' : Graph δ) : Prop where
  wellFormed : g'.WellFormed
  size_le : g.size ≤ g'.size
  old_iff : ∀ s u t, s < g.size → (g'.Edge s u t ↔ g.Edge s u t)
  fresh_ge : ∀ s u t, g.size ≤ s → g'.Edge s u t → g.size ≤ t

/-- A graph has grown by a part between two new states, the words of which are those of a
language. -/
structure Fragment (g g' : Graph δ) (entry exit : Nat) (l : Language QName) : Prop
    extends g.Extends g' where
  entry_ge : g.size ≤ entry
  entry_lt : entry < g'.size
  exit_ge : g.size ≤ exit
  exit_lt : exit < g'.size
  path_iff : ∀ w, Path g'.Edge entry w exit ↔ w ∈ l

structure Forked (g g' : Graph δ) (entry exit final : Nat) (l m : Language QName) : Prop
    extends Fragment g g' entry exit l where
  final_ge : g.size ≤ final
  final_lt : final < g'.size
  closed : ∀ u t, ¬ g'.Edge final u t
  apart : exit ≠ final
  leave_iff : ∀ w, Path g'.Edge entry w final ↔ w ∈ m

variable {g g₁ g₂ : Graph δ} {a b c d z : Nat} {k l m : Language QName}

theorem Graph.WellFormed.extends_addState (h : g.WellFormed) : g.Extends g.addState where
  wellFormed := h.addState
  size_le := by simp
  old_iff s u t _ := Graph.edge_addState
  fresh_ge s u t le edge := absurd (h.source_lt (Graph.edge_addState.1 edge)) (Nat.not_lt.2 le)

theorem Graph.WellFormed.fragment_addState (h : g.WellFormed) :
    Fragment g g.addState g.size g.size 1 where
  toExtends := h.extends_addState
  entry_ge := le_rfl
  entry_lt := by simp
  exit_ge := le_rfl
  exit_lt := by simp
  path_iff w := by
    rw [Language.mem_one]
    constructor
    · intro path
      cases path with
      | refl => rfl
      | step edge _ => exact absurd (h.source_lt (Graph.edge_addState.1 edge)) (Nat.lt_irrefl _)
    · rintro rfl
      exact .refl _

theorem Graph.WellFormed.fragment_addLabelled (h : g.WellFormed) (label : Label δ) :
    Fragment g (g.addState.addState.addLabelled label g.size (g.size + 1)) g.size (g.size + 1)
      {u | ∃ name, u = [name] ∧ label.accepts name = true} := by
  have grown := h.addState.addState
  have lt : g.size < g.addState.addState.size := by simp only [Graph.size_addState]; omega
  have edge_iff {s t : Nat} {u : List QName} :
      (g.addState.addState.addLabelled label g.size (g.size + 1)).Edge s u t ↔
        g.Edge s u t ∨ s = g.size ∧ t = g.size + 1 ∧
          ∃ name, u = [name] ∧ label.accepts name = true := by
    rw [Graph.edge_addLabelled grown lt, Graph.edge_addState, Graph.edge_addState]
  exact
    { wellFormed := grown.addLabelled label lt (by simp)
      size_le := by simp only [Graph.size_addLabelled, Graph.size_addState]; omega
      old_iff := fun s u t old => by
        rw [edge_iff]
        exact or_iff_left fun new => absurd new.1 (Nat.ne_of_lt old)
      fresh_ge := fun s u t le edge => by
        rcases edge_iff.1 edge with edge | ⟨-, rfl, -⟩
        · exact absurd (h.source_lt edge) (Nat.not_lt.2 le)
        · exact Nat.le_succ _
      entry_ge := le_rfl
      entry_lt := by simp only [Graph.size_addLabelled, Graph.size_addState]; omega
      exit_ge := Nat.le_succ _
      exit_lt := by simp
      path_iff := fun w => by
        refine path_iff_of_leaves (Nat.ne_of_lt (Nat.lt_succ_self _)) (fun u r => ?_) fun u r edge => ?_
        · rw [edge_iff, or_iff_right fun edge => Nat.lt_irrefl _ (h.source_lt edge)]
          exact and_iff_right rfl
        · rcases edge_iff.1 edge with edge | ⟨equal, -⟩
          · exact Nat.not_succ_lt_self (h.source_lt edge)
          · omega }

/-! ## One after another -/

theorem Fragment.edge_append (first : Fragment g g₁ a b l) (second : Fragment g₁ g₂ c d k)
    {s t : Nat} {u : List QName} :
    (g₂.addEpsilon b c).Edge s u t ↔ g₂.Edge s u t ∨ s = b ∧ u = [] ∧ t = c :=
  Graph.edge_addEpsilon (Nat.lt_of_lt_of_le first.exit_lt second.size_le)

theorem Fragment.joined (first : Fragment g g₁ a b l) (second : Fragment g₁ g₂ c d k) :
    Joined (g₂.addEpsilon b c).Edge g₁.Edge g₂.Edge (· < g₁.size) b c where
  early_iff s u t early := by rw [first.edge_append second, second.old_iff s u t early]
  late_iff s u t late := by
    rw [first.edge_append second]
    exact or_iff_left fun new => late (new.1 ▸ first.exit_lt)
  early_stays s u t _ edge := first.wellFormed.target_lt edge
  late_stays s u t late edge :=
    Nat.not_lt.2 (second.fresh_ge s u t (Nat.le_of_not_lt late) edge)
  source := first.exit_lt
  target := Nat.not_lt.2 second.entry_ge

theorem Fragment.append (first : Fragment g g₁ a b l) (second : Fragment g₁ g₂ c d k) :
    Fragment g (g₂.addEpsilon b c) a d (l * k) where
  wellFormed := second.wellFormed.addEpsilon
    (Nat.lt_of_lt_of_le first.exit_lt second.size_le) second.entry_lt
  size_le := by
    rw [Graph.size_addEpsilon]
    exact first.size_le.trans second.size_le
  old_iff s u t old := by
    rw [(first.joined second).early_iff s u t (Nat.lt_of_lt_of_le old first.size_le),
      first.old_iff s u t old]
    exact or_iff_left fun new => Nat.not_lt.2 first.exit_ge (new.1 ▸ old)
  fresh_ge s u t le edge := by
    by_cases early : s < g₁.size
    · rcases ((first.joined second).early_iff s u t early).1 edge with edge | ⟨-, -, rfl⟩
      · exact first.fresh_ge s u t le edge
      · exact first.size_le.trans second.entry_ge
    · have edge := ((first.joined second).late_iff s u t early).1 edge
      exact first.size_le.trans (second.fresh_ge s u t (Nat.le_of_not_lt early) edge)
  entry_ge := first.entry_ge
  entry_lt := by
    rw [Graph.size_addEpsilon]
    exact Nat.lt_of_lt_of_le first.entry_lt second.size_le
  exit_ge := first.size_le.trans second.exit_ge
  exit_lt := by
    rw [Graph.size_addEpsilon]
    exact second.exit_lt
  path_iff w := by
    rw [(first.joined second).path_iff first.entry_lt (Nat.not_lt.2 second.exit_ge),
      Language.mem_mul]
    constructor
    · rintro ⟨u, v, rfl, left, right⟩
      exact ⟨u, (first.path_iff u).1 left, v, (second.path_iff v).1 right, rfl⟩
    · rintro ⟨u, hu, v, hv, rfl⟩
      exact ⟨u, v, rfl, (first.path_iff u).2 hu, (second.path_iff v).2 hv⟩

/-! ## Leaving early -/

theorem Fragment.fork (h : Fragment g g₁ a b l) :
    Forked g g₁.addState a b g₁.size l 0 where
  wellFormed := h.wellFormed.addState
  size_le := h.size_le.trans (by simp)
  old_iff s u t old := Graph.edge_addState.trans (h.old_iff s u t old)
  fresh_ge s u t le edge := h.fresh_ge s u t le (Graph.edge_addState.1 edge)
  entry_ge := h.entry_ge
  entry_lt := Nat.lt_of_lt_of_le h.entry_lt (by simp)
  exit_ge := h.exit_ge
  exit_lt := Nat.lt_of_lt_of_le h.exit_lt (by simp)
  path_iff w := by
    rw [← h.path_iff w]
    exact ⟨fun path => path.mono fun _ _ _ => Graph.edge_addState.1,
      fun path => path.mono fun _ _ _ => Graph.edge_addState.2⟩
  final_ge := h.size_le
  final_lt := by simp
  closed u t edge := Nat.lt_irrefl _ (h.wellFormed.source_lt (Graph.edge_addState.1 edge))
  apart := Nat.ne_of_lt h.exit_lt
  leave_iff w := by
    have stays (s : Nat) (u : List QName) (t : Nat) (_ : s < g₁.size)
        (edge : g₁.addState.Edge s u t) : t < g₁.size :=
      h.wellFormed.target_lt (Graph.edge_addState.1 edge)
    exact ⟨fun path => absurd (path.stays (R := (· < g₁.size)) h.entry_lt stays) (Nat.lt_irrefl _),
      fun member => absurd member (Language.notMem_zero w)⟩

theorem Forked.drained (h : Forked g g₁ a b z l m) :
    Drained (g₁.addEpsilon b z).Edge g₁.Edge b z where
  edge_iff _ _ _ := Graph.edge_addEpsilon h.exit_lt
  closed := h.closed
  apart := h.apart

theorem Forked.leave (h : Forked g g₁ a b z l m) :
    Forked g (g₁.addEpsilon b z) a b z l (m + l) where
  wellFormed := h.wellFormed.addEpsilon h.exit_lt h.final_lt
  size_le := by
    rw [Graph.size_addEpsilon]
    exact h.size_le
  old_iff s u t old := by
    rw [h.drained.edge_iff, h.old_iff s u t old]
    exact or_iff_left fun new => Nat.not_lt.2 h.exit_ge (new.1 ▸ old)
  fresh_ge s u t le edge := by
    rcases (h.drained.edge_iff s u t).1 edge with edge | ⟨-, -, rfl⟩
    · exact h.fresh_ge s u t le edge
    · exact h.final_ge
  entry_ge := h.entry_ge
  entry_lt := by
    rw [Graph.size_addEpsilon]
    exact h.entry_lt
  exit_ge := h.exit_ge
  exit_lt := by
    rw [Graph.size_addEpsilon]
    exact h.exit_lt
  path_iff w := (h.drained.path_of_ne h.apart).trans (h.path_iff w)
  final_ge := h.final_ge
  final_lt := by
    rw [Graph.size_addEpsilon]
    exact h.final_lt
  closed := h.drained.closed'
  apart := h.apart
  leave_iff w := by rw [h.drained.path_iff, h.leave_iff w, h.path_iff w, Language.mem_add]

theorem Forked.append (first : Forked g g₁ a b z l m) (second : Fragment g₁ g₂ c d k) :
    Forked g (g₂.addEpsilon b c) a d z (l * k) m where
  toFragment := first.toFragment.append second
  final_ge := first.final_ge
  final_lt := by
    rw [Graph.size_addEpsilon]
    exact Nat.lt_of_lt_of_le first.final_lt second.size_le
  closed u t edge := by
    rcases ((first.toFragment.joined second).early_iff z u t first.final_lt).1 edge with
      edge | ⟨equal, -, -⟩
    · exact first.closed u t edge
    · exact first.apart equal.symm
  apart := (Nat.lt_of_lt_of_le first.final_lt second.exit_ge).ne'
  leave_iff w := by
    rw [(first.toFragment.joined second).early_path first.entry_lt first.final_lt,
      first.leave_iff w]

theorem Forked.finish (h : Forked g g₁ a b z l m) : Fragment g g₁ a z m where
  toExtends := h.toExtends
  entry_ge := h.entry_ge
  entry_lt := h.entry_lt
  exit_ge := h.final_ge
  exit_lt := h.final_lt
  path_iff := h.leave_iff

/-! ## Without end -/

theorem Fragment.of_edge_iff (h : Fragment g g₁ a b l) (wellFormed : g₂.WellFormed)
    (size : g₂.size = g₁.size) (same : ∀ s u t, g₂.Edge s u t ↔ g₁.Edge s u t) :
    Fragment g g₂ a b l := by
  have equal : g₂.Edge = g₁.Edge := by
    funext s u t
    exact propext (same s u t)
  obtain ⟨⟨-, size_le, old_iff, fresh_ge⟩, entry_ge, entry_lt, exit_ge, exit_lt, path_iff⟩ := h
  rw [← size] at size_le entry_lt exit_lt
  rw [← equal] at old_iff fresh_ge path_iff
  exact ⟨⟨wellFormed, size_le, old_iff, fresh_ge⟩, entry_ge, entry_lt, exit_ge, exit_lt, path_iff⟩

theorem Fragment.edge_hub (h : Fragment g.addState g₁ c d k) {s t : Nat} {u : List QName} :
    ((g₁.addEpsilon g.size c).addEpsilon d g.size).Edge s u t ↔
      (g₁.Edge s u t ∨ s = g.size ∧ u = [] ∧ t = c) ∨ s = d ∧ u = [] ∧ t = g.size := by
  have size : g.addState.size = g.size + 1 := Graph.size_addState g
  have grown := h.size_le
  rw [Graph.edge_addEpsilon (by simpa using h.exit_lt), Graph.edge_addEpsilon (by omega)]

theorem Fragment.cycled (wellFormed : g.WellFormed) (h : Fragment g.addState g₁ c d k) :
    Cycled ((g₁.addEpsilon g.size c).addEpsilon d g.size).Edge g₁.Edge
      (g.addState.size ≤ ·) g.size c d := by
  have size : g.addState.size = g.size + 1 := Graph.size_addState g
  have exit_ge := h.exit_ge
  exact
    { hub_iff := fun u t => by
        rw [h.edge_hub, h.old_iff g.size u t (by omega), Graph.edge_addState]
        constructor
        · rintro ((edge | ⟨-, hu, ht⟩) | ⟨equal, -⟩)
          · exact absurd (wellFormed.source_lt edge) (Nat.lt_irrefl _)
          · exact ⟨hu, ht⟩
          · omega
        · rintro ⟨hu, ht⟩
          exact .inl (.inr ⟨rfl, hu, ht⟩)
      inside_iff := fun s u t member => by
        rw [h.edge_hub, or_iff_left (a := g₁.Edge s u t)]
        rintro ⟨rfl, -⟩
        omega
      stays := h.fresh_ge
      entry_inside := h.entry_ge
      exit_inside := h.exit_ge
      hub_outside := by omega }

theorem Fragment.hub (wellFormed : g.WellFormed) (h : Fragment g.addState g₁ c d k) :
    Fragment g ((g₁.addEpsilon g.size c).addEpsilon d g.size) g.size g.size k∗ := by
  have size : g.addState.size = g.size + 1 := Graph.size_addState g
  have grown := h.size_le
  have entry_ge := h.entry_ge
  have exit_ge := h.exit_ge
  have hub_lt : g.size < g₁.size := by omega
  have cycled := h.cycled wellFormed
  exact
    { wellFormed := (h.wellFormed.addEpsilon hub_lt h.entry_lt).addEpsilon
        (by simpa using h.exit_lt) (by simpa using hub_lt)
      size_le := by
        rw [Graph.size_addEpsilon, Graph.size_addEpsilon]
        omega
      old_iff := fun s u t old => by
        rw [h.edge_hub, h.old_iff s u t (by omega), Graph.edge_addState]
        constructor
        · rintro ((edge | ⟨rfl, -⟩) | ⟨rfl, -⟩)
          · exact edge
          · omega
          · omega
        · exact fun edge => .inl (.inl edge)
      fresh_ge := fun s u t le edge => by
        -- A fresh state belongs to the fragment that is repeated, or it is the hub.
        by_cases new : g.addState.size ≤ s
        · rcases (cycled.inside_iff s u t new).1 edge with edge | ⟨-, -, rfl⟩
          · have := h.fresh_ge s u t new edge
            omega
          · exact le_rfl
        · obtain rfl : s = g.size := by omega
          obtain ⟨-, rfl⟩ := (cycled.hub_iff u t).1 edge
          omega
      entry_ge := le_rfl
      entry_lt := by simpa using hub_lt
      exit_ge := le_rfl
      exit_lt := by simpa using hub_lt
      path_iff := fun w => cycled.path_iff h.path_iff }

theorem Fragment.edge_loop (first : Fragment g g₁ a b l) (second : Fragment g₁.addState g₂ c d k)
    (s : Nat) (u : List QName) (t : Nat) :
    (((g₂.addEpsilon b g₁.size).addEpsilon g₁.size c).addEpsilon d g₁.size).Edge s u t ↔
      (((g₂.addEpsilon g₁.size c).addEpsilon d g₁.size).addEpsilon b g₁.size).Edge s u t := by
  have size : g₁.addState.size = g₁.size + 1 := Graph.size_addState g₁
  have grown := second.size_le
  have exit_lt := first.exit_lt
  have b_lt : b < g₂.size := by omega
  have hub_lt : g₁.size < g₂.size := by omega
  have d_lt := second.exit_lt
  rw [Graph.edge_addEpsilon (by simpa using d_lt), Graph.edge_addEpsilon (by simpa using hub_lt),
    Graph.edge_addEpsilon b_lt, Graph.edge_addEpsilon (by simpa using b_lt),
    Graph.edge_addEpsilon (by simpa using d_lt), Graph.edge_addEpsilon hub_lt]
  tauto

theorem Fragment.loop (first : Fragment g g₁ a b l) (second : Fragment g₁.addState g₂ c d k) :
    Fragment g (((g₂.addEpsilon b g₁.size).addEpsilon g₁.size c).addEpsilon d g₁.size) a g₁.size
      (l * k∗) := by
  have joined := first.append (Fragment.hub first.wellFormed second)
  have size : g₁.addState.size = g₁.size + 1 := Graph.size_addState g₁
  have grown := second.size_le
  have exit_lt := first.exit_lt
  have b_lt : b < g₂.size := by omega
  have hub_lt : g₁.size < g₂.size := by omega
  refine joined.of_edge_iff ?_ (by simp) (first.edge_loop second)
  exact ((second.wellFormed.addEpsilon b_lt hub_lt).addEpsilon (by simpa using hub_lt)
    (by simpa using second.entry_lt)).addEpsilon (by simpa using second.exit_lt)
    (by simpa using hub_lt)

/-! ## The steps of a layout -/

namespace Layout

theorem bind_ok {α β : Type} {x : Layout δ α} {f : α → Layout δ β} {b : β} {g g' : Graph δ} :
    (x >>= f) g = .ok (b, g') ↔ ∃ a g₁, x g = .ok (a, g₁) ∧ f a g₁ = .ok (b, g') := by
  cases run : x g with
  | error fault => simp [bind, StateT.bind, Except.bind, run]
  | ok result =>
      obtain ⟨a, g₁⟩ := result
      simp [bind, StateT.bind, Except.bind, run]

theorem pure_ok {α : Type} {a b : α} {g g' : Graph δ} :
    (pure a : Layout δ α) g = .ok (b, g') ↔ a = b ∧ g = g' := by
  constructor
  · intro run
    cases run
    exact ⟨rfl, rfl⟩
  · rintro ⟨rfl, rfl⟩
    rfl

theorem epsilon_ok {s t : Nat} {x : Unit} {g g' : Graph δ} :
    epsilon s t g = .ok (x, g') ↔ g.addEpsilon s t = g' := by
  simp [epsilon, Graph.addEpsilon]

theorem newState_ok {s : Nat} {g g' : Graph δ} (h : g.WellFormed)
    (run : newState g = .ok (s, g')) : s = g.size ∧ g' = g.addState := by
  unfold newState at run
  split at run
  · cases run
  · simp only [Except.ok.injEq, Prod.mk.injEq] at run
    exact ⟨run.1.symm.trans h.sizes, run.2.symm⟩

def Lays (body : Layout δ (Nat × Nat)) (l : Language QName) : Prop :=
  ∀ {g g' : Graph δ} {a b : Nat}, g.WellFormed → body g = .ok ((a, b), g') → Fragment g g' a b l

theorem labelled_ok {label : Label δ} {a b : Nat} {g g' : Graph δ} (h : g.WellFormed)
    (run : labelled label g = .ok ((a, b), g')) : a = g.size ∧ b = g.size + 1 ∧
      g' = g.addState.addState.addLabelled label g.size (g.size + 1) := by
  rw [labelled, bind_ok] at run
  obtain ⟨source, g₁, first, run⟩ := run
  obtain ⟨rfl, rfl⟩ := newState_ok h first
  rw [bind_ok] at run
  obtain ⟨target, g₂, second, run⟩ := run
  obtain ⟨rfl, rfl⟩ := newState_ok h.addState second
  rw [bind_ok] at run
  obtain ⟨_, g₃, third, run⟩ := run
  simp only [modify, modifyGet, MonadStateOf.modifyGet, StateT.modifyGet, pure, Except.pure,
    Except.ok.injEq, Prod.mk.injEq] at third
  obtain ⟨-, rfl⟩ := third
  obtain ⟨ends, rfl⟩ := pure_ok.1 run
  obtain ⟨rfl, rfl⟩ := Prod.mk.inj ends
  rw [Graph.size_addState]
  exact ⟨rfl, rfl, rfl⟩

theorem labelled_lays (label : Label δ) :
    Lays (labelled label) {u | ∃ name, u = [name] ∧ label.accepts name = true} := by
  intro g g' a b h run
  obtain ⟨rfl, rfl, rfl⟩ := labelled_ok h run
  exact h.fragment_addLabelled label

section Repetition
variable {body : Layout δ (Nat × Nat)} {k l m : Language QName} {g g₁ g' : Graph δ} {a b c z : Nat}

theorem copies_fragment (lays : Lays body k) (n : Nat) (h : Fragment g g₁ a b l)
    (run : copies body n b g₁ = .ok (c, g')) : Fragment g g' a c (l * k ^ n) := by
  induction n generalizing b g₁ l with
  | zero =>
      obtain ⟨rfl, rfl⟩ := pure_ok.1 run
      simpa using h
  | succ n ih =>
      rw [copies, bind_ok] at run
      obtain ⟨⟨entry, exit⟩, g₂, laid, run⟩ := run
      rw [bind_ok] at run
      obtain ⟨_, g₃, edge, run⟩ := run
      obtain rfl := epsilon_ok.1 edge
      have := ih (h.append (lays h.wellFormed laid)) run
      rwa [mul_assoc, ← pow_succ'] at this

theorem optionalCopies_forked (lays : Lays body k) (n : Nat) (h : Forked g g₁ a b z l m)
    (run : optionalCopies body z n b g₁ = .ok (c, g')) :
    Forked g g' a c z (l * k ^ n) (m + ∑ i ∈ Finset.range n, l * k ^ i) := by
  induction n generalizing b g₁ l m with
  | zero =>
      obtain ⟨rfl, rfl⟩ := pure_ok.1 run
      simpa using h
  | succ n ih =>
      rw [optionalCopies, bind_ok] at run
      obtain ⟨_, g₂, edge, run⟩ := run
      obtain rfl := epsilon_ok.1 edge
      rw [bind_ok] at run
      obtain ⟨⟨entry, exit⟩, g₃, laid, run⟩ := run
      rw [bind_ok] at run
      obtain ⟨_, g₄, edge, run⟩ := run
      obtain rfl := epsilon_ok.1 edge
      have rest := ih (h.leave.append (lays h.leave.wellFormed laid)) run
      simp only [mul_assoc, ← pow_succ'] at rest
      rw [Finset.sum_range_succ', pow_zero, mul_one, add_comm _ l, ← add_assoc]
      exact rest

theorem loop_fragment (lays : Lays body k) (h : Fragment g g₁ a b l)
    (run : loop body b g₁ = .ok (c, g')) : Fragment g g' a c (l * k∗) := by
  rw [loop, bind_ok] at run
  obtain ⟨hub, g₂, state, run⟩ := run
  obtain ⟨rfl, rfl⟩ := newState_ok h.wellFormed state
  rw [bind_ok] at run
  obtain ⟨⟨entry, exit⟩, g₃, laid, run⟩ := run
  simp only [bind_ok, epsilon_ok, pure_ok] at run
  obtain ⟨_, _, rfl, _, _, rfl, _, _, rfl, rfl, rfl⟩ := run
  exact h.loop (lays h.wellFormed.addState laid)

end Repetition

/-! ## Particles -/

structure Parallel (g g' : Graph δ) (start final : Nat) (m : Language QName) : Prop
    extends Forked g g' start start final 1 m where
  unentered : ∀ s u, ¬ g'.Edge s u start

theorem parallel_addState {g : Graph δ} (h : g.WellFormed) :
    Parallel g g.addState.addState g.size g.addState.size 0 where
  toForked := h.fragment_addState.fork
  unentered _ _ edge := Nat.lt_irrefl _
    (h.target_lt (Graph.edge_addState.1 (Graph.edge_addState.1 edge)))

theorem Parallel.add {g g₁ g₂ : Graph δ} {a c d z : Nat} {k m : Language QName}
    (h : Parallel g g₁ a z m) (second : Fragment g₁ g₂ c d k) :
    Parallel g ((g₂.addEpsilon a c).addEpsilon d z) a z (m + k) := by
  have appended := h.toForked.append second
  have left := appended.leave
  rw [one_mul] at left
  have joined := h.toFragment.joined second
  have unentered : ∀ s u, ¬ ((g₂.addEpsilon a c).addEpsilon d z).Edge s u a := by
    intro s u edge
    rcases (appended.drained.edge_iff s u a).1 edge with edge | ⟨-, -, equal⟩
    · by_cases early : s < g₁.size
      · rcases (joined.early_iff s u a early).1 edge with edge | ⟨-, -, rfl⟩
        · exact h.unentered s u edge
        · exact Nat.not_lt.2 second.entry_ge h.entry_lt
      · exact joined.late_stays s u a early ((joined.late_iff s u a early).1 edge) h.entry_lt
    · exact h.apart equal
  exact
    { toExtends := left.toExtends
      entry_ge := h.entry_ge
      entry_lt := left.entry_lt
      exit_ge := h.entry_ge
      exit_lt := left.entry_lt
      path_iff := fun w => (path_iff_of_unentered unentered).trans (Language.mem_one w).symm
      final_ge := left.final_ge
      final_lt := left.final_lt
      closed := left.closed
      apart := h.apart
      leave_iff := left.leave_iff
      unentered }

mutual

theorem particle_lays (p : Particle δ) : Lays (particle p) p.language := by
  obtain ⟨min, max, t⟩ := p
  intro g g' a b h run
  have lays : Lays (term t) t.language := term_lays t
  cases max with
  | none =>
      simp only [particle, bind_ok] at run
      obtain ⟨start, g₁, state, current, g₂, copied, hub, g₃, looped, run⟩ := run
      obtain ⟨rfl, rfl⟩ := newState_ok h state
      obtain ⟨ends, rfl⟩ := pure_ok.1 run
      obtain ⟨rfl, rfl⟩ := Prod.mk.inj ends
      have := loop_fragment lays (copies_fragment lays min h.fragment_addState copied) looped
      rwa [one_mul, ← bounded_none] at this
  | some max =>
      simp only [particle] at run
      split at run
      · cases run
      next le =>
      have le : min ≤ max := Nat.le_of_not_lt le
      rw [bind_ok] at run
      obtain ⟨start, g₁, state, run⟩ := run
      obtain ⟨rfl, rfl⟩ := newState_ok h state
      rw [Particle.language, bounded_some le]
      cases max with
      | zero =>
          obtain ⟨ends, rfl⟩ := pure_ok.1 run
          obtain ⟨rfl, rfl⟩ := Prod.mk.inj ends
          obtain rfl : min = 0 := Nat.le_zero.1 le
          simpa using h.fragment_addState
      | succ max =>
          simp only [bind_ok] at run
          obtain ⟨current, g₂, copied, final, g₃, state, last, g₄, options, _, g₅, edge, run⟩ := run
          have mandatory := copies_fragment lays min h.fragment_addState copied
          obtain ⟨rfl, rfl⟩ := newState_ok mandatory.wellFormed state
          obtain rfl := epsilon_ok.1 edge
          obtain ⟨ends, rfl⟩ := pure_ok.1 run
          obtain ⟨rfl, rfl⟩ := Prod.mk.inj ends
          have laid := (optionalCopies_forked lays (max + 1 - min) mandatory.fork options).leave.finish
          rwa [zero_add, one_mul, ← Finset.sum_range_succ] at laid

theorem term_lays (t : Term δ) : Lays (term t) t.language := by
  intro g g' a b h run
  cases t with
  | element e =>
      have only : ({u | ∃ name, u = [name] ∧ (Label.element e).accepts name = true} :
          Language QName) = (Term.element e).language := by
        ext u
        change (∃ name, u = [name] ∧ (e.name == name) = true) ↔ u = [e.name]
        constructor
        · rintro ⟨name, rfl, accepted⟩
          rw [beq_iff_eq.1 accepted]
        · exact fun equal => ⟨e.name, equal, beq_self_eq_true _⟩
      rw [← only]
      exact labelled_lays (.element e) h run
  | wildcard w => exact labelled_lays (.wildcard w) h run
  | sequence children =>
      simp only [term, bind_ok] at run
      obtain ⟨start, g₁, state, last, g₂, laid, run⟩ := run
      obtain ⟨rfl, rfl⟩ := newState_ok h state
      obtain ⟨ends, rfl⟩ := pure_ok.1 run
      obtain ⟨rfl, rfl⟩ := Prod.mk.inj ends
      have := inSequence_fragment children h.fragment_addState laid
      rwa [one_mul] at this
  | choice children =>
      simp only [term, bind_ok] at run
      obtain ⟨start, g₁, state, final, g₂, state', _, g₃, laid, run⟩ := run
      obtain ⟨rfl, rfl⟩ := newState_ok h state
      obtain ⟨rfl, rfl⟩ := newState_ok h.addState state'
      obtain ⟨ends, rfl⟩ := pure_ok.1 run
      obtain ⟨rfl, rfl⟩ := Prod.mk.inj ends
      have := (inParallel_parallel children (parallel_addState h) laid).finish
      rwa [zero_add] at this
  | all children => cases run

theorem inSequence_fragment (ps : List (Particle δ)) {g g₁ g' : Graph δ} {a b c : Nat}
    {l : Language QName} (h : Fragment g g₁ a b l) (run : inSequence ps b g₁ = .ok (c, g')) :
    Fragment g g' a c (l * (languages ps).prod) := by
  cases ps with
  | nil =>
      obtain ⟨rfl, rfl⟩ := pure_ok.1 run
      simpa [languages] using h
  | cons p ps =>
      simp only [inSequence, bind_ok] at run
      obtain ⟨⟨entry, exit⟩, g₂, laid, _, g₃, edge, run⟩ := run
      obtain rfl := epsilon_ok.1 edge
      have := inSequence_fragment ps (h.append (particle_lays p h.wellFormed laid)) run
      rwa [mul_assoc, ← List.prod_cons] at this

theorem inParallel_parallel (ps : List (Particle δ)) {g g₁ g' : Graph δ} {a z : Nat}
    {m : Language QName} {x : Unit} (h : Parallel g g₁ a z m)
    (run : inParallel ps a z g₁ = .ok (x, g')) :
    Parallel g g' a z (m + (languages ps).sum) := by
  cases ps with
  | nil =>
      obtain ⟨-, rfl⟩ := pure_ok.1 run
      simpa [languages] using h
  | cons p ps =>
      simp only [inParallel, bind_ok] at run
      obtain ⟨⟨entry, exit⟩, g₂, laid, _, g₃, edge, _, g₄, edge', run⟩ := run
      obtain rfl := epsilon_ok.1 edge
      obtain rfl := epsilon_ok.1 edge'
      have := inParallel_parallel ps (h.add (particle_lays p h.wellFormed laid)) run
      rwa [add_assoc, ← List.sum_cons] at this

end

end Layout

end XmlSchema.ContentModel
