import Mathlib.Computability.Language

namespace XmlSchema.ContentModel

open scoped Computability

variable {α : Type}

abbrev Edges (α : Type) := Nat → List α → Nat → Prop

inductive Path (edge : Edges α) : Nat → List α → Nat → Prop where
  | refl (s : Nat) : Path edge s [] s
  | step {s t r : Nat} {u v : List α} (first : edge s u t) (rest : Path edge t v r) :
    Path edge s (u ++ v) r

namespace Path
variable {edge edge' : Edges α} {s t r : Nat} {u v w : List α}

theorem single (first : edge s u t) : Path edge s u t := by
  simpa using Path.step first (.refl t)

theorem epsilon (first : edge s [] t) (rest : Path edge t v r) : Path edge s v r :=
  .step first rest

theorem trans (left : Path edge s u t) (right : Path edge t v r) : Path edge s (u ++ v) r := by
  induction left with
  | refl s => exact right
  | step first rest ih =>
      rw [List.append_assoc]
      exact .step first (ih right)

theorem snoc (left : Path edge s u t) (last : edge t [] r) : Path edge s u r := by
  simpa using left.trans (single last)

theorem mono (path : Path edge s w t) (le : ∀ s u t, edge s u t → edge' s u t) :
    Path edge' s w t := by
  induction path with
  | refl s => exact .refl s
  | step first rest ih => exact .step (le _ _ _ first) ih

theorem mono_on {R : Nat → Prop} (path : Path edge s w t) (start : R s)
    (stays : ∀ s u t, R s → edge s u t → R t)
    (le : ∀ s u t, R s → edge s u t → edge' s u t) : Path edge' s w t := by
  induction path with
  | refl s => exact .refl s
  | step first rest ih => exact .step (le _ _ _ start first) (ih (stays _ _ _ start first))

theorem stays {R : Nat → Prop} (path : Path edge s w t) (start : R s)
    (stays : ∀ s u t, R s → edge s u t → R t) : R t := by
  induction path with
  | refl s => exact start
  | step first rest ih => exact ih (stays _ _ _ start first)

end Path

theorem path_congr_on {edge edge' : Edges α} {R : Nat → Prop} {s t : Nat} {w : List α}
    (start : R s) (stays : ∀ s u t, R s → edge s u t → R t)
    (same : ∀ s u t, R s → (edge s u t ↔ edge' s u t)) :
    Path edge s w t ↔ Path edge' s w t :=
  ⟨fun path => path.mono_on start stays fun s u t member => (same s u t member).1,
    fun path => path.mono_on start
      (fun s u t member first => stays s u t member ((same s u t member).2 first))
      fun s u t member => (same s u t member).2⟩

theorem path_iff_of_leaves {edge : Edges α} {s t : Nat} {l : Language α} (apart : s ≠ t)
    (leaves : ∀ u r, edge s u r ↔ r = t ∧ u ∈ l) (closed : ∀ u r, ¬ edge t u r) {w : List α} :
    Path edge s w t ↔ w ∈ l := by
  constructor
  · intro path
    cases path with
    | refl => exact absurd rfl apart
    | step first rest =>
        obtain ⟨rfl, member⟩ := (leaves _ _).1 first
        cases rest with
        | refl => simpa using member
        | step next _ => exact absurd next (closed _ _)
  · exact fun member => .single ((leaves w t).2 ⟨rfl, member⟩)

theorem path_iff_of_unentered {edge : Edges α} {s : Nat} (unentered : ∀ r u, ¬ edge r u s)
    {w : List α} : Path edge s w s ↔ w = [] := by
  constructor
  · intro path
    have only {r t : Nat} {w : List α} (path : Path edge r w t) (equal : t = s) : r = s ∧ w = [] := by
      induction path with
      | refl => exact ⟨equal, rfl⟩
      | step first rest ih =>
          obtain ⟨rfl, -⟩ := ih equal
          exact absurd first (unentered _ _)
    exact (only path rfl).2
  · rintro rfl
    exact .refl s

section Join
variable {edge first second : Edges α} {early : Nat → Prop} {x y : Nat}

/-- Edges are made up of two parts, the only way from the first part to the second one being an
epsilon transition from `x` to `y`. -/
structure Joined (edge first second : Edges α) (early : Nat → Prop) (x y : Nat) : Prop where
  early_iff : ∀ s u t, early s → (edge s u t ↔ first s u t ∨ s = x ∧ u = [] ∧ t = y)
  late_iff : ∀ s u t, ¬ early s → (edge s u t ↔ second s u t)
  early_stays : ∀ s u t, early s → first s u t → early t
  late_stays : ∀ s u t, ¬ early s → second s u t → ¬ early t
  source : early x
  target : ¬ early y

namespace Joined

theorem late_path (h : Joined edge first second early x y) {s t : Nat} {w : List α}
    (late : ¬ early s) : Path edge s w t ↔ Path second s w t :=
  path_congr_on (R := fun s => ¬ early s) late
    (fun s u t member e => h.late_stays s u t member ((h.late_iff s u t member).1 e)) h.late_iff

theorem early_path (h : Joined edge first second early x y) {s t : Nat} {w : List α}
    (early_s : early s) (early_t : early t) : Path edge s w t ↔ Path first s w t := by
  constructor
  · intro path
    induction path with
    | refl s => exact .refl s
    | step e rest ih =>
        rcases (h.early_iff _ _ _ early_s).1 e with e | ⟨-, -, rfl⟩
        · exact .step e (ih (h.early_stays _ _ _ early_s e) early_t)
        · exact absurd early_t (((h.late_path h.target).1 rest).stays
            (R := fun s => ¬ early s) h.target h.late_stays)
  · intro path
    exact path.mono_on early_s h.early_stays fun s u t member e => (h.early_iff s u t member).2 (.inl e)

theorem path_iff (h : Joined edge first second early x y) {s t : Nat} {w : List α}
    (early_s : early s) (late_t : ¬ early t) :
    Path edge s w t ↔ ∃ u v, u ++ v = w ∧ Path first s u x ∧ Path second y v t := by
  constructor
  · intro path
    induction path with
    | refl s => exact absurd early_s late_t
    | step e rest ih =>
        rcases (h.early_iff _ _ _ early_s).1 e with e | ⟨rfl, rfl, rfl⟩
        · obtain ⟨u, v, rfl, left, right⟩ := ih (h.early_stays _ _ _ early_s e) late_t
          exact ⟨_, v, List.append_assoc .., .step e left, right⟩
        · exact ⟨[], _, rfl, .refl _, (h.late_path h.target).1 rest⟩
  · rintro ⟨u, v, rfl, left, right⟩
    have left' := (h.early_path early_s h.source).2 left
    have bridge : edge x [] y := (h.early_iff _ _ _ h.source).2 (.inr ⟨rfl, rfl, rfl⟩)
    exact (left'.snoc bridge).trans ((h.late_path h.target).2 right)

end Joined

end Join

section Sink
variable {edge base : Edges α} {x z : Nat}

structure Drained (edge base : Edges α) (x z : Nat) : Prop where
  edge_iff : ∀ s u t, edge s u t ↔ base s u t ∨ s = x ∧ u = [] ∧ t = z
  closed : ∀ u t, ¬ base z u t
  apart : x ≠ z

namespace Drained

theorem closed' (h : Drained edge base x z) (u : List α) (t : Nat) : ¬ edge z u t := by
  intro e
  rcases (h.edge_iff z u t).1 e with e | ⟨equal, -, -⟩
  · exact h.closed u t e
  · exact h.apart equal.symm

theorem path_of_ne (h : Drained edge base x z) {s t : Nat} {w : List α} (other : t ≠ z) :
    Path edge s w t ↔ Path base s w t := by
  constructor
  · intro path
    induction path with
    | refl s => exact .refl s
    | step e rest ih =>
        rcases (h.edge_iff _ _ _).1 e with e | ⟨-, -, rfl⟩
        · exact .step e (ih other)
        -- Behind the new transition the path cannot go on.
        · cases rest with
          | refl => exact absurd rfl other
          | step e _ => exact absurd e (h.closed' _ _)
  · intro path
    exact path.mono fun s u t e => (h.edge_iff s u t).2 (.inl e)

theorem path_iff (h : Drained edge base x z) {s : Nat} {w : List α} :
    Path edge s w z ↔ Path base s w z ∨ Path base s w x := by
  constructor
  · intro path
    generalize equal : z = t at path
    induction path with
    | refl s => exact .inl (equal ▸ .refl _)
    | step e rest ih =>
        subst equal
        rcases (h.edge_iff _ _ _).1 e with e | ⟨rfl, rfl, rfl⟩
        · exact (ih rfl).imp (.step e) (.step e)
        · cases rest with
          | refl => exact .inr (.refl _)
          | step e _ => exact absurd e (h.closed' _ _)
  · rintro (path | path)
    · exact path.mono fun s u t e => (h.edge_iff s u t).2 (.inl e)
    · exact (path.mono fun s u t e => (h.edge_iff s u t).2 (.inl e)).snoc
        ((h.edge_iff _ _ _).2 (.inr ⟨rfl, rfl, rfl⟩))

end Drained

end Sink

section Cycle
variable {edge body : Edges α} {inside : Nat → Prop} {hub entry exit : Nat}

/-- A hub stands outside of some edges, is left for their entry only and is reached from their exit
only. -/
structure Cycled (edge body : Edges α) (inside : Nat → Prop) (hub entry exit : Nat) : Prop where
  hub_iff : ∀ u t, edge hub u t ↔ u = [] ∧ t = entry
  inside_iff : ∀ s u t, inside s → (edge s u t ↔ body s u t ∨ s = exit ∧ u = [] ∧ t = hub)
  stays : ∀ s u t, inside s → body s u t → inside t
  entry_inside : inside entry
  exit_inside : inside exit
  hub_outside : ¬ inside hub

namespace Cycled

theorem mem_of_path (h : Cycled edge body inside hub entry exit) {l : Language α}
    (words : ∀ w, Path body entry w exit → w ∈ l) {s : Nat} {w : List α}
    (path : Path edge s w hub) :
    (s = hub → w ∈ l∗) ∧
      (inside s → ∃ u v, u ++ v = w ∧ Path body s u exit ∧ v ∈ l∗) := by
  generalize equal : hub = t at path
  induction path with
  | refl s =>
      subst equal
      exact ⟨fun _ => Language.nil_mem_kstar l, fun member => absurd member h.hub_outside⟩
  | step e rest ih =>
      subst equal
      constructor
      · rintro rfl
        obtain ⟨rfl, rfl⟩ := (h.hub_iff _ _).1 e
        obtain ⟨u, v, rfl, left, right⟩ := (ih rfl).2 h.entry_inside
        rw [List.nil_append, ← Language.one_add_self_mul_kstar_eq_kstar, Language.mem_add]
        exact .inr (Language.append_mem_mul (words u left) right)
      · intro member
        rcases (h.inside_iff _ _ _ member).1 e with e | ⟨rfl, rfl, rfl⟩
        · obtain ⟨u, v, rfl, left, right⟩ := (ih rfl).2 (h.stays _ _ _ member e)
          exact ⟨_, v, List.append_assoc .., .step e left, right⟩
        · exact ⟨[], _, rfl, .refl _, (ih rfl).1 rfl⟩

theorem exists_of_path (h : Cycled edge body inside hub entry exit) {l : Language α}
    (words : ∀ w, Path body entry w exit → w ∈ l) {s t : Nat} {w : List α} (end_inside : inside t)
    (path : Path edge s w t) :
    (s = hub → ∃ u v, u ++ v = w ∧ u ∈ l∗ ∧ Path body entry v t) ∧
      (inside s → Path body s w t ∨
        ∃ u v x, u ++ (v ++ x) = w ∧ Path body s u exit ∧ v ∈ l∗ ∧ Path body entry x t) := by
  induction path with
  | refl s =>
      exact ⟨fun equal => absurd end_inside (equal ▸ h.hub_outside), fun _ => .inl (.refl s)⟩
  | step e rest ih =>
      constructor
      · rintro rfl
        obtain ⟨rfl, rfl⟩ := (h.hub_iff _ _).1 e
        rcases (ih end_inside).2 h.entry_inside with path | ⟨u, v, x, rfl, left, middle, right⟩
        · exact ⟨[], _, rfl, Language.nil_mem_kstar l, path⟩
        · refine ⟨u ++ v, x, by simp, ?_, right⟩
          rw [← Language.one_add_self_mul_kstar_eq_kstar, Language.mem_add]
          exact .inr (Language.append_mem_mul (words u left) middle)
      · intro member
        rcases (h.inside_iff _ _ _ member).1 e with e | ⟨rfl, rfl, rfl⟩
        · rcases (ih end_inside).2 (h.stays _ _ _ member e) with path | ⟨u, v, x, rfl, left, others⟩
          · exact .inl (.step e path)
          · exact .inr ⟨_, v, x, List.append_assoc .., .step e left, others⟩
        · obtain ⟨v, x, rfl, middle, right⟩ := (ih end_inside).1 rfl
          exact .inr ⟨[], v, x, rfl, .refl _, middle, right⟩

theorem path_iff (h : Cycled edge body inside hub entry exit) {l : Language α}
    (words : ∀ w, Path body entry w exit ↔ w ∈ l) {w : List α} :
    Path edge hub w hub ↔ w ∈ l∗ := by
  constructor
  · exact fun path => (h.mem_of_path (fun w => (words w).1) path).1 rfl
  · intro member
    obtain ⟨parts, rfl, members⟩ := Language.mem_kstar.1 member
    clear member
    induction parts with
    | nil => exact .refl hub
    | cons part parts ih =>
        have round : Path body entry part exit := (words part).2 (members part (by simp))
        have round' : Path edge entry part exit := round.mono_on h.entry_inside h.stays
          fun s u t member e => (h.inside_iff s u t member).2 (.inl e)
        have back : edge exit [] hub :=
          (h.inside_iff _ _ _ h.exit_inside).2 (.inr ⟨rfl, rfl, rfl⟩)
        rw [List.flatten_cons]
        exact .epsilon ((h.hub_iff _ _).2 ⟨rfl, rfl⟩) ((round'.snoc back).trans
          (ih fun y member => members y (List.mem_cons_of_mem _ member)))

end Cycled

end Cycle

end XmlSchema.ContentModel
