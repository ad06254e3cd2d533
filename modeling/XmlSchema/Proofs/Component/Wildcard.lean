import XmlSchema.Component.Name

namespace XmlSchema.Component.Wildcard

variable {a b w : Wildcard}

theorem exists_allows_of_other (a b : String) :
    ∃ ns : String, ns.isEmpty = false ∧ ns ≠ a ∧ ns ≠ b := by
  have length : ("x" ++ (a ++ b)).length = 1 + (a.length + b.length) := by
    simp only [String.length_append]
    rfl
  refine ⟨"x" ++ (a ++ b), ?_, fun equal => ?_, fun equal => ?_⟩
  · rw [Bool.eq_false_iff]
    intro empty
    rw [String.isEmpty_iff.1 empty] at length
    have : "".length = 0 := rfl
    omega
  · have := congrArg String.length equal
    omega
  · have := congrArg String.length equal
    omega

theorem exists_allows_iff : (∃ ns, w.allows ns = true) ↔ w.constraint ≠ .among [] := by
  obtain ⟨constraint, process⟩ := w
  cases constraint with
  | any => exact ⟨fun _ => nofun, fun _ => ⟨"", rfl⟩⟩
  | other target =>
    refine ⟨fun _ => nofun, fun _ => ?_⟩
    obtain ⟨ns, nonempty, ne, -⟩ := exists_allows_of_other target target
    exact ⟨ns, by simp [allows, nonempty, ne]⟩
  | among namespaces =>
    cases namespaces with
    | nil => simp [allows]
    | cons ns namespaces => exact ⟨fun _ => nofun, fun _ => ⟨ns, by simp [allows]⟩⟩

theorem overlaps_of_allows {ns : String} (first : a.allows ns = true)
    (second : b.allows ns = true) : a.overlaps b = true := by
  unfold overlaps
  split
  · rfl
  · rfl
  · rfl
  · next namespaces listed _ =>
    rw [allows, listed] at first
    exact List.any_eq_true.2 ⟨ns, List.contains_iff_mem.1 first, second⟩
  · next namespaces listed _ _ =>
    rw [allows, listed] at second
    exact List.any_eq_true.2 ⟨ns, List.contains_iff_mem.1 second, first⟩

theorem exists_allows_of_overlaps (overlaps : a.overlaps b = true)
    (first : ∃ ns, a.allows ns = true) (second : ∃ ns, b.allows ns = true) :
    ∃ ns, a.allows ns = true ∧ b.allows ns = true := by
  obtain ⟨ca, pa⟩ := a
  obtain ⟨cb, pb⟩ := b
  cases ca with
  | any =>
    obtain ⟨ns, allowed⟩ := second
    exact ⟨ns, rfl, allowed⟩
  | other target =>
    cases cb with
    | any =>
      obtain ⟨ns, allowed⟩ := first
      exact ⟨ns, allowed, rfl⟩
    | other target' =>
      obtain ⟨ns, nonempty, ne, ne'⟩ := exists_allows_of_other target target'
      exact ⟨ns, by simp [allows, nonempty, ne], by simp [allows, nonempty, ne']⟩
    | among namespaces =>
      obtain ⟨ns, member, allowed⟩ := List.any_eq_true.1 overlaps
      exact ⟨ns, allowed, List.contains_iff_mem.2 member⟩
  | among namespaces =>
    cases cb with
    | any =>
      obtain ⟨ns, allowed⟩ := first
      exact ⟨ns, allowed, rfl⟩
    | other target' =>
      obtain ⟨ns, member, allowed⟩ := List.any_eq_true.1 overlaps
      exact ⟨ns, List.contains_iff_mem.2 member, allowed⟩
    | among namespaces' =>
      obtain ⟨ns, member, allowed⟩ := List.any_eq_true.1 overlaps
      exact ⟨ns, List.contains_iff_mem.2 member, allowed⟩

theorem overlaps_comm (a b : Wildcard) : a.overlaps b = b.overlaps a := by
  obtain ⟨ca, _⟩ := a
  obtain ⟨cb, _⟩ := b
  cases ca with
  | any => cases cb <;> rfl
  | other target => cases cb <;> rfl
  | among namespaces =>
    cases cb with
    | any => rfl
    | other target => rfl
    | among others =>
      rw [Bool.eq_iff_iff]
      simp only [overlaps, allows, List.any_eq_true, List.contains_iff_mem]
      exact ⟨fun ⟨ns, left, right⟩ => ⟨ns, right, left⟩, fun ⟨ns, left, right⟩ => ⟨ns, right, left⟩⟩

theorem overlaps_among_nil_iff (none : b.constraint = .among []) :
    a.overlaps b = true ↔ a.constraint = .any := by
  obtain ⟨ca, _⟩ := a
  obtain ⟨cb, _⟩ := b
  subst none
  cases ca with
  | any => exact ⟨fun _ => rfl, fun _ => rfl⟩
  | other target => exact ⟨nofun, nofun⟩
  | among namespaces => simp [overlaps, allows]

theorem exists_allows_of_overlaps_self (overlaps : w.overlaps w = true) :
    ∃ ns, w.allows ns = true := by
  rw [exists_allows_iff]
  intro none
  exact nomatch none.symm.trans ((overlaps_among_nil_iff none).1 overlaps)

/-- One of two wildcards is of any namespace, and the other one of none. -/
def AnyAndNone (a b : Wildcard) : Prop := a.constraint = .any ∧ b.constraint = .among []

/-- Two wildcards overlap exactly if they allow a namespace in common, or if one of them is of any
namespace and the other one of none; and it does not matter which of them comes first. -/
theorem overlaps_iff_exists_allows (a b : Wildcard) :
    (a.overlaps b = true ↔
      (∃ ns, a.allows ns = true ∧ b.allows ns = true) ∨ AnyAndNone a b ∨ AnyAndNone b a) ∧
    a.overlaps b = b.overlaps a := by
  refine ⟨⟨fun overlaps => ?_, ?_⟩, overlaps_comm a b⟩
  · by_cases first : ∃ ns, a.allows ns = true
    · by_cases second : ∃ ns, b.allows ns = true
      · exact .inl (exists_allows_of_overlaps overlaps first second)
      · have none : b.constraint = .among [] := by simpa [exists_allows_iff] using second
        exact .inr (.inl ⟨(overlaps_among_nil_iff none).1 overlaps, none⟩)
    · have none : a.constraint = .among [] := by simpa [exists_allows_iff] using first
      rw [overlaps_comm] at overlaps
      exact .inr (.inr ⟨(overlaps_among_nil_iff none).1 overlaps, none⟩)
  · rintro (⟨ns, first, second⟩ | ⟨any, none⟩ | ⟨any, none⟩)
    · exact overlaps_of_allows first second
    · exact (overlaps_among_nil_iff none).2 any
    · rw [overlaps_comm]
      exact (overlaps_among_nil_iff none).2 any

/-- A wildcard of any namespace overlaps one that allows no namespace at all. -/
theorem overlaps_none :
    let any : Wildcard := ⟨.any, .lax⟩
    let none : Wildcard := ⟨.among [], .lax⟩
    any.overlaps none = true ∧ ¬ ∃ ns, any.allows ns = true ∧ none.allows ns = true :=
  ⟨rfl, fun ⟨_, _, allowed⟩ => Bool.false_ne_true allowed⟩

end XmlSchema.Component.Wildcard
