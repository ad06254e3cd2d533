import XmlSchema.Proofs.ContentModel.AllGroup
import XmlSchema.Proofs.ContentModel.Matching

namespace XmlSchema.ContentModel

open Component (QName)

variable {δ : Type}

section Words
variable {k l : Language QName}

theorem nil_mem_mul_iff : [] ∈ k * l ↔ [] ∈ k ∧ [] ∈ l := by
  rw [Language.mem_mul]
  constructor
  · rintro ⟨u, first, v, second, empty⟩
    obtain ⟨rfl, rfl⟩ := List.append_eq_nil_iff.1 empty
    exact ⟨first, second⟩
  · rintro ⟨first, second⟩
    exact ⟨[], first, [], second, rfl⟩

theorem nil_mem_pow_iff {n : Nat} : [] ∈ l ^ n ↔ n = 0 ∨ [] ∈ l := by
  induction n with
  | zero => simp
  | succ n ih =>
    rw [pow_succ, nil_mem_mul_iff, ih]
    simp only [Nat.add_one_ne_zero, false_or, and_iff_right_iff_imp]
    exact .inr

theorem nil_mem_prod_iff {ls : List (Language QName)} : [] ∈ ls.prod ↔ ∀ l ∈ ls, [] ∈ l := by
  induction ls with
  | nil => simp
  | cons l ls ih => rw [List.prod_cons, nil_mem_mul_iff, ih, List.forall_mem_cons]

theorem nil_mem_bounded_iff {min : Nat} {max : Option Nat} (ordered : max.all (min ≤ ·) = true) :
    [] ∈ bounded min max l ↔ min = 0 ∨ [] ∈ l := by
  have least : ∀ m ∈ max, min ≤ m := by
    rintro m rfl
    simpa using ordered
  constructor
  · rintro ⟨times, lower, -, member⟩
    exact (nil_mem_pow_iff.1 member).imp_left fun none => by omega
  · intro empty
    exact ⟨min, le_rfl, least, nil_mem_pow_iff.2 empty⟩

end Words

mutual

theorem Particle.nil_mem_language_iff (p : Particle δ) (ordered : p.boundsOrdered = true) :
    [] ∈ p.language ↔ p.isEmptiable = true := by
  obtain ⟨min, max, t⟩ := p
  obtain ⟨bounds, inner⟩ := Bool.and_eq_true_iff.1 ordered
  rw [Particle.language, nil_mem_bounded_iff bounds, t.nil_mem_language_iff inner]
  simp [Particle.isEmptiable]

theorem Term.nil_mem_language_iff (t : Term δ) (ordered : t.boundsOrdered = true) :
    [] ∈ t.language ↔ Particle.termIsEmptiable t = true := by
  cases t with
  | element e =>
    refine iff_of_false (fun member => ?_) Bool.false_ne_true
    cases member
  | wildcard w =>
    refine iff_of_false (fun member => ?_) Bool.false_ne_true
    obtain ⟨_, empty, _⟩ := member
    cases empty
  | sequence children => exact nil_mem_prod_iff.trans (nil_mem_all_iff children ordered)
  | choice children => exact nil_mem_sum_iff children ordered
  | all children =>
    rw [Particle.termIsEmptiable, ← nil_mem_all_iff children ordered]
    constructor
    · rintro ⟨order, perm, member⟩ l among
      exact nil_mem_prod_iff.1 member l (perm.mem_iff.2 among)
    · exact fun all => ⟨_, .refl _, nil_mem_prod_iff.2 all⟩

theorem nil_mem_all_iff (ps : List (Particle δ)) (ordered : allBoundsOrdered ps = true) :
    (∀ l ∈ languages ps, [] ∈ l) ↔ Particle.allEmptiable ps = true := by
  cases ps with
  | nil => simp [languages, Particle.allEmptiable]
  | cons p ps =>
    obtain ⟨first, rest⟩ := Bool.and_eq_true_iff.1 ordered
    rw [languages, List.forall_mem_cons, p.nil_mem_language_iff first, nil_mem_all_iff ps rest,
      Particle.allEmptiable, Bool.and_eq_true]

theorem nil_mem_sum_iff (ps : List (Particle δ)) (ordered : allBoundsOrdered ps = true) :
    [] ∈ (languages ps).sum ↔ Particle.anyEmptiable ps = true := by
  cases ps with
  | nil => simp [languages, Particle.anyEmptiable]
  | cons p ps =>
    obtain ⟨first, rest⟩ := Bool.and_eq_true_iff.1 ordered
    rw [languages, List.sum_cons, Language.mem_add, p.nil_mem_language_iff first,
      nil_mem_sum_iff ps rest, Particle.anyEmptiable, Bool.or_eq_true]

end

theorem all_required_eq_false_iff {children : List (Particle δ)} {ms : List (Member δ)}
    (ordered : allBoundsOrdered children = true) (given : members children = .ok ms) :
    (∀ m ∈ ms, m.required = false) ↔ Particle.allEmptiable children = true := by
  induction children generalizing ms with
  | nil =>
    cases given
    simp [Particle.allEmptiable]
  | cons c children ih =>
    obtain ⟨bounds, rest⟩ := Bool.and_eq_true_iff.1 ordered
    obtain ⟨e, element, others⟩ := members_cons_ok given
    obtain ⟨min, max, _⟩ := c
    obtain rfl : _ = Term.element e := element
    have emptiable : Particle.isEmptiable ⟨min, max, .element e⟩ = (min == 0) := by
      simp [Particle.isEmptiable, Particle.termIsEmptiable]
    rw [Particle.allEmptiable, Bool.and_eq_true, emptiable, beq_iff_eq]
    rcases others with ⟨rfl : max = some 0, others⟩ | ⟨-, ms, others, rfl⟩
    · obtain rfl : min = 0 := by simpa [Particle.boundsOrdered, Term.boundsOrdered] using bounds
      rw [ih rest others, and_iff_right rfl]
    · rw [List.forall_mem_cons, ih rest others]
      simp

/-- A content model accepts in its start exactly if its particle is emptiable. -/
theorem isAccepting_start_of_build {p : Particle δ} {model : ContentModel δ}
    (ordered : p.boundsOrdered = true) (built : build p = .ok model) :
    model.isAccepting model.start = p.isEmptiable := by
  rw [Bool.eq_iff_iff]
  rcases build_cases built with ⟨children, ms, group, given, rfl⟩ | ⟨a, laid, rfl⟩
  · obtain ⟨min, max, _⟩ := p
    obtain rfl : _ = Term.all children := group
    obtain ⟨-, inner⟩ := Bool.and_eq_true_iff.1 ordered
    rw [Particle.isEmptiable, Particle.termIsEmptiable, Bool.or_eq_true,
      ← all_required_eq_false_iff inner given]
    have begin : (ContentModel.all ms (min == 0)).start = .all (marks ms []) := by
      simp [start, marks]
    rw [begin, isAccepting_marks]
    simp
  · have empty : (ContentModel.automaton a).accepts [] =
        (ContentModel.automaton a).isAccepting (ContentModel.automaton a).start := rfl
    rw [← empty, accepts_ofParticle_iff laid, p.nil_mem_language_iff ordered]

def mostlyEmpty : Particle Unit :=
  .once (.sequence [
    ⟨2, some 2, .sequence [⟨0, some 3, .element ⟨⟨"", "a"⟩, none⟩⟩, ⟨0, none, .choice []⟩]⟩,
    ⟨1, none, .choice [.once (.element ⟨⟨"", "b"⟩, none⟩), .once (.sequence []),
      ⟨0, some 0, .all []⟩]⟩])

theorem mostlyEmpty_isAccepting_start : mostlyEmpty.boundsOrdered = true ∧
    ∃ model, build mostlyEmpty = .ok model ∧ model.isAccepting model.start = true := by
  have laid : (build mostlyEmpty).isOk = true := by decide +kernel
  cases built : build mostlyEmpty with
  | error fault => simp [built, Except.isOk, Except.toBool] at laid
  | ok model =>
    refine ⟨by decide, model, rfl, ?_⟩
    rw [isAccepting_start_of_build (by decide) built]
    decide

end XmlSchema.ContentModel
