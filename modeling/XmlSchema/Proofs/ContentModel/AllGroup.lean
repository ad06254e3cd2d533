import Mathlib.Data.List.Nodup
import Mathlib.Data.List.Perm.Basic
import Mathlib.Tactic.Tauto
import XmlSchema.Proofs.ContentModel.Labels
import XmlSchema.Proofs.ContentModel.Run

namespace XmlSchema.ContentModel

open Component (QName)

variable {δ : Type}

def Particle.AtMostOnce (p : Particle δ) : Prop := ∃ max, p.max = some max ∧ p.min ≤ max ∧ max ≤ 1

/-- A particle is an `all` group of elements with different names. -/
structure Particle.IsAllGroup (p : Particle δ) (children : List (Particle δ)) : Prop where
  term : p.term = .all children
  atMostOnce : p.AtMostOnce
  elements : ∀ c ∈ children, c.AtMostOnce ∧ ∃ e, c.term = .element e
  distinct : ((allElements children).map (·.name)).Nodup

def Particle.name? (c : Particle δ) : Option QName :=
  match c.term with
  | .element e => some e.name
  | _ => none

theorem Particle.name?_eq_some_iff {c : Particle δ} {name : QName} :
    c.name? = some name ↔ ∃ e, c.term = .element e ∧ e.name = name := by
  unfold Particle.name?
  split
  · next e term => simp [term]
  · next other =>
    simp only [reduceCtorEq, false_iff, not_exists, not_and]
    exact fun e term => absurd term (other e)

/-- A sequence of child names belongs to the language of an `all` group of elements. -/
def Particle.MeansInAnyOrder (p : Particle δ) (children : List (Particle δ)) (names : List QName) :
    Prop :=
  if p.max = some 0 then names = [] else
    names.Nodup ∧ (∀ name ∈ names, ∃ c ∈ children, c.max = some 1 ∧ c.name? = some name) ∧
      ((∀ c ∈ children, c.min = 1 → ∀ name ∈ c.name?, name ∈ names) ∨ (names = [] ∧ p.min = 0))

instance (p : Particle δ) (children : List (Particle δ)) (names : List QName) :
    Decidable (p.MeansInAnyOrder children names) :=
  inferInstanceAs (Decidable (if p.max = some 0 then _ else _))

section Marks

variable {ms : List (Member δ)} {taken : List QName}

def memberNames (ms : List (Member δ)) : List QName := ms.map (·.term.name)

def marks (ms : List (Member δ)) (taken : List QName) : List Bool :=
  ms.map fun m => decide (m.term.name ∈ taken)

theorem marks_cons (m : Member δ) (ms : List (Member δ)) (taken : List QName) :
    marks (m :: ms) taken = decide (m.term.name ∈ taken) :: marks ms taken := rfl

theorem marks_congr {others : List QName} (same : ∀ name, name ∈ taken ↔ name ∈ others) :
    marks ms taken = marks ms others := by
  simp only [marks, same]

theorem marks_cons_of_not_mem {name : QName} (absent : name ∉ memberNames ms) :
    marks ms (name :: taken) = marks ms taken := by
  refine List.map_congr_left fun m member => ?_
  have apart : m.term.name ≠ name := fun equal => absurd (List.mem_map.2 ⟨m, member, equal⟩) absent
  simp [apart]

theorem markSeen_marks (distinct : (memberNames ms).Nodup) (taken : List QName) (name : QName) :
    (markSeen name ms (marks ms taken)).map (·.2) =
      if name ∈ memberNames ms ∧ name ∉ taken then some (marks ms (name :: taken)) else none := by
  induction ms with
  | nil => simp [markSeen, memberNames]
  | cons m ms ih =>
    obtain ⟨absent, distinct⟩ := List.nodup_cons.1 distinct
    have names : memberNames (m :: ms) = m.term.name :: memberNames ms := rfl
    by_cases equal : m.term.name = name
    · subst equal
      by_cases known : m.term.name ∈ taken
      · simp only [marks_cons, markSeen, known]
        simpa [Function.comp_def, known] using ih distinct
      · simp [marks_cons, markSeen, known, names, marks_cons_of_not_mem absent]
    · have later := congrArg (Option.map (decide (m.term.name ∈ taken) :: ·)) (ih distinct)
      simpa [marks_cons, markSeen, names, equal, Ne.symm equal, Function.comp_def,
        apply_ite (Option.map (decide (m.term.name ∈ taken) :: ·))] using later

theorem step_marks (distinct : (memberNames ms).Nodup) (emptiable : Bool) (taken : List QName)
    (name : QName) :
    ((ContentModel.all ms emptiable).step (.all (marks ms taken)) name).map (·.2) =
      if name ∈ memberNames ms ∧ name ∉ taken then some (.all (marks ms (name :: taken)))
      else none := by
  have marked := congrArg (Option.map State.all) (markSeen_marks distinct taken name)
  simpa [step, Function.comp_def, apply_ite (Option.map State.all)] using marked

theorem run_marks (distinct : (memberNames ms).Nodup) (emptiable : Bool) (taken names : List QName)
    (state : State) :
    (ContentModel.all ms emptiable).run (.all (marks ms taken)) names = some state ↔
      (names.Nodup ∧ ∀ name ∈ names, name ∈ memberNames ms ∧ name ∉ taken) ∧
        state = .all (marks ms (names ++ taken)) := by
  induction names generalizing taken with
  | nil => simp [run, eq_comm]
  | cons name names ih =>
    have unfolded : (ContentModel.all ms emptiable).run (.all (marks ms taken)) (name :: names) =
        (((ContentModel.all ms emptiable).step (.all (marks ms taken)) name).map (·.2)).bind
          fun state => (ContentModel.all ms emptiable).run state names := by
      rw [Option.bind_map]
      rfl
    have same : marks ms (names ++ name :: taken) = marks ms (name :: names ++ taken) :=
      marks_congr fun other => by simp only [List.mem_append, List.mem_cons]; tauto
    rw [unfolded, step_marks distinct]
    by_cases fresh : name ∈ memberNames ms ∧ name ∉ taken
    · rw [if_pos fresh, Option.bind_some, ih, same, List.nodup_cons, List.forall_mem_cons]
      have split : (∀ other ∈ names, other ∈ memberNames ms ∧ other ∉ name :: taken) ↔
          name ∉ names ∧ ∀ other ∈ names, other ∈ memberNames ms ∧ other ∉ taken := by
        simp only [List.mem_cons, not_or]
        constructor
        · exact fun all => ⟨fun again => (all name again).2.1 rfl, fun other member =>
            ⟨(all other member).1, (all other member).2.2⟩⟩
        · rintro ⟨once, all⟩ other member
          exact ⟨(all other member).1, fun equal => once (equal ▸ member), (all other member).2⟩
      rw [split]
      tauto
    · rw [if_neg fresh]
      simp only [Option.bind_none, reduceCtorEq, List.forall_mem_cons, fresh, false_and, and_false]

theorem isAccepting_marks (emptiable : Bool) (taken : List QName) :
    (ContentModel.all ms emptiable).isAccepting (.all (marks ms taken)) = true ↔
      (emptiable = true ∧ ∀ m ∈ ms, m.term.name ∉ taken) ∨
        ∀ m ∈ ms, m.required = true → m.term.name ∈ taken := by
  have zipped : ms.zip (marks ms taken) = ms.map fun m => (m, decide (m.term.name ∈ taken)) := by
    induction ms with
    | nil => rfl
    | cons m ms ih => simpa [marks_cons] using ih
  have optional (m : Member δ) : (m.required = false ∨ m.term.name ∈ taken) ↔
      (m.required = true → m.term.name ∈ taken) := by cases m.required <;> simp
  rw [isAccepting, zipped]
  simp [marks, optional]

theorem accepts_all_iff (distinct : (memberNames ms).Nodup) (emptiable : Bool)
    (names : List QName) :
    (ContentModel.all ms emptiable).accepts names = true ↔
      (names.Nodup ∧ ∀ name ∈ names, name ∈ memberNames ms) ∧
        ((emptiable = true ∧ names = []) ∨ ∀ m ∈ ms, m.required = true → m.term.name ∈ names) := by
  have begin : (ContentModel.all ms emptiable).start = .all (marks ms []) := by simp [start, marks]
  rw [accepts_iff, begin]
  simp only [run_marks distinct, List.append_nil, List.not_mem_nil, not_false_eq_true, and_true]
  constructor
  · rintro ⟨_, ⟨taken, rfl⟩, accepting⟩
    refine ⟨taken, ((isAccepting_marks emptiable names).1 accepting).imp_left ?_⟩
    rintro ⟨mayBeEmpty, none⟩
    refine ⟨mayBeEmpty, List.eq_nil_iff_forall_not_mem.2 fun name member => ?_⟩
    obtain ⟨m, among, rfl⟩ := List.mem_map.1 (taken.2 name member)
    exact none m among member
  · rintro ⟨taken, accepting⟩
    refine ⟨_, ⟨taken, rfl⟩, (isAccepting_marks emptiable names).2 (accepting.imp_left ?_)⟩
    rintro ⟨mayBeEmpty, rfl⟩
    exact ⟨mayBeEmpty, fun _ _ => List.not_mem_nil⟩

end Marks

def member? (c : Particle δ) : Option (Member δ) :=
  match c.max, c.term with
  | some 1, .element e => some ⟨e, 0 < c.min⟩
  | _, _ => none

theorem member?_eq_some_iff {c : Particle δ} {m : Member δ} : member? c = some m ↔
    c.max = some 1 ∧ c.term = .element m.term ∧ m.required = decide (0 < c.min) := by
  unfold member?
  split
  · next e bounded term =>
    obtain ⟨e', required⟩ := m
    simp [bounded, term, eq_comm]
  · next other =>
    simp only [reduceCtorEq, false_iff, not_and]
    exact fun bounded term => absurd term (other m.term bounded)

theorem members_eq {children : List (Particle δ)}
    (elements : ∀ c ∈ children, c.AtMostOnce ∧ ∃ e, c.term = .element e) :
    members children = .ok (children.filterMap member?) := by
  induction children with
  | nil => rfl
  | cons c children ih =>
    obtain ⟨⟨⟨max, bounded, _, le⟩, e, term⟩, others⟩ := List.forall_mem_cons.1 elements
    have rest := ih others
    obtain ⟨min, _, _⟩ := c
    obtain rfl : _ = some max := bounded
    obtain rfl : _ = Term.element e := term
    obtain rfl | rfl : max = 0 ∨ max = 1 := by omega
    · simp [members, member?, rest]
    · simp [members, member?, rest, Except.map]

theorem memberNames_sublist (children : List (Particle δ)) :
    (memberNames (children.filterMap member?)).Sublist ((allElements children).map (·.name)) := by
  induction children with
  | nil => exact .refl []
  | cons c children ih =>
    rw [allElements, List.map_append]
    cases taken : member? c with
    | none =>
      rw [List.filterMap_cons_none taken]
      exact ih.trans (List.sublist_append_right _ _)
    | some m =>
      obtain ⟨_, term, _⟩ := member?_eq_some_iff.1 taken
      obtain ⟨_, _, _⟩ := c
      obtain rfl : _ = Term.element m.term := term
      rw [List.filterMap_cons_some taken]
      exact ih.cons_cons m.term.name

variable {p : Particle δ} {children : List (Particle δ)}

namespace Particle.IsAllGroup

theorem build_eq (group : p.IsAllGroup children) :
    build p = .ok (.all (children.filterMap member?) (p.min == 0)) := by
  obtain ⟨max, bounded, _, le⟩ := group.atMostOnce
  simp [build, group.term, bounded, le, members_eq group.elements, Except.map]

theorem mem_memberNames_iff {name : QName} : name ∈ memberNames (children.filterMap member?) ↔
    ∃ c ∈ children, c.max = some 1 ∧ c.name? = some name := by
  constructor
  · intro member
    obtain ⟨m, among, rfl⟩ := List.mem_map.1 member
    obtain ⟨c, isChild, given⟩ := List.mem_filterMap.1 among
    obtain ⟨bounded, term, _⟩ := member?_eq_some_iff.1 given
    exact ⟨c, isChild, bounded, name?_eq_some_iff.2 ⟨m.term, term, rfl⟩⟩
  · rintro ⟨c, isChild, bounded, named⟩
    obtain ⟨e, term, rfl⟩ := name?_eq_some_iff.1 named
    have given : member? c = some ⟨e, 0 < c.min⟩ := member?_eq_some_iff.2 ⟨bounded, term, rfl⟩
    exact List.mem_map.2 ⟨_, List.mem_filterMap.2 ⟨c, isChild, given⟩, rfl⟩

theorem required_iff (group : p.IsAllGroup children) {names : List QName} :
    (∀ m ∈ children.filterMap member?, m.required = true → m.term.name ∈ names) ↔
      ∀ c ∈ children, c.min = 1 → ∀ name ∈ c.name?, name ∈ names := by
  constructor
  · intro all c isChild least name named
    obtain ⟨e, term, rfl⟩ := name?_eq_some_iff.1 named
    obtain ⟨⟨max, bounded, least_le, le⟩, _⟩ := group.elements c isChild
    obtain rfl : max = 1 := by omega
    have given : member? c = some ⟨e, 0 < c.min⟩ := member?_eq_some_iff.2 ⟨bounded, term, rfl⟩
    exact all _ (List.mem_filterMap.2 ⟨c, isChild, given⟩) (by simp [least])
  · intro all m among required
    obtain ⟨c, isChild, given⟩ := List.mem_filterMap.1 among
    obtain ⟨bounded, term, same⟩ := member?_eq_some_iff.1 given
    obtain ⟨⟨max, bounded', least_le, le⟩, _⟩ := group.elements c isChild
    obtain rfl : max = 1 := Option.some.inj (bounded'.symm.trans bounded)
    have least : 0 < c.min := by simpa [required] using same
    exact all c isChild (by omega) _ (name?_eq_some_iff.2 ⟨m.term, term, rfl⟩)

theorem accepts_iff (group : p.IsAllGroup children) (names : List QName) :
    (ContentModel.all (children.filterMap member?) (p.min == 0)).accepts names = true ↔
      (names.Nodup ∧ ∀ name ∈ names, ∃ c ∈ children, c.max = some 1 ∧ c.name? = some name) ∧
        ((p.min = 0 ∧ names = []) ∨
          ∀ c ∈ children, c.min = 1 → ∀ name ∈ c.name?, name ∈ names) := by
  have distinct := group.distinct.sublist (memberNames_sublist children)
  rw [accepts_all_iff distinct, group.required_iff]
  simp only [mem_memberNames_iff, beq_iff_eq]

end Particle.IsAllGroup

/-- An `all` group takes all sequences of child names that it means, in any order, and if it may
occur at all it takes no others. -/
theorem accepts_allGroup (group : p.IsAllGroup children) :
    ∃ model, build p = .ok model ∧
      (∀ names, p.MeansInAnyOrder children names → model.accepts names = true) ∧
      (p.max ≠ some 0 → ∀ names, model.accepts names = true → p.MeansInAnyOrder children names) ∧
      ∀ names others, names.Perm others → model.accepts names = model.accepts others := by
  refine ⟨_, group.build_eq, fun names means => ?_, fun mayOccur names accepted => ?_,
    fun names others perm => ?_⟩
  · rw [group.accepts_iff]
    by_cases dropped : p.max = some 0
    · obtain ⟨max, bounded, le, _⟩ := group.atMostOnce
      obtain rfl : max = 0 := Option.some.inj (bounded.symm.trans dropped)
      obtain rfl : names = [] := by simpa [Particle.MeansInAnyOrder, dropped] using means
      exact ⟨⟨.nil, by simp⟩, .inl ⟨Nat.le_zero.1 le, rfl⟩⟩
    · rw [Particle.MeansInAnyOrder, if_neg dropped] at means
      obtain ⟨once, ofMembers, whole⟩ := means
      exact ⟨⟨once, ofMembers⟩, whole.symm.imp_left And.symm⟩
  · obtain ⟨⟨once, ofMembers⟩, whole⟩ := (group.accepts_iff names).1 accepted
    rw [Particle.MeansInAnyOrder, if_neg mayOccur]
    exact ⟨once, ofMembers, whole.symm.imp_right And.symm⟩
  · have empty : names = [] ↔ others = [] := by
      rw [← List.length_eq_zero_iff, ← List.length_eq_zero_iff, perm.length_eq]
    rw [Bool.eq_iff_iff, group.accepts_iff, group.accepts_iff]
    simp only [perm.nodup_iff, perm.mem_iff, empty]

def pairInAnyOrder (min max : Nat) : Particle Unit :=
  ⟨min, some max, .all pair⟩
where
  pair : List (Particle Unit) :=
    [.once (.element ⟨⟨"", "a"⟩, none⟩), ⟨0, some 1, .element ⟨⟨"", "b"⟩, none⟩⟩]

theorem pairInAnyOrder_isAllGroup {min max : Nat} (le : min ≤ max) (once : max ≤ 1) :
    (pairInAnyOrder min max).IsAllGroup pairInAnyOrder.pair where
  term := rfl
  atMostOnce := ⟨max, rfl, le, once⟩
  elements := by simp [pairInAnyOrder.pair, Particle.AtMostOnce, Particle.once]
  distinct := by decide

theorem pairInAnyOrder_accepts :
    (pairInAnyOrder 0 1).IsAllGroup pairInAnyOrder.pair ∧ (pairInAnyOrder 0 1).max ≠ some 0 ∧
      ∃ model, build (pairInAnyOrder 0 1) = .ok model ∧
        model.accepts [⟨"", "b"⟩, ⟨"", "a"⟩] = true ∧ model.accepts [] = true ∧
        model.accepts [⟨"", "b"⟩] = false := by
  have group := @pairInAnyOrder_isAllGroup 0 1 (by decide) (by decide)
  have mayOccur : (pairInAnyOrder 0 1).max ≠ some 0 := by decide
  obtain ⟨model, built, complete, sound, _⟩ := accepts_allGroup group
  refine ⟨group, mayOccur, model, built, complete _ (by decide), complete _ (by decide), ?_⟩
  exact Bool.eq_false_iff.2 fun accepted => absurd (sound mayOccur _ accepted) (by decide)

/-- A group that must not occur is matched nevertheless: it takes its members, though it means that
there are none. -/
theorem pairInAnyOrder_dropped_accepts :
    (pairInAnyOrder 0 0).IsAllGroup pairInAnyOrder.pair ∧
      ∃ model, build (pairInAnyOrder 0 0) = .ok model ∧ model.accepts [⟨"", "a"⟩] = true ∧
        ¬(pairInAnyOrder 0 0).MeansInAnyOrder pairInAnyOrder.pair [⟨"", "a"⟩] :=
  ⟨pairInAnyOrder_isAllGroup (by decide) (by decide), _, rfl, by decide, by decide⟩

end XmlSchema.ContentModel
