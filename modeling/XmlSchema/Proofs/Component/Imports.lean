import Mathlib.Algebra.GroupWithZero.Nat
import Mathlib.Logic.Function.Iterate
import Mathlib.Logic.Relation
import XmlSchema.Proofs.Component.Content

namespace XmlSchema.Component.Pool

variable {pool : Pool} {start importer ns : String} {visited ordered stack : List String}

def Imports (pool : Pool) (importer ns : String) : Prop :=
  ∃ g ∈ pool.grammars, g.target = importer ∧ ns ∈ g.imports

/-- A namespace is reached from another one through imports, or is that one. -/
def Reaches (pool : Pool) : String → String → Prop := Relation.ReflTransGen pool.Imports

def Follows (pool : Pool) (importer ns : String) : Prop := ns ∈ pool.importsOf importer

theorem follows_eq_imports (distinct : (pool.grammars.map (·.target)).Nodup) :
    pool.Follows = pool.Imports := by
  funext importer ns
  refine propext ⟨fun imported => ?_, ?_⟩
  · simp only [Follows, importsOf] at imported
    cases found : pool.grammar? importer with
    | none => simp [found] at imported
    | some g =>
      rw [found] at imported
      exact ⟨g, mem_of_grammar? found, grammar?_target found, imported⟩
  · rintro ⟨g, member, rfl, imported⟩
    have found : pool.grammar? g.target = some g := grammar?_of_mem distinct member
    simpa [Follows, importsOf, found] using imported

theorem reached_of_mem_visit (found : ns ∈ pool.visit visited ordered stack) :
    ns ∈ ordered ∨ ∃ start ∈ stack, Relation.ReflTransGen pool.Follows start ns := by
  fun_induction visit pool visited ordered stack with
  | case1 => exact .inl found
  | case2 visited ordered first stack _ ih =>
    exact (ih found).imp_right fun ⟨start, waiting, reached⟩ =>
      ⟨start, List.mem_cons_of_mem _ waiting, reached⟩
  | case3 visited ordered first stack _ _ ih =>
    rcases ih found with old | ⟨start, waiting, reached⟩
    · rcases List.mem_append.1 old with old | new
      · exact .inl old
      · obtain rfl := List.mem_singleton.1 new
        exact .inr ⟨ns, List.mem_cons_self, .refl⟩
    · rcases List.mem_append.1 waiting with imported | waiting
      · exact .inr ⟨first, List.mem_cons_self, .head (List.mem_reverse.1 imported) reached⟩
      · exact .inr ⟨start, List.mem_cons_of_mem _ waiting, reached⟩
  | case4 visited ordered first stack _ _ ih =>
    rcases ih found with old | ⟨start, waiting, reached⟩
    · rcases List.mem_append.1 old with old | new
      · exact .inl old
      · obtain rfl := List.mem_singleton.1 new
        exact .inr ⟨ns, List.mem_cons_self, .refl⟩
    · exact .inr ⟨start, List.mem_cons_of_mem _ waiting, reached⟩

def ImportsWithin (pool : Pool) (ordered stack : List String) : Prop :=
  ∀ importer ∈ ordered, ∀ ns ∈ pool.importsOf importer, ns ∈ ordered ∨ ns ∈ stack

theorem waits_of_visited {first : String} (waits : ns ∈ ordered ∨ ns ∈ first :: stack) :
    ns ∈ ordered ++ [first] ∨ ns ∈ stack := by
  rcases waits with old | waiting
  · exact .inl (List.mem_append_left _ old)
  · exact (List.mem_cons.1 waiting).imp_left fun isFirst =>
      List.mem_append_right _ (List.mem_singleton.2 isFirst)

theorem visit_complete (same : ∀ ns, ns ∈ visited ↔ ns ∈ ordered)
    (within : pool.ImportsWithin ordered stack) :
    (∀ ns, ns ∈ ordered ∨ ns ∈ stack → ns ∈ pool.visit visited ordered stack) ∧
      pool.ImportsWithin (pool.visit visited ordered stack) [] := by
  fun_induction visit pool visited ordered stack with
  | case1 => exact ⟨fun ns waits => waits.resolve_right List.not_mem_nil, within⟩
  -- A namespace that has been visited is in the order already, so it need not wait.
  | case2 visited ordered first stack known ih =>
    have isKnown : first ∈ ordered := (same first).1 (by simpa using known)
    have drop (ns : String) (waits : ns ∈ ordered ∨ ns ∈ first :: stack) :
        ns ∈ ordered ∨ ns ∈ stack := by
      rcases waits with old | waiting
      · exact .inl old
      · rcases List.mem_cons.1 waiting with rfl | waiting
        · exact .inl isKnown
        · exact .inr waiting
    obtain ⟨finds, closes⟩ := ih same fun importer member ns imported =>
      drop ns (within importer member ns imported)
    exact ⟨fun ns waits => finds ns (drop ns waits), closes⟩
  | case3 visited ordered first stack _ _ ih =>
    have move (ns : String) (waits : ns ∈ ordered ∨ ns ∈ first :: stack) :
        ns ∈ ordered ++ [first] ∨ ns ∈ (pool.importsOf first).reverse ++ stack :=
      (waits_of_visited waits).imp_right (List.mem_append_right _)
    obtain ⟨finds, closes⟩ := ih (by simp [same, or_comm]) fun importer member ns imported => by
      rcases List.mem_append.1 member with old | new
      · exact move ns (within importer old ns imported)
      · obtain rfl := List.mem_singleton.1 new
        exact .inr (List.mem_append_left _ (List.mem_reverse.2 imported))
    exact ⟨fun ns waits => finds ns (move ns waits), closes⟩
  | case4 visited ordered first stack _ unknown ih =>
    obtain ⟨finds, closes⟩ := ih (by simp [same, or_comm]) fun importer member ns imported => by
      rcases List.mem_append.1 member with old | new
      · exact waits_of_visited (within importer old ns imported)
      · obtain rfl := List.mem_singleton.1 new
        simp [importsOf, Option.not_isSome_iff_eq_none.1 unknown] at imported
    exact ⟨fun ns waits => finds ns (waits_of_visited waits), closes⟩

theorem mem_transitiveNamespaces_iff :
    ns ∈ pool.transitiveNamespaces start ↔ Relation.ReflTransGen pool.Follows start ns := by
  obtain ⟨finds, closes⟩ := @visit_complete pool [] [] [start] (fun _ => Iff.rfl)
    fun _ member => nomatch member
  constructor
  · intro found
    rcases reached_of_mem_visit found with old | ⟨first, waiting, reached⟩
    · cases old
    · exact List.mem_singleton.1 waiting ▸ reached
  · intro reached
    induction reached with
    | refl => exact finds start (.inr (List.mem_singleton_self _))
    | tail _ imported ih => exact (closes _ ih _ imported).resolve_right List.not_mem_nil

theorem nodup_visit (same : ∀ ns, ns ∈ visited ↔ ns ∈ ordered) (distinct : ordered.Nodup) :
    (pool.visit visited ordered stack).Nodup := by
  have extended {visited ordered : List String} {first : String}
      (new : ¬visited.contains first = true) (same : ∀ ns, ns ∈ visited ↔ ns ∈ ordered)
      (distinct : ordered.Nodup) : (ordered ++ [first]).Nodup := by
    refine List.nodup_append.2 ⟨distinct, by simp, fun ns old other isFirst => ?_⟩
    obtain rfl := List.mem_singleton.1 isFirst
    rintro rfl
    exact new (by simpa [same] using old)
  fun_induction visit pool visited ordered stack with
  | case1 => exact distinct
  | case2 _ _ _ _ _ ih => exact ih same distinct
  | case3 _ _ _ _ new _ ih => exact ih (by simp [same, or_comm]) (extended new same distinct)
  | case4 _ _ _ _ new _ ih => exact ih (by simp [same, or_comm]) (extended new same distinct)

structure Walk where
  visited : List String := []
  ordered : List String := []
  stack : List String

namespace Walk

def turn (pool : Pool) : Walk → Walk
  | ⟨visited, ordered, []⟩ => ⟨visited, ordered, []⟩
  | ⟨visited, ordered, ns :: stack⟩ =>
    if visited.contains ns then ⟨visited, ordered, stack⟩
    else ⟨ns :: visited, ordered ++ [ns], (pool.importsOf ns).reverse ++ stack⟩

def found (pool : Pool) (w : Walk) : List String := pool.visit w.visited w.ordered w.stack

theorem found_turn (w : Walk) : (w.turn pool).found pool = w.found pool := by
  obtain ⟨visited, ordered, stack⟩ := w
  cases stack with
  | nil => rfl
  | cons ns stack =>
    simp only [found, turn]
    rw [visit]
    split
    · rfl
    · split
      · rfl
      · next unknown => simp [importsOf, Option.not_isSome_iff_eq_none.1 unknown]

def ahead (visited : List String) (grammars : List Grammar) : Nat :=
  ((grammars.filter fun g => !visited.contains g.target).map (·.imports.length)).sum

theorem ahead_cons (visited : List String) (g : Grammar) (grammars : List Grammar) :
    ahead visited (g :: grammars) =
      (if visited.contains g.target then 0 else g.imports.length) + ahead visited grammars := by
  by_cases known : visited.contains g.target = true
  · simp only [ahead, known, Bool.not_true, if_true, Nat.zero_add, List.filter_cons_of_neg,
      Bool.false_eq_true, not_false_eq_true]
  · simp only [ahead, known, Bool.not_false, Bool.false_eq_true, if_false, List.filter_cons_of_pos,
      List.map_cons, List.sum_cons]

theorem ahead_cons_le (visited : List String) (ns : String) (grammars : List Grammar) :
    ahead (ns :: visited) grammars ≤ ahead visited grammars := by
  induction grammars with
  | nil => exact Nat.le_refl 0
  | cons g grammars ih =>
    rw [ahead_cons, ahead_cons]
    refine Nat.add_le_add ?_ ih
    by_cases known : visited.contains g.target = true
    · simp only [List.contains_cons, known, Bool.or_true, Nat.le_refl]
    · rw [if_neg known]
      split
      · exact Nat.zero_le _
      · exact Nat.le_refl _

theorem imports_add_ahead_le {visited : List String} {ns : String}
    (new : ¬visited.contains ns = true) (grammars : List Grammar) :
    (importsOf ⟨grammars⟩ ns).length + ahead (ns :: visited) grammars ≤ ahead visited grammars := by
  induction grammars with
  | nil => exact Nat.le_refl 0
  | cons g grammars ih =>
    by_cases same : g.target = ns
    · have le := ahead_cons_le visited ns grammars
      have imports : importsOf ⟨g :: grammars⟩ ns = g.imports := by simp [importsOf, grammar?, same]
      simp only [imports, ahead_cons, same, if_neg new, List.contains_cons, beq_self_eq_true,
        Bool.true_or, if_true]
      omega
    · have imports : importsOf ⟨g :: grammars⟩ ns = importsOf ⟨grammars⟩ ns := by
        simp [importsOf, grammar?, same]
      have kept : (ns :: visited).contains g.target = visited.contains g.target := by simp [same]
      simp only [imports, ahead_cons, kept]
      omega

def turnsLeft (pool : Pool) (w : Walk) : Nat := w.stack.length + ahead w.visited pool.grammars

theorem turnsLeft_turn {w : Walk} (waiting : w.stack ≠ []) :
    (w.turn pool).turnsLeft pool < w.turnsLeft pool := by
  obtain ⟨visited, ordered, stack⟩ := w
  cases stack with
  | nil => exact absurd rfl waiting
  | cons ns stack =>
    simp only [turn]
    split
    · simp [turnsLeft]
    · next new =>
      have le : (pool.importsOf ns).length + ahead (ns :: visited) pool.grammars ≤
          ahead visited pool.grammars := imports_add_ahead_le new pool.grammars
      simp only [turnsLeft, List.length_append, List.length_reverse, List.length_cons]
      omega

theorem turn_of_ended {w : Walk} (ended : w.stack = []) : w.turn pool = w := by
  obtain ⟨visited, ordered, stack⟩ := w
  obtain rfl : stack = [] := ended
  rfl

theorem iterate_turn {w : Walk} {turns : Nat} (enough : w.turnsLeft pool ≤ turns) :
    ((turn pool)^[turns] w).stack = [] ∧ ((turn pool)^[turns] w).ordered = w.found pool := by
  induction turns generalizing w with
  | zero =>
    have ended : w.stack = [] := List.eq_nil_of_length_eq_zero (by rw [turnsLeft] at enough; omega)
    rw [Function.iterate_zero_apply, found, ended, visit]
    exact ⟨rfl, rfl⟩
  | succ turns ih =>
    by_cases ended : w.stack = []
    · rw [Function.iterate_fixed (turn_of_ended ended), found, ended, visit]
      exact ⟨rfl, rfl⟩
    · have lt : (w.turn pool).turnsLeft pool < w.turnsLeft pool := turnsLeft_turn ended
      rw [Function.iterate_succ_apply, ← found_turn w]
      exact ih (by omega)

end Walk

/-- The walk ends after at most one turn for its start and one for each import, and finds the
namespaces that are reached from the start, each once. -/
theorem walk_finds_reached_once (pool : Pool) (start : String) :
    let turns := 1 + (pool.grammars.map (·.imports.length)).sum
    let ended := (Walk.turn pool)^[turns] { stack := [start] }
    (ended.stack = [] ∧ ended.ordered = pool.transitiveNamespaces start) ∧
      (pool.transitiveNamespaces start).Nodup ∧
      ∀ ns, ns ∈ pool.transitiveNamespaces start ↔
        Relation.ReflTransGen
          (fun importer ns => ∃ g, pool.grammar? importer = some g ∧ ns ∈ g.imports) start ns := by
  intro turns ended
  have enough : Walk.turnsLeft pool { stack := [start] } ≤ turns := by
    have all : Walk.ahead [] pool.grammars = (pool.grammars.map (·.imports.length)).sum := by
      have none : pool.grammars.filter (fun g => !([] : List String).contains g.target) =
          pool.grammars := List.filter_eq_self.2 fun _ _ => rfl
      rw [Walk.ahead, none]
    simp [Walk.turnsLeft, turns, all]
  have follows : pool.Follows =
      fun importer ns => ∃ g, pool.grammar? importer = some g ∧ ns ∈ g.imports := by
    funext importer ns
    cases found : pool.grammar? importer <;> simp [Follows, importsOf, found]
  refine ⟨Walk.iterate_turn enough, nodup_visit (fun _ => Iff.rfl) .nil, fun ns => ?_⟩
  rw [← follows]
  exact mem_transitiveNamespaces_iff

theorem exists_mem_insert {P : Grammar → Prop} {g : Grammar}
    (merge : ∀ h : Grammar, h.target = g.target → (P (h.merge g) ↔ P h ∨ P g)) (pool : Pool) :
    (∃ h ∈ (pool.insert g).grammars, P h) ↔ (∃ h ∈ pool.grammars, P h) ∨ P g := by
  obtain ⟨grammars⟩ := pool
  simp only [insert]
  induction grammars with
  | nil => simp [insertInto]
  | cons h rest ih =>
    unfold insertInto
    split
    · next same =>
      simp only [List.mem_cons, exists_eq_or_imp, merge h (by simpa using same)]
      exact or_right_comm
    · simp only [List.mem_cons, exists_eq_or_imp, ih, or_assoc]

theorem exists_target_insert (g : Grammar) (pool : Pool) (ns : String) :
    (∃ h ∈ (pool.insert g).grammars, h.target = ns) ↔
      (∃ h ∈ pool.grammars, h.target = ns) ∨ g.target = ns :=
  exists_mem_insert (fun h same => by simp [Grammar.merge, same]) pool

theorem imports_insert (g : Grammar) (pool : Pool) (importer ns : String) :
    (pool.insert g).Imports importer ns ↔
      pool.Imports importer ns ∨ g.target = importer ∧ ns ∈ g.imports :=
  exists_mem_insert (fun h same => by simp [Grammar.merge, same, mem_addMissing, and_or_left]) pool

theorem exists_target_foldl_insert (grammars : List Grammar) (pool : Pool) (ns : String) :
    (∃ h ∈ (grammars.foldl Pool.insert pool).grammars, h.target = ns) ↔
      (∃ h ∈ pool.grammars, h.target = ns) ∨ ∃ g ∈ grammars, g.target = ns := by
  induction grammars generalizing pool with
  | nil => simp
  | cons g grammars ih =>
    simp only [List.foldl_cons, ih, exists_target_insert, List.mem_cons, exists_eq_or_imp, or_assoc]

theorem imports_foldl_insert (grammars : List Grammar) (pool : Pool) (importer ns : String) :
    (grammars.foldl Pool.insert pool).Imports importer ns ↔
      pool.Imports importer ns ∨ ∃ g ∈ grammars, g.target = importer ∧ ns ∈ g.imports := by
  induction grammars generalizing pool with
  | nil => simp
  | cons g grammars ih =>
    simp only [List.foldl_cons, ih, imports_insert, List.mem_cons, exists_eq_or_imp, or_assoc]

theorem nodup_targets_insert (distinct : (pool.grammars.map (·.target)).Nodup) (g : Grammar) :
    ((pool.insert g).grammars.map (·.target)).Nodup := by
  obtain ⟨grammars⟩ := pool
  simp only [insert] at distinct ⊢
  induction grammars with
  | nil => simp [insertInto]
  | cons h rest ih =>
    obtain ⟨new, distinctRest⟩ := List.nodup_cons.1 distinct
    unfold insertInto
    split
    · exact List.nodup_cons.2 ⟨new, distinctRest⟩
    · next different =>
      refine List.nodup_cons.2 ⟨fun among => ?_, ih distinctRest⟩
      obtain ⟨k, member, same⟩ := List.mem_map.1 among
      have exists_target := (exists_target_insert g ⟨rest⟩ h.target).1 ⟨k, member, same⟩
      rcases exists_target with ⟨old, isOld, sameOld⟩ | isNew
      · exact new (List.mem_map.2 ⟨old, isOld, sameOld⟩)
      · exact different (by simp [isNew])

theorem nodup_targets_foldl_insert (distinct : (pool.grammars.map (·.target)).Nodup)
    (grammars : List Grammar) :
    ((grammars.foldl Pool.insert pool).grammars.map (·.target)).Nodup := by
  induction grammars generalizing pool with
  | nil => exact distinct
  | cons g grammars ih => exact ih (nodup_targets_insert distinct g)

end XmlSchema.Component.Pool
