import Mathlib.Data.List.Induction
import Mathlib.Data.List.Nodup
import Mathlib.Data.List.Perm.Subperm
import Mathlib.Logic.Function.Basic
import XmlSchema.Batch.Run

/-!
# Tasks that share a permit

Every document of a batch has a task of its own. A task takes a permit, looks whether the batch has
been ended, settles the result of its document, ends the batch if the result asks for that, and gives
the permit back; the steps of different tasks mix in any order. With one permit the tasks do what
turns of the documents do, one after another (`Mirrors.of_follow`), so that nothing is judged any
more once a document has failed (`failFast_course`).
-/

namespace XmlSchema.Batch

variable {σ : Type} {b : Batch σ} {start : σ} {r : Run σ} {order before after : List Nat}
  {place other : Nat} {path : String} {result : FileResult}

/-! ## Turns -/

def outcome (b : Batch σ) (r : Run σ) (path : String) : FileResult × σ :=
  if r.stopped then ({ path, finding := .skipped .failFast }, r.state) else b.judge r.state path

theorem turn_eq (listed : b.documents[place]? = some path) (r : Run σ) :
    b.turn r place = {
      state := (b.outcome r path).2
      stopped := r.stopped || (b.failFast && (b.outcome r path).1.isFailure)
      finished := (place, (b.outcome r path).1) :: r.finished } := by
  rw [turn, listed]
  rfl

theorem turn_of_unlisted (unlisted : b.documents[place]? = none) (r : Run σ) :
    b.turn r place = r := by
  rw [turn, unlisted]

theorem run_append (b : Batch σ) (start : σ) (before after : List Nat) :
    b.run start (before ++ after) = after.foldl b.turn (b.run start before) :=
  List.foldl_append

theorem run_concat (b : Batch σ) (start : σ) (order : List Nat) (place : Nat) :
    b.run start (order ++ [place]) = b.turn (b.run start order) place :=
  run_append b start order [place]

/-- Turns are taken by documents of the batch, each at most once. -/
structure Fits (b : Batch σ) (order : List Nat) : Prop where
  distinct : order.Nodup
  listed : ∀ place ∈ order, place < b.documents.length

theorem Fits.nil : b.Fits [] := ⟨List.nodup_nil, fun _ member => nomatch member⟩

theorem Fits.exists_path (fits : b.Fits order) (member : place ∈ order) :
    ∃ path, b.documents[place]? = some path :=
  ⟨_, List.getElem?_eq_getElem (fits.listed place member)⟩

theorem Fits.of_append (fits : b.Fits (before ++ after)) : b.Fits before where
  distinct := (List.nodup_append.1 fits.distinct).1
  listed place member := fits.listed place (List.mem_append_left _ member)

theorem Fits.concat (fits : b.Fits order) (new : place ∉ order)
    (listed : b.documents[place]? = some path) : b.Fits (order ++ [place]) where
  distinct := by
    refine List.nodup_append.2 ⟨fits.distinct, by simp, fun earlier member _ isPlace => ?_⟩
    rintro rfl
    exact new (List.mem_singleton.1 isPlace ▸ member)
  listed earlier member := by
    rcases List.mem_append.1 member with old | isPlace
    · exact fits.listed earlier old
    · obtain rfl := List.mem_singleton.1 isPlace
      exact (List.getElem?_eq_some_iff.1 listed).1

theorem lookup_finished_isSome_iff (fits : b.Fits order) :
    ((b.run start order).finished.lookup place).isSome = true ↔ place ∈ order := by
  induction order using List.reverseRecOn with
  | nil => simp [run]
  | append_singleton order last ih =>
    obtain ⟨path, listed⟩ := fits.exists_path (List.mem_append_right _ (List.mem_singleton_self last))
    rw [run_concat, turn_eq listed, List.lookup_cons, List.mem_append, List.mem_singleton,
      ← ih fits.of_append]
    by_cases same : place = last
    · simp [same]
    · rw [beq_false_of_ne same]
      simp [same]

theorem lookup_foldl_turn (absent : place ∉ after) (r : Run σ) :
    (after.foldl b.turn r).finished.lookup place = r.finished.lookup place := by
  induction after generalizing r with
  | nil => rfl
  | cons first after ih =>
    rw [List.mem_cons, not_or] at absent
    rw [List.foldl_cons, ih absent.2]
    cases listed : b.documents[first]? with
    | none => rw [turn_of_unlisted listed]
    | some path => rw [turn_eq listed, List.lookup_cons, beq_false_of_ne absent.1]

theorem lookup_finished (fits : b.Fits (before ++ place :: after))
    (listed : b.documents[place]? = some path) :
    (b.run start (before ++ place :: after)).finished.lookup place =
      some (b.outcome (b.run start before) path).1 := by
  have absent : place ∉ after :=
    (List.nodup_cons.1 (List.nodup_append.1 fits.distinct).2.1).1
  rw [run_append, List.foldl_cons, lookup_foldl_turn absent, turn_eq listed, List.lookup_cons_self]

/-! ## The end of a batch -/

theorem stopped_turn (stopped : r.stopped = true) (place : Nat) : (b.turn r place).stopped = true := by
  cases listed : b.documents[place]? with
  | none => rwa [turn_of_unlisted listed]
  | some path => rw [turn_eq listed, stopped, Bool.true_or]

theorem stopped_foldl_turn (stopped : r.stopped = true) (after : List Nat) :
    (after.foldl b.turn r).stopped = true := by
  induction after generalizing r with
  | nil => exact stopped
  | cons place after ih => exact ih (stopped_turn stopped place)

def judgedFrom (b : Batch σ) (r : Run σ) : List Nat → List Nat
  | [] => []
  | place :: order => (if r.stopped then [] else [place]) ++ judgedFrom b (b.turn r place) order

theorem judgedFrom_append (r : Run σ) (before after : List Nat) :
    b.judgedFrom r (before ++ after) =
      b.judgedFrom r before ++ b.judgedFrom (before.foldl b.turn r) after := by
  induction before generalizing r with
  | nil => rfl
  | cons place before ih =>
    rw [List.cons_append, judgedFrom, ih, judgedFrom, List.foldl_cons, List.append_assoc]

theorem judgedFrom_of_stopped (stopped : r.stopped = true) (order : List Nat) :
    b.judgedFrom r order = [] := by
  induction order generalizing r with
  | nil => rfl
  | cons place order ih => rw [judgedFrom, if_pos stopped, ih (stopped_turn stopped place)]; rfl

theorem judgedFrom_subset (r : Run σ) (order : List Nat) : b.judgedFrom r order ⊆ order := by
  induction order generalizing r with
  | nil => exact List.Subset.refl _
  | cons place order ih =>
    rw [judgedFrom]
    refine List.append_subset.2 ⟨?_, List.Subset.trans (ih _) (List.subset_cons_self _ _)⟩
    split <;> simp

def judgedIn (b : Batch σ) (start : σ) (order : List Nat) : List Nat :=
  b.judgedFrom { state := start } order

theorem judgedIn_subset : b.judgedIn start order ⊆ order := judgedFrom_subset _ _

theorem judgedIn_append (b : Batch σ) (start : σ) (before after : List Nat) :
    b.judgedIn start (before ++ after) =
      b.judgedIn start before ++ b.judgedFrom (b.run start before) after :=
  judgedFrom_append _ before after

/-- What it means of the way in which documents are judged that each result is for the document that
was judged, and that a document is left out only because no schema set applies to it. -/
def IsFaithful (b : Batch σ) : Prop :=
  ∀ state path, (b.judge state path).1.path = path ∧
    ∀ reason, (b.judge state path).1.finding = .skipped reason →
      ∃ identity, reason = .noSchemaSet identity

def FileResult.IsHarmless (result : FileResult) : Prop :=
  result.isValid = true ∨ ∃ identity, result.finding = .skipped (.noSchemaSet identity)

theorem FileResult.isHarmless_iff :
    result.IsHarmless ↔ result.isFailure = false ∧
      ∀ reason, result.finding = .skipped reason → ∃ identity, reason = .noSchemaSet identity := by
  obtain ⟨_, finding, _⟩ := result
  cases finding <;> simp [IsHarmless, isFailure, isValid, verdict?]

section FailFast

variable (failFast : b.failFast = true)
include failFast

theorem outcome_of_going (listed : b.documents[place]? = some path)
    (going : (b.turn r place).stopped = false) :
    b.outcome r path = b.judge r.state path ∧ (b.outcome r path).1.isFailure = false := by
  rw [turn_eq listed, failFast, Bool.true_and, Bool.or_eq_false_iff] at going
  exact ⟨by rw [outcome, going.1]; rfl, going.2⟩

theorem stopped_of_failure (listed : b.documents[place]? = some path)
    (failed : (b.outcome r path).1.isFailure = true) :
    r.stopped = false ∧ (b.turn r place).stopped = true := by
  constructor
  · by_contra stopped
    rw [outcome, if_pos (by simpa using stopped)] at failed
    cases failed
  · rw [turn_eq listed, failFast, failed, Bool.true_and, Bool.or_true]

theorem finished_before (faithful : b.IsFaithful) (fits : b.Fits (before ++ place :: after))
    (listed : b.documents[place]? = some path)
    (failed : (b.outcome (b.run start before) path).1.isFailure = true) (member : other ∈ before) :
    ∃ result, (b.run start (before ++ place :: after)).finished.lookup other = some result ∧
      result.IsHarmless := by
  obtain ⟨first, second, rfl⟩ := List.append_of_mem member
  obtain ⟨otherPath, otherListed⟩ := fits.of_append.exists_path member
  have split : first ++ other :: second ++ place :: after =
      first ++ other :: (second ++ place :: after) := by simp
  -- Had that turn ended the batch, the document that fails would not have been judged.
  have going : (b.turn (b.run start first) other).stopped = false := by
    by_contra stopped
    have still := (stopped_of_failure failFast listed failed).1
    rw [run_append, List.foldl_cons, stopped_foldl_turn (by simpa using stopped)] at still
    cases still
  obtain ⟨judged, passed⟩ := outcome_of_going failFast otherListed going
  rw [split] at fits ⊢
  refine ⟨_, lookup_finished fits otherListed, ?_⟩
  rw [judged] at passed ⊢
  exact FileResult.isHarmless_iff.2 ⟨passed, (faithful (b.run start first).state otherPath).2⟩

theorem finished_after (fits : b.Fits (before ++ place :: after))
    (listed : b.documents[place]? = some path)
    (failed : (b.outcome (b.run start before) path).1.isFailure = true) (member : other ∈ after) :
    other ∉ b.judgedIn start (before ++ place :: after) ∧
      ∃ otherPath, (b.run start (before ++ place :: after)).finished.lookup other =
        some { path := otherPath, finding := .skipped .failFast } := by
  have ended : (b.run start (before ++ [place])).stopped = true := by
    rw [run_concat]
    exact (stopped_of_failure failFast listed failed).2
  rw [List.append_cons] at fits ⊢
  constructor
  · rw [judgedIn_append, judgedFrom_of_stopped ended, List.append_nil]
    exact fun among =>
      (List.nodup_append.1 fits.distinct).2.2 other (judgedIn_subset among) other member rfl
  · obtain ⟨first, second, rfl⟩ := List.append_of_mem member
    rw [← List.append_assoc] at fits ⊢
    obtain ⟨otherPath, otherListed⟩ :=
      fits.exists_path (List.mem_append_right _ List.mem_cons_self)
    have stillEnded : (b.run start (before ++ [place] ++ first)).stopped = true := by
      rw [run_append, stopped_foldl_turn ended]
    refine ⟨otherPath, ?_⟩
    rw [lookup_finished fits otherListed, outcome, if_pos stillEnded]

end FailFast

/-! ## Tasks -/

inductive Stage where
  | waiting
  | admitted
  | informed (stopped : Bool)
  | settled (result : FileResult)
  | noted (result : FileResult)
  | finished (result : FileResult)

def Stage.result? : Stage → Option FileResult
  | .finished result => some result
  | _ => none

structure Tasks (σ : Type) where
  state : σ
  stopped : Bool := false
  permits : Nat
  stage : Nat → Stage := fun _ => .waiting
  admitted : List Nat := []
  judged : List Nat := []

def Tasks.initial (concurrent : Nat) (state : σ) : Tasks σ := { state, permits := max concurrent 1 }

def Tasks.enter (t : Tasks σ) (place : Nat) (stage : Stage) : Tasks σ :=
  { t with stage := Function.update t.stage place stage }

/-- The next step of the task of a document, if it can go on. -/
def advance (b : Batch σ) (t : Tasks σ) (place : Nat) : Option (Tasks σ) :=
  match b.documents[place]? with
  | none => none
  | some path =>
    match t.stage place with
    | .waiting =>
      if t.permits = 0 then none
      else some ({ t with permits := t.permits - 1, admitted := t.admitted ++ [place] }.enter place
        .admitted)
    | .admitted => some (t.enter place (.informed t.stopped))
    | .informed true => some (t.enter place (.settled { path, finding := .skipped .failFast }))
    | .informed false =>
      let (result, state) := b.judge t.state path
      some ({ t with state, judged := t.judged ++ [place] }.enter place (.settled result))
    | .settled result =>
      some ({ t with stopped := t.stopped || (b.failFast && result.isFailure) }.enter place
        (.noted result))
    | .noted result => some ({ t with permits := t.permits + 1 }.enter place (.finished result))
    | .finished _ => none

def follow (b : Batch σ) (t : Tasks σ) (schedule : List Nat) : Option (Tasks σ) :=
  schedule.foldlM b.advance t

theorem follow_cons {t next : Tasks σ} (advanced : b.advance t place = some next)
    (schedule : List Nat) : b.follow t (place :: schedule) = b.follow next schedule := by
  rw [follow, List.foldlM_cons, advanced]
  rfl

theorem follow_append {schedule : List Nat} {t next : Tasks σ}
    (followed : b.follow t schedule = some next) (rest : List Nat) :
    b.follow t (schedule ++ rest) = b.follow next rest := by
  rw [follow, List.foldlM_append, ← follow, followed]
  rfl

def collected (b : Batch σ) (t : Tasks σ) : List FileResult :=
  b.inOrder.filterMap fun place => (t.stage place).result?

/-! ## Tasks that take turns -/

def Run.stage (r : Run σ) (place : Nat) : Stage :=
  match r.finished.lookup place with
  | some result => .finished result
  | none => .waiting

theorem Run.result?_stage (r : Run σ) (place : Nat) :
    (r.stage place).result? = r.finished.lookup place := by
  rw [Run.stage]
  cases r.finished.lookup place <;> rfl

section Turns

variable (b : Batch σ) (start : σ) (order : List Nat) (place : Nat) (path : String)

def between : Tasks σ where
  state := (b.run start order).state
  stopped := (b.run start order).stopped
  permits := 1
  stage := (b.run start order).stage
  admitted := order
  judged := b.judgedIn start order

inductive Within : Nat → Tasks σ → Prop
  | admitted : Within 1 ({ between b start order with
      permits := 0
      admitted := order ++ [place] }.enter place .admitted)
  | informed : Within 2 ({ between b start order with
      permits := 0
      admitted := order ++ [place] }.enter place (.informed (b.run start order).stopped))
  | settled : Within 3 ({ between b start order with
      state := (b.outcome (b.run start order) path).2
      permits := 0
      admitted := order ++ [place]
      judged := b.judgedIn start (order ++ [place]) }.enter place
        (.settled (b.outcome (b.run start order) path).1))
  | noted : Within 4 ({ between b start (order ++ [place]) with permits := 0 }.enter place
      (.noted (b.outcome (b.run start order) path).1))

end Turns

inductive Mirrors (b : Batch σ) (start : σ) : Nat → Tasks σ → Prop
  | between {order : List Nat} (fits : b.Fits order) :
    Mirrors b start (5 * order.length) (between b start order)
  | within {order : List Nat} {place : Nat} {path : String} {steps : Nat} {t : Tasks σ}
    (fits : b.Fits order) (new : place ∉ order) (listed : b.documents[place]? = some path)
    (inTurn : Within b start order place path steps t) :
    Mirrors b start (5 * order.length + steps) t

theorem stage_of_not_mem (fits : b.Fits order) (new : place ∉ order) :
    (b.run start order).stage place = .waiting := by
  have absent : (b.run start order).finished.lookup place = none :=
    Option.not_isSome_iff_eq_none.1 (mt (lookup_finished_isSome_iff fits).1 new)
  rw [Run.stage, absent]

theorem stage_of_mem (fits : b.Fits order) (member : place ∈ order) :
    ∃ result, (b.run start order).stage place = .finished result := by
  obtain ⟨result, found⟩ : ∃ result, (b.run start order).finished.lookup place = some result :=
    Option.isSome_iff_exists.1 ((lookup_finished_isSome_iff fits).2 member)
  exact ⟨result, by rw [Run.stage, found]⟩

theorem stage_concat (listed : b.documents[place]? = some path) :
    (b.run start (order ++ [place])).stage =
      Function.update (b.run start order).stage place
        (.finished (b.outcome (b.run start order) path).1) := by
  funext other
  rw [run_concat, turn_eq listed, Run.stage, List.lookup_cons]
  by_cases same : other = place
  · subst same
    simp
  · rw [beq_false_of_ne same, Function.update_of_ne same]
    rfl

theorem initial_eq {concurrent : Nat} (single : concurrent ≤ 1) :
    Tasks.initial concurrent start = between b start [] := by
  rw [Tasks.initial, Nat.max_eq_right single]
  rfl

theorem advance_between (fits : b.Fits order) (new : place ∉ order)
    (listed : b.documents[place]? = some path) :
    b.advance (between b start order) place =
      some ({ between b start order with permits := 0, admitted := order ++ [place] }.enter place
        .admitted) := by
  have waiting : (between b start order).stage place = .waiting := stage_of_not_mem fits new
  rw [advance, listed, waiting]
  rfl

theorem advance_between_of_mem (fits : b.Fits order) (member : place ∈ order) :
    b.advance (between b start order) place = none := by
  obtain ⟨path, listed⟩ := fits.exists_path member
  obtain ⟨result, finished⟩ : ∃ result, (between b start order).stage place = .finished result :=
    stage_of_mem fits member
  rw [advance, listed, finished]

theorem between_concat (listed : b.documents[place]? = some path) :
    between b start (order ++ [place]) =
      ({ state := (b.outcome (b.run start order) path).2
         stopped := (b.run start order).stopped ||
          (b.failFast && (b.outcome (b.run start order) path).1.isFailure)
         permits := 1
         stage := (b.run start order).stage
         admitted := order ++ [place]
         judged := b.judgedIn start (order ++ [place]) } : Tasks σ).enter place
        (.finished (b.outcome (b.run start order) path).1) := by
  rw [between, stage_concat listed, run_concat, turn_eq listed]
  rfl

theorem Within.advance {steps : Nat} {t : Tasks σ} (listed : b.documents[place]? = some path)
    (inTurn : Within b start order place path steps t) :
    ∃ after, b.advance t place = some after ∧
      (Within b start order place path (steps + 1) after ∨
        steps = 4 ∧ after = between b start (order ++ [place])) := by
  cases inTurn with
  | admitted =>
    refine ⟨_, ?_, .inl .informed⟩
    simp [Batch.advance, listed, Tasks.enter, between]
  | informed =>
    refine ⟨_, ?_, .inl .settled⟩
    cases stopped : (b.run start order).stopped <;>
      simp [Batch.advance, listed, Tasks.enter, between, outcome, stopped, judgedIn_append, judgedFrom]
  | settled =>
    refine ⟨_, ?_, .inl .noted⟩
    rw [between_concat listed]
    simp [Batch.advance, listed, Tasks.enter, between]
  | noted =>
    refine ⟨_, ?_, .inr ⟨rfl, rfl⟩⟩
    rw [between_concat listed]
    simp [Batch.advance, listed, Tasks.enter]

theorem Within.advance_other {steps : Nat} {t : Tasks σ} (fits : b.Fits order)
    (listed : b.documents[place]? = some path)
    (inTurn : Within b start order place path steps t) (apart : other ≠ place) :
    b.advance t other = none := by
  have noPermit : t.permits = 0 := by cases inTurn <;> rfl
  have sameStage : t.stage other = (b.run start order).stage other := by
    cases inTurn with
    | admitted => exact Function.update_of_ne apart _ _
    | informed => exact Function.update_of_ne apart _ _
    | settled => exact Function.update_of_ne apart _ _
    | noted =>
      rw [between_concat listed]
      exact (Function.update_of_ne apart _ _).trans (Function.update_of_ne apart _ _)
  rw [Batch.advance, sameStage, noPermit]
  cases otherListed : b.documents[other]? with
  | none => rfl
  | some otherPath =>
    by_cases member : other ∈ order
    · obtain ⟨result, finished⟩ : ∃ result, (b.run start order).stage other = .finished result :=
        stage_of_mem fits member
      rw [finished]
    · rw [stage_of_not_mem fits member]
      rfl

theorem Mirrors.advance {steps : Nat} {t next : Tasks σ} (mirrors : Mirrors b start steps t)
    (advanced : b.advance t place = some next) : Mirrors b start (steps + 1) next := by
  cases mirrors with
  | @between order fits =>
    by_cases member : place ∈ order
    · rw [advance_between_of_mem fits member] at advanced
      cases advanced
    · cases listed : b.documents[place]? with
      | none => simp [Batch.advance, listed] at advanced
      | some path =>
        rw [advance_between fits member listed] at advanced
        cases advanced
        exact .within fits member listed .admitted
  | @within order holder path steps t fits new listed inTurn =>
    -- The task that has the permit is the only one that can have gone on.
    obtain rfl : place = holder := by
      by_contra apart
      rw [inTurn.advance_other fits listed apart] at advanced
      cases advanced
    obtain ⟨after, followed, continued⟩ := inTurn.advance listed
    obtain rfl : after = next := Option.some.inj (followed.symm.trans advanced)
    rcases continued with further | ⟨rfl, ended⟩
    · exact .within fits new listed further
    · have turned : Mirrors b start _ _ := .between (fits.concat new listed)
      rw [List.length_append, List.length_singleton, ← ended] at turned
      exact turned

theorem Mirrors.of_follow {schedule : List Nat} {steps : Nat} {t ended : Tasks σ}
    (mirrors : Mirrors b start steps t) (followed : b.follow t schedule = some ended) :
    Mirrors b start (steps + schedule.length) ended := by
  induction schedule generalizing steps t with
  | nil =>
    obtain rfl : t = ended := Option.some.inj followed
    exact mirrors
  | cons place schedule ih =>
    obtain ⟨next, advanced, followed⟩ : ∃ next, b.advance t place = some next ∧
        b.follow next schedule = some ended := Option.bind_eq_some_iff.1 followed
    have further := ih (mirrors.advance advanced) followed
    rwa [Nat.add_assoc, Nat.add_comm 1, ← List.length_cons] at further

theorem Fits.length_le (fits : b.Fits order) : order.length ≤ b.documents.length := by
  have among : order ⊆ b.inOrder := fun place member => List.mem_range.2 (fits.listed place member)
  simpa [inOrder] using (fits.distinct.subperm among).length_le

theorem Mirrors.steps_le {steps : Nat} {t : Tasks σ} (mirrors : Mirrors b start steps t) :
    steps ≤ 5 * b.documents.length := by
  cases mirrors with
  | between fits => exact Nat.mul_le_mul_left 5 fits.length_le
  | @within order place path steps _ fits new listed inTurn =>
    have le := (fits.concat new listed).length_le
    have few : steps ≤ 4 := by cases inTurn <;> decide
    rw [List.length_append, List.length_singleton] at le
    omega

theorem Mirrors.ended {steps : Nat} {t : Tasks σ} (mirrors : Mirrors b start steps t)
    (stuck : ∀ place, b.advance t place = none) :
    ∃ order, b.Fits order ∧ order.Perm b.inOrder ∧ t = b.between start order := by
  cases mirrors with
  | @between order fits =>
    refine ⟨order, fits, ?_, rfl⟩
    refine (List.perm_ext_iff_of_nodup fits.distinct List.nodup_range).2 fun place => ?_
    refine ⟨fun member => List.mem_range.2 (fits.listed place member), fun among => ?_⟩
    by_contra new
    have admitted : b.advance (b.between start order) place = some _ :=
      advance_between fits new (List.getElem?_eq_getElem (List.mem_range.1 among))
    rw [stuck place] at admitted
    cases admitted
  | @within order place path steps _ fits new listed inTurn =>
    obtain ⟨after, advanced, _⟩ := inTurn.advance listed
    rw [stuck place] at advanced
    cases advanced

theorem Within.exists_schedule {steps : Nat} {t : Tasks σ}
    (listed : b.documents[place]? = some path)
    (inTurn : Within b start order place path steps t) :
    ∃ schedule, b.follow t schedule = some (between b start (order ++ [place])) := by
  obtain ⟨next, advanced, further | ⟨_, rfl⟩⟩ := inTurn.advance listed
  · have few : steps + 1 ≤ 4 := by cases further <;> decide
    obtain ⟨schedule, followed⟩ := further.exists_schedule listed
    exact ⟨place :: schedule, (follow_cons advanced schedule).trans followed⟩
  · exact ⟨[place], follow_cons advanced []⟩
termination_by 5 - steps

theorem exists_schedule (start : σ) (fits : b.Fits order) :
    ∃ schedule, b.follow (between b start []) schedule = some (between b start order) := by
  induction order using List.reverseRecOn with
  | nil => exact ⟨[], rfl⟩
  | append_singleton order place ih =>
    obtain ⟨schedule, followed⟩ := ih fits.of_append
    obtain ⟨path, listed⟩ :=
      fits.exists_path (List.mem_append_right _ (List.mem_singleton_self place))
    have new : place ∉ order := fun member =>
      (List.nodup_append.1 fits.distinct).2.2 place member place (List.mem_singleton_self place) rfl
    have inTurn : Within b start order place path 1 _ := .admitted
    obtain ⟨rest, finished⟩ := inTurn.exists_schedule listed
    refine ⟨schedule ++ place :: rest, ?_⟩
    rw [follow_append followed, follow_cons (advance_between fits.of_append new listed), finished]

/-! ## The course of a batch -/

theorem collected_between (b : Batch σ) (start : σ) (order : List Nat) :
    b.collected (b.between start order) = b.results (b.run start order) := by
  simp only [collected, results, between, Run.result?_stage]

theorem map_some_filterMap {α β : Type} {f : α → Option β} {items : List α}
    (all : ∀ item ∈ items, (f item).isSome = true) : (items.filterMap f).map some = items.map f := by
  induction items with
  | nil => rfl
  | cons item items ih =>
    obtain ⟨given, rest⟩ := List.forall_mem_cons.1 all
    obtain ⟨value, gives⟩ := Option.isSome_iff_exists.1 given
    rw [List.filterMap_cons_some gives, List.map_cons, List.map_cons, gives, ih rest]

theorem map_some_results (fits : b.Fits order) (all : order.Perm b.inOrder) :
    (b.results (b.run start order)).map some =
      b.inOrder.map fun place => (b.run start order).finished.lookup place :=
  map_some_filterMap fun _ among => (lookup_finished_isSome_iff fits).2 (all.symm.subset among)

theorem length_results (fits : b.Fits order) (all : order.Perm b.inOrder) :
    (b.results (b.run start order)).length = b.documents.length := by
  have entries : (b.results (b.run start order)).map some = _ := map_some_results fits all
  simpa [inOrder] using congrArg List.length entries

theorem getElem?_results (fits : b.Fits order) (all : order.Perm b.inOrder) (member : place ∈ order) :
    (b.results (b.run start order))[place]? = (b.run start order).finished.lookup place := by
  have lt : place < b.inOrder.length := by simpa [inOrder] using fits.listed place member
  have entries : (b.results (b.run start order)).map some = _ := map_some_results fits all
  have entry := congrArg (·[place]?) entries
  have isPlace : b.inOrder[place] = place := List.getElem_range _
  simp only [List.getElem?_map, List.getElem?_eq_getElem lt, isPlace, Option.map_some] at entry
  cases found : (b.results (b.run start order))[place]? with
  | none => simp [found] at entry
  | some result => simpa [found] using entry

theorem mem_order_of_getElem? (fits : b.Fits order) (all : order.Perm b.inOrder)
    (found : (b.results (b.run start order))[place]? = some result) : place ∈ order := by
  obtain ⟨lt, _⟩ := List.getElem?_eq_some_iff.1 found
  rw [length_results fits all] at lt
  exact all.symm.subset (List.mem_range.2 lt)

theorem outcome_of_getElem? (fits : b.Fits (before ++ place :: after))
    (all : (before ++ place :: after).Perm b.inOrder)
    (found : (b.results (b.run start (before ++ place :: after)))[place]? = some result) :
    ∃ path, b.documents[place]? = some path ∧
      (b.outcome (b.run start before) path).1 = result := by
  have member : place ∈ before ++ place :: after :=
    List.mem_append_right _ List.mem_cons_self
  obtain ⟨path, listed⟩ := fits.exists_path member
  rw [getElem?_results fits all member, lookup_finished fits listed] at found
  exact ⟨path, listed, Option.some.inj found⟩

theorem outcome_path (faithful : b.IsFaithful) (r : Run σ) (path : String) :
    (b.outcome r path).1.path = path := by
  rw [outcome]
  split
  · rfl
  · exact (faithful r.state path).1

theorem map_path_results (faithful : b.IsFaithful) (fits : b.Fits order)
    (all : order.Perm b.inOrder) :
    (b.results (b.run start order)).map (·.path) = b.documents := by
  refine List.ext_getElem? fun place => ?_
  by_cases member : place ∈ order
  · obtain ⟨path, listed⟩ := fits.exists_path member
    obtain ⟨before, after, rfl⟩ := List.append_of_mem member
    rw [List.getElem?_map, getElem?_results fits all member, lookup_finished fits listed, listed,
      Option.map_some, outcome_path faithful]
  · have beyond : b.documents.length ≤ place := by
      by_contra lt
      exact member (all.symm.subset (List.mem_range.2 (Nat.lt_of_not_le lt)))
    rw [List.getElem?_eq_none beyond, List.getElem?_eq_none]
    rwa [List.length_map, length_results fits all]

theorem isFaithful_judgeFile {b : Batch Validation.Validator} {files : Files.Tree}
    (judges : b.judge = judgeFile files) : b.IsFaithful := by
  intro v path
  rw [judges, judgeFile]
  cases files.read path with
  | error fault => exact ⟨rfl, fun _ skipped => nomatch skipped⟩
  | ok content =>
    dsimp only
    split
    · exact ⟨rfl, fun _ skipped => ⟨_, (Finding.skipped.inj skipped).symm⟩⟩
    · exact ⟨rfl, fun _ skipped => nomatch skipped⟩
    · exact ⟨rfl, fun _ skipped => nomatch skipped⟩

/-- The tasks of a batch have all finished, and nothing was judged any more once a document had
failed. -/
structure Course (b : Batch σ) (start : σ) (t : Tasks σ) : Prop where
  admitted_perm : t.admitted.Perm b.inOrder
  collected_eq : b.collected t = b.results (b.run start t.admitted)
  map_path : (b.collected t).map (·.path) = b.documents
  failure_unique : ((b.collected t).filter (·.isFailure)).length ≤ 1
  before_failure : ∀ before place after result, t.admitted = before ++ place :: after →
    (b.collected t)[place]? = some result → result.isFailure = true →
    ∀ other ∈ before, ∃ earlier, (b.collected t)[other]? = some earlier ∧ earlier.IsHarmless
  after_failure : ∀ before place after result, t.admitted = before ++ place :: after →
    (b.collected t)[place]? = some result → result.isFailure = true →
    ∀ other ∈ after, other ∉ t.judged ∧
      ∃ later, (b.collected t)[other]? = some later ∧ later.finding = .skipped .failFast

theorem length_filter_le_one {α : Type} {isWanted : α → Bool} {items : List α}
    (unique : ∀ {i j : Nat} {item other : α}, items[i]? = some item → items[j]? = some other →
      isWanted item = true → isWanted other = true → i = j) :
    (items.filter isWanted).length ≤ 1 := by
  have apart : items.Pairwise fun item other => ¬(isWanted item = true ∧ isWanted other = true) :=
    List.pairwise_iff_getElem.2 fun i j hi hj lt both => Nat.ne_of_lt lt
      (unique (List.getElem?_eq_getElem hi) (List.getElem?_eq_getElem hj) both.1 both.2)
  have filtered := apart.filter isWanted
  match wanted : items.filter isWanted with
  | [] => exact Nat.zero_le 1
  | [_] => exact Nat.le_refl 1
  | first :: second :: rest =>
    have all : ∀ item ∈ first :: second :: rest, isWanted item = true := fun item member =>
      List.of_mem_filter (wanted ▸ member)
    rw [wanted] at filtered
    have notBoth := List.rel_of_pairwise_cons filtered List.mem_cons_self
    exact absurd ⟨all first (by simp), all second (by simp)⟩ notBoth

/-- When the documents have had their turns in some order, all is as the first failure demands. -/
theorem course_between (failFast : b.failFast = true) (faithful : b.IsFaithful)
    (fits : b.Fits order) (all : order.Perm b.inOrder) : b.Course start (b.between start order) := by
  have earlier : ∀ {before place after result}, order = before ++ place :: after →
      (b.results (b.run start order))[place]? = some result → result.isFailure = true →
      ∀ other ∈ before, ∃ earlier, (b.results (b.run start order))[other]? = some earlier ∧
        earlier.IsHarmless := by
    rintro before place after result rfl found failed other member
    obtain ⟨path, listed, rfl⟩ := outcome_of_getElem? fits all found
    rw [getElem?_results fits all (List.mem_append_left _ member)]
    exact finished_before failFast faithful fits listed failed member
  have later : ∀ {before place after result}, order = before ++ place :: after →
      (b.results (b.run start order))[place]? = some result → result.isFailure = true →
      ∀ other ∈ after, other ∉ b.judgedIn start order ∧
        ∃ later, (b.results (b.run start order))[other]? = some later ∧
          later.finding = .skipped .failFast := by
    rintro before place after result rfl found failed other member
    obtain ⟨path, listed, rfl⟩ := outcome_of_getElem? fits all found
    obtain ⟨unjudged, otherPath, finished⟩ := finished_after failFast fits listed failed member
    rw [getElem?_results fits all (List.mem_append_right _ (List.mem_cons_of_mem _ member))]
    exact ⟨unjudged, _, finished, rfl⟩
  refine {
    admitted_perm := all
    collected_eq := collected_between b start order
    map_path := ?_
    failure_unique := ?_
    before_failure := ?_
    after_failure := ?_ }
  all_goals rw [collected_between]
  · exact map_path_results faithful fits all
  · refine length_filter_le_one fun {place other result second} found otherFound failed alsoFailed => ?_
    -- Of two failures one would come before the other, where all is harmless, or after it, where
    -- all is skipped.
    obtain ⟨before, after, split⟩ := List.append_of_mem (mem_order_of_getElem? fits all found)
    have member := split ▸ mem_order_of_getElem? fits all otherFound
    rcases List.mem_append.1 member with before | ⟨_⟩ | ⟨_, after⟩
    · obtain ⟨_, same, harmless⟩ := earlier split found failed other before
      obtain rfl := Option.some.inj (otherFound.symm.trans same)
      rw [(FileResult.isHarmless_iff.1 harmless).1] at alsoFailed
      cases alsoFailed
    · rfl
    · obtain ⟨_, _, same, skipped⟩ := later split found failed other after
      obtain rfl := Option.some.inj (otherFound.symm.trans same)
      rw [FileResult.isFailure, skipped] at alsoFailed
      cases alsoFailed
  · exact fun _ _ _ _ => earlier
  · exact fun _ _ _ _ => later

/-- However the steps of the tasks mix, if there is one permit, the batch comes to its end, and then
its results are in the order of the documents, and its first failure is the only one. -/
theorem failFast_course {concurrent : Nat} {schedule : List Nat} {t : Tasks σ}
    (failFast : b.failFast = true) (faithful : b.IsFaithful) (single : concurrent ≤ 1)
    (followed : b.follow (.initial concurrent start) schedule = some t) :
    schedule.length ≤ 5 * b.documents.length ∧
      ((∃ place next, b.advance t place = some next) ∨ b.Course start t) := by
  rw [initial_eq single] at followed
  have begun : Mirrors b start (5 * 0) (between b start []) := .between Fits.nil
  have mirrors := begun.of_follow followed
  rw [Nat.mul_zero, Nat.zero_add] at mirrors
  refine ⟨mirrors.steps_le, ?_⟩
  by_cases further : ∃ place next, b.advance t place = some next
  · exact .inl further
  · have stuck : ∀ place, b.advance t place = none := by
      intro place
      cases advanced : b.advance t place with
      | none => rfl
      | some next => exact absurd ⟨place, next, advanced⟩ further
    obtain ⟨order, fits, all, rfl⟩ := mirrors.ended stuck
    exact .inr (course_between failFast faithful fits all)

def threeNotes : Batch Nat where
  documents := ["first.xml", "second.xml", "third.xml"]
  judge count path :=
    let verdict := if path = "third.xml" then .notValid else .valid
    ({ path, finding := .judged "notes" verdict [] }, count + 1)
  failFast := true

theorem failFast_course_threeNotes :
    ∃ t, threeNotes.follow (.initial 1 0) ([1, 2, 0].flatMap (List.replicate 5)) = some t ∧
      threeNotes.Course 0 t ∧ t.admitted = [1, 2, 0] ∧ t.judged = [1, 2] := by
  have faithful : threeNotes.IsFaithful := fun _ _ => ⟨rfl, fun _ skipped => nomatch skipped⟩
  have followed : (threeNotes.follow (.initial 1 0) ([1, 2, 0].flatMap (List.replicate 5))).map
      (fun t => (t.admitted, t.judged)) = some ([1, 2, 0], [1, 2]) := by decide +kernel
  obtain ⟨t, followed, history⟩ := Option.map_eq_some_iff.1 followed
  obtain ⟨admitted, judged⟩ := Prod.mk.inj history
  obtain ⟨_, further | course⟩ := failFast_course rfl faithful (Nat.le_refl 1) followed
  · obtain ⟨place, next, advanced⟩ := further
    have longer : threeNotes.follow (.initial 1 0)
        ([1, 2, 0].flatMap (List.replicate 5) ++ [place]) = some next :=
      (follow_append followed [place]).trans (follow_cons advanced [])
    have le : 15 + 1 ≤ 5 * 3 := (failFast_course rfl faithful (Nat.le_refl 1) longer).1
    exact absurd le (by decide)
  · exact ⟨t, followed, course, admitted, judged⟩

end XmlSchema.Batch
