import Mathlib.Algebra.GroupWithZero.Nat
import Mathlib.Data.List.Induction
import Mathlib.Data.List.Sort
import XmlSchema.Batch.Results

namespace XmlSchema.Batch

open Validation (Verdict)

variable {files other : List FileResult} {c : Counts} {r : FileResult}

inductive Kind where
  | judged (verdict : Verdict)
  | failed
  | skipped
  deriving DecidableEq, Repr

def FileResult.kind (r : FileResult) : Kind :=
  match r.finding with
  | .judged _ verdict _ => .judged verdict
  | .failed _ => .failed
  | .skipped _ => .skipped

def countOf (kind : Kind) (files : List FileResult) : Nat := (files.map (·.kind)).count kind

theorem countOf_concat (kind : Kind) (files : List FileResult) (r : FileResult) :
    countOf kind (files ++ [r]) = countOf kind files + if r.kind = kind then 1 else 0 := by
  rw [countOf, List.map_append, List.count_append]
  by_cases same : r.kind = kind <;> simp [countOf, same]

theorem countOf_pos_iff {kind : Kind} : 0 < countOf kind files ↔ ∃ r ∈ files, r.kind = kind := by
  rw [countOf, List.count_pos_iff, List.mem_map]

theorem mem_insertName_iff {name added : String} {names : List String} :
    name ∈ insertName added names ↔ name = added ∨ name ∈ names := by
  induction names with
  | nil => simp [insertName]
  | cons first rest ih =>
    rw [insertName]
    split
    · simp
    · split
      · next same => simp [same]
      · simp only [List.mem_cons, ih, or_left_comm]

theorem sorted_insertName {added : String} {names : List String}
    (sorted : names.Pairwise (· < ·)) : (insertName added names).Pairwise (· < ·) := by
  induction names with
  | nil => exact List.pairwise_singleton _ _
  | cons first rest ih =>
    obtain ⟨least, sortedRest⟩ := List.pairwise_cons.1 sorted
    rw [insertName]
    split
    · next before =>
      refine List.pairwise_cons.2 ⟨fun name member => ?_, sorted⟩
      rcases List.mem_cons.1 member with rfl | later
      · exact before
      · exact String.lt_trans before (least name later)
    · next notBefore =>
      split
      · exact sorted
      · next other =>
        refine List.pairwise_cons.2 ⟨fun name member => ?_, ih sortedRest⟩
        rcases mem_insertName_iff.1 member with rfl | later
        · by_contra notAfter
          exact other (String.le_antisymm (String.not_lt.1 notAfter) (String.not_lt.1 notBefore))
        · exact least name later

structure Counted (files : List FileResult) (c : Counts) : Prop where
  total_eq : c.total = files.length
  valid_eq : c.valid = countOf (.judged .valid) files
  parserError_eq : c.parserError = countOf (.judged .parserError) files
  illegalRoot_eq : c.illegalRoot = countOf (.judged .illegalRoot) files
  notValid_eq : c.notValid = countOf (.judged .notValid) files
  invalid_eq : c.invalid = c.parserError + c.illegalRoot + c.notValid
  failed_eq : c.failed = countOf .failed files
  skipped_eq : c.skipped = countOf .skipped files
  duration_eq : c.duration.nanoseconds = (files.map (·.duration.nanoseconds)).sum
  sorted : c.schemaSets.Pairwise (· < ·)
  mem_schemaSets_iff : ∀ name, name ∈ c.schemaSets ↔ ∃ r ∈ files, r.schemaSet? = some name

theorem counted_nil : Counted [] {} := by
  constructor <;> simp [countOf, Duration.zero]

theorem addFile_eq (c : Counts) (r : FileResult) :
    let one (kind : Kind) : Nat := if r.kind = kind then 1 else 0
    c.addFile r = {
      total := c.total + 1
      valid := c.valid + one (.judged .valid)
      invalid := c.invalid + (one (.judged .parserError) + one (.judged .illegalRoot) +
        one (.judged .notValid))
      parserError := c.parserError + one (.judged .parserError)
      illegalRoot := c.illegalRoot + one (.judged .illegalRoot)
      notValid := c.notValid + one (.judged .notValid)
      failed := c.failed + one .failed
      skipped := c.skipped + one .skipped
      duration := c.duration.add r.duration
      schemaSets := r.schemaSet?.elim c.schemaSets (insertName · c.schemaSets) } := by
  obtain ⟨path, finding, duration⟩ := r
  cases finding with
  | judged schemaSet verdict reasons => cases verdict <;> rfl
  | failed failure => rfl
  | skipped reason => rfl

theorem Counted.addFile (h : Counted files c) (r : FileResult) :
    Counted (files ++ [r]) (c.addFile r) := by
  rw [addFile_eq]
  exact {
    total_eq := by rw [h.total_eq, List.length_append, List.length_singleton]
    valid_eq := by rw [h.valid_eq, countOf_concat]
    parserError_eq := by rw [h.parserError_eq, countOf_concat]
    illegalRoot_eq := by rw [h.illegalRoot_eq, countOf_concat]
    notValid_eq := by rw [h.notValid_eq, countOf_concat]
    invalid_eq := by
      have := h.invalid_eq
      dsimp only
      omega
    failed_eq := by rw [h.failed_eq, countOf_concat]
    skipped_eq := by rw [h.skipped_eq, countOf_concat]
    duration_eq := by simp [Duration.add, h.duration_eq]
    sorted := by
      cases r.schemaSet? with
      | none => exact h.sorted
      | some schemaSet => exact sorted_insertName h.sorted
    mem_schemaSets_iff name := by
      simp only [List.mem_append, List.mem_singleton, or_and_right, exists_or, exists_eq_left,
        ← h.mem_schemaSets_iff]
      cases r.schemaSet? with
      | none => simp
      | some schemaSet => simp [mem_insertName_iff, eq_comm, or_comm] }

theorem Counted.foldl (h : Counted files c) (more : List FileResult) :
    Counted (files ++ more) (more.foldl Counts.addFile c) := by
  induction more generalizing files c with
  | nil => simpa using h
  | cons r more ih => simpa using ih (h.addFile r)

theorem counted_ofFiles (files : List FileResult) : Counted files (.ofFiles files) :=
  counted_nil.foldl files

theorem length_eq_add (files : List FileResult) :
    files.length = countOf (.judged .valid) files + (countOf (.judged .parserError) files +
      countOf (.judged .illegalRoot) files + countOf (.judged .notValid) files) +
      countOf .failed files + countOf .skipped files := by
  induction files using List.reverseRecOn with
  | nil => rfl
  | append_singleton files r ih =>
    simp only [countOf_concat, List.length_append, List.length_singleton, ih]
    cases r.kind with
    | judged verdict => cases verdict <;> simp <;> omega
    | failed => simp; omega
    | skipped => simp; omega

theorem Counted.eq_of_perm {d : Counts} (h : Counted files c) (k : Counted other d)
    (perm : files.Perm other) : c = d := by
  have sameCount (kind : Kind) : countOf kind files = countOf kind other :=
    (perm.map _).count_eq kind
  have sameSets : c.schemaSets = d.schemaSets :=
    h.sorted.eq_of_mem_iff k.sorted fun name => by
      simp only [h.mem_schemaSets_iff, k.mem_schemaSets_iff, perm.mem_iff]
  have sameDuration : c.duration.nanoseconds = d.duration.nanoseconds := by
    rw [h.duration_eq, k.duration_eq, (perm.map _).sum_nat]
  have total := h.total_eq.trans (perm.length_eq.trans k.total_eq.symm)
  have valid := h.valid_eq.trans ((sameCount _).trans k.valid_eq.symm)
  have parserError := h.parserError_eq.trans ((sameCount _).trans k.parserError_eq.symm)
  have illegalRoot := h.illegalRoot_eq.trans ((sameCount _).trans k.illegalRoot_eq.symm)
  have notValid := h.notValid_eq.trans ((sameCount _).trans k.notValid_eq.symm)
  have failed := h.failed_eq.trans ((sameCount _).trans k.failed_eq.symm)
  have skipped := h.skipped_eq.trans ((sameCount _).trans k.skipped_eq.symm)
  have invalid : c.invalid = d.invalid := by
    rw [h.invalid_eq, k.invalid_eq, parserError, illegalRoot, notValid]
  obtain ⟨_, _, _, _, _, _, _, _, ⟨_⟩, _⟩ := c
  obtain ⟨_, _, _, _, _, _, _, _, ⟨_⟩, _⟩ := d
  simp_all

theorem le_foldl_max_iff {k start : Nat} {codes : List Nat} :
    k ≤ codes.foldl max start ↔ k ≤ start ∨ ∃ code ∈ codes, k ≤ code := by
  induction codes generalizing start with
  | nil => simp
  | cons code codes ih =>
    have first : k ≤ max start code ↔ k ≤ start ∨ k ≤ code := by omega
    simp only [List.foldl_cons, ih, List.mem_cons, exists_eq_or_imp, first, or_assoc]

theorem le_exitCode_iff {results : Results} {k : Nat} (pos : 0 < k) :
    k ≤ results.exitCode ↔ ∃ r ∈ results.files, k ≤ r.exitCode := by
  have notStart : ¬k ≤ 0 := by omega
  simp only [Results.exitCode, le_foldl_max_iff, notStart, false_or, List.mem_map,
    exists_exists_and_eq_and]

def Kind.exitCode : Kind → Nat
  | .judged verdict => verdict.exitCode
  | .failed => Verdict.parserError.exitCode
  | .skipped => 0

theorem exitCode_kind (r : FileResult) : r.kind.exitCode = r.exitCode := by
  obtain ⟨path, finding, duration⟩ := r
  cases finding <;> rfl

theorem Kind.exitCode_le (kind : Kind) : kind.exitCode ≤ 3 := by
  rcases kind with verdict | _ | _
  · cases verdict <;> decide
  · decide
  · decide

theorem Kind.le_exitCode_iff (kind : Kind) :
    (3 ≤ kind.exitCode ↔ kind = .failed ∨ kind = .judged .parserError) ∧
      (2 ≤ kind.exitCode ↔ 3 ≤ kind.exitCode ∨ kind = .judged .illegalRoot) ∧
      (1 ≤ kind.exitCode ↔ 2 ≤ kind.exitCode ∨ kind = .judged .notValid) := by
  rcases kind with verdict | _ | _
  · cases verdict <;> decide
  · decide
  · decide

section ExitCode

variable (results : Results)

theorem exitCode_le : results.exitCode ≤ 3 := by
  by_contra beyond
  have far : 4 ≤ results.exitCode := by omega
  obtain ⟨r, _, worse⟩ := (le_exitCode_iff (by omega)).1 far
  rw [← exitCode_kind] at worse
  exact absurd (worse.trans r.kind.exitCode_le) (by omega)

theorem three_le_exitCode_iff : 3 ≤ results.exitCode ↔
    ∃ r ∈ results.files, r.kind = .failed ∨ r.kind = .judged .parserError := by
  simp only [le_exitCode_iff, Nat.zero_lt_succ, ← exitCode_kind, (Kind.le_exitCode_iff _).1]

theorem two_le_exitCode_iff : 2 ≤ results.exitCode ↔
    3 ≤ results.exitCode ∨ ∃ r ∈ results.files, r.kind = .judged .illegalRoot := by
  simp only [le_exitCode_iff, Nat.zero_lt_succ, ← exitCode_kind, (Kind.le_exitCode_iff _).2.1,
    and_or_left, exists_or]

theorem one_le_exitCode_iff : 1 ≤ results.exitCode ↔
    2 ≤ results.exitCode ∨ ∃ r ∈ results.files, r.kind = .judged .notValid := by
  simp only [le_exitCode_iff, Nat.zero_lt_succ, ← exitCode_kind, (Kind.le_exitCode_iff _).2.2,
    and_or_left, exists_or]

theorem exitCode_eq : results.exitCode =
    if ∃ r ∈ results.files, r.kind = .failed ∨ r.kind = .judged .parserError then 3
    else if ∃ r ∈ results.files, r.kind = .judged .illegalRoot then 2
    else if ∃ r ∈ results.files, r.kind = .judged .notValid then 1
    else 0 := by
  have most := exitCode_le results
  have three := three_le_exitCode_iff results
  have two := two_le_exitCode_iff results
  have one := one_le_exitCode_iff results
  split
  · next worst => exact Nat.le_antisymm most (three.2 worst)
  · next notWorst =>
    rw [iff_false_right notWorst] at three
    split
    · next worse => exact Nat.le_antisymm (by omega) (two.2 (.inr worse))
    · next notWorse =>
      simp only [three, notWorse, or_self, iff_false] at two
      split
      · next bad => exact Nat.le_antisymm (by omega) (one.2 (.inr bad))
      · next notBad =>
        simp only [two, notBad, or_self, iff_false] at one
        omega

theorem hasErrors_iff (h : Counted results.files c) :
    c.hasErrors = true ↔ results.exitCode ≠ 0 := by
  have kinds : c.hasErrors = true ↔ 0 < c.failed ∨ 0 < c.parserError ∨ 0 < c.illegalRoot ∨
      0 < c.notValid := by
    have := h.invalid_eq
    simp only [Counts.hasErrors, Bool.or_eq_true, decide_eq_true_eq]
    omega
  simp only [kinds, h.failed_eq, h.parserError_eq, h.illegalRoot_eq, h.notValid_eq,
    countOf_pos_iff, ← Nat.one_le_iff_ne_zero, one_le_exitCode_iff, two_le_exitCode_iff,
    three_le_exitCode_iff, and_or_left, exists_or, or_assoc]

end ExitCode

/-- Every file of a batch is counted once, by its kind, and the exit code tells the worst kind. The
order of the files is of no account. -/
theorem results_partitioned (files : List FileResult) :
    let results := Results.ofFiles files
    let c := results.counts
    Counted files c ∧
      (c.total = c.valid + c.invalid + c.failed + c.skipped ∧
        c.invalid = c.parserError + c.illegalRoot + c.notValid) ∧
      (c.hasErrors = true ↔ results.exitCode ≠ 0) ∧
      (results.exitCode =
        if ∃ r ∈ files, r.kind = .failed ∨ r.kind = .judged .parserError then 3
        else if ∃ r ∈ files, r.kind = .judged .illegalRoot then 2
        else if ∃ r ∈ files, r.kind = .judged .notValid then 1
        else 0) ∧
      ∀ other, files.Perm other →
        (Results.ofFiles other).counts = c ∧ (Results.ofFiles other).exitCode = results.exitCode := by
  intro results c
  have counted : Counted files c := counted_ofFiles files
  refine ⟨counted, ⟨?_, counted.invalid_eq⟩, hasErrors_iff results counted, exitCode_eq results,
    fun other perm => ⟨?_, ?_⟩⟩
  · rw [counted.total_eq, length_eq_add, counted.invalid_eq, counted.valid_eq,
      counted.parserError_eq, counted.illegalRoot_eq, counted.notValid_eq, counted.failed_eq,
      counted.skipped_eq]
  · exact ((counted_ofFiles other).eq_of_perm counted perm.symm)
  · have same : ∀ r, r ∈ other ↔ r ∈ files := fun r => perm.symm.mem_iff
    rw [exitCode_eq, exitCode_eq]
    simp only [results, Results.ofFiles, same]

def mixedFiles : List FileResult :=
  [⟨"note.xml", .judged "notes" .illegalRoot [], .ofMilliseconds 2⟩,
    ⟨"item.xml", .judged "items" .valid [], .ofMilliseconds 1⟩,
    ⟨"last.xml", .skipped .failFast, .zero⟩]

theorem results_partitioned_mixedFiles :
    mixedFiles.Perm mixedFiles.reverse ∧
      (Results.ofFiles mixedFiles.reverse).exitCode = 2 ∧
      (Results.ofFiles mixedFiles.reverse).counts =
        { total := 3, valid := 1, invalid := 1, illegalRoot := 1, skipped := 1
          duration := .ofMilliseconds 3, schemaSets := ["items", "notes"] } := by
  have perm : mixedFiles.Perm mixedFiles.reverse := (List.reverse_perm mixedFiles).symm
  obtain ⟨sameCounts, sameCode⟩ := (results_partitioned mixedFiles).2.2.2.2 _ perm
  refine ⟨perm, sameCode.trans (by decide), sameCounts.trans (by decide)⟩

end XmlSchema.Batch
