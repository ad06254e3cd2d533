import XmlSchema.Proofs.Validation.Streaming

/-!
# Verdicts and their reasons

A verdict is found from three things that are kept apart: whether the document is well formed, the
number of faults that the monitor has counted, and the list of reasons. They never contradict each
other (`validate_accounts`). What carries this through a session is that the monitor has counted one
fault for each reason that is about a root path, and that no reason is fatal (`Session.Tallied`).
-/

namespace XmlSchema

open Component
open Instance (Document Event StartTag)
open Report (Cause Reason)
open Structure (Monitor RootFault NamespaceWarning)

namespace Report

def Cause.isRootFault : Cause → Bool
  | .root _ => true
  | _ => false

theorem Cause.isRootFault_of_content {cause : Cause} (ofContent : cause.isStructural = false) :
    cause.isRootFault = false := by
  cases cause <;> first | rfl | cases ofContent

def rootFaultsAmong (reasons : List Reason) : Nat :=
  reasons.countP fun r => r.cause.isRootFault

@[simp] theorem rootFaultsAmong_nil : rootFaultsAmong [] = 0 := rfl

@[simp] theorem rootFaultsAmong_append (reasons more : List Reason) :
    rootFaultsAmong (reasons ++ more) = rootFaultsAmong reasons + rootFaultsAmong more :=
  List.countP_append

@[simp] theorem rootFaultsAmong_reverse (reasons : List Reason) :
    rootFaultsAmong reasons.reverse = rootFaultsAmong reasons :=
  List.countP_reverse

theorem rootFaultsAmong_pos {reasons : List Reason} :
    0 < rootFaultsAmong reasons ↔ ∃ r ∈ reasons, r.cause.isRootFault = true :=
  List.countP_pos_iff

end Report

/-! ## What the monitor counts -/

namespace Structure.Monitor

theorem rootFaults_checkNamespace (m : Monitor) (ns localName : String) :
    (m.checkNamespace ns localName).1.rootFaults = m.rootFaults := by
  unfold checkNamespace
  split
  · rfl
  · dsimp only
    split <;> rfl

theorem rootFaults_startElement (m : Monitor) (ns localName : String) :
    (m.startElement ns localName).1.rootFaults =
      m.rootFaults + (m.startElement ns localName).2.1.length := by
  simp only [startElement, rootFaults_checkNamespace]

theorem rootFaults_endDocument (m : Monitor) :
    m.endDocument.1.rootFaults = m.rootFaults + m.endDocument.2.length := rfl

end Structure.Monitor

namespace Validation

open Report

def NoneFatal (reasons : List Reason) : Prop := ∀ r ∈ reasons, r.severity ≠ .fatal

theorem noneFatal_append {reasons more : List Reason} :
    NoneFatal (reasons ++ more) ↔ NoneFatal reasons ∧ NoneFatal more :=
  List.forall_mem_append

theorem noneFatal_reverse {reasons : List Reason} :
    NoneFatal reasons.reverse ↔ NoneFatal reasons := by
  simp [NoneFatal]

namespace Session

variable {s : Session}

/-! ## Reasons that a session adds -/

theorem noneFatal_errorsAt (monitor : Monitor) (location : Location) (causes : List Cause) :
    NoneFatal (errorsAt monitor location causes) := by
  intro reason member
  obtain ⟨cause, _, rfl⟩ := List.mem_map.1 member
  simp

theorem noneFatal_structureReasons (monitor : Monitor) (location : Location)
    (faults : List RootFault) (warning : Option NamespaceWarning) :
    NoneFatal (structureReasons monitor location faults warning) := by
  refine noneFatal_append.2 ⟨noneFatal_errorsAt _ _ _, fun reason member => ?_⟩
  obtain ⟨w, _, rfl⟩ := List.mem_map.1 member
  simp

theorem rootFaultsAmong_errorsAt {causes : List Cause} (monitor : Monitor) (location : Location)
    (ofContent : OfContent causes) : rootFaultsAmong (errorsAt monitor location causes) = 0 := by
  refine List.countP_eq_zero.2 fun reason member => ?_
  obtain ⟨cause, among, rfl⟩ := List.mem_map.1 member
  simp [Cause.isRootFault_of_content (ofContent cause among)]

theorem rootFaultsAmong_structureReasons (monitor : Monitor) (location : Location)
    (faults : List RootFault) (warning : Option NamespaceWarning) :
    rootFaultsAmong (structureReasons monitor location faults warning) = faults.length := by
  have ofFaults : rootFaultsAmong (errorsAt monitor location (faults.map .root)) =
      faults.length := by
    simp [rootFaultsAmong, errorsAt, List.countP_map, Function.comp_def, Cause.isRootFault]
  rw [structureReasons, rootFaultsAmong_append, ofFaults]
  cases warning with
  | none => rfl
  | some w => rfl

/-! ## What holds of a session at any time -/

/-- What a session keeps while the document is well formed: it has found nothing fatal, and its
monitor has counted one fault for each reason that is about a root path. -/
structure Tallied (s : Session) : Prop where
  noneFatal : NoneFatal s.found
  counted : s.monitor.rootFaults = rootFaultsAmong s.found

theorem tallied_start (bundle : Bundle) (options : Options) : (start bundle options).Tallied where
  noneFatal := fun _ member => nomatch member
  counted := rfl

theorem reverse_found_add (s : Session) (reasons : List Reason) :
    (s.add reasons).found.reverse = s.found.reverse ++ reasons := by
  simp [Session.add]

theorem Tallied.add {reasons : List Reason} (tallied : s.Tallied) (noneFatal : NoneFatal reasons)
    (noFault : rootFaultsAmong reasons = 0) : (s.add reasons).Tallied where
  noneFatal := noneFatal_append.2 ⟨noneFatal_reverse.2 noneFatal, tallied.noneFatal⟩
  counted := by simpa [Session.add, noFault] using tallied.counted

theorem monitor_startElement (pool : Pool) (tag : StartTag) (location : Location) :
    (s.startElement pool tag location).monitor =
      (s.monitor.startElement tag.name.ns tag.name.localName).1 := rfl

theorem found_startElement (pool : Pool) (tag : StartTag) (location : Location) :
    (s.startElement pool tag location).found =
      (structureReasons (s.monitor.startElement tag.name.ns tag.name.localName).1 location
          (s.monitor.startElement tag.name.ns tag.name.localName).2.1
          (s.monitor.startElement tag.name.ns tag.name.localName).2.2 ++
        errorsAt (s.monitor.startElement tag.name.ns tag.name.localName).1 location
          ((resolve pool s.frames tag.name).2.2 ++
            (openFrame pool s.checks (resolve pool s.frames tag.name).1 tag).2.2)).reverse ++
        s.found := rfl

theorem Tallied.startElement (tallied : s.Tallied) (pool : Pool) (tag : StartTag)
    (location : Location) : (s.startElement pool tag location).Tallied := by
  have ofContent : OfContent ((resolve pool s.frames tag.name).2.2 ++
      (openFrame pool s.checks (resolve pool s.frames tag.name).1 tag).2.2) :=
    ofContent_append.2 ⟨ofContent_resolve, ofContent_openFrame⟩
  constructor
  · refine noneFatal_append.2 ⟨noneFatal_reverse.2 (noneFatal_append.2 ⟨?_, ?_⟩), tallied.noneFatal⟩
    · exact noneFatal_structureReasons _ _ _ _
    · exact noneFatal_errorsAt _ _ _
  · have faults := Monitor.rootFaults_startElement s.monitor tag.name.ns tag.name.localName
    rw [monitor_startElement, found_startElement, faults, tallied.counted]
    simp only [rootFaultsAmong_append, rootFaultsAmong_reverse, rootFaultsAmong_structureReasons,
      rootFaultsAmong_errorsAt _ _ ofContent]
    omega

theorem Tallied.characters (tallied : s.Tallied) (text : String) (location : Location) :
    (s.characters text location).Tallied := by
  unfold Session.characters
  cases s.frames with
  | nil => exact tallied
  | cons frame outer =>
    have same : ({ s with frames := (frame.characters text).1 :: outer } : Session).Tallied :=
      ⟨tallied.noneFatal, tallied.counted⟩
    exact same.add (noneFatal_errorsAt _ _ _)
      (rootFaultsAmong_errorsAt _ _ ordinary_characters.ofContent)

theorem Tallied.endElement (tallied : s.Tallied) (location : Location) :
    (s.endElement location).Tallied := by
  have same : ({ s with frames := s.frames.tail, monitor := s.monitor.endElement } :
      Session).Tallied := ⟨tallied.noneFatal, tallied.counted⟩
  refine same.add (noneFatal_errorsAt _ _ _) (rootFaultsAmong_errorsAt _ _ ?_)
  split
  · exact ofContent_nil
  · exact ordinary_close.ofContent

theorem Tallied.handle (tallied : s.Tallied) (pool : Pool) (event : Event) (location : Location) :
    (s.handle pool event location).Tallied := by
  cases event with
  | start tag => exact tallied.startElement pool tag location
  | text content => exact tallied.characters content location
  | finish => exact tallied.endElement location

theorem Tallied.follow (tallied : s.Tallied) (pool : Pool) (events : List (Event × Location)) :
    (s.follow pool events).Tallied := by
  induction events generalizing s with
  | nil => exact tallied
  | cons event events ih => exact ih (tallied.handle pool event.1 event.2)

theorem Tallied.endDocument (tallied : s.Tallied) : s.endDocument.Tallied := by
  have before := tallied.counted
  have faults := Monitor.rootFaults_endDocument s.monitor
  have ofFaults : rootFaultsAmong (s.monitor.endDocument.2.map fun fault =>
      { severity := .error, cause := .root fault }) = s.monitor.endDocument.2.length := by
    simp [rootFaultsAmong, List.countP_map, Function.comp_def, Cause.isRootFault]
  constructor
  · refine noneFatal_append.2 ⟨noneFatal_reverse.2 fun reason member => ?_, tallied.noneFatal⟩
    obtain ⟨fault, _, rfl⟩ := List.mem_map.1 member
    simp
  · simp only [Session.endDocument, Session.add, rootFaultsAmong_append, rootFaultsAmong_reverse,
      ofFaults]
    omega

/-! ## The end -/

theorem Tallied.hasRootFaults_iff (tallied : s.Tallied) :
    s.monitor.hasRootFaults = true ↔ ∃ r ∈ s.found, r.cause.isRootFault = true := by
  rw [← rootFaultsAmong_pos, ← tallied.counted]
  simp [Monitor.hasRootFaults]

end Session

structure Outcome.Accounts (o : Outcome) : Prop where
  parserError_iff : o.verdict = .parserError ↔ ∃ r ∈ o.report.reasons, r.severity = .fatal
  fatal_last : o.verdict = .parserError → ∃ earlier last,
    o.report.reasons = earlier ++ [last] ∧ last.severity = .fatal ∧ NoneFatal earlier
  illegalRoot_iff : o.verdict = .illegalRoot ↔
    NoneFatal o.report.reasons ∧ ∃ r ∈ o.report.reasons, r.cause.isRootFault = true
  valid_iff : o.verdict = .valid ↔ o.report.reasons = []
  notValid_iff : o.verdict = .notValid ↔ o.report.reasons ≠ [] ∧ NoneFatal o.report.reasons ∧
    ∀ r ∈ o.report.reasons, r.cause.isRootFault = false

namespace Session

variable {s : Session}

theorem Tallied.accounts_outcome (tallied : s.Tallied) (identity : String) :
    (s.outcome identity true).Accounts := by
  have reasons : (s.outcome identity true).report.reasons = s.found.reverse := rfl
  have noneFatal : NoneFatal s.found.reverse := noneFatal_reverse.2 tallied.noneFatal
  have notFatal : ¬ ∃ r ∈ s.found.reverse, r.severity = .fatal := by
    rintro ⟨r, member, fatal⟩
    exact noneFatal r member fatal
  have rootFaults : s.monitor.hasRootFaults = true ↔
      ∃ r ∈ s.found.reverse, r.cause.isRootFault = true := by
    simpa only [List.mem_reverse] using tallied.hasRootFaults_iff
  -- Faults of the root decide on the verdict before all other reasons.
  by_cases rooted : s.monitor.hasRootFaults = true
  · have verdict : (s.outcome identity true).verdict = .illegalRoot := by simp [outcome, rooted]
    obtain ⟨r, member, ofRoot⟩ := rootFaults.1 rooted
    have nonempty : s.found.reverse ≠ [] := List.ne_nil_of_mem member
    constructor
    · simpa [verdict, reasons] using notFatal
    · simp [verdict]
    · exact iff_of_true verdict ⟨noneFatal, r, member, ofRoot⟩
    · simpa [verdict, reasons] using nonempty
    · simp only [verdict, reasons, reduceCtorEq, false_iff]
      rintro ⟨_, _, none⟩
      simp [none r member] at ofRoot
  · have none : ∀ r ∈ s.found.reverse, r.cause.isRootFault = false := by
      intro r member
      refine Bool.eq_false_iff.2 fun ofRoot => ?_
      exact rooted (rootFaults.2 ⟨r, member, ofRoot⟩)
    by_cases empty : s.found = []
    · have verdict : (s.outcome identity true).verdict = .valid := by
        simp [outcome, rooted, empty]
      constructor <;> simp [verdict, reasons, empty]
    · have verdict : (s.outcome identity true).verdict = .notValid := by
        simp [outcome, rooted, empty]
      constructor
      · simpa [verdict, reasons] using notFatal
      · simp [verdict]
      · simp only [verdict, reasons, reduceCtorEq, false_iff]
        rintro ⟨_, r, member, ofRoot⟩
        simp [none r member] at ofRoot
      · simpa [verdict, reasons] using empty
      · simpa [verdict, reasons, empty, noneFatal] using none

theorem Tallied.accounts_abort (tallied : s.Tallied) (fault : Instance.Fault) (location : Location)
    (identity : String) : ((s.abort fault location).outcome identity false).Accounts := by
  have verdict : ((s.abort fault location).outcome identity false).verdict = .parserError := rfl
  obtain ⟨last, reasons, fatal⟩ : ∃ last : Reason,
      ((s.abort fault location).outcome identity false).report.reasons = s.found.reverse ++ [last] ∧
        last.severity = .fatal := ⟨_, reverse_found_add _ _, rfl⟩
  have noneFatal : NoneFatal s.found.reverse := noneFatal_reverse.2 tallied.noneFatal
  have refuted : ¬ NoneFatal (s.found.reverse ++ [last]) := fun all =>
    all last (by simp) fatal
  constructor
  · simp [verdict, reasons, fatal]
  · exact fun _ => ⟨s.found.reverse, last, reasons, fatal, noneFatal⟩
  · simp [verdict, reasons, refuted]
  · simp [verdict, reasons]
  · simp [verdict, reasons, refuted]

end Session

/-- The verdict on a document agrees with the reasons that are given for it: what is not well formed
has a fatal reason, which is the only one and the last; else a fault at the root paths goes before
all others, and any reason at all makes the document not valid. -/
theorem validate_accounts (bundle : Bundle) (options : Options) (bytes : Bytes) :
    (validate bundle options bytes).Accounts := by
  have tallied := (Session.tallied_start bundle options).follow bundle.pool
    (Document.ofBytes bytes).events
  unfold validate validateDocument
  cases (Document.ofBytes bytes).fault? with
  | none => exact tallied.endDocument.accounts_outcome _
  | some fault => exact tallied.accounts_abort fault.1 fault.2 _

end Validation

end XmlSchema
