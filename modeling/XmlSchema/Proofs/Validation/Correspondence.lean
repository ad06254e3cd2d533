import Mathlib.Data.List.Forall2
import XmlSchema.Proofs.Validation.Options

/-!
# Sessions that correspond

Two sessions that follow documents of the same structure, at other places or with other texts, can be
compared frame by frame and reason by reason: which frames and which causes correspond is given, and
the steps of a session keep it if what children and texts do to a frame does (`Keeps`). The monitors
do not see texts or places, so they are the same.
-/

namespace XmlSchema

open Component (Pool QName)
open Instance (Event StartTag)
open Report (Cause Reason)
open Structure (Monitor RootFault NamespaceWarning)

structure Report.Reason.Matches (causes : Cause → Cause → Prop) (r r' : Reason) : Prop where
  severity : r.severity = r'.severity
  cause : causes r.cause r'.cause
  xpath : r.xpath? = r'.xpath?

namespace Validation

variable {pool : Pool} {frames : Frame → Frame → Prop} {causes : Cause → Cause → Prop}
  {texts : String → String → Prop}

/-- Frames and causes correspond in a way that children and texts keep. -/
structure Keeps (pool : Pool) (frames : Frame → Frame → Prop) (causes : Cause → Cause → Prop)
    (texts : String → String → Prop) : Prop where
  frame : ∀ frame, frames frame frame
  cause : ∀ cause, causes cause cause
  child : ∀ f f' name, frames f f' →
    (f.child pool name).1 = (f'.child pool name).1 ∧
      frames (f.child pool name).2.1 (f'.child pool name).2.1 ∧
      List.Forall₂ causes (f.child pool name).2.2 (f'.child pool name).2.2
  characters : ∀ f f' text text', frames f f' → texts text text' →
    frames (f.characters text).1 (f'.characters text').1 ∧
      List.Forall₂ causes (f.characters text).2 (f'.characters text').2

theorem forall₂_self {α : Type} {R : α → α → Prop} (refl : ∀ a, R a a) (items : List α) :
    List.Forall₂ R items items :=
  List.forall₂_same.2 fun a _ => refl a

namespace Session

variable {s s' : Session} {location location' : Location}

structure Matches (frames : Frame → Frame → Prop) (causes : Cause → Cause → Prop)
    (s s' : Session) : Prop where
  monitor : s.monitor = s'.monitor
  checks : s.checks = s'.checks
  frames : List.Forall₂ frames s.frames s'.frames
  found : List.Forall₂ (Reason.Matches causes) s.found s'.found

/-! ## Reasons -/

theorem matches_errorsAt {found found' : List Cause} (same : List.Forall₂ causes found found')
    (monitor : Monitor) :
    List.Forall₂ (Reason.Matches causes) (errorsAt monitor location found)
      (errorsAt monitor location' found') := by
  simp only [errorsAt, List.forall₂_map_left_iff, List.forall₂_map_right_iff]
  exact same.imp fun _ _ same => ⟨rfl, same, rfl⟩

theorem matches_structureReasons (refl : ∀ cause, causes cause cause) (monitor : Monitor)
    (faults : List RootFault) (warning : Option NamespaceWarning) :
    List.Forall₂ (Reason.Matches causes) (structureReasons monitor location faults warning)
      (structureReasons monitor location' faults warning) := by
  refine List.rel_append (matches_errorsAt (forall₂_self refl _) monitor) ?_
  simp only [List.forall₂_map_left_iff, List.forall₂_map_right_iff]
  exact forall₂_self (fun _ => ⟨rfl, refl _, rfl⟩) _

theorem Matches.add (same : Matches frames causes s s') {reasons reasons' : List Reason}
    (new : List.Forall₂ (Reason.Matches causes) reasons reasons') :
    Matches frames causes (s.add reasons) (s'.add reasons') where
  monitor := same.monitor
  checks := same.checks
  frames := same.frames
  found := List.rel_append (List.rel_reverse new) same.found

/-! ## Steps -/

theorem resolve_congr (keeps : Keeps pool frames causes texts) {open' opened : List Frame}
    (same : List.Forall₂ frames opened open') (name : QName) :
    (resolve pool opened name).1 = (resolve pool open' name).1 ∧
      List.Forall₂ frames (resolve pool opened name).2.1 (resolve pool open' name).2.1 ∧
      List.Forall₂ causes (resolve pool opened name).2.2 (resolve pool open' name).2.2 := by
  cases same with
  | nil => exact ⟨rfl, .nil, forall₂_self keeps.cause _⟩
  | cons innermost outer =>
    obtain ⟨resolution, parent, found⟩ := keeps.child _ _ name innermost
    exact ⟨resolution, .cons parent outer, found⟩

theorem Matches.startElement (same : Matches frames causes s s')
    (keeps : Keeps pool frames causes texts) (tag : StartTag) :
    Matches frames causes (s.startElement pool tag location)
      (s'.startElement pool tag location') := by
  obtain ⟨resolution, outer, found⟩ := resolve_congr keeps same.frames tag.name
  constructor
  · rw [monitor_startElement, monitor_startElement, same.monitor]
  · rw [checks_startElement, checks_startElement, resolution, same.checks]
  · rw [frames_startElement, frames_startElement, resolution, same.checks]
    exact .cons (keeps.frame _) outer
  · rw [found_startElement, found_startElement, same.monitor, same.checks, resolution]
    refine List.rel_append (List.rel_reverse (List.rel_append ?_ ?_)) same.found
    · exact matches_structureReasons keeps.cause _ _ _
    · exact matches_errorsAt (List.rel_append found (forall₂_self keeps.cause _)) _

theorem Matches.characters (same : Matches frames causes s s')
    (keeps : Keeps pool frames causes texts) {text text' : String} (sameText : texts text text') :
    Matches frames causes (s.characters text location) (s'.characters text' location') := by
  unfold Session.characters
  have sameFrames := same.frames
  cases opened : s.frames with
  | nil =>
    rw [opened, List.forall₂_nil_left_iff] at sameFrames
    rw [sameFrames]
    exact same
  | cons frame outer =>
    rw [opened, List.forall₂_cons_left_iff] at sameFrames
    obtain ⟨frame', outer', innermost, sameOuter, opened'⟩ := sameFrames
    rw [opened']
    obtain ⟨after, found⟩ := keeps.characters _ _ _ _ innermost sameText
    have read : Matches frames causes { s with frames := (frame.characters text).1 :: outer }
        { s' with frames := (frame'.characters text').1 :: outer' } :=
      { same with frames := .cons after sameOuter }
    refine read.add ?_
    rw [same.monitor]
    exact matches_errorsAt found _

def closing (s : Session) : List Cause :=
  match s.frames with
  | [] => []
  | frame :: _ => frame.close

theorem Matches.endElement (same : Matches frames causes s s')
    (closed : List.Forall₂ causes s.closing s'.closing) :
    Matches frames causes (s.endElement location) (s'.endElement location') := by
  have left : Matches frames causes
      { s with frames := s.frames.tail, monitor := s.monitor.endElement }
      { s' with frames := s'.frames.tail, monitor := s'.monitor.endElement } :=
    { same with
      frames := by simpa using List.forall₂_drop 1 same.frames
      monitor := congrArg Monitor.endElement same.monitor }
  refine left.add ?_
  rw [same.monitor]
  exact matches_errorsAt closed _

/-! ## Verdicts -/

/-- What two sessions that correspond make of their documents at the end. -/
structure Agree (causes : Cause → Cause → Prop) (o o' : Outcome) : Prop where
  verdict : o.verdict = o'.verdict
  reasons : List.Forall₂ (Reason.Matches causes) o.report.reasons o'.report.reasons

theorem Matches.outcome (same : Matches frames causes s s') (identity : String)
    (wellFormed : Bool) :
    Agree causes (s.outcome identity wellFormed) (s'.outcome identity wellFormed) where
  verdict := by
    have isEmpty : s.found.isEmpty = s'.found.isEmpty := by
      rw [Bool.eq_iff_iff, List.isEmpty_iff_length_eq_zero, List.isEmpty_iff_length_eq_zero,
        same.found.length_eq]
    simp only [Session.outcome, same.monitor, isEmpty]
  reasons := List.rel_reverse same.found

theorem Matches.endDocument (same : Matches frames causes s s')
    (refl : ∀ cause, causes cause cause) : Matches frames causes s.endDocument s'.endDocument := by
  have ended : Matches frames causes { s with monitor := s.monitor.endDocument.1 }
      { s' with monitor := s'.monitor.endDocument.1 } :=
    { same with monitor := by rw [same.monitor] }
  refine ended.add ?_
  simp only [same.monitor, List.forall₂_map_left_iff, List.forall₂_map_right_iff]
  exact forall₂_self (fun _ => ⟨rfl, refl _, rfl⟩) _

theorem Matches.abort (same : Matches frames causes s s') (refl : ∀ cause, causes cause cause)
    (fault : Instance.Fault) :
    Matches frames causes (s.abort fault location) (s'.abort fault location') := by
  refine same.add (.cons ⟨rfl, refl _, ?_⟩ .nil)
  simp only [same.monitor]

theorem Matches.validateDocument {bundle : Bundle} {options : Options} {d d' : Instance.Document}
    (same : Matches frames causes ((start bundle options).follow bundle.pool d.events)
      ((start bundle options).follow bundle.pool d'.events))
    (refl : ∀ cause, causes cause cause)
    (faults : d.fault?.map Prod.fst = d'.fault?.map Prod.fst) :
    Agree causes (validateDocument bundle options d) (validateDocument bundle options d') := by
  unfold Validation.validateDocument
  cases fault : d.fault? with
  | none =>
    rw [fault, Option.map_none, eq_comm, Option.map_eq_none_iff] at faults
    simp only [faults]
    exact (same.endDocument refl).outcome _ _
  | some fatal =>
    rw [fault, Option.map_some, eq_comm, Option.map_eq_some_iff] at faults
    obtain ⟨⟨fatal', location'⟩, fault', rfl⟩ := faults
    simp only [fault']
    exact (same.abort refl _).outcome _ _

end Session

end Validation

end XmlSchema
