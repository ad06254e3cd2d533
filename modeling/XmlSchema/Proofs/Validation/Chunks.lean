import XmlSchema.Proofs.Validation.Skipped

namespace XmlSchema

open Component (Pool)
open Instance (Event)
open Instance.Progress (isBlankText)
open Report (Cause Reason)
open Structure (Monitor)

def Report.Reason.unplaced (r : Reason) : Reason := { r with location? := none }

namespace Validation

namespace Frame

variable {frame : Frame}

theorem characters_blank {violation : Violation} (use : frame.textUse = .forbidden violation)
    {text : String} (blank : isBlankText text = true) : frame.characters text = (frame, []) := by
  simp [characters, use, blank]

theorem characters_reported {violation : Violation} (use : frame.textUse = .forbidden violation)
    (reported : frame.textReported = true) (text : String) :
    frame.characters text = (frame, []) := by
  simp [characters, use, reported]

theorem characters_objected {violation : Violation} (use : frame.textUse = .forbidden violation)
    (quiet : frame.textReported = false) {text : String} (visible : isBlankText text = false) :
    frame.characters text = ({ frame with textReported := true }, [violated violation]) := by
  simp [characters, use, quiet, visible]

theorem characters_append (frame : Frame) (text more : String) :
    frame.characters (text ++ more) = (((frame.characters text).1.characters more).1,
      (frame.characters text).2 ++ ((frame.characters text).1.characters more).2) := by
  cases use : frame.textUse with
  | ignored => simp only [characters_ignored use, List.append_nil]
  | collected =>
    have further : ({ frame with text := frame.text ++ text } : Frame).textUse = .collected := use
    simp only [characters_collected use, characters_collected further, String.append_assoc,
      List.append_nil]
  | forbidden violation =>
    cases quiet : frame.textReported with
    | true => simp only [characters_reported use quiet, List.append_nil]
    | false =>
      cases blank : isBlankText text with
      | true =>
        -- A first piece of white space does not show in what comes after it.
        rw [characters_blank use blank, List.nil_append]
        have same : isBlankText (text ++ more) = isBlankText more := by
          rw [isBlankText_append, blank, Bool.true_and]
        simp only [characters, use, same]
      | false =>
        -- What comes after a piece that has been complained of is not complained of again.
        have visible : isBlankText (text ++ more) = false := by
          rw [isBlankText_append, blank, Bool.false_and]
        have further : ({ frame with textReported := true } : Frame).textUse =
          .forbidden violation := use
        rw [characters_objected use quiet visible, characters_objected use quiet blank,
          characters_reported further rfl, List.append_nil]

theorem characters_empty (frame : Frame) : frame.characters "" = (frame, []) := by
  cases use : frame.textUse with
  | ignored => exact characters_ignored use ""
  | collected => rw [characters_collected use, String.append_empty]
  | forbidden violation => exact characters_blank use rfl

end Frame

namespace Session

def unplaced (s : Session) : Session := { s with found := s.found.map Reason.unplaced }

theorem characters_of_frames {s : Session} {frame : Frame} {outer : List Frame}
    (opened : s.frames = frame :: outer) (text : String) (location : Location) :
    s.characters text location = { s with
      frames := (frame.characters text).1 :: outer
      found := (errorsAt s.monitor location (frame.characters text).2).reverse ++ s.found } := by
  simp [characters, opened, add]

theorem characters_empty (s : Session) (location : Location) : s.characters "" location = s := by
  obtain ⟨monitor, frames, checks, found⟩ := s
  cases frames with
  | nil => rfl
  | cons frame outer =>
    rw [characters_of_frames rfl, frame.characters_empty]
    rfl

theorem map_unplaced_errorsAt (monitor : Monitor) (location : Location) (causes : List Cause) :
    (errorsAt monitor location causes).map Reason.unplaced =
      causes.map fun cause => { severity := .error, cause, xpath? := some monitor.xpath } := by
  simp only [errorsAt, List.map_map, Function.comp_def, Reason.unplaced]

theorem errorsAt_append (monitor : Monitor) (location : Location) (causes more : List Cause) :
    errorsAt monitor location (causes ++ more) =
      errorsAt monitor location causes ++ errorsAt monitor location more :=
  List.map_append

theorem unplaced_characters_append (s : Session) (text more : String)
    (first second location : Location) :
    ((s.characters text first).characters more second).unplaced =
      (s.characters (text ++ more) location).unplaced := by
  cases opened : s.frames with
  | nil => simp only [characters, opened]
  | cons frame outer =>
    rw [characters_of_frames opened, characters_of_frames opened, characters_of_frames rfl,
      frame.characters_append]
    simp only [unplaced, errorsAt_append, List.reverse_append, List.map_append, List.map_reverse,
      List.append_assoc, map_unplaced_errorsAt]

theorem unplaced_foldl_characters (s : Session) (pieces : List (String × Location))
    (location : Location) :
    (pieces.foldl (fun s piece => s.characters piece.1 piece.2) s).unplaced =
      (s.characters (String.join (pieces.map (·.1))) location).unplaced := by
  induction pieces generalizing s with
  | nil => rw [List.foldl_nil, List.map_nil, String.join_nil, characters_empty]
  | cons piece pieces ih =>
    rw [List.foldl_cons, ih, unplaced_characters_append _ _ _ _ _ location, List.map_cons,
      String.join_cons]

/-- However a text is cut into pieces, the frames after it are the same, and so are the monitor, the
checks and the reasons with their severities, messages and paths. -/
theorem characters_pieces (s : Session) (pieces : List (String × Location)) (location : Location) :
    let parts := pieces.foldl (fun s piece => s.characters piece.1 piece.2) s
    let whole := s.characters (String.join (pieces.map (·.1))) location
    parts.frames = whole.frames ∧ parts.monitor = whole.monitor ∧ parts.checks = whole.checks ∧
      parts.found.map (fun r => (r.severity, r.message, r.xpath?)) =
        whole.found.map (fun r => (r.severity, r.message, r.xpath?)) := by
  intro parts whole
  have same : parts.unplaced = whole.unplaced := unplaced_foldl_characters s pieces location
  obtain ⟨monitor, frames, checks, found⟩ := Session.mk.inj same
  refine ⟨frames, monitor, checks, ?_⟩
  have seen := congrArg (List.map fun r : Reason => (r.severity, r.message, r.xpath?)) found
  rwa [List.map_map, List.map_map] at seen

theorem matches_of_unplaced {s s' : Session} (same : s.unplaced = s'.unplaced) :
    Matches Eq Eq s s' := by
  obtain ⟨monitor, frames, checks, found⟩ := Session.mk.inj same
  have sameFrames : s.frames = s'.frames := frames
  have sameFound : s.found.map Reason.unplaced = s'.found.map Reason.unplaced := found
  refine ⟨monitor, checks, by rw [sameFrames]; exact forall₂_self (fun _ => rfl) _, ?_⟩
  rw [← List.forall₂_eq_eq_eq, List.forall₂_map_left_iff, List.forall₂_map_right_iff] at sameFound
  refine sameFound.imp fun r r' same => ?_
  obtain ⟨severity, cause, -, xpath⟩ := Reason.mk.inj same
  exact ⟨severity, cause, xpath⟩

theorem matches_follow_pieces (s : Session) (pool : Pool) (before : List (Event × Location))
    (pieces : List (String × Location)) (location : Location)
    {after after' : List (Event × Location)} (same : after.map Prod.fst = after'.map Prod.fst) :
    Matches Eq Eq (s.follow pool (before ++ (pieces.map (Prod.map .text id) ++ after)))
      (s.follow pool (before ++ (.text (String.join (pieces.map (·.1))), location) :: after')) := by
  rw [follow_append, follow_append, follow_append]
  have read (s : Session) : (s.follow pool (pieces.map (Prod.map .text id))).unplaced =
      (s.characters (String.join (pieces.map (·.1))) location).unplaced := by
    rw [follow, List.foldl_map]
    exact unplaced_foldl_characters s pieces location
  exact (matches_of_unplaced (read _)).follow_eq pool same

end Session

/-- A document gets the same verdict if a text comes in one piece instead of several, and the same
reasons one by one, wherever what follows stands. -/
theorem agree_of_pieces (bundle : Bundle) (options : Options) (before : List (Event × Location))
    (pieces : List (String × Location)) (location : Location)
    {after after' : List (Event × Location)} {fault? fault?' : Option (Instance.Fault × Location)}
    (sameEvents : after.map Prod.fst = after'.map Prod.fst)
    (sameFault : fault?.map Prod.fst = fault?'.map Prod.fst) :
    Session.Agree Eq
      (validateDocument bundle options
        ⟨before ++ (pieces.map (Prod.map .text id) ++ after), fault?⟩)
      (validateDocument bundle options
        ⟨before ++ (.text (String.join (pieces.map (·.1))), location) :: after', fault?'⟩) :=
  (Session.matches_follow_pieces _ bundle.pool before pieces location sameEvents).validateDocument
    (fun _ => rfl) sameFault

end Validation

end XmlSchema
