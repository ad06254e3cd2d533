import XmlSchema.Proofs.Datatype.Restriction
import XmlSchema.Proofs.Instance.LineEnds
import XmlSchema.Proofs.Validation.Correspondence

/-!
# Validation and line ends

The text of an element reaches its type with the line ends that it has in the document. So a carriage
return in front of a line feed can be seen by a type that keeps white space, and only there: the
sessions on two documents that differ in line ends correspond step by step (`matches_follow`), up to
the ends of those elements whose text is another one and whose type looks at it
(`same_verdict_of_rebroken`). That the types have to be restricted is shown too
(`other_verdict_of_rebroken`).
-/

namespace XmlSchema

open Component (ElementDecl Pool QName)
open Datatype (SimpleType WhiteSpace)
open Instance (Document Event)
open Report (Cause Reason)

namespace Datatype.SimpleType

variable {t : SimpleType}

theorem validate_congr {raw raw' : String}
    (same : t.whiteSpace.apply raw = t.whiteSpace.apply raw') :
    t.validate raw = t.validate raw' := by
  obtain ⟨name, variety, whiteSpace, facets⟩ := t
  dsimp only at same
  cases variety <;> simp only [validate, same]

def AcceptsAll (t : SimpleType) : Prop := ∀ raw, (t.validate raw).isOk = true

end Datatype.SimpleType

/-! ## Causes -/

/-- Causes of complaint are the same up to line ends in the value that they quote. -/
inductive Report.Cause.Rebroken : Cause → Cause → Prop
  | same (cause : Cause) : Rebroken cause cause
  | elementInvalid {raw raw' : String} (lines : Text.Rebroken raw raw') (element : String) :
      Rebroken (.violation (.elementInvalid raw element))
        (.violation (.elementInvalid raw' element))

theorem Report.Cause.Rebroken.message {c c' : Cause} (lines : c.Rebroken c') :
    Text.Rebroken c.message c'.message := by
  cases lines with
  | same => exact .refl _
  | elementInvalid lines element =>
    exact ((Text.Rebroken.refl _).append lines.trim).append (.refl _) |>.append (.refl _)
      |>.append (.refl _)

theorem Report.Cause.Rebroken.quotes {c c' : Cause} (lines : c.Rebroken c')
    (other : c.message ≠ c'.message) :
    ∃ value element, c = .violation (.elementInvalid value element) := by
  cases lines with
  | same => exact absurd rfl other
  | elementInvalid lines element => exact ⟨_, element, rfl⟩

namespace Validation

/-! ## Frames -/

/-- Frames are the same up to the line ends of their texts. -/
structure Frame.Rebroken (frame frame' : Frame) : Prop where
  same : frame' = { frame with text := frame'.text }
  lines : Text.Rebroken frame.text frame'.text

def Frame.valued? (frame : Frame) : Option (SimpleType × ElementDecl) :=
  if frame.nil then none
  else match frame.kind with
    | .skip | .lax => none
    | .simple type decl => some (type, decl)
    | .complex type _ decl =>
      match type.content with
      | .simple type => some (type, decl)
      | _ => none

def IgnoresLineEnds (type : SimpleType) (decl : ElementDecl) : Prop :=
  type.whiteSpace = .collapse ∨ type.AcceptsAll ∧ decl.fixed? = none

variable {frame frame' : Frame}

theorem Frame.child_text (pool : Pool) (frame : Frame) (text : String) (name : QName) :
    ({ frame with text } : Frame).child pool name = ((frame.child pool name).1,
        { (frame.child pool name).2.1 with text }, (frame.child pool name).2.2) ∧
      (frame.child pool name).2.1.text = frame.text := by
  obtain ⟨localName, kind, own, nil, reported⟩ := frame
  unfold Frame.child
  dsimp only
  split
  · exact ⟨rfl, rfl⟩
  · cases kind with
    | skip | lax | simple => exact ⟨rfl, rfl⟩
    | complex type state decl =>
      dsimp only
      cases type.content <;> exact ⟨rfl, rfl⟩

theorem Frame.close_text (frame : Frame) (text : String) : ∃ causes,
    frame.close = frame.valued?.elim causes
        (fun value => checkElementValue value.1 value.2 frame.text frame.localName) ∧
      ({ frame with text } : Frame).close = frame.valued?.elim causes
        (fun value => checkElementValue value.1 value.2 text frame.localName) := by
  obtain ⟨localName, kind, own, nil, reported⟩ := frame
  unfold Frame.close Frame.valued?
  dsimp only
  split
  · exact ⟨_, rfl, rfl⟩
  · cases kind with
    | skip | lax => exact ⟨_, rfl, rfl⟩
    | simple => exact ⟨[], rfl, rfl⟩
    | complex type state decl =>
      dsimp only
      cases type.content with
      | simple => exact ⟨[], rfl, rfl⟩
      | empty | elementOnly | mixed => exact ⟨_, rfl, rfl⟩

theorem checkElementValue_rebroken {type : SimpleType} {decl : ElementDecl} {text text' : String}
    (ignores : IgnoresLineEnds type decl) (other : text ≠ text') (lines : Text.Rebroken text text')
    (element : String) : List.Forall₂ Cause.Rebroken (checkElementValue type decl text element)
      (checkElementValue type decl text' element) := by
  have nonempty : text.isEmpty = false ∧ text'.isEmpty = false := by
    have both := lines.eq_empty_iff
    rw [← Bool.not_eq_true, ← Bool.not_eq_true, String.isEmpty_iff, String.isEmpty_iff, both,
      and_self]
    intro empty
    exact other (empty.trans (both.2 empty).symm)
  simp only [checkElementValue, nonempty.1, nonempty.2, Bool.false_eq_true, if_false]
  rcases ignores with collapses | ⟨accepts, notFixed⟩
  · have sameValue : type.validate text = type.validate text' := by
      apply SimpleType.validate_congr
      rw [collapses, lines.collapse_eq]
    rw [← sameValue]
    cases type.validate text with
    | ok value => exact forall₂_self .same _
    | error fault => exact .cons (.same _) (.cons (.elementInvalid lines element) .nil)
  · have accepted := accepts text
    have accepted' := accepts text'
    cases value : type.validate text with
    | error fault => simp [value, Except.isOk, Except.toBool] at accepted
    | ok value =>
      cases value' : type.validate text' with
      | error fault => simp [value', Except.isOk, Except.toBool] at accepted'
      | ok value' =>
        simp only [notFixed]
        exact .nil

namespace Frame.Rebroken

theorem refl (frame : Frame) : frame.Rebroken frame := ⟨rfl, .refl _⟩

theorem child (lines : frame.Rebroken frame') (pool : Pool) (name : QName) :
    (frame.child pool name).1 = (frame'.child pool name).1 ∧
      (frame.child pool name).2.1.Rebroken (frame'.child pool name).2.1 ∧
      (frame.child pool name).2.2 = (frame'.child pool name).2.2 := by
  obtain ⟨other, kept⟩ := Frame.child_text pool frame frame'.text name
  rw [lines.same, other]
  exact ⟨rfl, ⟨rfl, by rw [kept]; exact lines.lines⟩, rfl⟩

theorem characters (lines : frame.Rebroken frame') {text text' : String}
    (more : Text.Rebroken text text') :
    (frame.characters text).1.Rebroken (frame'.characters text').1 ∧
      (frame.characters text).2 = (frame'.characters text').2 := by
  have sameUse : frame'.textUse = frame.textUse := by rw [lines.same]; rfl
  have sameReported : frame'.textReported = frame.textReported := by rw [lines.same]
  unfold Frame.characters
  rw [sameUse, sameReported, Instance.isBlankText_rebroken more, lines.same]
  cases frame.textUse with
  | ignored => exact ⟨⟨rfl, lines.lines⟩, rfl⟩
  | collected => exact ⟨⟨rfl, lines.lines.append more⟩, rfl⟩
  | forbidden violation =>
    dsimp only
    split
    · exact ⟨⟨rfl, lines.lines⟩, rfl⟩
    · exact ⟨⟨rfl, lines.lines⟩, rfl⟩

theorem close (lines : frame.Rebroken frame')
    (ignores : frame.text ≠ frame'.text → ∀ type decl, frame.valued? = some (type, decl) →
      IgnoresLineEnds type decl) :
    List.Forall₂ Cause.Rebroken frame.close frame'.close := by
  by_cases same : frame.text = frame'.text
  · have equal : frame' = frame := by rw [lines.same, ← same]
    rw [equal]
    exact forall₂_self .same _
  · obtain ⟨causes, closed, other⟩ := Frame.close_text frame frame'.text
    rw [lines.same, closed, other]
    cases valued : frame.valued? with
    | none => exact forall₂_self .same _
    | some value =>
      exact checkElementValue_rebroken (ignores same value.1 value.2 valued) same lines.lines _

end Frame.Rebroken

/-! ## Sessions -/

theorem keeps_rebroken (pool : Pool) :
    Keeps pool Frame.Rebroken Cause.Rebroken Text.Rebroken where
  frame := .refl
  cause := .same
  child frame frame' name lines := by
    obtain ⟨resolution, after, found⟩ := lines.child pool name
    exact ⟨resolution, after, by rw [found]; exact forall₂_self .same _⟩
  characters frame frame' text text' lines more := by
    obtain ⟨after, found⟩ := lines.characters more
    exact ⟨after, by rw [found]; exact forall₂_self .same _⟩

namespace Session

def ended (pool : Pool) (s : Session) : List (Event × Location) → List Frame
  | [] => []
  | (event, location) :: rest =>
    let later := (s.handle pool event location).ended pool rest
    match event, s.frames with
    | .finish, frame :: _ => frame :: later
    | _, _ => later

end Session

/-- The frames of the elements of a document, as they are at their ends. -/
def endedFrames (bundle : Bundle) (options : Options) (document : Document) : List Frame :=
  (Session.start bundle options).ended bundle.pool document.events

/-- Line ends do not matter to those elements whose text is another one. -/
def ChangesIgnored (frames frames' : List Frame) : Prop :=
  ∀ pair ∈ frames.zip frames', pair.1.text ≠ pair.2.text →
    ∀ type decl, pair.1.valued? = some (type, decl) → IgnoresLineEnds type decl

variable {s s' : Session} {bundle : Bundle} {options : Options}

theorem Session.Matches.follow_rebroken (same : Matches Frame.Rebroken Cause.Rebroken s s')
    (pool : Pool) {events events' : List (Event × Location)}
    (lines : List.Forall₂ Event.Rebroken (events.map Prod.fst) (events'.map Prod.fst))
    (ignored : ChangesIgnored (s.ended pool events) (s'.ended pool events')) :
    Matches Frame.Rebroken Cause.Rebroken (s.follow pool events) (s'.follow pool events') := by
  induction events generalizing s s' events' with
  | nil =>
    obtain rfl := List.map_eq_nil_iff.1 (List.forall₂_nil_left_iff.1 lines)
    exact same
  | cons next events ih =>
    obtain ⟨event, location⟩ := next
    obtain ⟨event', later', first, later, whole⟩ := List.forall₂_cons_left_iff.1 lines
    obtain ⟨⟨_, location'⟩, events', rfl, rfl, rfl⟩ := List.map_eq_cons_iff.1 whole
    cases first with
    | text more => exact ih (same.characters (keeps_rebroken pool) more) later ignored
    | same event =>
      cases event with
      | start tag => exact ih (same.startElement (keeps_rebroken pool) tag) later ignored
      | text content => exact ih (same.characters (keeps_rebroken pool) (.refl _)) later ignored
      | finish =>
        have frames := same.frames
        cases opened : s.frames with
        | nil =>
          rw [opened, List.forall₂_nil_left_iff] at frames
          simp only [Session.ended, opened, frames] at ignored
          refine ih (same.endElement ?_) later ignored
          rw [closing, closing, opened, frames]
          exact .nil
        | cons frame outer =>
          -- The first of the frames that end is this one, and the others end later.
          rw [opened, List.forall₂_cons_left_iff] at frames
          obtain ⟨frame', outer', innermost, -, opened'⟩ := frames
          simp only [Session.ended, opened, opened'] at ignored
          refine ih (same.endElement ?_) later fun pair member =>
            ignored pair (List.mem_cons_of_mem _ member)
          rw [closing, closing, opened, opened']
          exact innermost.close (ignored _ List.mem_cons_self)

/-! ## Documents with other line ends -/

/-- What is found in a well-formed document is found, one by one, in the same document with other
line ends in its text, provided that these do not matter to the elements whose text is changed.
Messages are the same, but that the value of an element is quoted with its line ends. -/
theorem validate_of_rebroken (bundle : Bundle) (options : Options) {bytes bytes' : Bytes}
    (lines : Instance.Rebroken bytes bytes')
    (wellFormed : (Document.ofBytes bytes).fault? = none)
    (ignored : ChangesIgnored (endedFrames bundle options (.ofBytes bytes))
      (endedFrames bundle options (.ofBytes bytes'))) :
    let o := validate bundle options bytes
    let o' := validate bundle options bytes'
    o.verdict = o'.verdict ∧ List.Forall₂
      (fun r r' => r.severity = r'.severity ∧ r.xpath? = r'.xpath? ∧
        Text.Rebroken r.message r'.message ∧ (r.message ≠ r'.message →
          ∃ value element, r.cause = .violation (.elementInvalid value element)))
      o.report.reasons o'.report.reasons := by
  obtain ⟨wellFormed', events⟩ := Instance.document_rebroken lines wellFormed
  have started : Session.Matches Frame.Rebroken Cause.Rebroken (.start bundle options)
      (.start bundle options) := ⟨rfl, rfl, .nil, .nil⟩
  have agree := (started.follow_rebroken bundle.pool events ignored).validateDocument .same
    (by rw [wellFormed, wellFormed'])
  refine ⟨agree.verdict, agree.reasons.imp fun r r' same => ⟨same.severity, same.xpath, ?_, ?_⟩⟩
  · exact same.cause.message
  · exact fun other => same.cause.quotes other

def textBundle (type : SimpleType) : Bundle where
  identity := "text"
  symbols := {}
  pool := { grammars := [{
    target := "", systemIds := [],
    elements := { entries := [("text", {
      name := ⟨"", "text"⟩
      type := .inline (.builtin "string") (.simple type)
      nillable := false, default? := none, fixed? := none, isAbstract := false })] } }] }
  validNamespaces := [""]

theorem rebroken_text {content content' : Bytes} (nonempty : content ≠ [])
    (isText : content.all (· != '<'.toUInt8) = true) (lines : Utf8.Rebroken content content') :
    Instance.Rebroken (Instance.ascii "<text>" ++ (content ++ Instance.ascii "</text>"))
      (Instance.ascii "<text>" ++ (content' ++ Instance.ascii "</text>")) := by
  have endTag : Instance.Rebroken (Instance.ascii "</text>") (Instance.ascii "</text>" ++ []) :=
    .kept (s := ⟨.ok (.endTag (Instance.ascii "text")), Instance.ascii "</text>", []⟩) rfl .nothing
  have ends : ∀ b ∈ (Instance.ascii "</text>").head?, b = '<'.toUInt8 := fun b first =>
    (Option.some.inj first).symm
  have inside : Instance.Rebroken (content ++ Instance.ascii "</text>")
      (content' ++ Instance.ascii "</text>") :=
    .content (Instance.scan?_text nonempty (List.all_eq_true.1 isText) ends) rfl rfl lines endTag
  exact .kept (s := ⟨.ok (.startTag (Instance.ascii "text") false), Instance.ascii "<text>",
    content ++ Instance.ascii "</text>"⟩) rfl inside

theorem validate_of_rebroken_text :
    let type : SimpleType :=
      { name := some "short", variety := .atomic .token, whiteSpace := .collapse,
        facets := [.maxLength 2] }
    let o := validate (textBundle type) {} (Instance.ascii "<text>a\nb</text>")
    let o' := validate (textBundle type) {} (Instance.ascii "<text>a\r\nb</text>")
    o.verdict = .notValid ∧ o.verdict = o'.verdict ∧ List.Forall₂
      (fun r r' => r.severity = r'.severity ∧ r.xpath? = r'.xpath? ∧
        Text.Rebroken r.message r'.message ∧ (r.message ≠ r'.message →
          ∃ value element, r.cause = .violation (.elementInvalid value element)))
      o.report.reasons o'.report.reasons := by
  intro type o o'
  have lines : Utf8.Rebroken (Instance.ascii "a\nb") (Instance.ascii "a\r\nb") :=
    .keep _ (.replace (.refl _))
  have changed := rebroken_text (by decide) (by decide) lines
  have collapsed : (endedFrames (textBundle type) {}
      (.ofBytes (Instance.ascii "<text>a\nb</text>"))).all
        (fun frame => frame.valued?.all fun value => value.1.whiteSpace == .collapse) = true := by
    decide +kernel
  refine ⟨by decide +kernel,
    validate_of_rebroken (textBundle type) {} changed (by decide +kernel) ?_⟩
  intro pair member _ type decl valued
  have frame := List.all_eq_true.1 collapsed pair.1 (List.of_mem_zip member).1
  rw [valued] at frame
  exact .inl (beq_iff_eq.1 frame)

/-- A type that keeps white space counts the carriage return. A type that collapses it does not, but
the message that quotes the value is another one. -/
theorem other_verdict_of_rebroken :
    let short (whiteSpace : WhiteSpace) := textBundle
      { name := some "short", variety := .atomic .string, whiteSpace, facets := [.maxLength 1] }
    (∃ bytes bytes', Instance.Rebroken bytes bytes' ∧ 0x0D ∉ bytes ∧
      (Document.ofBytes bytes).fault? = none ∧
      (validate (short .preserve) {} bytes).verdict = .valid ∧
      (validate (short .preserve) {} bytes').verdict = .notValid) ∧
    ∃ bytes bytes', Instance.Rebroken bytes bytes' ∧ 0x0D ∉ bytes ∧
      (Document.ofBytes bytes).fault? = none ∧
      (validate (short .collapse) {} bytes).report.reasons.map Reason.message ≠
        (validate (short .collapse) {} bytes').report.reasons.map Reason.message := by
  intro short
  have value : Utf8.Rebroken (Instance.ascii "a\nb") (Instance.ascii "a\r\nb") :=
    .keep _ (.replace (.refl _))
  constructor
  · exact ⟨_, _, rebroken_text (by decide) (by decide) .one, by decide, by decide +kernel,
      by decide +kernel, by decide +kernel⟩
  · exact ⟨_, _, rebroken_text (by decide) (by decide) value, by decide, by decide +kernel,
      by decide +kernel⟩

end Validation

end XmlSchema
