import Mathlib.Tactic.Tauto
import XmlSchema.Proofs.Validation.Cause
import XmlSchema.Proofs.Validation.OpenElement
import XmlSchema.Validation.Session

/-!
# Sessions judge whole elements

A session sees an element spread over events, with the elements inside in between. It complains of
more than the structure exactly when the element is not valid as a whole
(`onlyStructural_iff_isValidRoot`). The simulation goes over the events of an element: they leave the
frames around it as the start tag left them (`follow_element`), and inside of it the innermost frame
fits what has been read so far (`follow_content`).
-/

namespace XmlSchema

open Component ContentModel Datatype
open Instance (StartTag Event)

namespace Validation

open Report (Cause Reason)

/-! ## Causes of content -/

def OfContent (causes : List Cause) : Prop := ∀ cause ∈ causes, cause.isStructural = false

@[simp] theorem ofContent_nil : OfContent [] := fun _ member => nomatch member

@[simp] theorem ofContent_append {causes more : List Cause} :
    OfContent (causes ++ more) ↔ OfContent causes ∧ OfContent more :=
  List.forall_mem_append

theorem Required.ofContent {causes : List Cause} (required : Required causes) :
    OfContent causes := by
  intro cause member
  have isRequired := required cause member
  simp only [Cause.isRequired, Bool.and_eq_true, Bool.not_eq_true'] at isRequired
  exact isRequired.1

theorem Ordinary.ofContent {causes : List Cause} (ordinary : Ordinary causes) : OfContent causes :=
  ordinary.required.ofContent

variable {pool : Pool} {frame : Frame} {checks : SchemaChecks} {tag : StartTag}

theorem ofContent_report {identity : TypeIdentity} {type : ComplexType ElementDecl} :
    OfContent (checks.report identity type).2 := by
  unfold SchemaChecks.report
  split
  · simp
  · intro cause member
    obtain ⟨violation, _, rfl⟩ := List.mem_map.1 member
    rfl

theorem ofContent_openFrame {resolution : Resolution} :
    OfContent (openFrame pool checks resolution tag).2.2 := by
  cases opens_openFrame pool resolution tag with
  | unchecked frame causes required eq =>
    rw [eq]
    exact required.ofContent
  | checked frame identity type isType before after required eq =>
    obtain ⟨ofBefore, ofAfter⟩ := required_append.1 required
    rw [eq]
    simp [ofBefore.ofContent, ofAfter.ofContent, ofContent_report]

theorem required_resolve {frames : List Frame} {name : QName} :
    Required (Session.resolve pool frames name).2.2 := by
  cases frames with
  | nil => exact required_strictLookup
  | cons parent outer => exact required_child

theorem ofContent_resolve {frames : List Frame} {name : QName} :
    OfContent (Session.resolve pool frames name).2.2 :=
  required_resolve.ofContent

/-! ## What sessions find -/

/-- Some reasons are but matters of the structure. -/
def OnlyStructural (reasons : List Reason) : Prop :=
  ∀ reason ∈ reasons, reason.cause.isStructural = true

@[simp] theorem onlyStructural_append {reasons more : List Reason} :
    OnlyStructural (reasons ++ more) ↔ OnlyStructural reasons ∧ OnlyStructural more :=
  List.forall_mem_append

@[simp] theorem onlyStructural_reverse {reasons : List Reason} :
    OnlyStructural reasons.reverse ↔ OnlyStructural reasons := by
  simp [OnlyStructural]

namespace Session

variable {s : Session} {location : Location}

theorem onlyStructural_errorsAt {causes : List Cause} {monitor : Structure.Monitor}
    (ofContent : OfContent causes) :
    OnlyStructural (errorsAt monitor location causes) ↔ causes = [] := by
  constructor
  · intro structural
    refine List.eq_nil_iff_forall_not_mem.2 fun cause member => ?_
    have isStructural := structural _ (List.mem_map_of_mem member)
    rw [ofContent cause member] at isStructural
    cases isStructural
  · rintro rfl
    exact fun _ member => nomatch member

theorem onlyStructural_structureReasons {monitor : Structure.Monitor}
    {faults : List Structure.RootFault} {warning : Option Structure.NamespaceWarning} :
    OnlyStructural (structureReasons monitor location faults warning) := by
  intro reason member
  simp only [structureReasons, errorsAt, List.mem_append, List.mem_map, Option.mem_toList] at member
  rcases member with ⟨cause, ⟨fault, _, rfl⟩, rfl⟩ | ⟨w, _, rfl⟩ <;> rfl

theorem frames_startElement : (s.startElement pool tag location).frames =
    (openFrame pool s.checks (resolve pool s.frames tag.name).1 tag).1 ::
      (resolve pool s.frames tag.name).2.1 := rfl

theorem onlyStructural_startElement (pool : Pool) (tag : StartTag) (location : Location) :
    OnlyStructural (s.startElement pool tag location).found ↔
      ((resolve pool s.frames tag.name).2.2 = [] ∧
        (openFrame pool s.checks (resolve pool s.frames tag.name).1 tag).2.2 = []) ∧
      OnlyStructural s.found := by
  have ofContent : OfContent ((resolve pool s.frames tag.name).2.2 ++
      (openFrame pool s.checks (resolve pool s.frames tag.name).1 tag).2.2) :=
    ofContent_append.2 ⟨ofContent_resolve, ofContent_openFrame⟩
  simp only [startElement, onlyStructural_append, onlyStructural_reverse,
    onlyStructural_structureReasons, onlyStructural_errorsAt ofContent, List.append_eq_nil_iff,
    true_and]

theorem onlyStructural_characters {outer : List Frame} (frames : s.frames = frame :: outer)
    (text : String) (location : Location) :
    OnlyStructural (s.characters text location).found ↔
      (frame.characters text).2 = [] ∧ OnlyStructural s.found := by
  simp only [characters, frames, add, onlyStructural_append, onlyStructural_reverse,
    onlyStructural_errorsAt ordinary_characters.ofContent]

theorem onlyStructural_endElement {outer : List Frame} (frames : s.frames = frame :: outer) :
    OnlyStructural (s.endElement location).found ↔ frame.close = [] ∧ OnlyStructural s.found := by
  simp only [endElement, frames, add, onlyStructural_append, onlyStructural_reverse,
    onlyStructural_errorsAt ordinary_close.ofContent]

theorem found_subset_handle {event : Event} : s.found ⊆ (s.handle pool event location).found := by
  cases event with
  | start tag => exact List.subset_append_right ..
  | finish => exact List.subset_append_right ..
  | text content =>
    simp only [handle, characters]
    split
    · exact List.Subset.refl _
    · exact List.subset_append_right ..

theorem found_subset_follow (pool : Pool) (s : Session) (events : List (Event × Location)) :
    s.found ⊆ (s.follow pool events).found := by
  induction events generalizing s with
  | nil => exact List.Subset.refl _
  | cons event events ih => exact List.Subset.trans found_subset_handle (ih _)

theorem follow_cons (pool : Pool) (s : Session) (event : Event) (events : List (Event × Location)) :
    s.follow pool ((event, location) :: events) =
      (s.handle pool event location).follow pool events := rfl

theorem follow_append (pool : Pool) (s : Session) (events more : List (Event × Location)) :
    s.follow pool (events ++ more) = (s.follow pool events).follow pool more :=
  List.foldl_append

theorem exists_follow_eq (pool : Pool) (s : Session) {tag : StartTag} {content : List ContentNode}
    {events : List (Event × Location)}
    (same : events.map Prod.fst = (ElementTree.mk tag content).events) :
    ∃ location inside ending, inside.map Prod.fst = contentEvents content ∧
      s.follow pool events =
        ((s.startElement pool tag location).follow pool inside).endElement ending := by
  simp only [ElementTree.events, List.map_eq_cons_iff, List.map_eq_append_iff,
    List.map_eq_nil_iff] at same
  obtain ⟨⟨_, location⟩, _, rfl, rfl, inside, _, rfl, sameInside, ⟨_, ending⟩, _, rfl, rfl, rfl⟩ :=
    same
  refine ⟨location, inside, ending, sameInside, ?_⟩
  rw [follow_cons, follow_append]
  rfl

theorem onlyStructural_of_follow {events : List (Event × Location)}
    (structural : OnlyStructural (s.follow pool events).found) : OnlyStructural s.found :=
  fun reason member => structural reason (found_subset_follow pool s events member)

/-! ## The simulation -/

mutual

theorem follow_element (pool : Pool) (s : Session) (disabled : s.checks.enabled = false) :
    (t : ElementTree) → (events : List (Event × Location)) → events.map Prod.fst = t.events →
      (s.follow pool events).frames = (resolve pool s.frames t.tag.name).2.1 ∧
      (s.follow pool events).checks = s.checks ∧
      (OnlyStructural (s.follow pool events).found ↔
        ((resolve pool s.frames t.tag.name).2.2 = [] ∧
          t.isValid pool (resolve pool s.frames t.tag.name).1 = true) ∧ OnlyStructural s.found)
  | ⟨tag, content⟩, events, same => by
      obtain ⟨location, inside, ending, sameInside, follows⟩ := exists_follow_eq pool s same
      have checks : (s.startElement pool tag location).checks = s.checks := openFrame_checks disabled
      obtain ⟨last, frames, checksInside, judged⟩ := follow_content pool
        (s.startElement pool tag location) (by rw [checks]; exact disabled) frames_startElement
        content inside sameInside
      rw [follows]
      refine ⟨by simp [endElement, add, frames], by simp [endElement, add, checksInside, checks], ?_⟩
      rw [onlyStructural_endElement frames]
      have begins := onlyStructural_startElement pool tag location (s := s)
      -- A complaint about the start tag stays, and then nothing that follows makes the element valid.
      by_cases silent : (openFrame pool s.checks (resolve pool s.frames tag.name).1 tag).2.2 = []
      · obtain ⟨children, demand, demands, fits⟩ := fits_openFrame disabled silent
        rw [judged children demand [] "" fits, begins]
        simp only [ElementTree.isValid, demands, silent, Bool.and_eq_true, List.nil_append,
          String.empty_append]
        tauto
      · have refused := demands?_eq_none disabled silent
        simp only [ElementTree.isValid, refused, Bool.false_eq_true, and_false, false_and, iff_false,
          not_and]
        intro _ structural
        exact silent (begins.1 (onlyStructural_of_follow structural)).1.2

theorem follow_content (pool : Pool) (s : Session) (disabled : s.checks.enabled = false)
    {frame : Frame} {outer : List Frame} (frames : s.frames = frame :: outer) :
    (content : List ContentNode) → (events : List (Event × Location)) →
      events.map Prod.fst = contentEvents content →
      ∃ last, (s.follow pool events).frames = last :: outer ∧
        (s.follow pool events).checks = s.checks ∧
        ∀ children demand before text, Fits frame children demand before text →
          ((last.close = [] ∧ OnlyStructural (s.follow pool events).found) ↔
            (children.admits (before ++ childNames content) = true ∧
              demand.admits (text ++ wholeText content) = true ∧
              childrenAreValid pool children before content = true) ∧ OnlyStructural s.found)
  | [], events, same => by
      obtain rfl := List.map_eq_nil_iff.1 same
      refine ⟨frame, frames, rfl, fun children demand before text fits => ?_⟩
      simp only [childNames, wholeText, childrenAreValid, List.append_nil, String.append_empty,
        and_true, fits.close_eq_nil]
      rfl
  | .text piece :: rest, events, same => by
      simp only [contentEvents, List.map_eq_cons_iff] at same
      obtain ⟨⟨_, location⟩, later, rfl, rfl, same⟩ := same
      have read : (s.characters piece location).frames = (frame.characters piece).1 :: outer := by
        simp [characters, frames, add]
      have checks : (s.characters piece location).checks = s.checks := by
        simp [characters, frames, add]
      obtain ⟨last, framesAfter, checksAfter, judged⟩ := follow_content pool
        (s.characters piece location) (by rw [checks]; exact disabled) read rest later same
      refine ⟨last, framesAfter, checksAfter.trans checks, fun children demand before text fits => ?_⟩
      rw [follow_cons, handle]
      have found := onlyStructural_characters frames piece location
      simp only [childNames, wholeText, childrenAreValid]
      -- Text is complained of only if no text that it is a part of is admitted.
      by_cases silent : (frame.characters piece).2 = []
      · rw [judged children demand before _ (fits.characters silent), found, String.append_assoc]
        simp [silent]
      · rw [← String.append_assoc, fits.characters_refused silent]
        simp only [Bool.false_eq_true, false_and, and_false, iff_false, not_and]
        intro _ structural
        exact silent (found.1 (onlyStructural_of_follow structural)).1
  | .child element :: rest, events, same => by
      simp only [contentEvents, List.map_eq_append_iff] at same
      obtain ⟨inside, later, rfl, sameInside, same⟩ := same
      obtain ⟨framesInside, checks, found⟩ := follow_element pool s disabled element inside sameInside
      simp only [frames, resolve] at framesInside found
      obtain ⟨last, framesAfter, checksAfter, judged⟩ := follow_content pool
        (s.follow pool inside) (by rw [checks]; exact disabled) framesInside rest later same
      refine ⟨last, by rw [follow_append]; exact framesAfter,
        by rw [follow_append, checksAfter, checks], fun children demand before text fits => ?_⟩
      rw [follow_append]
      simp only [childNames, wholeText, childrenAreValid]
      -- After a child that is complained of the frame fits nothing, but the verdict stands already.
      by_cases silent : (frame.child pool element.tag.name).2.2 = []
      · obtain ⟨resolved, next⟩ := fits.child silent
        rw [judged children demand _ text next, found, List.append_assoc, resolved]
        simp only [silent, true_and, List.cons_append, List.nil_append, Bool.and_eq_true]
        tauto
      · rw [fits.child_refused silent]
        simp only [Bool.false_and, Bool.false_eq_true, false_and, and_false, iff_false, not_and]
        intro _ structural
        exact silent (found.1 (onlyStructural_of_follow structural)).1.1

end

end Session

/-- A session that has followed the events of an element has found no more than matters of the
structure if and only if the element is valid as the root of a document. -/
theorem onlyStructural_iff_isValidRoot (bundle : Bundle) {options : Options}
    (disabled : options.fullSchemaChecking = false) (t : ElementTree)
    {events : List (Event × Location)} (ofTree : events.map Prod.fst = t.events) :
    OnlyStructural ((Session.start bundle options).follow bundle.pool events).found ↔
      t.isValidRoot bundle.pool = true := by
  have found := (Session.follow_element bundle.pool (.start bundle options) disabled t events
    ofTree).2.2
  have clean : OnlyStructural (Session.start bundle options).found := fun _ member => nomatch member
  rw [and_iff_left clean] at found
  refine found.trans ?_
  simp only [Session.start, Session.resolve, resolveRoot, strictLookup, ElementTree.isValidRoot]
  cases bundle.pool.element? t.tag.name <;> simp

def itemsBundle : Bundle where
  identity := "items"
  symbols := {}
  pool := { grammars := [{
    target := "", systemIds := [],
    elements := { entries := [("list", {
      name := ⟨"", "list"⟩
      type := .inline (.builtin "list") (.complex {
        key := .builtin "list", name := none, base := none, isAbstract := false, particle := none, mixed := false
        content := .elementOnly ((ContentModel.build itemParticle).toOption.getD .empty)
        attributes := [], attributeWildcard := none, violations := [] })
      nillable := false, default? := none, fixed? := none, isAbstract := false })] } }] }
  validNamespaces := []
where
  itemParticle : ContentModel.Particle ElementDecl :=
    ⟨0, none, .element ⟨⟨"", "item"⟩, some {
      name := ⟨"", "item"⟩
      type := .inline (.builtin "language") (.simple (.builtin .language))
      nillable := true, default? := none, fixed? := none, isAbstract := false }⟩⟩

def listOf (text : String) : ElementTree :=
  ⟨⟨⟨"", "list"⟩, [], none⟩, [
    .child ⟨⟨⟨"", "item"⟩, [], none⟩, [.text text]⟩,
    .text " ",
    .child ⟨⟨⟨"", "item"⟩, [⟨nilAttribute, "true"⟩], none⟩, []⟩]⟩

theorem onlyStructural_listOf :
    OnlyStructural ((Session.start itemsBundle {}).follow itemsBundle.pool
      ((listOf "en").events.map (·, ⟨1, 1⟩))).found ∧
    ¬ OnlyStructural ((Session.start itemsBundle {}).follow itemsBundle.pool
      ((listOf "e n").events.map (·, ⟨1, 1⟩))).found := by
  have valid : (listOf "en").isValidRoot itemsBundle.pool = true := by decide +kernel
  have invalid : (listOf "e n").isValidRoot itemsBundle.pool = false := by decide +kernel
  constructor
  · exact (onlyStructural_iff_isValidRoot itemsBundle rfl (listOf "en") (by rfl)).2 valid
  · intro structural
    rw [onlyStructural_iff_isValidRoot itemsBundle rfl (listOf "e n") (by rfl), invalid] at structural
    cases structural

end Validation

end XmlSchema
