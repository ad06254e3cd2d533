import XmlSchema.Proofs.Component.Reference
import XmlSchema.Proofs.Schema.Order
import XmlSchema.Proofs.Validation.Cause
import XmlSchema.Validation.Session

namespace XmlSchema.Validation

open Component ContentModel
open Instance (StartTag Event)
open Report (Cause Reason)

def Resolution.Closed (known : Known) (resolution : Resolution) : Prop :=
  ∀ decl, resolution = .declared decl → (Part.declaration decl).Closed known

def Frame.Closed (known : Known) (frame : Frame) : Prop :=
  ∀ type state decl, frame.kind = .complex type state decl →
    (Part.type (.complex type)).Closed known

def NoneMissing (causes : List Cause) : Prop := ∀ cause ∈ causes, cause.isMissing = false

theorem noneMissing_nil : NoneMissing [] := fun _ member => nomatch member

theorem noneMissing_one {v : Violation} (present : (violated v).isMissing = false) :
    NoneMissing [violated v] := by
  intro cause member
  obtain rfl := List.mem_singleton.1 member
  exact present

theorem noneMissing_append {causes more : List Cause} :
    NoneMissing (causes ++ more) ↔ NoneMissing causes ∧ NoneMissing more :=
  List.forall_mem_append

theorem Ordinary.noneMissing {causes : List Cause} (ordinary : Ordinary causes) :
    NoneMissing causes := by
  intro cause member
  have isOrdinary := ordinary cause member
  rw [Cause.isOrdinary, Bool.and_eq_true, Bool.not_eq_true'] at isOrdinary
  exact isOrdinary.2

variable {pool : Pool} {frame : Frame} {checks : SchemaChecks} {tag : StartTag} {name : QName}

theorem closed_skip {known : Known} : Resolution.skip.Closed known := fun _ same => nomatch same

theorem closed_laxLookup (closed : pool.Closed pool.known) :
    (laxLookup pool name).Closed pool.known := by
  intro decl declared
  unfold laxLookup at declared
  split at declared
  · next found =>
    cases declared
    exact closed.element? found
  · cases declared

theorem closed_strictLookup (closed : pool.Closed pool.known) {missing : Violation} :
    (strictLookup pool name missing).1.Closed pool.known := by
  intro decl declared
  unfold strictLookup at declared
  split at declared
  · next found =>
    cases declared
    exact closed.element? found
  · cases declared

theorem noneMissing_strictLookup {missing : Violation}
    (fine : (pool.element? name).isSome ∨ (violated missing).isMissing = false) :
    NoneMissing (strictLookup pool name missing).2 := by
  unfold strictLookup
  split
  · exact noneMissing_nil
  · next absent =>
    rw [absent] at fine
    exact noneMissing_one (by simpa using fine)

theorem resolveLabel_closed (closed : pool.Closed pool.known) {label : Label ElementDecl}
    (elements : ∀ e, label = .element e → (Part.term e).Closed pool.known) :
    (resolveLabel pool name label).1.Closed pool.known ∧
      NoneMissing (resolveLabel pool name label).2 := by
  rcases label with ⟨global, _ | decl⟩ | w
  · have resolves : (pool.element? global).isSome :=
      (Part.closed_iff.1 (elements _ rfl)).1 rfl
    exact ⟨closed_strictLookup closed, noneMissing_strictLookup (.inl resolves)⟩
  · refine ⟨fun decl' same => ?_, noneMissing_nil⟩
    cases same
    exact (Part.closed_iff.1 (elements _ rfl)).2 _ (.localDeclaration rfl)
  · unfold resolveLabel
    dsimp only
    split
    · exact ⟨closed_skip, noneMissing_nil⟩
    · exact ⟨closed_laxLookup closed, noneMissing_nil⟩
    · exact ⟨closed_strictLookup closed, noneMissing_strictLookup (.inr rfl)⟩

theorem resolveInModel_closed (closed : pool.Closed pool.known) {model : ContentModel ElementDecl}
    (state : State) (name : QName) (elements : ∀ e ∈ model.elements, (Part.term e).Closed pool.known) :
    (resolveInModel pool model state name).1.Closed pool.known ∧
      NoneMissing (resolveInModel pool model state name).2.2 := by
  unfold resolveInModel
  cases stepped : model.step state name with
  | none => exact ⟨closed_laxLookup closed, noneMissing_one rfl⟩
  | some result =>
    obtain ⟨label, next⟩ := result
    refine resolveLabel_closed closed fun e same => elements e ?_
    exact ContentModel.mem_elements.2 (same ▸ ContentModel.mem_labels_of_step stepped)

theorem Frame.Closed.child (closedFrame : frame.Closed pool.known)
    (closed : pool.Closed pool.known) (name : QName) :
    (frame.child pool name).1.Closed pool.known ∧
      (frame.child pool name).2.1.Closed pool.known ∧
      NoneMissing (frame.child pool name).2.2 := by
  unfold Frame.child
  split
  · exact ⟨closed_skip, closedFrame, noneMissing_one rfl⟩
  · split
    · exact ⟨closed_skip, closedFrame, noneMissing_nil⟩
    · exact ⟨closed_laxLookup closed, closedFrame, noneMissing_nil⟩
    · exact ⟨closed_skip, closedFrame, noneMissing_one rfl⟩
    · next type state decl kind =>
      have closedType := closedFrame type state decl kind
      have inModel {model : ContentModel ElementDecl}
          (content : type.content.model? = some model) :
          (resolveInModel pool model state name).1.Closed pool.known ∧
            Frame.Closed pool.known
              { frame with kind := .complex type (resolveInModel pool model state name).2.1 decl } ∧
            NoneMissing (resolveInModel pool model state name).2.2 := by
        obtain ⟨resolution, missing⟩ := resolveInModel_closed closed state name
          fun e member => (Part.closed_iff.1 closedType).2 _ (.ofModel rfl content member)
        refine ⟨resolution, fun type' _ _ same => ?_, missing⟩
        cases same
        exact closedType
      split
      · exact ⟨closed_skip, closedFrame, noneMissing_one rfl⟩
      · exact ⟨closed_skip, closedFrame, noneMissing_one rfl⟩
      · next model content => exact inModel (by simp [content, ContentType.model?])
      · next model content => exact inModel (by simp [content, ContentType.model?])

theorem closed_chooseType (closed : pool.Closed pool.known) (tag : StartTag) (element : String)
    (identity : TypeIdentity) {declared : TypeDefinition ElementDecl}
    (closedType : (Part.type declared).Closed pool.known) :
    (Part.type (chooseType pool tag element identity declared).2.1).Closed pool.known := by
  unfold chooseType
  split
  · exact closedType
  · split
    · exact closedType
    · split
      · exact closedType
      · next found =>
        split
        · exact closed.type? found
        · exact closedType

theorem openComplex_closed (checks : SchemaChecks) (identity : TypeIdentity)
    {type : ComplexType ElementDecl} (decl : ElementDecl) (nil : Bool) (tag : StartTag)
    (closedType : (Part.type (.complex type)).Closed pool.known) :
    (openComplex pool checks identity type decl nil tag).1.Closed pool.known ∧
      NoneMissing (openComplex pool checks identity type decl nil tag).2.2 := by
  constructor
  · intro _ _ _ same
    cases same
    exact closedType
  · unfold openComplex
    refine noneMissing_append.2 ⟨noneMissing_append.2 ⟨?_, ?_⟩,
      ordinary_checkAttributes.noneMissing⟩
    · split
      · exact noneMissing_one rfl
      · exact noneMissing_nil
    · unfold SchemaChecks.report
      split
      · exact noneMissing_nil
      · intro cause member
        obtain ⟨_, _, rfl⟩ := List.mem_map.1 member
        rfl

theorem typeOf?_closed {decl : ElementDecl} (closed : pool.Closed pool.known)
    (closedDecl : (Part.declaration decl).Closed pool.known) :
    ∃ declared, pool.typeOf? decl.type = some declared ∧
      (Part.type declared).Closed pool.known := by
  obtain ⟨resolves, inside⟩ := Part.closed_iff.1 closedDecl
  cases given : decl.type with
  | named name =>
    obtain ⟨declared, found⟩ := Option.isSome_iff_exists.1 (resolves name given)
    exact ⟨declared, found, closed.type? found⟩
  | inline key definition => exact ⟨definition, rfl, inside _ (.inlineType given)⟩

theorem noneMissing_before (pool : Pool) (tag : StartTag) (decl : ElementDecl)
    (declared : TypeDefinition ElementDecl) :
    NoneMissing ((if decl.isAbstract then [violated (.abstractElement tag.name.localName)] else []) ++
      (chooseType pool tag tag.name.localName decl.type.identity declared).2.2 ++
        (checkNil decl tag).2) := by
  refine noneMissing_append.2 ⟨noneMissing_append.2 ⟨?_, ordinary_chooseType.noneMissing⟩,
    ordinary_checkNil.noneMissing⟩
  split
  · exact noneMissing_one rfl
  · exact noneMissing_nil

theorem openFrame_closed (closed : pool.Closed pool.known) (checks : SchemaChecks)
    {resolution : Resolution} (closedResolution : resolution.Closed pool.known) (tag : StartTag) :
    (openFrame pool checks resolution tag).1.Closed pool.known ∧
      NoneMissing (openFrame pool checks resolution tag).2.2 := by
  cases resolution with
  | skip | lax => exact ⟨fun _ _ _ same => (by cases same), noneMissing_nil⟩
  | declared decl =>
    obtain ⟨declared, found, closedDeclared⟩ := typeOf?_closed closed (closedResolution decl rfl)
    have closedType := closed_chooseType closed tag tag.name.localName decl.type.identity
      closedDeclared
    have before := noneMissing_before pool tag decl declared
    simp only [openFrame, openDeclared, found]
    revert closedType before
    rcases chooseType pool tag tag.name.localName decl.type.identity declared with
      ⟨identity, type, typeCauses⟩
    intro closedType before
    cases type with
    | simple type =>
      exact ⟨fun _ _ _ same => (by cases same),
        noneMissing_append.2 ⟨before, (ordinary_map fun _ => rfl).noneMissing⟩⟩
    | anyType =>
      obtain ⟨frame, causes⟩ := openComplex_closed checks identity decl (checkNil decl tag).1 tag
        (closedType.ofComplex? rfl)
      exact ⟨frame, noneMissing_append.2 ⟨before, causes⟩⟩
    | complex type =>
      obtain ⟨frame, causes⟩ := openComplex_closed checks identity decl (checkNil decl tag).1 tag
        closedType
      exact ⟨frame, noneMissing_append.2 ⟨before, causes⟩⟩

theorem Frame.Closed.characters {known : Known} (closed : frame.Closed known) (text : String) :
    (frame.characters text).1.Closed known := by
  unfold Frame.characters
  split
  · exact closed
  · exact closed
  · split <;> exact closed

namespace Session

def TypesFound (reasons : List Reason) : Prop :=
  ∀ reason ∈ reasons, ∀ element, reason.cause ≠ .violation (.missingType element)

theorem typesFound_errorsAt {monitor : Structure.Monitor} {location : Location}
    {causes : List Cause}
    (found : ∀ cause ∈ causes, ∀ element, cause ≠ .violation (.missingType element)) :
    TypesFound (errorsAt monitor location causes) := by
  intro reason member
  obtain ⟨cause, among, rfl⟩ := List.mem_map.1 member
  exact found cause among

theorem typesFound_of_noneMissing {causes : List Cause} (none : NoneMissing causes) :
    ∀ cause ∈ causes, ∀ element, cause ≠ .violation (.missingType element) := by
  rintro cause member element rfl
  cases none _ member

theorem typesFound_structureReasons {monitor : Structure.Monitor} {location : Location}
    {faults : List Structure.RootFault} {warning : Option Structure.NamespaceWarning} :
    TypesFound (structureReasons monitor location faults warning) := by
  intro reason member element
  simp only [structureReasons, errorsAt, List.mem_append, List.mem_map, Option.mem_toList] at member
  rcases member with ⟨cause, ⟨fault, _, rfl⟩, rfl⟩ | ⟨w, _, rfl⟩ <;> exact fun same => nomatch same

structure Sound (known : Known) (s : Session) : Prop where
  frames : ∀ frame ∈ s.frames, frame.Closed known
  found : TypesFound s.found

variable {s : Session}

theorem Sound.add {known : Known} {reasons : List Reason} (sound : s.Sound known)
    (fine : TypesFound reasons) : (s.add reasons).Sound known := by
  refine ⟨sound.frames, fun reason member => ?_⟩
  rcases List.mem_append.1 member with member | member
  · exact fine reason (List.mem_reverse.1 member)
  · exact sound.found reason member

theorem Sound.resolve (sound : s.Sound pool.known) (closed : pool.Closed pool.known)
    (name : QName) :
    (resolve pool s.frames name).1.Closed pool.known ∧
      (∀ frame ∈ (Session.resolve pool s.frames name).2.1, frame.Closed pool.known) ∧
      ∀ cause ∈ (Session.resolve pool s.frames name).2.2, ∀ element,
        cause ≠ .violation (.missingType element) := by
  have closedFrames := sound.frames
  revert closedFrames
  cases s.frames with
  | nil =>
    intro _
    refine ⟨closed_strictLookup closed, fun _ member => (nomatch member), ?_⟩
    intro cause member element
    simp only [Session.resolve, resolveRoot, strictLookup] at member
    split at member
    · cases member
    · obtain rfl := List.mem_singleton.1 member
      exact fun same => nomatch same
  | cons parent outer =>
    intro closedFrames
    obtain ⟨closedParent, closedOuter⟩ := List.forall_mem_cons.1 closedFrames
    obtain ⟨resolution, frame, causes⟩ := closedParent.child closed name
    exact ⟨resolution, List.forall_mem_cons.2 ⟨frame, closedOuter⟩, typesFound_of_noneMissing causes⟩

theorem Sound.handle (sound : s.Sound pool.known) (closed : pool.Closed pool.known) (event : Event)
    (location : Location) : (s.handle pool event location).Sound pool.known := by
  cases event with
  | start tag =>
    obtain ⟨resolution, outer, childCauses⟩ := sound.resolve closed tag.name
    obtain ⟨frame, causes⟩ := openFrame_closed closed s.checks resolution tag
    refine ⟨List.forall_mem_cons.2 ⟨frame, outer⟩, fun reason member => ?_⟩
    -- New reasons come from the structure, from the parent or from the frame that opens.
    rcases List.mem_append.1 member with member | member
    · rcases List.mem_append.1 (List.mem_reverse.1 member) with member | member
      · exact typesFound_structureReasons reason member
      · refine typesFound_errorsAt (fun cause among => ?_) reason member
        rcases List.mem_append.1 among with among | among
        · exact childCauses cause among
        · exact typesFound_of_noneMissing causes cause among
    · exact sound.found reason member
  | text content =>
    simp only [Session.handle, Session.characters]
    split
    · exact sound
    · next frame outer frames =>
      have closedFrames := sound.frames
      rw [frames] at closedFrames
      obtain ⟨closedFrame, closedOuter⟩ := List.forall_mem_cons.1 closedFrames
      have kept : Sound pool.known { s with frames := (frame.characters content).1 :: outer } :=
        ⟨List.forall_mem_cons.2 ⟨closedFrame.characters content, closedOuter⟩, sound.found⟩
      exact kept.add (typesFound_errorsAt (typesFound_of_noneMissing
        ordinary_characters.noneMissing))
  | finish =>
    have kept : Sound pool.known
        { s with frames := s.frames.tail, monitor := s.monitor.endElement } :=
      ⟨fun frame member => sound.frames frame (List.mem_of_mem_tail member), sound.found⟩
    refine kept.add (typesFound_errorsAt (typesFound_of_noneMissing ?_))
    split
    · exact noneMissing_nil
    · exact ordinary_close.noneMissing

theorem Sound.follow (sound : s.Sound pool.known) (closed : pool.Closed pool.known)
    (events : List (Event × Location)) : (s.follow pool events).Sound pool.known := by
  induction events generalizing s with
  | nil => exact sound
  | cons event events ih => exact ih (sound.handle closed event.1 event.2)

end Session

/-- Nothing that is reachable from a component of a compiled schema set refers to something that is
not there. So a session never finds that the type of a declaration is missing, or that the
declaration is missing that an element of a content model refers to. -/
theorem references_resolve_of_compile {files : Files.Tree} {discover : Bool} {identity : String}
    {sources : List Schema.Source} {bundle : Bundle}
    (compiled : Schema.compile files discover identity sources = .ok bundle) :
    (∀ g ∈ bundle.pool.grammars, ∀ component, g.Has component → ∀ part,
      Relation.ReflTransGen Part.Contains component part → part.Resolves bundle.pool.known) ∧
    ∀ options events,
      (∀ reason ∈ ((Session.start bundle options).follow bundle.pool events).found, ∀ element,
        reason.cause ≠ .violation (.missingType element)) ∧
      ∀ parent ∈ ((Session.start bundle options).follow bundle.pool events).frames, ∀ name,
        ∀ cause ∈ (parent.child bundle.pool name).2.2, ∀ element,
          cause ≠ .violation (.undeclaredElement element) := by
  have closed := Schema.closed_of_compile compiled
  refine ⟨closed, fun options events => ?_⟩
  have start : (Session.start bundle options).Sound bundle.pool.known :=
    ⟨fun _ member => (nomatch member), fun _ member => (nomatch member)⟩
  have sound := start.follow closed events
  refine ⟨sound.found, fun parent member name cause among element same => ?_⟩
  obtain ⟨_, _, none⟩ := (sound.frames parent member).child closed name
  subst same
  cases none _ among

theorem references_resolve_of_commonSource_orderSource :
    ∃ bundle, Schema.compile {} false "orders" [Schema.commonSource, Schema.orderSource] =
        .ok bundle ∧ bundle.pool.Closed bundle.pool.known ∧
      ∀ options events, ∀ reason ∈ ((Session.start bundle options).follow bundle.pool events).found,
        ∀ element, reason.cause ≠ .violation (.missingType element) := by
  obtain ⟨bundle, compiled⟩ := Schema.exists_compile_commonSource_orderSource
  obtain ⟨closed, found⟩ := references_resolve_of_compile compiled
  exact ⟨bundle, compiled, closed, fun options events => (found options events).1⟩

end XmlSchema.Validation
