import XmlSchema.Proofs.Validation.Correspondence

/-!
# Elements that are skipped

Nothing in an element that is skipped is checked against a schema: its descendants are skipped as
well, whatever they ask for, and its text is not looked at. So the session comes out of the content of
such an element as it went in, but for what the monitor has seen (`Session.Inert`), and what stands in
it has no effect on what the grammar finds elsewhere (`skipped_content_is_inert`).
-/

namespace XmlSchema.Validation

open Component (Pool QName)
open Instance (Document Event StartTag)
open Report (Cause Kinds Reason)

variable {pool : Pool} {frame : Frame} {outer : List Frame} {checks : SchemaChecks}

/-! ## Skipped frames -/

structure Frame.Skips (frame : Frame) : Prop where
  kind : frame.kind = .skip
  nil : frame.nil = false

theorem Frame.Skips.child (skips : frame.Skips) (name : QName) :
    frame.child pool name = (.skip, frame, []) := by
  simp [Frame.child, skips.nil, skips.kind]

theorem Frame.Skips.characters (skips : frame.Skips) (text : String) :
    frame.characters text = (frame, []) := by
  simp [Frame.characters, Frame.textUse, skips.nil, skips.kind]

theorem Frame.Skips.close (skips : frame.Skips) : frame.close = [] := by
  simp [Frame.close, skips.nil, skips.kind]

def Frame.IsPlain (frame : Frame) : Prop := frame.kind = .skip → frame.nil = false

theorem isPlain_openFrame {resolution : Resolution} {tag : StartTag} :
    (openFrame pool checks resolution tag).1.IsPlain := by
  cases resolution with
  | skip => exact fun _ => rfl
  | lax => exact fun _ => rfl
  | declared decl =>
    rw [openFrame, openDeclared]
    dsimp only
    split
    · exact fun skipped => by cases skipped
    · split <;> exact fun skipped => by cases skipped

theorem Frame.IsPlain.child (plain : frame.IsPlain) (name : QName) :
    (frame.child pool name).2.1.IsPlain := by
  unfold Frame.child
  repeat' split
  all_goals first | exact plain | exact fun skipped => by cases skipped

theorem Frame.IsPlain.characters (plain : frame.IsPlain) (text : String) :
    (frame.characters text).1.IsPlain := by
  unfold Frame.characters
  repeat' split
  all_goals exact plain

/-! ## Reasons of the grammar -/

def ofGrammar (reasons : List Reason) : List Reason :=
  reasons.filter fun r => !r.cause.isStructural

theorem among_schemas (reasons : List Reason) :
    ({ schemas := true } : Kinds).among reasons = ofGrammar reasons := by
  refine List.filter_congr fun r _ => ?_
  cases r.cause <;> rfl

theorem ofGrammar_of_onlyStructural {reasons : List Reason} (structural : OnlyStructural reasons) :
    ofGrammar reasons = [] :=
  List.filter_eq_nil_iff.2 fun r member => by simp [structural r member]

namespace Session

variable {s s' s'' : Session} {location : Location}

theorem isPlain_handle (plain : ∀ frame ∈ s.frames, frame.IsPlain) (pool : Pool) (event : Event)
    (location : Location) : ∀ frame ∈ (s.handle pool event location).frames, frame.IsPlain := by
  cases event with
  | start tag =>
    rw [handle, frames_startElement, List.forall_mem_cons]
    refine ⟨isPlain_openFrame, ?_⟩
    cases opened : s.frames with
    | nil => exact fun _ none => nomatch none
    | cons parent outer =>
      rw [opened, List.forall_mem_cons] at plain
      exact List.forall_mem_cons.2 ⟨plain.1.child _, plain.2⟩
  | text content =>
    rw [handle, characters]
    cases opened : s.frames with
    | nil => simp [opened]
    | cons frame outer =>
      rw [opened, List.forall_mem_cons] at plain
      exact List.forall_mem_cons.2 ⟨plain.1.characters _, plain.2⟩
  | finish => exact fun frame member => plain frame (List.mem_of_mem_tail member)

theorem isPlain_follow (plain : ∀ frame ∈ s.frames, frame.IsPlain) (pool : Pool)
    (events : List (Event × Location)) :
    ∀ frame ∈ (s.follow pool events).frames, frame.IsPlain := by
  induction events generalizing s with
  | nil => exact plain
  | cons next events ih => exact ih (isPlain_handle plain pool next.1 next.2)

/-! ## The content of a skipped element -/

/-- A session has come out of some events as it went in, but for what it knows of the structure. -/
structure Inert (s s' : Session) : Prop where
  frames : s'.frames = s.frames
  checks : s'.checks = s.checks
  path : s'.monitor.path = s.monitor.path
  found : ∃ new, s'.found = new ++ s.found ∧ OnlyStructural new

theorem Inert.refl (s : Session) : Inert s s :=
  ⟨rfl, rfl, rfl, [], rfl, fun _ none => nomatch none⟩

theorem Inert.trans (first : Inert s s') (next : Inert s' s'') : Inert s s'' where
  frames := next.frames.trans first.frames
  checks := next.checks.trans first.checks
  path := next.path.trans first.path
  found := by
    obtain ⟨new, found, structural⟩ := first.found
    obtain ⟨newer, found', structural'⟩ := next.found
    exact ⟨newer ++ new, by rw [found', found, List.append_assoc],
      onlyStructural_append.2 ⟨structural', structural⟩⟩

theorem inert_characters (frames : s.frames = frame :: outer) (skips : frame.Skips)
    (text : String) (location : Location) : Inert s (s.characters text location) := by
  simp only [characters, frames, skips.characters]
  exact ⟨frames.symm, rfl, rfl, [], rfl, fun _ none => nomatch none⟩

theorem startElement_of_skips (frames : s.frames = frame :: outer) (skips : frame.Skips)
    (pool : Pool) (tag : StartTag) (location : Location) :
    ∃ inner : Frame, inner.Skips ∧
      (s.startElement pool tag location).frames = inner :: s.frames ∧
      (s.startElement pool tag location).checks = s.checks ∧
      ∃ new, (s.startElement pool tag location).found = new ++ s.found ∧ OnlyStructural new := by
  refine ⟨{ localName := tag.name.localName, kind := .skip }, ⟨rfl, rfl⟩, ?_, ?_, ?_⟩
  · simp [frames_startElement, frames, resolve, skips.child, openFrame]
  · simp [checks_startElement, frames, resolve, skips.child, openFrame]
  · refine ⟨_, found_startElement pool tag location, ?_⟩
    simp only [frames, resolve, skips.child, openFrame, List.append_nil, errorsAt, List.map_nil,
      onlyStructural_reverse, onlyStructural_structureReasons]

theorem endElement_of_skips (frames : s.frames = frame :: outer) (skips : frame.Skips)
    (location : Location) :
    (s.endElement location).frames = outer ∧ (s.endElement location).checks = s.checks ∧
      (s.endElement location).found = s.found := by
  simp [endElement, add, frames, skips.close, errorsAt]

mutual

theorem inert_element (pool : Pool) (s : Session) {frame : Frame} {outer : List Frame}
    (frames : s.frames = frame :: outer) (skips : frame.Skips) :
    (t : ElementTree) → (events : List (Event × Location)) → events.map Prod.fst = t.events →
      Inert s (s.follow pool events)
  | ⟨tag, content⟩, events, same => by
      obtain ⟨location, inside, ending, sameInside, follows⟩ := exists_follow_eq pool s same
      obtain ⟨inner, skipsInner, opened, checks, new, found, structural⟩ :=
        startElement_of_skips frames skips pool tag location
      have within := inert_content pool (s.startElement pool tag location) opened skipsInner content
        inside sameInside
      obtain ⟨framesEnd, checksEnd, foundEnd⟩ :=
        endElement_of_skips (within.frames.trans opened) skipsInner ending
      obtain ⟨newer, foundInside, structural'⟩ := within.found
      rw [follows]
      refine ⟨framesEnd, by rw [checksEnd, within.checks, checks], ?_, newer ++ new, ?_,
        onlyStructural_append.2 ⟨structural', structural⟩⟩
      · rw [monitor_endElement, Structure.Monitor.endElement, within.path, monitor_startElement,
          Structure.Monitor.path_startElement, List.tail_cons]
      · rw [foundEnd, foundInside, found, List.append_assoc]

theorem inert_content (pool : Pool) (s : Session) {frame : Frame} {outer : List Frame}
    (frames : s.frames = frame :: outer) (skips : frame.Skips) :
    (content : List ContentNode) → (events : List (Event × Location)) →
      events.map Prod.fst = contentEvents content → Inert s (s.follow pool events)
  | [], events, same => by
      obtain rfl := List.map_eq_nil_iff.1 same
      exact .refl s
  | .text piece :: rest, events, same => by
      simp only [contentEvents, List.map_eq_cons_iff] at same
      obtain ⟨⟨_, location⟩, later, rfl, rfl, same⟩ := same
      have first := inert_characters frames skips piece location
      exact first.trans (inert_content pool _ (first.frames.trans frames) skips rest later same)
  | .child element :: rest, events, same => by
      simp only [contentEvents, List.map_eq_append_iff] at same
      obtain ⟨inside, later, rfl, sameInside, same⟩ := same
      have first := inert_element pool s frames skips element inside sameInside
      rw [follow_append]
      exact first.trans (inert_content pool _ (first.frames.trans frames) skips rest later same)

end

theorem Inert.ofGrammar_found (inert : Inert s s') : ofGrammar s'.found = ofGrammar s.found := by
  obtain ⟨new, found, structural⟩ := inert.found
  rw [found, ofGrammar, List.filter_append]
  exact congrArg (· ++ _) (ofGrammar_of_onlyStructural structural)

theorem Inert.alike (first : Inert s s') (other : Inert s s'') :
    Alike { schemas := true } s' s'' where
  frames := first.frames.trans other.frames.symm
  path := first.path.trans other.path.symm
  roots := nofun
  namespaces := nofun
  checks _ := first.checks.trans other.checks.symm
  found := by
    rw [among_schemas, among_schemas, first.ofGrammar_found, other.ofGrammar_found]

/-! ## The same elements at other places -/

theorem keeps_eq (pool : Pool) : Keeps pool Eq Eq Eq where
  frame _ := rfl
  cause _ := rfl
  child := by
    rintro frame _ name rfl
    exact ⟨rfl, rfl, forall₂_self (fun _ => rfl) _⟩
  characters := by
    rintro frame _ text _ rfl rfl
    exact ⟨rfl, forall₂_self (fun _ => rfl) _⟩

theorem matches_self (s : Session) : Matches Eq Eq s s where
  monitor := rfl
  checks := rfl
  frames := forall₂_self (fun _ => rfl) _
  found := forall₂_self (fun _ => ⟨rfl, rfl, rfl⟩) _

theorem Matches.handle_eq (same : Matches Eq Eq s s') (pool : Pool) (event : Event)
    (location location' : Location) :
    Matches Eq Eq (s.handle pool event location) (s'.handle pool event location') := by
  cases event with
  | start tag => exact same.startElement (keeps_eq pool) tag
  | text content => exact same.characters (keeps_eq pool) rfl
  | finish =>
    have frames : s.frames = s'.frames := by simpa [List.forall₂_eq_eq_eq] using same.frames
    exact same.endElement (by rw [closing, closing, frames]; exact forall₂_self (fun _ => rfl) _)

theorem Matches.follow_eq (same : Matches Eq Eq s s') (pool : Pool)
    {events events' : List (Event × Location)}
    (sameEvents : events.map Prod.fst = events'.map Prod.fst) :
    Matches Eq Eq (s.follow pool events) (s'.follow pool events') := by
  induction events generalizing s s' events' with
  | nil =>
    obtain rfl := List.map_eq_nil_iff.1 sameEvents.symm
    exact same
  | cons next events ih =>
    rw [List.map_cons, eq_comm, List.map_eq_cons_iff] at sameEvents
    obtain ⟨next', events', rfl, sameEvent, sameRest⟩ := sameEvents
    have handled : Matches Eq Eq (s.handle pool next.1 next.2) (s'.handle pool next'.1 next'.2) := by
      rw [sameEvent]
      exact same.handle_eq pool next.1 next.2 next'.2
    exact ih handled sameRest.symm

end Session

/-! ## What stands in a skipped element -/

/-- Whatever a session has followed before, if the innermost element is skipped the content of that
element changes no frame, and brings nothing but what the monitor finds of the structure. If there is
other content, the reasons that are not of the structure stay the same, one by one, wherever they
stand. -/
theorem skipped_content_is_inert (bundle : Bundle) (options : Options)
    (before : List (Event × Location)) {frame : Frame} {outer : List Frame}
    (frames : ((Session.start bundle options).follow bundle.pool before).frames = frame :: outer)
    (skipped : frame.kind = .skip) :
    let s := (Session.start bundle options).follow bundle.pool before
    let reasons (d : Document) := ofGrammar (validateDocument bundle options d).report.reasons
    (∀ content inside, inside.map Prod.fst = contentEvents content →
      (s.follow bundle.pool inside).frames = frame :: outer ∧
        ∃ new, (s.follow bundle.pool inside).found = new ++ s.found ∧ OnlyStructural new) ∧
      ∀ content content' inside inside' rest rest' fault? fault?',
        inside.map Prod.fst = contentEvents content →
        inside'.map Prod.fst = contentEvents content' →
        rest.map Prod.fst = rest'.map Prod.fst → fault?.map Prod.fst = fault?'.map Prod.fst →
        List.Forall₂
          (fun r r' => r.severity = r'.severity ∧ r.message = r'.message ∧ r.xpath? = r'.xpath?)
          (reasons ⟨before ++ inside ++ rest, fault?⟩)
          (reasons ⟨before ++ inside' ++ rest', fault?'⟩) := by
  intro s reasons
  have skips : frame.Skips := by
    refine ⟨skipped, ?_⟩
    have plain := Session.isPlain_follow (s := .start bundle options) (fun _ none => nomatch none)
      bundle.pool before
    rw [frames] at plain
    exact plain frame List.mem_cons_self skipped
  have inert content inside (same : inside.map Prod.fst = contentEvents content) :
      Session.Inert s (s.follow bundle.pool inside) :=
    Session.inert_content bundle.pool s frames skips content inside same
  refine ⟨fun content inside same => ?_, ?_⟩
  · exact ⟨(inert content inside same).frames.trans frames, (inert content inside same).found⟩
  · intro content content' inside inside' rest rest' fault? fault?' same same' sameRest sameFault
    -- Between the two documents there is one with the other content and the places of the first.
    have alike := ((inert content inside same).alike (inert content' inside' same')).follow
      bundle.pool rest
    have exchanged : reasons ⟨before ++ inside ++ rest, fault?⟩ =
        reasons ⟨before ++ inside' ++ rest, fault?⟩ := by
      simp only [reasons, ← among_schemas]
      refine Session.Alike.among_reasons ?_ rfl
      simpa only [Session.follow_append] using alike
    have sameEvents : (before ++ inside' ++ rest).map Prod.fst =
        (before ++ inside' ++ rest').map Prod.fst := by
      simp only [List.map_append, sameRest]
    have agree : Session.Agree Eq (validateDocument bundle options ⟨before ++ inside' ++ rest, fault?⟩)
        (validateDocument bundle options ⟨before ++ inside' ++ rest', fault?'⟩) :=
      ((Session.matches_self _).follow_eq bundle.pool sameEvents).validateDocument (fun _ => rfl)
        sameFault
    rw [exchanged]
    refine (List.rel_filter (fun r r' same => ?_) agree.reasons).imp fun r r' same =>
      ⟨same.severity, congrArg Cause.message same.cause, same.xpath⟩
    simp only [same.cause]

def uncheckedBundle : Bundle where
  identity := "unchecked"
  symbols := {}
  pool := { grammars := [{
    target := "", systemIds := [],
    elements := { entries := [("list", {
      name := ⟨"", "list"⟩
      type := .inline (.builtin "list") (.complex {
        key := .builtin "list", name := none, base := none, isAbstract := false, mixed := false
        particle := some (.anyNumber ⟨.any, .skip⟩)
        content := .elementOnly
          ((ContentModel.build (.anyNumber ⟨.any, .skip⟩)).toOption.getD .empty)
        attributes := [], attributeWildcard := none, violations := [] })
      nillable := false, default? := none, fixed? := none, isAbstract := false })] } }] }
  validNamespaces := [""]

theorem skipped_content_is_inert_unchecked :
    let before : List (Event × Location) :=
      [(.start ⟨⟨"", "list"⟩, [], none⟩, ⟨1, 1⟩), (.start ⟨⟨"", "item"⟩, [], none⟩, ⟨1, 7⟩)]
    let list : ElementTree := ⟨⟨⟨"", "list"⟩, [⟨⟨"", "kind"⟩, "x"⟩], none⟩, [.text "a"]⟩
    let rest (line : Nat) : List (Event × Location) :=
      [(.finish, ⟨line, 1⟩), (.text "b", ⟨line, 8⟩), (.finish, ⟨line, 9⟩)]
    let reasons (inside : List Event) (line : Nat) := ofGrammar (validateDocument uncheckedBundle {}
      ⟨before ++ inside.map (·, ⟨2, 1⟩) ++ rest line, none⟩).report.reasons
    List.Forall₂
        (fun r r' => r.severity = r'.severity ∧ r.message = r'.message ∧ r.xpath? = r'.xpath?)
        (reasons list.events 3) (reasons [] 1) ∧
      (reasons [] 1).map (·.xpath?) = [some "/list"] := by
  intro before list rest reasons
  obtain ⟨frame, outer, frames, skipped⟩ : ∃ frame outer,
      ((Session.start uncheckedBundle {}).follow uncheckedBundle.pool before).frames =
        frame :: outer ∧ frame.kind = .skip := ⟨_, _, rfl, rfl⟩
  have inert := skipped_content_is_inert uncheckedBundle {} before frames skipped
  constructor
  · exact inert.2 [.child list] [] _ _ _ _ none none (by rfl) rfl rfl rfl
  · decide +kernel

end XmlSchema.Validation
