import XmlSchema.Proofs.Instance.Delivery
import XmlSchema.Proofs.Validation.RootElements

namespace XmlSchema.Validation

open Component (Pool QName)
open Instance (Delivers Event Opened Progress StartTag openNames)
open Report (Cause Reason)
open Structure (Monitor)

variable {pool : Pool} {frame : Frame} {tag : StartTag} {location : Location}

theorem localName_openDeclared {checks : SchemaChecks} {decl : Component.ElementDecl} :
    (openDeclared pool checks decl tag).1.localName = tag.name.localName := by
  unfold openDeclared
  dsimp only
  split
  · rfl
  · split <;> rfl

theorem localName_openFrame {checks : SchemaChecks} {resolution : Resolution} :
    (openFrame pool checks resolution tag).1.localName = tag.name.localName := by
  cases resolution with
  | skip => rfl
  | lax => rfl
  | declared decl => exact localName_openDeclared

theorem localName_child {name : QName} :
    (frame.child pool name).2.1.localName = frame.localName := by
  unfold Frame.child
  repeat' split
  all_goals rfl

theorem localName_characters {text : String} :
    (frame.characters text).1.localName = frame.localName := by
  unfold Frame.characters
  repeat' split
  all_goals rfl

namespace Session

variable {s : Session} {event : Event} {events : List Event} {p : Progress}

theorem localNames_resolve {frames : List Frame} {name : QName} :
    (resolve pool frames name).2.1.map Frame.localName = frames.map Frame.localName := by
  cases frames with
  | nil => rfl
  | cons parent outer => simp [resolve, localName_child]

/-- A session has a frame for each element that some events have left open, and its monitor has
their names. -/
structure InStep (s : Session) (events : List Event) : Prop where
  frames : s.frames.map Frame.localName = openNames events
  path : s.monitor.path = openNames events

theorem inStep_start (bundle : Bundle) (options : Options) : (start bundle options).InStep [] :=
  ⟨rfl, rfl⟩

theorem InStep.startElement (inStep : s.InStep events) (pool : Pool) (tag : StartTag)
    (location : Location) :
    (s.startElement pool tag location).InStep (events ++ [.start tag]) where
  frames := by
    rw [frames_startElement, List.map_cons, localName_openFrame, localNames_resolve, inStep.frames,
      Instance.openNames_start]
  path := by
    rw [monitor_startElement, Monitor.path_startElement, inStep.path, Instance.openNames_start]

theorem InStep.characters (inStep : s.InStep events) (text : String) (location : Location) :
    (s.characters text location).InStep (events ++ [.text text]) where
  frames := by
    rw [Instance.openNames_text, ← inStep.frames, Session.characters]
    cases frames : s.frames with
    | nil => simp [frames]
    | cons frame outer => simp [add, localName_characters]
  path := by rw [monitor_characters, inStep.path, Instance.openNames_text]

theorem InStep.endElement (inStep : s.InStep events) (location : Location) :
    (s.endElement location).InStep (events ++ [.finish]) where
  frames := by
    rw [Instance.openNames_finish, ← inStep.frames, ← List.map_tail]
    rfl
  path := by
    rw [Instance.openNames_finish, ← inStep.path]
    rfl

theorem InStep.handle (inStep : s.InStep events) (pool : Pool) (event : Event)
    (location : Location) : (s.handle pool event location).InStep (events ++ [event]) := by
  cases event with
  | start tag => exact inStep.startElement pool tag location
  | text content => exact inStep.characters content location
  | finish => exact inStep.endElement location

theorem InStep.follow (inStep : s.InStep events) (pool : Pool) (more : List (Event × Location)) :
    (s.follow pool more).InStep (events ++ more.map Prod.fst) := by
  induction more generalizing s events with
  | nil => simpa [Session.follow] using inStep
  | cons next more ih =>
    rw [follow_cons, List.map_cons, List.append_cons]
    exact ih (inStep.handle pool next.1 next.2)

def namesAt (events : List Event) : Event → List String
  | .start tag => tag.name.localName :: openNames events
  | .text _ | .finish => openNames events

structure PlacedAt (events : List Event) (event : Event) (location : Location) (r : Reason) :
    Prop where
  location : r.location? = some location
  xpath : r.xpath? = some ("/" ++ "/".intercalate (namesAt events event).reverse)

theorem placedAt_of_mem_errorsAt {monitor : Monitor} {causes : List Cause} {r : Reason}
    (path : monitor.path = namesAt events event) (member : r ∈ errorsAt monitor location causes) :
    PlacedAt events event location r := by
  obtain ⟨cause, -, rfl⟩ := List.mem_map.1 member
  exact ⟨rfl, by rw [← path]; rfl⟩

theorem placedAt_of_mem_structureReasons {monitor : Monitor}
    {faults : List Structure.RootFault} {warning : Option Structure.NamespaceWarning} {r : Reason}
    (path : monitor.path = namesAt events event)
    (member : r ∈ structureReasons monitor location faults warning) :
    PlacedAt events event location r := by
  rcases List.mem_append.1 member with ofFault | ofWarning
  · exact placedAt_of_mem_errorsAt path ofFault
  · obtain ⟨w, -, rfl⟩ := List.mem_map.1 ofWarning
    exact ⟨rfl, by rw [← path]; rfl⟩

theorem InStep.found_handle (inStep : s.InStep events) (pool : Pool) (event : Event)
    (location : Location) :
    ∃ new, (s.handle pool event location).found = new ++ s.found ∧
      ∀ r ∈ new, PlacedAt events event location r := by
  cases event with
  | start tag =>
    have path : (s.monitor.startElement tag.name.ns tag.name.localName).1.path =
        namesAt events (.start tag) := by
      rw [Monitor.path_startElement, inStep.path, namesAt]
    refine ⟨_, found_startElement pool tag location, fun r found => ?_⟩
    rcases List.mem_append.1 (List.mem_reverse.1 found) with ofStructure | ofGrammar
    · exact placedAt_of_mem_structureReasons path ofStructure
    · exact placedAt_of_mem_errorsAt path ofGrammar
  | text content =>
    rw [Session.handle, Session.characters]
    split
    · exact ⟨[], rfl, by simp⟩
    · exact ⟨_, rfl, fun r found => placedAt_of_mem_errorsAt inStep.path (List.mem_reverse.1 found)⟩
  | finish =>
    exact ⟨_, rfl, fun r found => placedAt_of_mem_errorsAt inStep.path (List.mem_reverse.1 found)⟩

theorem InStep.exists_placedAt (inStep : s.InStep events) {more : List (Event × Location)}
    {r : Reason} (found : r ∈ (s.follow pool more).found) :
    r ∈ s.found ∨ ∃ earlier event location later, more = earlier ++ (event, location) :: later ∧
      PlacedAt (events ++ earlier.map Prod.fst) event location r := by
  induction more generalizing s events with
  | nil => exact .inl found
  | cons next more ih =>
    obtain ⟨event, location⟩ := next
    rcases ih (inStep.handle pool event location) found with
      early | ⟨earlier, event', location', later, rfl, placed⟩
    · obtain ⟨new, all, placed⟩ := inStep.found_handle pool event location
      rw [all] at early
      rcases List.mem_append.1 early with now | before
      · exact .inr ⟨[], event, location, more, rfl, by simpa using placed r now⟩
      · exact .inl before
    · exact .inr ⟨(event, location) :: earlier, event', location', later, rfl, by
        simpa using placed⟩

end Session

open Session

/-- What is read of a document are events that can come. After any such events the number of frames,
the depth of the monitor and the depth that the reader counts are the number of open elements, and
the frames and the monitor have their names. So the end of an element takes away its frame and
counts down from at least one, and whatever an event brings to light is placed at the element that
starts, has the text or ends with it. -/
theorem open_elements_agree :
    (∀ bytes earlier later, (Instance.Document.ofBytes bytes).events = earlier ++ later →
      ∃ p, Delivers (earlier.map Prod.fst) p) ∧
    ∀ (bundle : Bundle) (options : Options) (events : List (Event × Location)) (p : Progress),
      Delivers (events.map Prod.fst) p →
      let s := (Session.start bundle options).follow bundle.pool events
      (s.frames.length = p.opened.length ∧ s.monitor.depth = p.opened.length ∧
        p.depth = p.opened.length) ∧
      (s.frames.map Frame.localName = s.monitor.path ∧
        s.monitor.path = p.opened.map Opened.localName) ∧
      (∀ o outer location, p.opened = o :: outer →
        ∃ frame below, s.frames = frame :: below ∧ frame.localName = o.localName ∧
          (s.endElement location).frames = below ∧
          (s.endElement location).found =
            (errorsAt s.monitor location frame.close).reverse ++ s.found ∧
          p.close.opened = outer ∧ p.close.depth + 1 = p.depth) ∧
      (∀ event location, ∃ new, (s.handle bundle.pool event location).found = new ++ s.found ∧
        ∀ r ∈ new, PlacedAt (events.map Prod.fst) event location r) ∧
      ∀ r ∈ s.found, ∃ earlier event location later,
        events = earlier ++ (event, location) :: later ∧
          PlacedAt (earlier.map Prod.fst) event location r := by
  refine ⟨fun _ _ _ => Instance.delivers_of_document, ?_⟩
  intro bundle options events p delivers s
  obtain ⟨depth, opened⟩ := delivers.opened_eq
  have inStep : s.InStep (events.map Prod.fst) := by
    simpa using (inStep_start bundle options).follow bundle.pool events
  have frames : s.frames.map Frame.localName = p.opened.map Opened.localName :=
    inStep.frames.trans opened.symm
  have path : s.monitor.path = p.opened.map Opened.localName := inStep.path.trans opened.symm
  refine ⟨⟨?_, ?_, depth⟩, ⟨frames.trans path.symm, path⟩, ?_, inStep.found_handle bundle.pool, ?_⟩
  · simpa using congrArg List.length frames
  · simpa [Monitor.depth] using congrArg List.length path
  · intro o outer location isOpen
    rw [isOpen, List.map_cons, List.map_eq_cons_iff] at frames
    obtain ⟨frame, below, ofFrames, named, -⟩ := frames
    refine ⟨frame, below, ofFrames, named, ?_, ?_, ?_, ?_⟩
    · simp [Session.endElement, add, ofFrames]
    · simp [Session.endElement, add, ofFrames]
    · simp [isOpen]
    · rw [Progress.depth_close, depth, isOpen]
      simp
  · intro r found
    rcases (inStep_start bundle options).exists_placedAt found with none | placed
    · cases none
    · simpa using placed

theorem open_elements_agree_item :
    let read := (Instance.Document.ofBytes
      (Utf8.encode "<list><item>e n</item></list>")).events.take 3
    let options : Options := { ignoreUnknownNamespaces := true }
    let s := (Session.start itemsBundle options).follow itemsBundle.pool read
    ∃ p, Delivers (read.map Prod.fst) p ∧
      (s.frames.length = 2 ∧ s.monitor.depth = 2 ∧ p.depth = 2) ∧
      p.opened.map Opened.localName = ["item", "list"] ∧
      (s.endElement ⟨1, 23⟩).frames.length = 1 ∧
      (s.endElement ⟨1, 23⟩).found.map (·.xpath?) = [some "/list/item", some "/list/item"] := by
  intro read options s
  obtain ⟨documents, sessions⟩ := open_elements_agree
  obtain ⟨p, delivers⟩ := documents _ read _ (List.take_append_drop 3 _).symm
  obtain ⟨⟨frames, monitor, depth⟩, ⟨-, path⟩, ending, -, -⟩ :=
    sessions itemsBundle options read p delivers
  have names : s.monitor.path = ["item", "list"] := by decide +kernel
  have opened : p.opened.map Opened.localName = ["item", "list"] := path.symm.trans names
  have two : p.opened.length = 2 := by simpa using congrArg List.length opened
  obtain ⟨o, outer, isOpen⟩ : ∃ o outer, p.opened = o :: outer := by
    rw [← List.length_pos_iff_exists_cons, two]
    exact Nat.two_pos
  obtain ⟨frame, below, ofFrames, -, left, -⟩ := ending o outer ⟨1, 23⟩ isOpen
  refine ⟨p, delivers, ⟨frames.trans two, monitor.trans two, depth.trans two⟩, opened, ?_, ?_⟩
  · have all : (frame :: below).length = 2 := ofFrames ▸ frames.trans two
    rw [left]
    exact Nat.succ.inj all
  · decide +kernel

end XmlSchema.Validation
