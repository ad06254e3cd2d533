import XmlSchema.Proofs.Validation.RootElements

/-!
# Options add reasons

Three kinds of reasons are given only if the options ask for them. All others are the same whatever
the options are, so to ask for more adds reasons and takes none away (`validate_options`). Two
sessions that follow the same document are compared step by step: the frames and the path of the
monitor never depend on the options, and what a kind of reasons depends on is the same if the
options agree on that kind (`Session.Alike`).
-/

namespace XmlSchema

open Component (Pool ComplexType ElementDecl)
open Instance (Document Event StartTag)
open Report (Cause Reason)
open Structure (Monitor RootFault NamespaceWarning)

namespace Report

structure Kinds where
  roots : Bool := false
  namespaces : Bool := false
  schemas : Bool := false

namespace Kinds

variable (kinds : Kinds)

def keeps : Cause → Bool
  | .root _ => kinds.roots
  | .ns _ => kinds.namespaces
  | .schema _ => kinds.schemas
  | _ => true

def among (reasons : List Reason) : List Reason := reasons.filter fun r => kinds.keeps r.cause

@[simp] theorem among_append (reasons more : List Reason) :
    kinds.among (reasons ++ more) = kinds.among reasons ++ kinds.among more :=
  List.filter_append ..

@[simp] theorem among_reverse (reasons : List Reason) :
    kinds.among reasons.reverse = (kinds.among reasons).reverse :=
  List.filter_reverse ..

variable {kinds}

theorem keeps_of_isRequired {cause : Cause} (isRequired : cause.isRequired = true) :
    kinds.keeps cause = true := by
  cases cause <;> first | rfl | cases isRequired

theorem filter_map_eq_nil {α : Type} {f : α → Cause} (drops : ∀ a, kinds.keeps (f a) = false)
    (items : List α) : (items.map f).filter kinds.keeps = [] := by
  simp [List.filter_eq_nil_iff, drops]

theorem among_map_eq_nil {α : Type} {f : α → Reason} (drops : ∀ a, kinds.keeps (f a).cause = false)
    (items : List α) : kinds.among (items.map f) = [] := by
  simp [among, List.filter_eq_nil_iff, drops]

theorem among_eq_self {reasons : List Reason} (kept : ∀ r ∈ reasons, kinds.keeps r.cause = true) :
    kinds.among reasons = reasons :=
  List.filter_eq_self.2 kept

end Kinds

end Report

open Report (Kinds)

/-! ## What a monitor looks at -/

namespace Structure.Monitor

def forNamespaces (m : Monitor) : Monitor :=
  { m with roots := [], rootFaults := 0, path := [], phase := .awaiting }

theorem checkNamespace_forNamespaces (m : Monitor) (ns localName : String) :
    m.forNamespaces.checkNamespace ns localName =
      ((m.checkNamespace ns localName).1.forNamespaces, (m.checkNamespace ns localName).2) := by
  by_cases quiet : (!m.checksNamespaces || m.capped || m.knownNamespaces.contains ns ||
      m.unknownSeen.contains ns) = true
  · simp only [checkNamespace, forNamespaces, quiet, if_true]
  · by_cases full : m.maxWarnings ≤ m.warnings
    · simp only [checkNamespace, forNamespaces, quiet, full, if_true]
      rfl
    · simp only [checkNamespace, forNamespaces, quiet, full]
      rfl

theorem roots_startElement (m : Monitor) (ns localName : String) :
    (m.startElement ns localName).1.roots = (checkRoots m.roots m.path.reverse localName).1 := by
  simp only [startElement, checkNamespace_keeps]

theorem faults_startElement (m : Monitor) (ns localName : String) :
    (m.startElement ns localName).2.1 = (checkRoots m.roots m.path.reverse localName).2 := rfl

theorem forNamespaces_startElement (m : Monitor) (ns localName : String) :
    m.forNamespaces.checkNamespace ns localName =
      ((m.startElement ns localName).1.forNamespaces, (m.startElement ns localName).2.2) :=
  checkNamespace_forNamespaces { m with
    roots := (checkRoots m.roots m.path.reverse localName).1, path := localName :: m.path,
    phase := .inside,
    rootFaults := m.rootFaults + (checkRoots m.roots m.path.reverse localName).2.length } ns localName

theorem checksNamespaces_startElement (m : Monitor) (ns localName : String) :
    (m.startElement ns localName).1.checksNamespaces = m.checksNamespaces := by
  simp only [startElement, checkNamespace]
  split
  · rfl
  · split <;> rfl

end Structure.Monitor

namespace Validation

variable {kinds : Kinds} {checks checks' : SchemaChecks}

/-! ## Two sessions -/

structure Options.AgreeOn (kinds : Kinds) (options options' : Options) : Prop where
  roots : kinds.roots = true → options.rootPaths = options'.rootPaths
  namespaces : kinds.namespaces = true →
    options.ignoreUnknownNamespaces = options'.ignoreUnknownNamespaces ∧
      options.maxNamespaceWarnings = options'.maxNamespaceWarnings
  schemas : kinds.schemas = true → options.fullSchemaChecking = options'.fullSchemaChecking

theorem filter_report (drops : kinds.schemas = false) (identity : TypeIdentity)
    (type : ComplexType ElementDecl) : (checks.report identity type).2.filter kinds.keeps = [] := by
  unfold SchemaChecks.report
  split
  · rfl
  · exact Kinds.filter_map_eq_nil (fun v => show kinds.keeps (.schema v) = false from drops) _

theorem openFrame_congr (same : kinds.schemas = true → checks = checks') (pool : Pool)
    (resolution : Resolution) (tag : StartTag) :
    let opened := openFrame pool checks resolution tag
    let opened' := openFrame pool checks' resolution tag
    opened.1 = opened'.1 ∧ (kinds.schemas = true → opened.2.1 = opened'.2.1) ∧
      opened.2.2.filter kinds.keeps = opened'.2.2.filter kinds.keeps := by
  intro opened opened'
  cases keeps : kinds.schemas with
  | true =>
    obtain rfl := same keeps
    exact ⟨rfl, fun _ => rfl, rfl⟩
  | false =>
    cases opens_openFrame pool resolution tag with
    | unchecked frame causes required eq => simp [opened, opened', eq]
    | checked frame identity type isType before after required eq =>
      simp [opened, opened', eq, filter_report keeps]

namespace Session

variable {s s' : Session} {monitor monitor' : Monitor}

theorem among_errorsAt (kinds : Kinds) (monitor : Monitor) (location : Location)
    (causes : List Cause) :
    kinds.among (errorsAt monitor location causes) =
      errorsAt monitor location (causes.filter kinds.keeps) := by
  simp only [Kinds.among, errorsAt, List.filter_map]
  rfl

theorem errorsAt_congr (path : monitor.path = monitor'.path) (location : Location)
    (causes : List Cause) :
    errorsAt monitor location causes = errorsAt monitor' location causes := by
  simp only [errorsAt, Monitor.xpath, path]

theorem among_structureReasons_congr (path : monitor.path = monitor'.path) (location : Location)
    {faults faults' : List RootFault} {warning warning' : Option NamespaceWarning}
    (sameFaults : kinds.roots = true → faults = faults')
    (sameWarning : kinds.namespaces = true → warning = warning') :
    kinds.among (structureReasons monitor location faults warning) =
      kinds.among (structureReasons monitor' location faults' warning') := by
  simp only [structureReasons, Kinds.among_append, among_errorsAt, errorsAt_congr path]
  congr 1
  · cases keeps : kinds.roots with
    | true => rw [sameFaults keeps]
    | false => simp [Kinds.filter_map_eq_nil, Kinds.keeps, keeps]
  · cases keeps : kinds.namespaces with
    | true => simp only [sameWarning keeps, Monitor.xpath, path]
    | false => simp [Kinds.among_map_eq_nil, Kinds.keeps, keeps]

/-- Two sessions have come to the same, but for reasons of other kinds than these and for what these
do not depend on. -/
structure Alike (kinds : Kinds) (s s' : Session) : Prop where
  frames : s.frames = s'.frames
  path : s.monitor.path = s'.monitor.path
  roots : kinds.roots = true → s.monitor.roots = s'.monitor.roots
  namespaces : kinds.namespaces = true → s.monitor.forNamespaces = s'.monitor.forNamespaces
  checks : kinds.schemas = true → s.checks = s'.checks
  found : kinds.among s.found = kinds.among s'.found

theorem alike_start (bundle : Bundle) {options options' : Options}
    (agree : options.AgreeOn kinds options') :
    Alike kinds (start bundle options) (start bundle options') where
  frames := rfl
  path := rfl
  roots keeps := by simp only [start, Monitor.start, agree.roots keeps]
  namespaces keeps := by
    obtain ⟨ignore, max⟩ := agree.namespaces keeps
    simp only [start, Monitor.start, Monitor.forNamespaces, ignore, max]
  checks keeps := by simp only [start, agree.schemas keeps]
  found := rfl

theorem Alike.add (alike : Alike kinds s s') {reasons reasons' : List Reason}
    (same : kinds.among reasons = kinds.among reasons') :
    Alike kinds (s.add reasons) (s'.add reasons') where
  frames := alike.frames
  path := alike.path
  roots := alike.roots
  namespaces := alike.namespaces
  checks := alike.checks
  found := by simp only [Session.add, Kinds.among_append, Kinds.among_reverse, same, alike.found]

theorem checks_startElement (pool : Pool) (tag : StartTag) (location : Location) :
    (s.startElement pool tag location).checks =
      (openFrame pool s.checks (resolve pool s.frames tag.name).1 tag).2.1 := rfl

theorem Alike.startElement (alike : Alike kinds s s') (pool : Pool) (tag : StartTag)
    (location : Location) :
    Alike kinds (s.startElement pool tag location) (s'.startElement pool tag location) := by
  obtain ⟨frame, checks, causes⟩ := openFrame_congr alike.checks pool
    (resolve pool s.frames tag.name).1 tag
  have path : (s.monitor.startElement tag.name.ns tag.name.localName).1.path =
      (s'.monitor.startElement tag.name.ns tag.name.localName).1.path := by
    simp only [Monitor.path_startElement, alike.path]
  have namespaces (keeps : kinds.namespaces = true) := congrArg
    (·.checkNamespace tag.name.ns tag.name.localName) (alike.namespaces keeps)
  simp only [Monitor.forNamespaces_startElement, Prod.mk.injEq] at namespaces
  constructor
  · rw [frames_startElement, frames_startElement, ← alike.frames, frame]
  · exact path
  · intro keeps
    simp only [monitor_startElement, Monitor.roots_startElement, alike.roots keeps, alike.path]
  · exact fun keeps => (namespaces keeps).1
  · intro keeps
    rw [checks_startElement, checks_startElement, ← alike.frames, checks keeps]
  · rw [found_startElement, found_startElement, ← alike.frames]
    simp only [Kinds.among_append, Kinds.among_reverse, alike.found, among_errorsAt,
      errorsAt_congr path, List.filter_append, causes]
    rw [among_structureReasons_congr path location _ fun keeps => (namespaces keeps).2]
    intro keeps
    rw [Monitor.faults_startElement, Monitor.faults_startElement, alike.roots keeps, alike.path]

theorem Alike.characters (alike : Alike kinds s s') (text : String) (location : Location) :
    Alike kinds (s.characters text location) (s'.characters text location) := by
  unfold Session.characters
  rw [← alike.frames]
  cases s.frames with
  | nil => exact alike
  | cons frame outer =>
    have moved : Alike kinds { s with frames := (frame.characters text).1 :: outer }
        { s' with frames := (frame.characters text).1 :: outer } := { alike with frames := rfl }
    exact moved.add (by rw [errorsAt_congr alike.path])

theorem Alike.endElement (alike : Alike kinds s s') (location : Location) :
    Alike kinds (s.endElement location) (s'.endElement location) := by
  have path : s.monitor.endElement.path = s'.monitor.endElement.path :=
    congrArg List.tail alike.path
  have left : Alike kinds { s with frames := s.frames.tail, monitor := s.monitor.endElement }
      { s' with frames := s'.frames.tail, monitor := s'.monitor.endElement } :=
    { alike with frames := congrArg List.tail alike.frames, path }
  refine left.add ?_
  rw [errorsAt_congr alike.path, alike.frames]

theorem Alike.handle (alike : Alike kinds s s') (pool : Pool) (event : Event)
    (location : Location) :
    Alike kinds (s.handle pool event location) (s'.handle pool event location) := by
  cases event with
  | start tag => exact alike.startElement pool tag location
  | text content => exact alike.characters content location
  | finish => exact alike.endElement location

theorem Alike.follow (alike : Alike kinds s s') (pool : Pool) (events : List (Event × Location)) :
    Alike kinds (s.follow pool events) (s'.follow pool events) := by
  induction events generalizing s s' with
  | nil => exact alike
  | cons event events ih => exact ih (alike.handle pool event.1 event.2)

theorem Alike.endDocument (alike : Alike kinds s s') :
    kinds.among s.endDocument.found = kinds.among s'.endDocument.found := by
  let asReason (fault : RootFault) : Reason := { severity := .error, cause := .root fault }
  have reasons : kinds.among (s.monitor.endDocument.2.map asReason) =
      kinds.among (s'.monitor.endDocument.2.map asReason) := by
    cases keeps : kinds.roots with
    | true => simp only [Monitor.endDocument, alike.roots keeps]
    | false => simp [Kinds.among_map_eq_nil, asReason, Kinds.keeps, keeps]
  exact (alike.add reasons).found

theorem Alike.abort (alike : Alike kinds s s') (fault : Instance.Fault) (location : Location) :
    kinds.among (s.abort fault location).found = kinds.among (s'.abort fault location).found := by
  refine (alike.add ?_).found
  simp only [alike.path, Monitor.xpath]

theorem Alike.among_reasons {bundle : Bundle} {options options' : Options} {d d' : Document}
    (alike : Alike kinds ((start bundle options).follow bundle.pool d.events)
      ((start bundle options').follow bundle.pool d'.events)) (faults : d.fault? = d'.fault?) :
    kinds.among (validateDocument bundle options d).report.reasons =
      kinds.among (validateDocument bundle options' d').report.reasons := by
  unfold validateDocument
  rw [← faults]
  cases d.fault? with
  | none => simp only [outcome, Kinds.among_reverse, alike.endDocument]
  | some fault => simp only [outcome, Kinds.among_reverse, alike.abort]

end Session

theorem among_reasons_validate (bundle : Bundle) {options options' : Options}
    (agree : options.AgreeOn kinds options') (bytes : Bytes) :
    kinds.among (validate bundle options bytes).report.reasons =
      kinds.among (validate bundle options' bytes).report.reasons :=
  ((Session.alike_start bundle agree).follow bundle.pool _).among_reasons rfl

/-! ## Reasons that are asked for -/

def Options.asked (options : Options) : Kinds where
  roots := !options.rootPaths.isEmpty
  namespaces := !options.ignoreUnknownNamespaces
  schemas := options.fullSchemaChecking

theorem Required.keeps {causes : List Cause} (required : Required causes) :
    ∀ cause ∈ causes, kinds.keeps cause = true :=
  fun cause member => Kinds.keeps_of_isRequired (required cause member)

theorem enabled_report (identity : TypeIdentity) (type : ComplexType ElementDecl) :
    (checks.report identity type).1.enabled = checks.enabled := by
  unfold SchemaChecks.report
  split <;> rfl

theorem keeps_report (schemas : kinds.schemas = false → checks.enabled = false)
    (identity : TypeIdentity) (type : ComplexType ElementDecl) :
    ∀ cause ∈ (checks.report identity type).2, kinds.keeps cause = true := by
  intro cause member
  cases keeps : kinds.schemas with
  | true =>
    unfold SchemaChecks.report at member
    split at member
    · cases member
    · obtain ⟨v, -, rfl⟩ := List.mem_map.1 member
      exact keeps
  | false => simp [SchemaChecks.report, schemas keeps] at member

theorem keeps_openFrame (schemas : kinds.schemas = false → checks.enabled = false) (pool : Pool)
    (resolution : Resolution) (tag : StartTag) :
    (openFrame pool checks resolution tag).2.1.enabled = checks.enabled ∧
      ∀ cause ∈ (openFrame pool checks resolution tag).2.2, kinds.keeps cause = true := by
  cases opens_openFrame pool resolution tag with
  | unchecked frame causes required eq =>
    rw [eq]
    exact ⟨rfl, required.keeps⟩
  | checked frame identity type isType before after required eq =>
    obtain ⟨ofBefore, ofAfter⟩ := required_append.1 required
    rw [eq]
    refine ⟨enabled_report _ _, fun cause member => ?_⟩
    simp only [List.mem_append] at member
    rcases member with (early | reported) | late
    · exact ofBefore.keeps cause early
    · exact keeps_report schemas _ _ cause reported
    · exact ofAfter.keeps cause late

namespace Session

variable {s : Session}

structure Asks (kinds : Kinds) (s : Session) : Prop where
  roots : kinds.roots = false → s.monitor.roots = []
  namespaces : kinds.namespaces = false → s.monitor.checksNamespaces = false
  schemas : kinds.schemas = false → s.checks.enabled = false
  found : ∀ r ∈ s.found, kinds.keeps r.cause = true

theorem asks_start (bundle : Bundle) (options : Options) :
    Asks options.asked (start bundle options) where
  roots unasked := by
    have none : options.rootPaths = [] := by simpa [Options.asked] using unasked
    simp [start, Monitor.start, none]
  namespaces unasked := unasked
  schemas unasked := unasked
  found _ member := nomatch member

theorem keeps_errorsAt {causes : List Cause} (kept : ∀ cause ∈ causes, kinds.keeps cause = true)
    (monitor : Monitor) (location : Location) :
    ∀ r ∈ errorsAt monitor location causes, kinds.keeps r.cause = true := by
  intro r member
  obtain ⟨cause, among, rfl⟩ := List.mem_map.1 member
  exact kept cause among

theorem Asks.add (asks : Asks kinds s) {reasons : List Reason}
    (kept : ∀ r ∈ reasons, kinds.keeps r.cause = true) : Asks kinds (s.add reasons) := by
  refine { asks with found := fun r member => ?_ }
  rcases List.mem_append.1 member with new | old
  · exact kept r (List.mem_reverse.1 new)
  · exact asks.found r old

theorem Asks.structureReasons (asks : Asks kinds s) (ns localName : String) (location : Location) :
    ∀ r ∈ structureReasons (s.monitor.startElement ns localName).1 location
      (s.monitor.startElement ns localName).2.1 (s.monitor.startElement ns localName).2.2,
      kinds.keeps r.cause = true := by
  intro r member
  simp only [Session.structureReasons, errorsAt, List.mem_append, List.mem_map,
    Option.mem_toList] at member
  rcases member with ⟨_, ⟨fault, among, rfl⟩, rfl⟩ | ⟨w, given, rfl⟩
  · cases keeps : kinds.roots with
    | true => exact keeps
    | false =>
      rw [Monitor.faults_startElement, asks.roots keeps] at among
      simp [Monitor.checkRoots] at among
  · cases keeps : kinds.namespaces with
    | true => exact keeps
    | false =>
      simp [Monitor.startElement, Monitor.checkNamespace, asks.namespaces keeps] at given

theorem Asks.startElement (asks : Asks kinds s) (pool : Pool) (tag : StartTag)
    (location : Location) : Asks kinds (s.startElement pool tag location) := by
  obtain ⟨enabled, ofFrame⟩ := keeps_openFrame asks.schemas pool (resolve pool s.frames tag.name).1 tag
  constructor
  · intro unasked
    rw [monitor_startElement, Monitor.roots_startElement, asks.roots unasked]
    simp [Monitor.checkRoots]
  · intro unasked
    rw [monitor_startElement, Monitor.checksNamespaces_startElement, asks.namespaces unasked]
  · intro unasked
    rw [checks_startElement, enabled, asks.schemas unasked]
  · rw [found_startElement]
    intro r member
    simp only [List.mem_append, List.mem_reverse] at member
    rcases member with (structural | ofContent) | old
    · exact asks.structureReasons _ _ _ r structural
    · refine keeps_errorsAt (fun cause among => ?_) _ _ r ofContent
      rcases List.mem_append.1 among with ofChild | ofElement
      · exact required_resolve.keeps cause ofChild
      · exact ofFrame cause ofElement
    · exact asks.found r old

theorem Asks.handle (asks : Asks kinds s) (pool : Pool) (event : Event) (location : Location) :
    Asks kinds (s.handle pool event location) := by
  cases event with
  | start tag => exact asks.startElement pool tag location
  | text content =>
    simp only [Session.handle, Session.characters]
    split
    · exact asks
    · next frame outer _ =>
      have moved : Asks kinds { s with frames := (frame.characters content).1 :: outer } :=
        { asks with }
      exact moved.add (keeps_errorsAt ordinary_characters.required.keeps _ _)
  | finish =>
    have left : Asks kinds { s with frames := s.frames.tail, monitor := s.monitor.endElement } :=
      { asks with }
    refine left.add (keeps_errorsAt (Required.keeps ?_) _ _)
    split
    · exact required_nil
    · exact ordinary_close.required

theorem Asks.follow (asks : Asks kinds s) (pool : Pool) (events : List (Event × Location)) :
    Asks kinds (s.follow pool events) := by
  induction events generalizing s with
  | nil => exact asks
  | cons event events ih => exact ih (asks.handle pool event.1 event.2)

theorem Asks.endDocument (asks : Asks kinds s) : Asks kinds s.endDocument := by
  have after : Asks kinds { s with monitor := s.monitor.endDocument.1 } := { asks with }
  refine after.add fun r member => ?_
  obtain ⟨fault, missing, rfl⟩ := List.mem_map.1 member
  cases keeps : kinds.roots with
  | true => exact keeps
  | false =>
    simp [Monitor.missingRoots, asks.roots keeps] at missing

theorem Asks.abort (asks : Asks kinds s) (fault : Instance.Fault) (location : Location) :
    Asks kinds (s.abort fault location) :=
  asks.add (by simp [Kinds.keeps])

end Session

theorem keeps_of_mem_validate (bundle : Bundle) (options : Options) (bytes : Bytes) :
    ∀ r ∈ (validate bundle options bytes).report.reasons, options.asked.keeps r.cause = true := by
  have asks := (Session.asks_start bundle options).follow bundle.pool (Document.ofBytes bytes).events
  unfold validate validateDocument
  cases (Document.ofBytes bytes).fault? with
  | none => exact fun r member => asks.endDocument.found r (List.mem_reverse.1 member)
  | some fault => exact fun r member => (asks.abort _ _).found r (List.mem_reverse.1 member)

/-! ## Types in use -/

namespace Session

variable {s : Session} {r : Reason} {v : ContentModel.Violation}

def innermostType? (s : Session) : Option (ComplexType ElementDecl) :=
  match s.frames.head?.map Frame.kind with
  | some (.complex type _ _) => some type
  | _ => none

theorem schema_not_mem {causes : List Cause} (required : Required causes) :
    .schema v ∉ causes := fun member => nomatch required _ member

theorem schema_not_mem_errorsAt {causes : List Cause} (required : Required causes)
    (ofSchema : r.cause = .schema v) (monitor : Monitor) (location : Location) :
    r ∉ errorsAt monitor location causes := by
  intro member
  obtain ⟨cause, among, rfl⟩ := List.mem_map.1 member
  obtain rfl : cause = .schema v := ofSchema
  exact schema_not_mem required among

theorem mem_violations_of_mem_report {identity : TypeIdentity} {type : ComplexType ElementDecl}
    (reported : .schema v ∈ (s.checks.report identity type).2) : v ∈ type.violations := by
  unfold SchemaChecks.report at reported
  split at reported
  · cases reported
  · simpa using reported

theorem schema_startElement {pool : Pool} {tag : StartTag} {location : Location}
    (found : r ∈ (s.startElement pool tag location).found) (ofSchema : r.cause = .schema v) :
    r ∈ s.found ∨ r.location? = some location ∧
      ∃ type, (s.startElement pool tag location).innermostType? = some type ∧
        v ∈ type.violations := by
  rw [found_startElement, List.mem_append, List.mem_reverse, List.mem_append] at found
  rcases found with (structural | ofContent) | old
  · have isStructural := onlyStructural_structureReasons r structural
    rw [ofSchema] at isStructural
    cases isStructural
  · obtain ⟨cause, among, rfl⟩ := List.mem_map.1 ofContent
    obtain rfl : cause = .schema v := ofSchema
    have ofFrame := (List.mem_append.1 among).resolve_left (schema_not_mem required_resolve)
    refine .inr ⟨rfl, ?_⟩
    rw [innermostType?, frames_startElement]
    -- Only a type of the frame that has just been opened is reported.
    cases opens_openFrame pool (resolve pool s.frames tag.name).1 tag with
    | unchecked frame causes required eq =>
      rw [eq] at ofFrame
      exact absurd ofFrame (schema_not_mem required)
    | checked frame identity type isType before after required eq =>
      obtain ⟨state, decl, kind⟩ := isType
      obtain ⟨ofBefore, ofAfter⟩ := required_append.1 required
      rw [eq] at ofFrame ⊢
      simp only [List.mem_append, schema_not_mem ofBefore, schema_not_mem ofAfter, false_or,
        or_false] at ofFrame
      exact ⟨type, by simp [kind], mem_violations_of_mem_report ofFrame⟩
  · exact .inl old

theorem schema_handle {pool : Pool} {event : Event} {location : Location}
    (found : r ∈ (s.handle pool event location).found) (ofSchema : r.cause = .schema v) :
    r ∈ s.found ∨ r.location? = some location ∧ (∃ tag, event = .start tag) ∧
      ∃ type, (s.handle pool event location).innermostType? = some type ∧
        v ∈ type.violations := by
  cases event with
  | start tag =>
    exact (schema_startElement found ofSchema).imp_right fun ⟨here, used⟩ => ⟨here, ⟨tag, rfl⟩, used⟩
  | text content =>
    refine .inl ?_
    simp only [Session.handle, Session.characters] at found
    split at found
    · exact found
    · refine (List.mem_append.1 found).resolve_left fun new => ?_
      exact schema_not_mem_errorsAt ordinary_characters.required ofSchema _ _ (List.mem_reverse.1 new)
  | finish =>
    refine .inl ((List.mem_append.1 found).resolve_left fun new => ?_)
    refine schema_not_mem_errorsAt ?_ ofSchema _ _ (List.mem_reverse.1 new)
    split
    · exact required_nil
    · exact ordinary_close.required

theorem schema_follow {pool : Pool} {events : List (Event × Location)}
    (found : r ∈ (s.follow pool events).found) (ofSchema : r.cause = .schema v) :
    r ∈ s.found ∨ ∃ earlier tag location later type,
      events = earlier ++ (.start tag, location) :: later ∧ r.location? = some location ∧
        (s.follow pool (earlier ++ [(.start tag, location)])).innermostType? = some type ∧
          v ∈ type.violations := by
  induction events generalizing s with
  | nil => exact .inl found
  | cons event events ih =>
    rcases ih found with earlier | ⟨earlier, tag, location, later, type, rfl, used⟩
    · rcases schema_handle earlier ofSchema with old | ⟨here, ⟨tag, start⟩, type, used⟩
      · exact .inl old
      · exact .inr ⟨[], tag, event.2, events, type, by rw [← start]; rfl, here, by
          rw [← start]; exact used⟩
    · exact .inr ⟨event :: earlier, tag, location, later, type, rfl, used⟩

end Session

/-! ## All documents -/

structure Options.Within (fewer more : Options) : Prop where
  roots : fewer.rootPaths = [] ∨ fewer.rootPaths = more.rootPaths
  namespaces : fewer.ignoreUnknownNamespaces = true ∨
    more.ignoreUnknownNamespaces = false ∧
      fewer.maxNamespaceWarnings = more.maxNamespaceWarnings
  schemas : fewer.fullSchemaChecking = true → more.fullSchemaChecking = true

theorem Options.Within.agreeOn {fewer more : Options} (within : fewer.Within more) :
    fewer.AgreeOn fewer.asked more where
  roots asked := within.roots.resolve_left (by simpa [Options.asked] using asked)
  namespaces asked := by
    have checked : fewer.ignoreUnknownNamespaces = false := by simpa [Options.asked] using asked
    rcases within.namespaces with ignored | ⟨both, max⟩
    · simp [checked] at ignored
    · exact ⟨checked.trans both.symm, max⟩
  schemas asked := asked.trans (within.schemas asked).symm

theorem Options.agreeOn_none (options options' : Options) : options.AgreeOn {} options' := by
  constructor <;> simp

theorem Options.agreeOn_fullSchemaChecking (options : Options) (full full' : Bool) :
    { options with fullSchemaChecking := full }.AgreeOn { roots := true, namespaces := true }
      { options with fullSchemaChecking := full' } := by
  constructor <;> simp

theorem schema_validate {bundle : Bundle} {options : Options} {bytes : Bytes} {r : Reason}
    {v : ContentModel.Violation} (member : r ∈ (validate bundle options bytes).report.reasons)
    (ofSchema : r.cause = .schema v) :
    ∃ earlier tag location later type,
      (Document.ofBytes bytes).events = earlier ++ (.start tag, location) :: later ∧
        r.location? = some location ∧
        ((Session.start bundle options).follow bundle.pool
          (earlier ++ [(.start tag, location)])).innermostType? = some type ∧
        v ∈ type.violations := by
  -- The end of the document, or the fault that ends it, adds reasons of other kinds.
  have found : r ∈ ((Session.start bundle options).follow bundle.pool
      (Document.ofBytes bytes).events).found := by
    unfold validate validateDocument at member
    cases fault : (Document.ofBytes bytes).fault? with
    | none =>
      rw [fault] at member
      refine (List.mem_append.1 (List.mem_reverse.1 member)).resolve_left fun new => ?_
      obtain ⟨fault, -, rfl⟩ := List.mem_map.1 (List.mem_reverse.1 new)
      cases ofSchema
    | some fault' =>
      rw [fault] at member
      refine (List.mem_append.1 (List.mem_reverse.1 member)).resolve_left fun new => ?_
      obtain rfl := List.mem_singleton.1 (List.mem_reverse.1 new)
      cases ofSchema
  exact (Session.schema_follow found ofSchema).resolve_left List.not_mem_nil

theorem verdict_eq_valid_iff (bundle : Bundle) (options : Options) (bytes : Bytes) :
    (validate bundle options bytes).verdict = .valid ↔
      (validate bundle options bytes).report.reasons = [] := by
  have tallied := (Session.tallied_start bundle options).follow bundle.pool
    (Document.ofBytes bytes).events
  unfold validate validateDocument
  cases (Document.ofBytes bytes).fault? with
  | none => exact (tallied.endDocument.accounts_outcome _).valid_iff
  | some fault => exact (tallied.accounts_abort fault.1 fault.2 _).valid_iff

/-- The reasons that no option asks for are the same whatever the options are. Options that ask for
more give more reasons and take none away, so what they find valid is valid without them. To check
the conditions on schemas adds nothing but conditions that the types of elements in the document do
not meet. -/
theorem validate_options (bundle : Bundle) (bytes : Bytes) :
    let reasons options := (validate bundle options bytes).report.reasons
    (∀ options options', Kinds.among {} (reasons options) = Kinds.among {} (reasons options')) ∧
      (∀ fewer more : Options, fewer.Within more → (reasons fewer).Sublist (reasons more) ∧
        ((validate bundle more bytes).verdict = .valid →
          (validate bundle fewer bytes).verdict = .valid)) ∧
      ∀ options : Options,
        let checked := { options with fullSchemaChecking := true }
        let unchecked := { options with fullSchemaChecking := false }
        ((reasons checked).filter fun r => !r.cause.isSchema) = reasons unchecked ∧
          ∀ r ∈ reasons checked, ∀ v, r.cause = .schema v → ∃ earlier tag location later type,
            (Document.ofBytes bytes).events = earlier ++ (.start tag, location) :: later ∧
              r.location? = some location ∧
              ((Session.start bundle checked).follow bundle.pool
                (earlier ++ [(.start tag, location)])).innermostType? = some type ∧
              v ∈ type.violations := by
  intro reasons
  have kept options : (Options.asked options).among (reasons options) = reasons options :=
    Kinds.among_eq_self (keeps_of_mem_validate bundle options bytes)
  have sublist (fewer more : Options) (within : fewer.Within more) :
      (reasons fewer).Sublist (reasons more) := by
    rw [← kept fewer, among_reasons_validate bundle within.agreeOn bytes]
    exact List.filter_sublist
  refine ⟨fun options options' => ?_, fun fewer more within => ⟨sublist fewer more within, ?_⟩, ?_⟩
  · exact among_reasons_validate bundle (options.agreeOn_none options') bytes
  · rw [verdict_eq_valid_iff, verdict_eq_valid_iff]
    intro none
    have within := sublist fewer more within
    rw [show reasons more = [] from none] at within
    exact List.sublist_nil.1 within
  · intro options checked unchecked
    refine ⟨?_, fun r member v ofSchema => schema_validate member ofSchema⟩
    have agree := among_reasons_validate bundle
      (options.agreeOn_fullSchemaChecking true false) bytes
    have plain : (reasons unchecked).filter (fun r => !r.cause.isSchema) = reasons unchecked := by
      refine List.filter_eq_self.2 fun r member => ?_
      have asked := keeps_of_mem_validate bundle unchecked bytes r member
      cases cause : r.cause <;> simp_all [Cause.isSchema, Kinds.keeps, Options.asked, unchecked]
    have kept (r : Reason) : ({ roots := true, namespaces := true } : Kinds).keeps r.cause =
        !r.cause.isSchema := by
      cases r.cause <;> rfl
    simp only [Kinds.among, kept] at agree
    exact agree.trans plain

def unclearBundle : Bundle where
  identity := "unclear"
  symbols := {}
  pool := { grammars := [{
    target := "", systemIds := [],
    elements := { entries := [("list", {
      name := ⟨"", "list"⟩
      type := .inline (.builtin "list") (.complex {
        key := .builtin "list", name := none, base := none, isAbstract := false, particle := none, mixed := false
        content := .empty, attributes := [], attributeWildcard := none
        violations := [.ambiguous "item" "item"] })
      nillable := false, default? := none, fixed? := none, isAbstract := false })] } }] }
  validNamespaces := [""]

theorem validate_options_unclearBundle :
    let document := Utf8.encode "<list>x</list>"
    let more : Options := { rootPaths := [listPath], fullSchemaChecking := true }
    (validate unclearBundle {} document).verdict = .notValid ∧
      (validate unclearBundle more document).verdict ≠ .valid ∧
      ∃ r ∈ (validate unclearBundle more document).report.reasons, ∃ v, r.cause = .schema v ∧
        ∃ tag location, (.start tag, location) ∈ (Document.ofBytes document).events ∧
          r.location? = some location := by
  intro document more
  obtain ⟨-, added, checked⟩ := validate_options unclearBundle document
  have notValid : (validate unclearBundle {} document).verdict = .notValid := by decide +kernel
  refine ⟨notValid, fun valid => ?_, ?_⟩
  · have without := (added {} more ⟨.inl rfl, .inr ⟨rfl, rfl⟩, nofun⟩).2 valid
    rw [notValid] at without
    cases without
  · obtain ⟨r, member, isSchema⟩ :
        ∃ r ∈ (validate unclearBundle more document).report.reasons, r.cause.isSchema = true := by
      rw [← List.any_eq_true]
      decide +kernel
    obtain ⟨v, cause⟩ : ∃ v, r.cause = .schema v := by
      cases cause : r.cause with
      | schema v => exact ⟨v, rfl⟩
      | _ => simp [cause, Cause.isSchema] at isSchema
    obtain ⟨earlier, tag, location, later, type, events, here, -⟩ :=
      (checked more).2 r member v cause
    exact ⟨r, member, v, cause, tag, location, by rw [events]; simp, here⟩

end Validation

end XmlSchema
