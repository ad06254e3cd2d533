import Mathlib.Data.Finset.Card
import Mathlib.Data.List.ReduceOption
import XmlSchema.Proofs.Validation.RootElements

namespace XmlSchema

open Component (Pool)
open Instance (Event StartTag)
open Report (Cause Reason)

namespace Structure

def NamespaceWarning.namespace? : NamespaceWarning → Option String
  | .absent _ => some ""
  | .unknown ns _ => some ns
  | .suppressed => none

theorem NamespaceWarning.namespace?_eq_none_iff {w : NamespaceWarning} :
    w.namespace? = none ↔ w = .suppressed := by
  cases w <;> simp [namespace?]

structure Limited (limit : Nat) (unknown : Finset String) (recorded : List NamespaceWarning) :
    Prop where
  length_named : (recorded.filterMap (·.namespace?)).length = min unknown.card limit
  count_suppressed : recorded.count .suppressed = if limit < unknown.card then 1 else 0
  nodup_named : (recorded.filterMap (·.namespace?)).Nodup
  unknown_of_named : ∀ ns ∈ recorded.filterMap (·.namespace?), ns ∈ unknown
  suppressed_last : ∀ earlier later, recorded = earlier ++ .suppressed :: later → later = []
  nonempty : unknown.Nonempty → recorded ≠ []

section Record

variable {limit : Nat} {unknown : Finset String} {recorded : List NamespaceWarning}
  {named : List String}

theorem filterMap_namespace? (recorded : List NamespaceWarning) :
    recorded.filterMap (·.namespace?) = (recorded.map (·.namespace?)).reduceOption := by
  rw [List.reduceOption, List.filterMap_map]
  rfl

theorem count_suppressed_eq (recorded : List NamespaceWarning) :
    recorded.count .suppressed = (recorded.map (·.namespace?)).count none := by
  rw [List.count, List.count, List.countP_map]
  refine List.countP_congr fun w _ => ?_
  simp [NamespaceWarning.namespace?_eq_none_iff]

theorem reduceOption_map_some (names : List String) :
    (names.map some).reduceOption = names := by
  simp [List.reduceOption]

theorem count_none_map_some (names : List String) : (names.map some).count none = 0 :=
  List.count_eq_zero.2 (by simp)

theorem limited_of_named (names : recorded.map (·.namespace?) = named.map some)
    (all : named.toFinset = unknown) (nodup : named.Nodup) (few : named.length ≤ limit) :
    Limited limit unknown recorded := by
  have card : unknown.card = named.length := by rw [← all, List.toFinset_card_of_nodup nodup]
  have inOrder : recorded.filterMap (·.namespace?) = named := by
    rw [filterMap_namespace?, names, reduceOption_map_some]
  have complete : recorded.count .suppressed = 0 := by
    rw [count_suppressed_eq, names, count_none_map_some]
  constructor
  · rw [inOrder, card, min_eq_left few]
  · rw [complete, if_neg (by omega)]
  · rwa [inOrder]
  · simp [inOrder, ← all]
  · rintro earlier later rfl
    exact absurd complete (by simp)
  · rintro ⟨ns, member⟩ rfl
    rw [← all, ← inOrder] at member
    simp at member

theorem limited_of_suppressed (names : recorded.map (·.namespace?) = named.map some ++ [none])
    (some_unknown : ∀ ns ∈ named, ns ∈ unknown) (nodup : named.Nodup) (full : named.length = limit)
    (more : limit < unknown.card) : Limited limit unknown recorded := by
  have inOrder : recorded.filterMap (·.namespace?) = named := by
    rw [filterMap_namespace?, names, List.reduceOption_append, reduceOption_map_some]
    simp [List.reduceOption]
  have once : recorded.count .suppressed = 1 := by
    rw [count_suppressed_eq, names, List.count_append, count_none_map_some]
    simp
  constructor
  · rw [inOrder, full, min_eq_right more.le]
  · rw [once, if_pos more]
  · rwa [inOrder]
  · rwa [inOrder]
  · rintro earlier later rfl
    rw [List.map_append, List.map_cons] at names
    rcases List.eq_nil_or_concat later with rfl | ⟨later, last, rfl⟩
    · rfl
    · -- Two warnings would name no namespace, but the names before the last one are all there.
      rw [List.concat_eq_append, List.map_append, ← List.cons_append, ← List.append_assoc] at names
      have before := (List.append_inj' names rfl).1
      have named : none ∈ named.map some := before ▸ by simp [NamespaceWarning.namespace?]
      simp at named
  · rintro - rfl
    simp at once

end Record

namespace Monitor

variable {m : Monitor} {unknown : Finset String} {recorded : List NamespaceWarning} {ns : String}

theorem checkNamespace_cases (checks : m.checksNamespaces = true) (ns localName : String) :
    (m.capped = true ∨ ns ∈ m.knownNamespaces ∨ ns ∈ m.unknownSeen) ∧
        m.checkNamespace ns localName = (m, none) ∨
      (m.capped = false ∧ ns ∉ m.knownNamespaces ∧ ns ∉ m.unknownSeen) ∧
        (m.maxWarnings ≤ m.warnings ∧ m.checkNamespace ns localName =
            ({ m with unknownSeen := ns :: m.unknownSeen, capped := true }, some .suppressed) ∨
          m.warnings < m.maxWarnings ∧ ∃ w, w.namespace? = some ns ∧ m.checkNamespace ns localName =
            ({ m with unknownSeen := ns :: m.unknownSeen, warnings := m.warnings + 1 }, some w)) := by
  by_cases quiet : m.capped = true ∨ ns ∈ m.knownNamespaces ∨ ns ∈ m.unknownSeen
  · refine .inl ⟨quiet, if_pos ?_⟩
    simpa [checks, or_assoc] using quiet
  · refine .inr ⟨by simpa using quiet, ?_⟩
    have unfolded : m.checkNamespace ns localName =
        if m.maxWarnings ≤ m.warnings then
          ({ m with unknownSeen := ns :: m.unknownSeen, capped := true }, some .suppressed)
        else ({ m with unknownSeen := ns :: m.unknownSeen, warnings := m.warnings + 1 },
          some (if ns.isEmpty then .absent localName else .unknown ns localName)) :=
      if_neg (by simpa [checks, or_assoc] using quiet)
    rw [unfolded]
    by_cases full : m.maxWarnings ≤ m.warnings
    · exact .inl ⟨full, if_pos full⟩
    · refine .inr ⟨Nat.lt_of_not_le full, _, ?_, if_neg full⟩
      split
      next empty => simp [NamespaceWarning.namespace?, String.isEmpty_iff.1 empty]
      next => rfl

/-- A monitor has named all the unknown namespaces that have occurred. -/
structure Counting (unknown : Finset String) (recorded : List NamespaceWarning) (m : Monitor) :
    Prop where
  notCapped : m.capped = false
  seen : m.unknownSeen.toFinset = unknown
  nodup : m.unknownSeen.Nodup
  counted : m.warnings = m.unknownSeen.length
  few : m.warnings ≤ m.maxWarnings
  names : recorded.map (·.namespace?) = m.unknownSeen.reverse.map some

structure Suppressing (unknown : Finset String) (recorded : List NamespaceWarning) (m : Monitor) :
    Prop where
  capped : m.capped = true
  more : m.maxWarnings < unknown.card
  names : ∃ named : List String, named.Nodup ∧ named.length = m.maxWarnings ∧
    (∀ ns ∈ named, ns ∈ unknown) ∧ recorded.map (·.namespace?) = named.map some ++ [none]

theorem Counting.limited (counting : m.Counting unknown recorded) :
    Limited m.maxWarnings unknown recorded :=
  limited_of_named counting.names (by rw [List.toFinset_reverse, counting.seen])
    (List.nodup_reverse.2 counting.nodup)
    (by rw [List.length_reverse, ← counting.counted]; exact counting.few)

theorem Suppressing.limited (suppressing : m.Suppressing unknown recorded) :
    Limited m.maxWarnings unknown recorded := by
  obtain ⟨named, nodup, full, some_unknown, names⟩ := suppressing.names
  exact limited_of_suppressed names some_unknown nodup full suppressing.more

theorem Suppressing.mono (suppressing : m.Suppressing unknown recorded) {more : Finset String}
    (subset : unknown ⊆ more) : m.Suppressing more recorded where
  capped := suppressing.capped
  more := suppressing.more.trans_le (Finset.card_le_card subset)
  names := by
    obtain ⟨named, nodup, full, some_unknown, names⟩ := suppressing.names
    exact ⟨named, nodup, full, fun ns member => subset (some_unknown ns member), names⟩

theorem Counting.name (counting : m.Counting unknown recorded) (new : ns ∉ m.unknownSeen)
    (room : m.warnings < m.maxWarnings) {w : NamespaceWarning} (about : w.namespace? = some ns) :
    Counting (insert ns unknown) (recorded ++ [w])
      { m with unknownSeen := ns :: m.unknownSeen, warnings := m.warnings + 1 } where
  notCapped := counting.notCapped
  seen := by rw [List.toFinset_cons, counting.seen]
  nodup := List.nodup_cons.2 ⟨new, counting.nodup⟩
  counted := by rw [counting.counted, List.length_cons]
  few := room
  names := by simp [counting.names, about]

theorem Counting.suppress (counting : m.Counting unknown recorded) (new : ns ∉ m.unknownSeen)
    (full : m.maxWarnings ≤ m.warnings) :
    Suppressing (insert ns unknown) (recorded ++ [.suppressed])
      { m with unknownSeen := ns :: m.unknownSeen, capped := true } where
  capped := rfl
  more := by
    have fresh : ns ∉ unknown := by rwa [← counting.seen, List.mem_toFinset]
    have card : unknown.card = m.warnings := by
      rw [← counting.seen, List.toFinset_card_of_nodup counting.nodup, counting.counted]
    rw [Finset.card_insert_of_notMem fresh, card]
    exact Nat.lt_succ_of_le full
  names := by
    refine ⟨m.unknownSeen.reverse, List.nodup_reverse.2 counting.nodup, ?_, fun other member => ?_, ?_⟩
    · rw [List.length_reverse, ← counting.counted]
      exact Nat.le_antisymm counting.few full
    · rw [Finset.mem_insert, ← counting.seen, List.mem_toFinset]
      exact .inr (List.mem_reverse.1 member)
    · rw [List.map_append, counting.names]
      rfl

structure Warned (known : List String) (limit : Nat) (unknown : Finset String)
    (recorded : List NamespaceWarning) (m : Monitor) : Prop where
  checks : m.checksNamespaces = true
  known : m.knownNamespaces = known
  limit : m.maxWarnings = limit
  record : m.Counting unknown recorded ∨ m.Suppressing unknown recorded

variable {known : List String} {limit : Nat}

theorem warned_start (rootPaths : List RootPath) (known : List String) (limit : Nat) :
    (start rootPaths known true limit).Warned known limit ∅ [] where
  checks := rfl
  known := rfl
  limit := rfl
  record := .inl ⟨rfl, rfl, List.nodup_nil, rfl, Nat.zero_le _, rfl⟩

theorem Warned.limited (warned : m.Warned known limit unknown recorded) :
    Limited limit unknown recorded := by
  rw [← warned.limit]
  exact warned.record.elim Counting.limited Suppressing.limited

def addUnknown (known : List String) (unknown : Finset String) (ns : String) : Finset String :=
  if ns ∈ known then unknown else insert ns unknown

theorem Warned.checkNamespace (warned : m.Warned known limit unknown recorded)
    (ns localName : String) :
    (m.checkNamespace ns localName).1.Warned known limit (addUnknown known unknown ns)
      (recorded ++ (m.checkNamespace ns localName).2.toList) := by
  obtain ⟨checks, sameKnown, sameLimit, record⟩ := warned
  rcases checkNamespace_cases checks ns localName with
    ⟨quiet, same⟩ | ⟨⟨notCapped, notKnown, new⟩, ⟨full, same⟩ | ⟨room, w, about, same⟩⟩
  · rw [same, Option.toList_none, List.append_nil]
    refine ⟨checks, sameKnown, sameLimit, ?_⟩
    rw [addUnknown, ← sameKnown]
    rcases record with counting | suppressing
    · have old : ns ∈ m.knownNamespaces ∨ ns ∈ m.unknownSeen := by
        simpa [counting.notCapped] using quiet
      split
      next => exact .inl counting
      next notKnown =>
        have seen : ns ∈ unknown := by
          rw [← counting.seen, List.mem_toFinset]
          exact old.resolve_left notKnown
        rw [Finset.insert_eq_of_mem seen]
        exact .inl counting
    · refine .inr (suppressing.mono ?_)
      split
      next => exact Finset.Subset.refl _
      next => exact Finset.subset_insert _ _
  all_goals
    have counting : m.Counting unknown recorded := record.resolve_right fun suppressing => by
      simp [suppressing.capped] at notCapped
    rw [same, addUnknown, if_neg (sameKnown ▸ notKnown)]
  · exact ⟨checks, sameKnown, sameLimit, .inr (counting.suppress new full)⟩
  · exact ⟨checks, sameKnown, sameLimit, .inl (counting.name new room about)⟩

theorem Warned.elsewhere (warned : m.Warned known limit unknown recorded) (roots : List Watched)
    (path : List String) (phase : Phase) (rootFaults : Nat) :
    { m with roots, path, phase, rootFaults }.Warned known limit unknown recorded where
  checks := warned.checks
  known := warned.known
  limit := warned.limit
  record := warned.record.imp
    (fun counting => ⟨counting.notCapped, counting.seen, counting.nodup, counting.counted,
      counting.few, counting.names⟩)
    (fun suppressing => ⟨suppressing.capped, suppressing.more, suppressing.names⟩)

theorem Warned.startElement (warned : m.Warned known limit unknown recorded)
    (ns localName : String) :
    (m.startElement ns localName).1.Warned known limit (addUnknown known unknown ns)
      (recorded ++ (m.startElement ns localName).2.2.toList) :=
  (warned.elsewhere _ _ _ _).checkNamespace ns localName

theorem Warned.endElement (warned : m.Warned known limit unknown recorded) :
    m.endElement.Warned known limit unknown recorded :=
  warned.elsewhere m.roots m.path.tail m.phase m.rootFaults

theorem startElement_of_checksNot (checksNot : m.checksNamespaces = false)
    (ns localName : String) :
    (m.startElement ns localName).1.checksNamespaces = false ∧
      (m.startElement ns localName).2.2 = none := by
  simp [Monitor.startElement, Monitor.checkNamespace, checksNot]

end Monitor

end Structure

namespace Validation

open Structure

def namespaceWarnings (reasons : List Reason) : List NamespaceWarning :=
  reasons.filterMap fun r =>
    match r.severity, r.cause with
    | .warning, .ns w => some w
    | _, _ => none

def startedNamespaces (events : List (Event × Location)) : List String :=
  events.filterMap fun (event, _) =>
    match event with
    | .start tag => some tag.name.ns
    | _ => none

def unknownNamespaces (known : List String) (events : List (Event × Location)) : Finset String :=
  {ns ∈ (startedNamespaces events).toFinset | ns ∉ known}

theorem namespaceWarnings_append (reasons more : List Reason) :
    namespaceWarnings (reasons ++ more) = namespaceWarnings reasons ++ namespaceWarnings more :=
  List.filterMap_append

theorem namespaceWarnings_of_errors {reasons : List Reason}
    (errors : ∀ r ∈ reasons, r.severity = .error) : namespaceWarnings reasons = [] := by
  refine List.filterMap_eq_nil_iff.2 fun r member => ?_
  rw [errors r member]

namespace Session

variable {s : Session} {location : Location}

def recorded (s : Session) : List NamespaceWarning := namespaceWarnings s.found.reverse

theorem recorded_add_errors {reasons : List Reason} (errors : ∀ r ∈ reasons, r.severity = .error) :
    (s.add reasons).recorded = s.recorded := by
  simp [recorded, reverse_found_add, namespaceWarnings_append, namespaceWarnings_of_errors errors]

theorem severity_errorsAt (monitor : Monitor) (location : Location) (causes : List Cause) :
    ∀ r ∈ errorsAt monitor location causes, r.severity = .error := by
  simp [errorsAt]

theorem recorded_startElement (pool : Pool) (tag : StartTag) :
    (s.startElement pool tag location).recorded =
      s.recorded ++ (s.monitor.startElement tag.name.ns tag.name.localName).2.2.toList := by
  rw [recorded, found_startElement, List.reverse_append, List.reverse_reverse,
    namespaceWarnings_append, namespaceWarnings_append, structureReasons, namespaceWarnings_append,
    namespaceWarnings_of_errors (severity_errorsAt _ _ _),
    namespaceWarnings_of_errors (severity_errorsAt _ _ _), List.nil_append, List.append_nil]
  congr 1
  cases (s.monitor.startElement tag.name.ns tag.name.localName).2.2 <;> rfl

theorem recorded_characters (text : String) : (s.characters text location).recorded = s.recorded := by
  unfold characters
  split
  · rfl
  · exact recorded_add_errors (severity_errorsAt _ _ _)

theorem recorded_endElement : (s.endElement location).recorded = s.recorded :=
  recorded_add_errors (severity_errorsAt _ _ _)

theorem recorded_endDocument : s.endDocument.recorded = s.recorded :=
  recorded_add_errors (by simp)

def Warned (known : List String) (limit : Nat) (unknown : Finset String) (s : Session) : Prop :=
  s.monitor.Warned known limit unknown s.recorded

variable {known : List String} {limit : Nat} {unknown : Finset String}

theorem warned_start (bundle : Bundle) {options : Options}
    (checks : options.ignoreUnknownNamespaces = false) :
    (start bundle options).Warned bundle.validNamespaces options.maxNamespaceWarnings ∅ := by
  simp only [Warned, start, checks]
  exact Monitor.warned_start ..

theorem Warned.startElement (warned : s.Warned known limit unknown) (pool : Pool) (tag : StartTag)
    (location : Location) :
    (s.startElement pool tag location).Warned known limit
      (Monitor.addUnknown known unknown tag.name.ns) := by
  rw [Warned, recorded_startElement, monitor_startElement]
  exact Monitor.Warned.startElement warned tag.name.ns tag.name.localName

theorem Warned.characters (warned : s.Warned known limit unknown) (text : String)
    (location : Location) : (s.characters text location).Warned known limit unknown := by
  rwa [Warned, recorded_characters, monitor_characters]

theorem Warned.endElement (warned : s.Warned known limit unknown) (location : Location) :
    (s.endElement location).Warned known limit unknown := by
  rw [Warned, recorded_endElement, monitor_endElement]
  exact Monitor.Warned.endElement warned

theorem unknownNamespaces_start (tag : StartTag) (location : Location)
    (events : List (Event × Location)) :
    unknown ∪ unknownNamespaces known ((.start tag, location) :: events) =
      Monitor.addUnknown known unknown tag.name.ns ∪ unknownNamespaces known events := by
  have started : startedNamespaces ((.start tag, location) :: events) =
      tag.name.ns :: startedNamespaces events := rfl
  rw [unknownNamespaces, started, List.toFinset_cons, Finset.filter_insert, Monitor.addUnknown]
  by_cases isKnown : tag.name.ns ∈ known
  · simp [isKnown, unknownNamespaces]
  · simp [isKnown, unknownNamespaces, Finset.insert_union]

theorem Warned.follow (warned : s.Warned known limit unknown) (pool : Pool)
    (events : List (Event × Location)) :
    (s.follow pool events).Warned known limit (unknown ∪ unknownNamespaces known events) := by
  induction events generalizing s unknown with
  | nil =>
    have none : unknownNamespaces known [] = ∅ := rfl
    rw [none, Finset.union_empty]
    exact warned
  | cons event events ih =>
    obtain ⟨event, location⟩ := event
    rw [follow_cons]
    cases event with
    | start tag =>
      rw [unknownNamespaces_start]
      exact ih (warned.startElement pool tag location)
    | text content => exact ih (warned.characters content location)
    | finish => exact ih (warned.endElement location)

structure Silent (s : Session) : Prop where
  checksNot : s.monitor.checksNamespaces = false
  recorded : s.recorded = []

theorem Silent.handle (silent : s.Silent) (pool : Pool) (event : Event) (location : Location) :
    (s.handle pool event location).Silent := by
  cases event with
  | start tag =>
    have quiet := Monitor.startElement_of_checksNot silent.checksNot tag.name.ns tag.name.localName
    constructor
    · exact quiet.1
    · rw [Session.handle, recorded_startElement, silent.recorded, quiet.2]
      rfl
  | text content =>
    constructor
    · rw [Session.handle, monitor_characters, silent.checksNot]
    · rw [Session.handle, recorded_characters, silent.recorded]
  | finish => exact ⟨silent.checksNot, recorded_endElement.trans silent.recorded⟩

theorem Silent.follow (silent : s.Silent) (pool : Pool) (events : List (Event × Location)) :
    (s.follow pool events).Silent := by
  induction events generalizing s with
  | nil => exact silent
  | cons event events ih => exact ih (silent.handle pool event.1 event.2)

end Session

/-- The warnings that a session has recorded about namespaces are those about the unknown
namespaces of the elements that have started, up to the limit. A session that ignores unknown
namespaces has recorded none. The end of a document adds nothing to them. -/
theorem namespaceWarnings_follow (bundle : Bundle) (options : Options)
    (events : List (Event × Location)) :
    let s := (Session.start bundle options).follow bundle.pool events
    (options.ignoreUnknownNamespaces = false →
      Limited options.maxNamespaceWarnings (unknownNamespaces bundle.validNamespaces events)
        (namespaceWarnings s.found.reverse)) ∧
    (options.ignoreUnknownNamespaces = true → namespaceWarnings s.found.reverse = []) ∧
    namespaceWarnings s.endDocument.found.reverse = namespaceWarnings s.found.reverse := by
  refine ⟨fun checks => ?_, fun ignores => ?_, Session.recorded_endDocument⟩
  · have warned := (Session.warned_start bundle checks).follow bundle.pool events
    rw [Finset.empty_union] at warned
    exact warned.limited
  · have silent : (Session.start bundle options).Silent :=
      ⟨by simp [Session.start, Monitor.start, ignores], rfl⟩
    exact (silent.follow bundle.pool events).recorded

def nestedTags (namespaces : List String) : List (Event × Location) :=
  namespaces.map fun ns => (.start ⟨⟨ns, "e"⟩, [], none⟩, ⟨1, 1⟩)

theorem namespaceWarnings_nestedTags :
    let recorded (limit : Nat) (ignores : Bool) := namespaceWarnings ((Session.start itemsBundle {
        maxNamespaceWarnings := limit, ignoreUnknownNamespaces := ignores }).follow
      itemsBundle.pool (nestedTags ["a", "b", "a", "", "b"])).found.reverse
    ((recorded 1 false).filterMap (·.namespace?)).length = 1 ∧
      (recorded 1 false).count .suppressed = 1 ∧
      (recorded 0 false).count .suppressed = 1 ∧ recorded 1 true = [] := by
  intro recorded
  have warned (limit : Nat) (ignores : Bool) := namespaceWarnings_follow itemsBundle {
    maxNamespaceWarnings := limit, ignoreUnknownNamespaces := ignores }
    (nestedTags ["a", "b", "a", "", "b"])
  have three : (unknownNamespaces itemsBundle.validNamespaces
      (nestedTags ["a", "b", "a", "", "b"])).card = 3 := by decide
  have one := (warned 1 false).1 rfl
  have zero := (warned 0 false).1 rfl
  refine ⟨?_, ?_, ?_, (warned 1 true).2.1 rfl⟩
  · exact one.length_named.trans (by rw [three]; rfl)
  · exact one.count_suppressed.trans (by rw [three]; rfl)
  · exact zero.count_suppressed.trans (by rw [three]; rfl)

end Validation

end XmlSchema
