import XmlSchema.Proofs.Structure.RootPath
import XmlSchema.Proofs.Validation.Judgement
import XmlSchema.Proofs.Validation.Verdict

namespace XmlSchema

open Component (Pool)
open Instance (Event StartTag)
open Report (Cause Reason)

namespace Structure

/-- An element with some path is where it may be: if a root path has the same length and ends below
the same elements, the element stands at such a path. -/
def Expected (rootPaths : List RootPath) (path : List String) : Prop :=
  (∃ root ∈ rootPaths, root.segments.length = path.length ∧ root.ancestors = path.dropLast) →
    ∃ root ∈ rootPaths, root.segments = path

theorem expected_concat_iff {rootPaths : List RootPath} {ancestors : List String}
    {localName : String} :
    Expected rootPaths (ancestors ++ [localName]) ↔
      ((∃ root ∈ rootPaths, root.ancestors = ancestors) →
        ∃ root ∈ rootPaths, root.segments = ancestors ++ [localName]) := by
  have deep (root : RootPath) (same : root.ancestors = ancestors) :
      root.segments.length = (ancestors ++ [localName]).length := by
    rw [← root.ancestors_concat_name, same]
    simp
  simp only [Expected, List.dropLast_concat]
  refine imp_congr_left (exists_congr fun root => and_congr_right fun _ => ?_)
  exact ⟨And.right, fun same => ⟨deep root same, same⟩⟩

namespace Monitor

def marked (rootPaths : List RootPath) (seen : List (List String)) : List Watched :=
  rootPaths.map fun path => ⟨path, path.segments ∈ seen⟩

def Faultless (rootPaths : List RootPath) (seen : List (List String)) : Prop :=
  (∀ path ∈ seen, Expected rootPaths path) ∧
    ∀ root ∈ rootPaths, seen.count root.segments ≤ 1

section Element

variable {rootPaths : List RootPath} {seen : List (List String)} {ancestors : List String}
  {localName : String}

theorem observe_eq (root : RootPath) (observed : Bool) :
    observe ancestors localName ⟨root, observed⟩ =
      if root.segments = ancestors ++ [localName] then
        (⟨root, true⟩, if observed then some (.repeated root) else none)
      else (⟨root, observed⟩, none) := by
  simp only [observe, root.segments_eq_concat_iff, Bool.and_eq_true, beq_iff_eq]

theorem observe_marked (root : RootPath) :
    (observe ancestors localName ⟨root, root.segments ∈ seen⟩).1 =
      ⟨root, root.segments ∈ seen ++ [ancestors ++ [localName]]⟩ := by
  rw [observe_eq]
  split <;> simp [*]

theorem candidates_isEmpty_iff :
    ((marked rootPaths seen).filter fun w => w.path.ancestors == ancestors).isEmpty = true ↔
      ¬ ∃ root ∈ rootPaths, root.ancestors = ancestors := by
  simp [marked, List.filter_eq_nil_iff]

theorem candidates_any_iff :
    (((marked rootPaths seen).filter fun w => w.path.ancestors == ancestors).any fun w =>
        w.path.name == localName) = true ↔
      ∃ root ∈ rootPaths, root.segments = ancestors ++ [localName] := by
  simp only [marked, List.any_filter, List.any_map, List.any_eq_true, Function.comp_apply,
    Bool.and_eq_true, beq_iff_eq, RootPath.segments_eq_concat_iff]

theorem checkRoots_of_expected (expected : Expected rootPaths (ancestors ++ [localName])) :
    checkRoots (marked rootPaths seen) ancestors localName =
      (((marked rootPaths seen).map (observe ancestors localName)).map (·.1),
        ((marked rootPaths seen).map (observe ancestors localName)).filterMap (·.2)) := by
  refine if_pos ?_
  rw [Bool.or_eq_true, candidates_isEmpty_iff, candidates_any_iff, ← imp_iff_not_or]
  exact expected_concat_iff.1 expected

theorem checkRoots_of_unexpected (seen : List (List String))
    (unexpected : ¬ Expected rootPaths (ancestors ++ [localName])) :
    ∃ fault, checkRoots (marked rootPaths seen) ancestors localName =
      (marked rootPaths seen, [fault]) := by
  refine ⟨_, if_neg ?_⟩
  rw [Bool.or_eq_true, candidates_isEmpty_iff, candidates_any_iff, ← imp_iff_not_or]
  exact fun expected => unexpected (expected_concat_iff.2 expected)

theorem roots_checkRoots :
    (checkRoots (marked rootPaths seen) ancestors localName).1 =
      marked rootPaths (seen ++ [ancestors ++ [localName]]) := by
  by_cases expected : Expected rootPaths (ancestors ++ [localName])
  · rw [checkRoots_of_expected expected]
    simp only [marked, List.map_map]
    exact List.map_congr_left fun root _ => observe_marked root
  · obtain ⟨fault, same⟩ := checkRoots_of_unexpected seen expected
    rw [same]
    refine List.map_congr_left fun root member => ?_
    -- An element that stands at a root path is not unexpected.
    have elsewhere : root.segments ≠ ancestors ++ [localName] := fun here =>
      expected fun _ => ⟨root, member, here⟩
    simp [elsewhere]

theorem faults_checkRoots_eq_nil_iff :
    (checkRoots (marked rootPaths seen) ancestors localName).2 = [] ↔
      Expected rootPaths (ancestors ++ [localName]) ∧
        ∀ root ∈ rootPaths, root.segments = ancestors ++ [localName] → root.segments ∉ seen := by
  by_cases expected : Expected rootPaths (ancestors ++ [localName])
  · rw [checkRoots_of_expected expected, and_iff_right expected]
    simp only [marked, List.filterMap_eq_nil_iff, List.forall_mem_map, observe_eq]
    refine forall₂_congr fun root _ => ?_
    split <;> simp [*]
  · obtain ⟨fault, same⟩ := checkRoots_of_unexpected seen expected
    simp [same, expected]

theorem faultless_concat_iff {path : List String} :
    Faultless rootPaths (seen ++ [path]) ↔ Faultless rootPaths seen ∧ Expected rootPaths path ∧
      ∀ root ∈ rootPaths, root.segments = path → root.segments ∉ seen := by
  have counts (root : RootPath) : (seen ++ [path]).count root.segments ≤ 1 ↔
      seen.count root.segments ≤ 1 ∧ (root.segments = path → root.segments ∉ seen) := by
    rw [List.count_append, List.count_singleton, ← List.count_eq_zero]
    by_cases here : path = root.segments
    · simp [here]
      omega
    · simp [here, Ne.symm here]
  simp only [Faultless, List.forall_mem_append, List.forall_mem_singleton, counts, forall₂_and]
  tauto

end Element

structure Saw (rootPaths : List RootPath) (seen : List (List String)) (m : Monitor) : Prop where
  roots : m.roots = marked rootPaths seen
  faultless_iff : m.rootFaults = 0 ↔ Faultless rootPaths seen

variable {rootPaths : List RootPath} {seen : List (List String)} {m : Monitor}

theorem saw_start (rootPaths : List RootPath) (knownNamespaces : List String)
    (checksNamespaces : Bool) (maxWarnings : Nat) :
    (start rootPaths knownNamespaces checksNamespaces maxWarnings).Saw rootPaths [] where
  roots := by simp [start, marked]
  faultless_iff := by simp [start, Faultless]

theorem checkNamespace_keeps (m : Monitor) (ns localName : String) :
    (m.checkNamespace ns localName).1.roots = m.roots ∧
      (m.checkNamespace ns localName).1.path = m.path := by
  unfold checkNamespace
  split
  · exact ⟨rfl, rfl⟩
  · dsimp only
    split <;> exact ⟨rfl, rfl⟩

theorem path_startElement (m : Monitor) (ns localName : String) :
    (m.startElement ns localName).1.path = localName :: m.path := by
  simp only [startElement, checkNamespace_keeps]

theorem Saw.startElement (saw : m.Saw rootPaths seen) (ns localName : String) :
    (m.startElement ns localName).1.Saw rootPaths (seen ++ [m.path.reverse ++ [localName]]) where
  roots := by
    simp only [Monitor.startElement, checkNamespace_keeps, saw.roots, roots_checkRoots]
  faultless_iff := by
    rw [faultless_concat_iff, ← saw.faultless_iff, ← faults_checkRoots_eq_nil_iff, ← saw.roots]
    simp [Monitor.startElement, rootFaults_checkNamespace]

theorem Saw.endElement (saw : m.Saw rootPaths seen) : m.endElement.Saw rootPaths seen :=
  ⟨saw.roots, saw.faultless_iff⟩

theorem Saw.hasRootFaults_endDocument (saw : m.Saw rootPaths seen) :
    m.endDocument.1.hasRootFaults = false ↔
      (∀ root ∈ rootPaths, seen.count root.segments = 1) ∧
        ∀ path ∈ seen, Expected rootPaths path := by
  have missing : missingRoots m.roots = [] ↔
      ∀ root ∈ rootPaths, 1 ≤ seen.count root.segments := by
    simp [missingRoots, saw.roots, marked, List.filter_eq_nil_iff, List.one_le_count_iff]
  have counted : m.endDocument.1.hasRootFaults = false ↔
      m.rootFaults = 0 ∧ missingRoots m.roots = [] := by
    rw [hasRootFaults, decide_eq_false_iff_not, Nat.not_lt, Nat.le_zero]
    exact Nat.add_eq_zero_iff.trans (and_congr_right fun _ => List.length_eq_zero_iff)
  rw [counted, missing, saw.faultless_iff, Faultless, and_assoc, and_comm, ← forall₂_and]
  refine and_congr_left fun _ => forall₂_congr fun root _ => ?_
  omega

end Monitor

end Structure

namespace Validation

open Structure

mutual

def ElementTree.paths (above : List String) : ElementTree → List (List String)
  | ⟨tag, content⟩ =>
    (above ++ [tag.name.localName]) :: contentPaths (above ++ [tag.name.localName]) content

/-- The paths of the elements in some content, below the elements around it. -/
def contentPaths (above : List String) : List ContentNode → List (List String)
  | [] => []
  | .text _ :: rest => contentPaths above rest
  | .child element :: rest => element.paths above ++ contentPaths above rest

end

namespace Session

theorem monitor_characters (s : Session) (text : String) (location : Location) :
    (s.characters text location).monitor = s.monitor := by
  unfold characters
  split <;> rfl

theorem monitor_endElement (s : Session) (location : Location) :
    (s.endElement location).monitor = s.monitor.endElement := rfl

mutual

theorem saw_follow_element (pool : Pool) (s : Session) {rootPaths : List RootPath}
    {seen : List (List String)} (saw : s.monitor.Saw rootPaths seen) :
    (t : ElementTree) → (events : List (Event × Location)) → events.map Prod.fst = t.events →
      (s.follow pool events).monitor.path = s.monitor.path ∧
      (s.follow pool events).monitor.Saw rootPaths (seen ++ t.paths s.monitor.path.reverse)
  | ⟨tag, content⟩, events, same => by
      obtain ⟨location, inside, ending, sameInside, follows⟩ := exists_follow_eq pool s same
      have path : (s.startElement pool tag location).monitor.path =
          tag.name.localName :: s.monitor.path := Monitor.path_startElement ..
      obtain ⟨pathInside, sawInside⟩ := saw_follow_content pool (s.startElement pool tag location)
        (saw.startElement tag.name.ns tag.name.localName) content inside sameInside
      rw [follows, monitor_endElement]
      refine ⟨by simp [Monitor.endElement, pathInside, path], ?_⟩
      rw [path, List.reverse_cons, List.append_assoc] at sawInside
      exact sawInside.endElement

theorem saw_follow_content (pool : Pool) (s : Session) {rootPaths : List RootPath}
    {seen : List (List String)} (saw : s.monitor.Saw rootPaths seen) :
    (content : List ContentNode) → (events : List (Event × Location)) →
      events.map Prod.fst = contentEvents content →
      (s.follow pool events).monitor.path = s.monitor.path ∧
      (s.follow pool events).monitor.Saw rootPaths
        (seen ++ contentPaths s.monitor.path.reverse content)
  | [], events, same => by
      obtain rfl := List.map_eq_nil_iff.1 same
      rw [contentPaths, List.append_nil]
      exact ⟨rfl, saw⟩
  | .text piece :: rest, events, same => by
      simp only [contentEvents, List.map_eq_cons_iff] at same
      obtain ⟨⟨_, location⟩, later, rfl, rfl, same⟩ := same
      have monitor := monitor_characters s piece location
      have after := saw_follow_content pool (s.characters piece location) (by rwa [monitor])
        rest later same
      rw [monitor] at after
      exact after
  | .child element :: rest, events, same => by
      simp only [contentEvents, List.map_eq_append_iff] at same
      obtain ⟨inside, later, rfl, sameInside, same⟩ := same
      obtain ⟨pathInside, sawInside⟩ := saw_follow_element pool s saw element inside sameInside
      have after := saw_follow_content pool (s.follow pool inside) sawInside rest later same
      rw [pathInside, List.append_assoc] at after
      rw [follow_append, contentPaths]
      exact after

end

def Graded (reasons : List Reason) : Prop :=
  ∀ r ∈ reasons, r.severity = .error ∨ r.severity = .warning ∧ ∃ w, r.cause = .ns w

theorem graded_append {reasons more : List Reason} :
    Graded (reasons ++ more) ↔ Graded reasons ∧ Graded more :=
  List.forall_mem_append

theorem graded_reverse {reasons : List Reason} : Graded reasons.reverse ↔ Graded reasons := by
  simp [Graded]

theorem graded_errorsAt (monitor : Monitor) (location : Location) (causes : List Cause) :
    Graded (errorsAt monitor location causes) := by
  intro reason member
  obtain ⟨cause, _, rfl⟩ := List.mem_map.1 member
  exact .inl rfl

theorem graded_structureReasons (monitor : Monitor) (location : Location)
    (faults : List RootFault) (warning : Option NamespaceWarning) :
    Graded (structureReasons monitor location faults warning) := by
  refine graded_append.2 ⟨graded_errorsAt _ _ _, fun reason member => ?_⟩
  obtain ⟨w, _, rfl⟩ := List.mem_map.1 member
  exact .inr ⟨rfl, w, rfl⟩

theorem graded_add {s : Session} {reasons : List Reason} (graded : Graded s.found)
    (more : Graded reasons) : Graded (s.add reasons).found :=
  graded_append.2 ⟨graded_reverse.2 more, graded⟩

theorem graded_handle (pool : Pool) {s : Session} (graded : Graded s.found) (event : Event)
    (location : Location) : Graded (s.handle pool event location).found := by
  cases event with
  | start tag =>
    refine graded_append.2 ⟨graded_reverse.2 (graded_append.2 ⟨?_, ?_⟩), graded⟩
    · exact graded_structureReasons _ _ _ _
    · exact graded_errorsAt _ _ _
  | text content =>
    simp only [handle, characters]
    split
    · exact graded
    · exact graded_add graded (graded_errorsAt _ _ _)
  | finish => exact graded_add graded (graded_errorsAt _ _ _)

theorem graded_follow (pool : Pool) {s : Session} (graded : Graded s.found)
    (events : List (Event × Location)) : Graded (s.follow pool events).found := by
  induction events generalizing s with
  | nil => exact graded
  | cons event events ih => exact ih (graded_handle pool graded event.1 event.2)

theorem graded_endDocument {s : Session} (graded : Graded s.found) :
    Graded s.endDocument.found := by
  refine graded_add graded fun reason member => ?_
  obtain ⟨fault, _, rfl⟩ := List.mem_map.1 member
  exact .inl rfl

theorem exists_error {s : Session} (tallied : s.Tallied) (graded : Graded s.found)
    (counted : 0 < s.monitor.rootFaults) : ∃ r ∈ s.found, r.severity = .error := by
  rw [tallied.counted, Report.rootFaultsAmong_pos] at counted
  obtain ⟨r, member, ofRoot⟩ := counted
  refine ⟨r, member, (graded r member).resolve_right ?_⟩
  rintro ⟨-, w, ofNamespace⟩
  simp [ofNamespace, Report.Cause.isRootFault] at ofRoot

end Session

/-- At the end of a document the monitor has found no fault at the root paths if and only if exactly
one element stands at each of them, and each element at whose place one was expected is such an
element. While the monitor has counted any fault, there is an error among the reasons. -/
theorem hasRootFaults_eq_false_iff (bundle : Bundle) (options : Options) :
    (∀ (document : List ContentNode) (events : List (Event × Location)),
      events.map Prod.fst = contentEvents document →
        (((Session.start bundle options).follow bundle.pool
            events).endDocument.monitor.hasRootFaults = false ↔
          (∀ root ∈ options.rootPaths, (contentPaths [] document).count root.segments = 1) ∧
            ∀ path ∈ contentPaths [] document, Expected options.rootPaths path)) ∧
    ∀ (events : List (Event × Location)) (s : Session),
      s = (Session.start bundle options).follow bundle.pool events ∨
          s = ((Session.start bundle options).follow bundle.pool events).endDocument →
        0 < s.monitor.rootFaults → ∃ r ∈ s.found, r.severity = .error := by
  constructor
  · intro document events ofDocument
    have saw := Monitor.saw_start options.rootPaths bundle.validNamespaces
      (!options.ignoreUnknownNamespaces) options.maxNamespaceWarnings
    exact (Session.saw_follow_content bundle.pool (.start bundle options) saw document events
      ofDocument).2.hasRootFaults_endDocument
  · have tallied events :=
      (Session.tallied_start bundle options).follow bundle.pool events
    have graded events := Session.graded_follow bundle.pool
      (s := .start bundle options) (fun _ member => nomatch member) events
    rintro events s (rfl | rfl) counted
    · exact Session.exists_error (tallied events) (graded events) counted
    · exact Session.exists_error (tallied events).endDocument
        (Session.graded_endDocument (graded events)) counted

def listPath : RootPath := ⟨["list"], by decide +kernel⟩

def itemPath : RootPath := ⟨["list", "item"], by decide +kernel⟩

theorem hasRootFaults_listOf :
    let after (rootPaths : List RootPath) := ((Session.start itemsBundle { rootPaths }).follow
      itemsBundle.pool ((listOf "en").events.map (·, ⟨1, 1⟩))).endDocument
    (after [listPath, listPath]).monitor.hasRootFaults = false ∧
      (after [listPath, itemPath]).monitor.hasRootFaults = true ∧
      ∃ r ∈ (after [listPath, itemPath]).found, r.severity = .error := by
  intro after
  have judged rootPaths := (hasRootFaults_eq_false_iff itemsBundle { rootPaths }).1
    [.child (listOf "en")] ((listOf "en").events.map (·, ⟨1, 1⟩)) rfl
  have paths : contentPaths [] [.child (listOf "en")] =
      [["list"], ["list", "item"], ["list", "item"]] := rfl
  have once : (after [listPath, listPath]).monitor.hasRootFaults = false := by
    refine (judged [listPath, listPath]).2 ?_
    rw [paths]
    simp [Expected, listPath, RootPath.ancestors]
  have twice : (after [listPath, itemPath]).monitor.hasRootFaults = true := by
    rw [← Bool.not_eq_false, judged [listPath, itemPath], paths]
    simp [listPath, itemPath]
  refine ⟨once, twice, ?_⟩
  refine (hasRootFaults_eq_false_iff itemsBundle _).2 _ _ (.inr rfl) ?_
  simpa [Monitor.hasRootFaults] using twice

end Validation

end XmlSchema
