import XmlSchema.Proofs.ContentModel.Chart
import XmlSchema.Proofs.ContentModel.Choice
import XmlSchema.Proofs.ContentModel.Labels
import XmlSchema.Xml.Name

namespace XmlSchema

open Component (QName)

namespace Component

theorem QName.toList_quoted (q : QName) : q.quoted.toList =
    if q.ns = "" then q.localName.toList
    else '"' :: (q.ns.toList ++ '"' :: ':' :: q.localName.toList) := by
  unfold QName.quoted
  by_cases none : q.ns = ""
  · simp [none]
  · simp [none]

theorem QName.quoted_inj {q q' : QName} (plain : '"' ∉ q.localName.toList)
    (plain' : '"' ∉ q'.localName.toList) (same : q.quoted = q'.quoted) : q = q' := by
  have texts := congrArg String.toList same
  rw [q.toList_quoted, q'.toList_quoted] at texts
  -- The last quote stands behind the namespace.
  have split {ns localPart : List Char} (plain : '"' ∉ localPart) :
      Xml.splitAtChar '"' ('"' :: (ns ++ '"' :: ':' :: localPart)).reverse =
        some ((':' :: localPart).reverse, ('"' :: ns).reverse) :=
    Xml.splitAtChar_eq_some_iff.2 ⟨by simpa using plain, by simp⟩
  obtain ⟨ns, localName⟩ := q
  obtain ⟨ns', localName'⟩ := q'
  by_cases none : ns = "" <;> by_cases none' : ns' = ""
  · rw [if_pos none, if_pos none'] at texts
    obtain rfl : localName = localName' := String.toList_inj.1 texts
    rw [none, none']
  · rw [if_pos none, if_neg none'] at texts
    exact absurd (texts ▸ List.mem_cons_self) plain
  · rw [if_neg none, if_pos none'] at texts
    exact absurd (texts ▸ List.mem_cons_self) plain'
  · rw [if_neg none, if_neg none'] at texts
    have parts := congrArg (Xml.splitAtChar '"' ·.reverse) texts
    simp only [split plain, split plain', Option.some.injEq, Prod.mk.injEq, List.reverse_inj,
      List.cons.injEq, true_and, String.toList_inj] at parts
    rw [parts.1, parts.2]

theorem Wildcard.description_ne_quoted (w : Wildcard) {q : QName}
    (plain : '[' ∉ q.localName.toList) : w.description ≠ q.quoted := by
  have opened : ∃ rest, w.description.toList = 'W' :: 'C' :: '[' :: rest := by
    unfold Wildcard.description
    split <;> simp
  obtain ⟨rest, opened⟩ := opened
  intro same
  rw [same, QName.toList_quoted] at opened
  split at opened
  · exact plain (by simp [opened])
  · cases opened

end Component

namespace ContentModel

variable {δ : Type}

theorem Label.accepts_of_description {l : Label δ} {name : QName}
    (proper : Xml.isNCName name.localName.toList = true)
    (properLabel : ∀ e, l = .element e → Xml.isNCName e.name.localName.toList = true)
    (described : l.description = name.quoted) : l.accepts name = true := by
  have plain {text : List Char} (proper : Xml.isNCName text = true) (c : Char)
      (other : Xml.isNameChar c = false) : c ∉ text := fun member => by
    rw [((Xml.isNameChar_of_isNCName proper).2 c member).2] at other
    cases other
  cases l with
  | element e =>
    exact beq_iff_eq.2 (QName.quoted_inj (plain (properLabel e rfl) '"' (by decide))
      (plain proper '"' (by decide)) described)
  | wildcard w =>
    exact absurd described (w.description_ne_quoted (plain proper '[' (by decide)))

section Firsts
variable {β : Type} [DecidableEq β]

theorem nodup_eraseDups (values : List β) : values.eraseDups.Nodup := by
  induction length : values.length using Nat.strong_induction_on generalizing values with
  | _ n ih =>
    cases values with
    | nil => exact .nil
    | cons b values =>
      have shorter : (values.filter fun c => !c == b).length < n := by
        have le := values.length_filter_le fun c => !c == b
        rw [← length, List.length_cons]
        omega
      rw [List.eraseDups_cons, List.nodup_cons]
      refine ⟨fun member => ?_, ih _ shorter _ rfl⟩
      simpa using (List.mem_filter.1 (List.mem_eraseDups.1 member)).2

theorem filter_filterMap_ne (f : Nat → Option β) (items : List Nat) (b : β) :
    (items.filterMap f).filter (fun c => !c == b) =
      (items.filter fun i => f i ≠ some b).filterMap f := by
  rw [List.filter_filterMap, List.filterMap_filter]
  refine List.filterMap_congr fun i _ => ?_
  cases f i with
  | none => simp
  | some c => by_cases equal : c = b <;> simp [equal, Option.filter]

theorem exists_firsts (f : Nat → Option β) {items : List Nat} (sorted : items.Pairwise (· ≤ ·)) :
    ∃ firsts : List Nat, firsts.Pairwise (· < ·) ∧ firsts ⊆ items ∧
      (items.filterMap f).eraseDups.map some = firsts.map f ∧
      ∀ i ∈ items, (f i).isSome → ∃ j ∈ firsts, j ≤ i ∧ f j = f i := by
  induction length : items.length using Nat.strong_induction_on generalizing items with
  | _ n ih =>
    cases items with
    | nil => exact ⟨[], .nil, fun _ => id, rfl, by simp⟩
    | cons i rest =>
      obtain ⟨least, sortedRest⟩ := List.pairwise_cons.1 sorted
      cases value : f i with
      | none =>
        obtain ⟨firsts, increasing, among, values, first⟩ :=
          ih rest.length (by simp [← length]) sortedRest rfl
        rw [List.filterMap_cons_none value]
        refine ⟨firsts, increasing, List.subset_cons_of_subset _ among, values, ?_⟩
        exact List.forall_mem_cons.2 ⟨fun present => by simp [value] at present, first⟩
      | some b =>
        -- The later places of the same value are passed over.
        have shorter : (rest.filter fun j => f j ≠ some b).length < n := by
          have le := rest.length_filter_le fun j => f j ≠ some b
          rw [← length, List.length_cons]
          omega
        obtain ⟨firsts, increasing, among, values, first⟩ :=
          ih _ shorter (sortedRest.filter _) rfl
        have later {j : Nat} (member : j ∈ firsts) : j ∈ rest ∧ f j ≠ some b := by
          simpa using List.mem_filter.1 (among member)
        rw [List.filterMap_cons_some value, List.eraseDups_cons, filter_filterMap_ne]
        refine ⟨i :: firsts, List.pairwise_cons.2 ⟨fun j member => ?_, increasing⟩,
          List.cons_subset_cons i fun j member => (later member).1,
          by rw [List.map_cons, List.map_cons, values, value],
          List.forall_mem_cons.2 ⟨fun _ => ⟨i, List.mem_cons_self, le_rfl, rfl⟩, ?_⟩⟩
        · obtain ⟨member, other⟩ := later member
          exact lt_of_le_of_ne (least j member) fun equal => other (equal ▸ value)
        · intro j member present
          by_cases same : f j = some b
          · exact ⟨i, List.mem_cons_self, least j member, value.trans same.symm⟩
          · obtain ⟨k, among, le, equal⟩ := first j (by simpa [same] using member) present
            exact ⟨k, List.mem_cons_of_mem _ among, le, equal⟩

end Firsts

section Expected
variable {model : ContentModel δ} {state : State}

theorem mem_expected_automaton_iff {a : Automaton δ} {active : List Nat} {d : String} :
    d ∈ (ContentModel.automaton a).expected (.automaton active) ↔
      ∃ i l, (ContentModel.automaton a).Offers (.automaton active) i ∧
        (ContentModel.automaton a).labels[i]? = some l ∧ l.description = d := by
  change d ∈ a.expected active ↔ _
  simp only [Graph.expected, Graph.labelsFrom, List.mem_eraseDups, List.mem_filterMap,
    List.mem_mergeSort, Option.map_eq_some_iff, List.mem_map, offers_automaton_iff,
    getElem?_labels_automaton, exists_and_left]

theorem mem_expected_all_iff {ms : List (Member δ)} {emptiable : Bool} {seen : List Bool}
    {d : String} :
    d ∈ (ContentModel.all ms emptiable).expected (.all seen) ↔
      ∃ i l, (ContentModel.all ms emptiable).Offers (.all seen) i ∧
        (ContentModel.all ms emptiable).labels[i]? = some l ∧ l.description = d := by
  constructor
  · intro member
    obtain ⟨⟨m, _⟩, unseen, rfl⟩ := List.mem_map.1 member
    obtain ⟨zipped, unmarked⟩ := List.mem_filter.1 unseen
    obtain ⟨i, found⟩ := List.mem_iff_getElem?.1 zipped
    obtain ⟨foundMember, foundMark⟩ := List.getElem?_zip_eq_some.1 found
    obtain rfl : _ = false := by simpa using unmarked
    exact ⟨i, .element m.term, foundMark, by rw [getElem?_labels_all, foundMember]; rfl, rfl⟩
  · rintro ⟨i, l, unseen, found, rfl⟩
    rw [getElem?_labels_all] at found
    obtain ⟨m, member, rfl⟩ := Option.map_eq_some_iff.1 found
    have zipped : (m, false) ∈ ms.zip seen :=
      List.mem_iff_getElem?.2 ⟨i, List.getElem?_zip_eq_some.2 ⟨member, unseen⟩⟩
    exact List.mem_map.2 ⟨(m, false), List.mem_filter.2 ⟨zipped, rfl⟩, rfl⟩

theorem Fits.mem_expected_iff (fits : Fits model state) {d : String} :
    d ∈ model.expected state ↔
      ∃ i l, model.Offers state i ∧ model.labels[i]? = some l ∧ l.description = d := by
  cases fits with
  | empty => exact iff_of_false (List.not_mem_nil) fun ⟨_, _, offered, _⟩ => offered
  | automaton a active => exact mem_expected_automaton_iff
  | all length => exact mem_expected_all_iff

theorem Offers.exists_label (built : model.IsBuilt) (fits : Fits model state) {i : Nat}
    (offered : model.Offers state i) : ∃ l, model.labels[i]? = some l := by
  cases fits with
  | empty => exact offered.elim
  | automaton a active =>
    obtain ⟨s, _, t, leaves⟩ := offered
    have lt := (built.wellFormed.1.transition_lt _ _ _ leaves).1
    exact ⟨_, (getElem?_labels_automaton i).trans (Array.getElem?_eq_getElem lt)⟩
  | @all ms _ seen length =>
    have lt : i < ms.length := length ▸ (List.getElem?_eq_some_iff.1 offered).1
    exact ⟨_, (getElem?_labels_all i).trans (by rw [List.getElem?_eq_getElem lt]; rfl)⟩

theorem isSome_step_of_candidate (fits : Fits model state) {name : QName} {i : Nat}
    (candidate : model.Candidate state name i) : (model.step state name).isSome := by
  refine Option.isSome_iff_ne_none.2 fun refused => ?_
  exact (fits.step_eq_none_iff name).1 refused i candidate

def descriptionAt (model : ContentModel δ) (i : Nat) : Option String :=
  (model.labels[i]?).map (·.description)

/-- Texts are listed in the order of the labels: they stand at the places of some offered labels
that they describe, and each label that is offered is described at its own place or before it. -/
def ListsInOrder (model : ContentModel δ) (state : State) (texts : List String) : Prop :=
  ∃ places : List Nat, places.Pairwise (· < ·) ∧ (∀ i ∈ places, model.Offers state i) ∧
    texts.map some = places.map model.descriptionAt ∧
    ∀ i, model.Offers state i → ∃ j ∈ places, j ≤ i ∧ model.descriptionAt j = model.descriptionAt i

theorem expected_automaton_in_order {a : Automaton δ}
    (built : (ContentModel.automaton a).IsBuilt) (active : List Nat) :
    ((ContentModel.automaton a).expected (.automaton active)).Nodup ∧
      (ContentModel.automaton a).ListsInOrder (.automaton active)
        ((ContentModel.automaton a).expected (.automaton active)) := by
  have mem_labelsFrom {i : Nat} :
      i ∈ a.labelsFrom active ↔ (ContentModel.automaton a).Offers (.automaton active) i := by
    rw [Graph.labelsFrom, List.mem_mergeSort, List.mem_map, offers_automaton_iff]
  have sorted : (a.labelsFrom active).Pairwise (· ≤ ·) := List.pairwise_mergeSort' (· ≤ ·) _
  have described : (fun i => (a.labels[i]?).map (·.description)) =
      (ContentModel.automaton a).descriptionAt := by
    funext i
    rw [descriptionAt, getElem?_labels_automaton]
  obtain ⟨places, increasing, among, values, first⟩ :=
    exists_firsts (ContentModel.automaton a).descriptionAt sorted
  rw [← described] at values
  refine ⟨nodup_eraseDups _, places, increasing, fun i member => mem_labelsFrom.1 (among member),
    described ▸ values, fun i offered => first i (mem_labelsFrom.2 offered) ?_⟩
  obtain ⟨l, found⟩ := offered.exists_label built (.automaton a active)
  simp [descriptionAt, found]

/-- In every state that is met, the texts that are expected are the descriptions of the labels that
are offered. What a child is taken for is described among them, a child of the name of an offered
element is taken, and so is one of a name that is listed, if names are proper ones. Where nothing is
expected, nothing is taken. For an automaton each text is listed once, in the order of the leaves of
the particle. -/
theorem expected_agrees (built : model.IsBuilt) (reachable : model.Reachable state) :
    (∀ text, text ∈ model.expected state ↔
      ∃ i l, model.Offers state i ∧ model.labels[i]? = some l ∧ l.description = text) ∧
    (∀ name l next, model.step state name = some (l, next) → l.description ∈ model.expected state) ∧
    (∀ i e, model.Offers state i → model.labels[i]? = some (.element e) →
      (model.step state e.name).isSome) ∧
    (∀ name : QName, Xml.isNCName name.localName.toList = true →
      (∀ e ∈ model.elements, Xml.isNCName e.name.localName.toList = true) →
      name.quoted ∈ model.expected state → (model.step state name).isSome) ∧
    (model.expected state = [] → ∀ name, model.step state name = none) ∧
    ∀ p a, build p = .ok model → model = .automaton a →
      (model.expected state).Nodup ∧ model.labels = p.leaves.map (·.label) ∧
        model.ListsInOrder state (model.expected state) := by
  have fits := reachable.fits
  have offered : ∀ name l next, model.step state name = some (l, next) →
      l.description ∈ model.expected state := fun name l next stepped => by
    obtain ⟨i, found, takes, -⟩ := fits.takes_of_step built stepped
    exact fits.mem_expected_iff.2 ⟨i, l, takes.candidate.1, found, rfl⟩
  refine ⟨fun text => fits.mem_expected_iff, offered, fun i e offers found => ?_,
    fun name proper properElements listed => ?_, fun none name => ?_, ?_⟩
  · exact isSome_step_of_candidate fits ⟨offers, _, found, beq_self_eq_true e.name⟩
  · obtain ⟨i, l, offers, found, described⟩ := fits.mem_expected_iff.1 listed
    have accepted : l.accepts name = true := Label.accepts_of_description proper (fun e equal =>
      properElements e (mem_elements.2 (equal ▸ List.mem_of_getElem? found))) described
    exact isSome_step_of_candidate fits ⟨offers, l, found, accepted⟩
  · refine Option.eq_none_iff_forall_ne_some.2 fun (l, next) stepped => ?_
    exact absurd (offered name l next stepped) (none ▸ List.not_mem_nil)
  · rintro p a built' rfl
    cases fits with
    | automaton a active =>
      obtain ⟨nodup, ordered⟩ := expected_automaton_in_order built active
      refine ⟨nodup, ?_, ordered⟩
      rcases build_cases built' with ⟨_, _, _, _, equal⟩ | ⟨a, laid, equal⟩
      · cases equal
      · cases equal
        exact (Layout.particle_charts p _ _ _ _ Graph.wellFormed_empty
          (ofParticle_eq_ok laid)).labels

def sharedStart : Particle Unit :=
  let a := .once (.element ⟨⟨"", "a"⟩, none⟩)
  let b := .once (.element ⟨⟨"n", "b"⟩, none⟩)
  .once (.choice [.once (.sequence [a, b]), .once (.sequence [a]), b])

theorem sharedStart_expected : ∃ model, build sharedStart = .ok model ∧ model.IsBuilt ∧
    model.Reachable model.start ∧ "\"n\":b" ∈ model.expected model.start ∧
    model.labels.map (·.description) = ["a", "\"n\":b", "a", "\"n\":b"] ∧
    (model.expected model.start).Nodup ∧
    model.ListsInOrder model.start (model.expected model.start) := by
  have runs : ((build sharedStart).toOption.any fun model =>
      (model.step model.start ⟨"n", "b"⟩).any (·.1.description == "\"n\":b") &&
      model.labels.map (·.description) == ["a", "\"n\":b", "a", "\"n\":b"]) = true := by
    decide +kernel
  cases built : build sharedStart with
  | error fault => simp [built, Except.toOption] at runs
  | ok model =>
    simp only [built, Except.toOption, Option.any_some, Bool.and_eq_true, beq_iff_eq,
      Option.any_eq_true] at runs
    obtain ⟨⟨⟨l, next⟩, stepped, described⟩, labels⟩ := runs
    have reachable : model.Reachable model.start := .start
    obtain ⟨-, listed, -, -, -, order⟩ := expected_agrees (.ofParticle built) reachable
    refine ⟨model, rfl, .ofParticle built, reachable, described ▸ listed _ _ _ stepped, labels, ?_⟩
    rcases build_cases built with ⟨_, _, group, _⟩ | ⟨a, -, rfl⟩
    · cases group
    · obtain ⟨nodup, -, inOrder⟩ := order _ a built rfl
      exact ⟨nodup, inOrder⟩

end Expected

end ContentModel

end XmlSchema
