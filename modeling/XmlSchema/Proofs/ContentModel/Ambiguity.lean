import XmlSchema.Proofs.ContentModel.Attribution
import XmlSchema.Proofs.ContentModel.Chart
import XmlSchema.Proofs.ContentModel.Clash
import XmlSchema.Proofs.ContentModel.Matching

namespace XmlSchema

open Component (QName)

namespace ContentModel

variable {δ : Type}

theorem Label.exists_accepts_of_overlaps {a b : Label δ} (overlaps : a.overlaps b = true)
    (first : ∃ name, a.accepts name = true) (second : ∃ name, b.accepts name = true) :
    ∃ name, a.accepts name = true ∧ b.accepts name = true := by
  cases a with
  | element e =>
    cases b with
    | element e' =>
      have same : e.name = e'.name := beq_iff_eq.1 overlaps
      exact ⟨e.name, beq_self_eq_true _, beq_iff_eq.2 same.symm⟩
    | wildcard w => exact ⟨e.name, beq_self_eq_true _, overlaps⟩
  | wildcard w =>
    cases b with
    | element e => exact ⟨e.name, overlaps, beq_self_eq_true _⟩
    | wildcard w' =>
      obtain ⟨ns, allowed, allowed'⟩ := Component.Wildcard.exists_allows_of_overlaps overlaps
        (first.imp' QName.ns fun _ => id) (second.imp' QName.ns fun _ => id)
      exact ⟨⟨ns, ""⟩, allowed, allowed'⟩

theorem Label.exists_accepts_of_overlaps_self {l : Label δ} (overlaps : l.overlaps l = true) :
    ∃ name, l.accepts name = true := by
  cases l with
  | element e => exact ⟨e.name, beq_self_eq_true _⟩
  | wildcard w =>
    obtain ⟨ns, allowed⟩ := Component.Wildcard.exists_allows_of_overlaps_self overlaps
    exact ⟨⟨ns, ""⟩, allowed⟩

theorem exists_of_firstPair {α β : Type} {r : β → β → Bool} {f : α → Option β} {items : List α}
    {a b : β} (found : firstPair r (items.filterMap f) = some (a, b)) :
    ∃ i j, [i, j].Sublist items ∧ f i = some a ∧ f j = some b ∧ r a b = true := by
  induction items with
  | nil => cases found
  | cons i rest ih =>
    cases first : f i with
    | none =>
      rw [List.filterMap_cons_none first] at found
      obtain ⟨i, j, among, others⟩ := ih found
      exact ⟨i, j, among.cons _, others⟩
    | some c =>
      rw [List.filterMap_cons_some first, firstPair] at found
      cases later : (rest.filterMap f).find? (r c) with
      | none =>
        rw [later] at found
        obtain ⟨i, j, among, others⟩ := ih found
        exact ⟨i, j, among.cons _, others⟩
      | some d =>
        rw [later] at found
        obtain ⟨rfl, rfl⟩ := Prod.mk.inj (Option.some.inj found)
        obtain ⟨j, member, second⟩ := List.mem_filterMap.1 (List.mem_of_find?_eq_some later)
        exact ⟨i, j, (List.singleton_sublist.2 member).cons_cons i, first, second,
          List.find?_some later⟩

namespace Graph

variable {g : Graph δ}

theorem exists_of_findAmbiguity {holds : List Nat → Prop} {visited queue : List (List Nat)}
    (step : ∀ active, holds active → g.Unambiguous active → ∀ next ∈ g.successors active, holds next)
    (queued : ∀ active ∈ queue, holds active) {violation : Violation}
    (found : g.findAmbiguity visited queue = some violation) : ∃ active, holds active ∧
      overlappingLabels ((g.labelsFrom active).filterMap (g.labels[·]?)) = some violation := by
  fun_induction findAmbiguity g visited queue with
  | case1 | case2 => cases found
  | case3 visited active queue _ _ ih => exact ih (List.forall_mem_cons.1 queued).2 found
  | case4 visited active queue _ _ violation' overlapping =>
    cases found
    exact ⟨active, queued active List.mem_cons_self, overlapping⟩
  | case5 visited active queue _ _ clear visited' ih =>
    obtain ⟨member, queued⟩ := List.forall_mem_cons.1 queued
    refine ih (List.forall_mem_append.2 ⟨queued, fun next after => ?_⟩) found
    exact step active member (unambiguous_iff.2 clear) next (List.mem_of_mem_filter after)

/-- All states of a set are reached by one word, and are listed once. -/
structure Gathered (g : Graph δ) (start : Nat) (active : List Nat) : Prop where
  reached : ∃ w, ∀ s ∈ active, Path g.Edge start w s
  nodup : active.Nodup

theorem nodup_closure (states : List Nat) : (g.closure states).Nodup :=
  (g.pairwise_closure states).imp Nat.ne_of_lt

theorem gathered_closure (h : g.WellFormed) {start s : Nat} {w : List QName} (lt : s < g.size)
    (path : Path g.Edge start w s) : g.Gathered start (g.closure [s]) where
  reached := ⟨w, fun t member => by
    obtain ⟨r, only, rest⟩ := (mem_closure h (by simpa using lt) t).1 member
    obtain rfl := List.mem_singleton.1 only
    simpa using path.trans rest⟩
  nodup := nodup_closure _

theorem Gathered.successor (h : g.WellFormed) {start : Nat} {active : List Nat}
    (gathered : g.Gathered start active) (clear : g.Unambiguous active) {next : List Nat}
    (after : next ∈ g.successors active) : g.Gathered start next := by
  obtain ⟨⟨l, target⟩, among, rfl⟩ := mem_successors_iff.1 after
  rw [clear.filter_eq (fun _ _ => Label.overlaps_comm _ _) among]
  cases self : l.overlaps l with
  | false =>
    refine ⟨⟨[], fun t member => ?_⟩, nodup_closure _⟩
    simp only [List.filter_cons, self, List.filter_nil, Bool.false_eq_true, if_false, List.map_nil]
      at member
    obtain ⟨s, none, -⟩ := (mem_closure h (by simp) t).1 member
    cases none
  | true =>
    obtain ⟨⟨label, t⟩, leaves, found⟩ := List.mem_filterMap.1 among
    obtain ⟨l', labelled, equal⟩ := Option.map_eq_some_iff.1 found
    obtain ⟨rfl, rfl⟩ := Prod.mk.inj equal
    obtain ⟨s, member, transition⟩ := mem_outgoing.1 leaves
    obtain ⟨w, reached⟩ := gathered.reached
    obtain ⟨name, accepts⟩ := Label.exists_accepts_of_overlaps_self self
    have edge : g.Edge s [name] t := .read transition (by simp [Graph.accepts, labelled, accepts])
    simpa [self] using gathered_closure h (h.transition_lt _ _ _ transition).2
      ((reached s member).trans (.single edge))

theorem isSome_findAmbiguity {active : List Nat} (overlaps : ¬ g.Unambiguous active)
    (queue : List (List Nat)) : (g.findAmbiguity [] (active :: queue)).isSome = true := by
  rw [findAmbiguity]
  cases found : overlappingLabels ((g.labelsFrom active).filterMap (g.labels[·]?)) with
  | none => exact absurd (unambiguous_iff.2 found) overlaps
  | some violation => rfl

end Graph

theorem Charted.nodup_labelsFrom {g : Graph δ} {entry : Nat} {leaves : List (Leaf δ)}
    {offers : List QName → Leaf δ → Prop} (h : Charted ⟨#[], #[], #[]⟩ g entry leaves offers)
    {active : List Nat} (nodup : active.Nodup) : (g.labelsFrom active).Nodup := by
  have outgoing : (g.outgoing active).map (·.1) =
      active.flatMap fun s => (g.transitionsOf s).map (·.1) := List.map_flatMap
  rw [Graph.labelsFrom, (List.mergeSort_perm _ _).nodup_iff, outgoing, List.nodup_flatMap]
  refine ⟨fun s _ => ?_, nodup.imp fun {s s'} apart => ?_⟩
  · have few := h.few s (Nat.zero_le s)
    generalize g.transitionsOf s = leaving at few
    rcases leaving with _ | ⟨t, _ | ⟨_, _⟩⟩
    · exact List.nodup_nil
    · exact List.nodup_singleton _
    · simp at few
  · rw [Function.onFun, List.disjoint_left]
    intro i first second
    obtain ⟨⟨_, t⟩, member, rfl⟩ := List.mem_map.1 first
    obtain ⟨⟨_, t'⟩, member', rfl⟩ := List.mem_map.1 second
    exact apart (h.once s s' _ t t' (Nat.zero_le s) (Nat.zero_le s') member member')

theorem Charted.offered {g : Graph δ} {entry : Nat} {leaves : List (Leaf δ)}
    {offers : List QName → Leaf δ → Prop} (h : Charted ⟨#[], #[], #[]⟩ g entry leaves offers)
    {active : List Nat} {w : List QName} (reached : ∀ s ∈ active, Path g.Edge entry w s)
    {i : Nat} {l : Label δ} (member : i ∈ g.labelsFrom active) (labelled : g.labels[i]? = some l) :
    ∃ leaf, leaves[i]? = some leaf ∧ offers w leaf ∧ leaf.label = l := by
  rw [Graph.labelsFrom, List.mem_mergeSort] at member
  obtain ⟨⟨_, t⟩, leaves_active, rfl⟩ := List.mem_map.1 member
  obtain ⟨s, among, transition⟩ := Graph.mem_outgoing.1 leaves_active
  obtain ⟨n, leaf, equal, found, offered⟩ := h.read s _ t (Nat.zero_le s) transition
  obtain rfl : _ = n := by simpa using equal
  refine ⟨leaf, found, offered w (reached s among), ?_⟩
  rw [← Array.getElem?_toList, h.labels] at labelled
  simpa [found] using labelled

/-- Where the search finds an ambiguity, two occurrences of leaves are offered after the same
children, and their labels overlap. If groups are not repeated and each leaf takes some name, then
leaves at two positions may take one and the same child. -/
theorem offered_of_ambiguity {p : Particle δ} {model : ContentModel δ}
    (noAll : p.containsAll = false) (built : build p = .ok model) {violation : Violation}
    (found : model.ambiguity? = some violation) :
    (∃ before a b, p.Offers before a ∧ p.Offers before b ∧ a.occurrence ≠ b.occurrence ∧
      a.label.overlaps b.label = true ∧
      violation = .ambiguous a.label.description b.label.description) ∧
    (p.groupsOnce = true → (∀ leaf ∈ p.leaves, ∃ name, leaf.label.accepts name = true) →
      Clash p.Offers) := by
  obtain ⟨a, laid, rfl⟩ := build_ok noAll built
  have fragment := ofParticle_ok laid
  have charted : Charted ⟨#[], #[], #[]⟩ a.toGraph a.start p.leaves p.Offers :=
    Layout.particle_charts p _ _ _ _ Graph.wellFormed_empty (ofParticle_eq_ok laid)
  have start : a.toGraph.Gathered a.start (a.closure [a.start]) :=
    Graph.gathered_closure fragment.wellFormed fragment.entry_lt (.refl a.start)
  obtain ⟨active, gathered, overlapping⟩ := Graph.exists_of_findAmbiguity
    (fun active gathered clear next => gathered.successor fragment.wellFormed clear)
    (List.forall_mem_singleton.2 start) found
  obtain ⟨w, reached⟩ := gathered.reached
  obtain ⟨⟨l, l'⟩, pair, rfl⟩ := Option.map_eq_some_iff.1 overlapping
  obtain ⟨i, j, among, first, second, overlaps⟩ := exists_of_firstPair pair
  have apart : i ≠ j := by
    simpa using among.nodup (charted.nodup_labelsFrom gathered.nodup)
  obtain ⟨x, foundFirst, offersFirst, rfl⟩ :=
    charted.offered reached (among.subset (by simp)) first
  obtain ⟨y, foundSecond, offersSecond, rfl⟩ :=
    charted.offered reached (among.subset (by simp)) second
  have occurrences : x.occurrence ≠ y.occurrence := fun same => by
    obtain ⟨lt, -⟩ := List.getElem?_eq_some_iff.1 foundFirst
    refine apart ((List.getElem?_inj (by simpa using lt) p.nodup_leaves).1 ?_)
    rw [List.getElem?_map, List.getElem?_map, foundFirst, foundSecond]
    exact congrArg some same
  refine ⟨⟨w, x, y, offersFirst, offersSecond, occurrences, overlaps, rfl⟩, fun once takes => ?_⟩
  by_cases position : x.occurrence.position = y.occurrence.position
  · exact p.clash_of_same_position noAll once offersFirst offersSecond position occurrences
  · obtain ⟨name, acceptsFirst, acceptsSecond⟩ := Label.exists_accepts_of_overlaps overlaps
      (takes x (p.mem_leaves_of_offers offersFirst)) (takes y (p.mem_leaves_of_offers offersSecond))
    exact ⟨w, name, x, y, offersFirst, offersSecond, position, acceptsFirst, acceptsSecond⟩

def startsAmbiguous (p : Particle δ) : Bool :=
  (build p).toOption.any fun model => match model with
    | .automaton a => (firstPair (fun s t : Label δ × Nat => s.1.overlaps t.1)
        (a.choices (a.closure [a.start]))).isSome
    | _ => false

theorem exists_ambiguity_of_startsAmbiguous {p : Particle δ} (starts : startsAmbiguous p = true) :
    ∃ model, build p = .ok model ∧ ∃ violation, model.ambiguity? = some violation := by
  unfold startsAmbiguous at starts
  cases built : build p with
  | error fault => simp [built, Except.toOption] at starts
  | ok model =>
    cases model with
    | empty | all => simp [built, Except.toOption] at starts
    | automaton a =>
      rw [built] at starts
      have overlaps : ¬ a.toGraph.Unambiguous (a.closure [a.start]) := fun clear => by
        have none := firstPair_eq_none_iff.2 clear
        simp only [Except.toOption, Option.any_some] at starts
        rw [none] at starts
        cases starts
      exact ⟨_, rfl, Option.isSome_iff_exists.1 (Graph.isSome_findAmbiguity overlaps [])⟩

def optionalFirst : Particle Unit :=
  .once (.sequence [⟨0, some 1, .element ⟨⟨"", "a"⟩, none⟩⟩, .once (.element ⟨⟨"", "a"⟩, none⟩)])

theorem optionalFirst_ambiguous : ∃ model violation, build optionalFirst = .ok model ∧
    optionalFirst.containsAll = false ∧ model.ambiguity? = some violation ∧
    optionalFirst.groupsOnce = true ∧
    (∃ before a b, optionalFirst.Offers before a ∧ optionalFirst.Offers before b ∧
      a.occurrence ≠ b.occurrence ∧ a.label.overlaps b.label = true ∧
      violation = .ambiguous a.label.description b.label.description) ∧
    Clash optionalFirst.Offers := by
  obtain ⟨model, built, violation, found⟩ :=
    exists_ambiguity_of_startsAmbiguous (show startsAmbiguous optionalFirst = true by decide +kernel)
  obtain ⟨offered, clash⟩ := offered_of_ambiguity rfl built found
  refine ⟨model, violation, built, rfl, found, rfl, offered, clash rfl fun leaf member => ?_⟩
  have element : ∀ leaf ∈ optionalFirst.leaves, leaf.label.accepts ⟨"", "a"⟩ = true := by decide
  exact ⟨_, element leaf member⟩

def twoOptional : Particle Unit :=
  ⟨2, some 2, .sequence [⟨0, some 1, .element ⟨⟨"", "a"⟩, none⟩⟩]⟩

/-- The search finds an ambiguity, but there is only one leaf. -/
theorem twoOptional_ambiguous : twoOptional.containsAll = false ∧
    (∃ model, build twoOptional = .ok model ∧ ∃ violation, model.ambiguity? = some violation) ∧
    ∀ before a b, twoOptional.Offers before a → twoOptional.Offers before b →
      a.occurrence.position = b.occurrence.position := by
  refine ⟨rfl, exists_ambiguity_of_startsAmbiguous (by decide +kernel), ?_⟩
  intro before a b first second
  have only : ∀ leaf ∈ twoOptional.leaves, leaf.occurrence.position = [0] := by decide
  rw [only a (twoOptional.mem_leaves_of_offers first),
    only b (twoOptional.mem_leaves_of_offers second)]

end ContentModel

end XmlSchema
