import Mathlib.Data.List.Nodup
import Mathlib.Data.List.Perm.Subperm
import XmlSchema.Proofs.Schema.Location
import XmlSchema.Proofs.Schema.Passes
import XmlSchema.Proofs.Schema.UnitOrder

namespace XmlSchema.Schema

open Component
open Xml (Element)
open Files (Path)

variable {lib : Library} {known : String → Bool} {unit loaded : List LoadedSource}
  {text other : UnitText} {root : Element}

def UnitText.place (text : UnitText) : String := normalizeLocation text.systemId

def UnitText.HasRoot (text : UnitText) (root : Element) : Prop :=
  parse text.systemId text.content = .ok root

def Library.contentAt? (lib : Library) (place : String) : Option String :=
  lib.source? place <|> lib.discover? place

structure Mentions (lib : Library) (known : String → Bool) (text : UnitText) (target : String)
    (child : Element) (other : UnitText) : Prop where
  location : ∃ location, child.attribute? "schemaLocation" = some location ∧
    other.systemId = resolveLocation text.systemId location
  content : lib.contentAt? other.systemId = some other.content
  source : other.source = text.source
  kind : child.name.localName = "include" ∧ other.includer = some target ∨
    child.name.localName = "import" ∧ other.includer = none ∧
      known ((child.attribute? "namespace").getD "") = false ∧ lib.source? other.systemId = none

def Refers (lib : Library) (known : String → Bool) (text other : UnitText) : Prop :=
  ∃ root, text.HasRoot root ∧
    ∃ child ∈ schemaChildren root, Mentions lib known text (targetOf root text.includer) child other

inductive Joins (lib : Library) (known : String → Bool) (unit : List LoadedSource) : UnitText → Prop
  | source {source : LoadedSource} (member : source ∈ unit) : Joins lib known unit (textOf source)
  | refer {text other : UnitText} (joins : Joins lib known unit text)
      (refers : Refers lib known text other) : Joins lib known unit other

theorem UnitText.HasRoot.unique {root' : Element} (read : text.HasRoot root) (read' : text.HasRoot root') :
    root = root' := by
  rw [UnitText.HasRoot, read] at read'
  exact Except.ok.inj read'

theorem UnitText.HasRoot.of_content (read : text.HasRoot root) (same : other.content = text.content) :
    other.HasRoot root := by
  unfold UnitText.HasRoot parse at read ⊢
  rw [same]
  split at read
  · cases read
  · split at read
    · next isSchema =>
      cases read
      exact if_pos isSchema
    · cases read

def mentioned? (lib : Library) (known : String → Bool) (text : UnitText) (target : String)
    (child : Element) : Except SchemaError (Option UnitText) :=
  match child.attribute? "schemaLocation" with
  | none => .ok none
  | some location =>
    let systemId := resolveLocation text.systemId location
    match child.name.localName with
    | "include" =>
      match lib.contentAt? systemId with
      | none => .error (.sourceNotFound systemId)
      | some content => .ok (some ⟨systemId, content, text.source, some target⟩)
    | "import" =>
      if known ((child.attribute? "namespace").getD "") || (lib.source? systemId).isSome then .ok none
      else .ok ((lib.discover? systemId).map fun content => ⟨systemId, content, text.source, none⟩)
    | _ => .ok none

theorem referencedBy_cons {target : String} {child : Element} {rest : List Element} :
    referencedBy lib known text target (child :: rest) =
      mentioned? lib known text target child >>= fun first =>
        referencedBy lib known text target rest >>= fun others => .ok (first.toList ++ others) := by
  conv =>
    lhs
    unfold referencedBy
  unfold mentioned? Library.contentAt?
  cases child.attribute? "schemaLocation" with
  | none => rfl
  | some location =>
    dsimp only
    by_cases isInclude : child.name.localName = "include"
    · simp only [isInclude]
      generalize (lib.source? _ <|> lib.discover? _) = content
      cases content <;> rfl
    by_cases isImport : child.name.localName = "import"
    · simp only [isImport]
      split
      · rfl
      · cases lib.discover? (resolveLocation text.systemId location) <;> rfl
    · simp only
      rfl

theorem not_mentions_of_unlocated {target : String} {child : Element}
    (unlocated : child.attribute? "schemaLocation" = none) :
    ¬Mentions lib known text target child other := by
  intro mentions
  obtain ⟨_, located, _⟩ := mentions.location
  cases unlocated.symm.trans located

theorem mentions_iff {target location systemId content source : String} {includer : Option String}
    {child : Element} (given : child.attribute? "schemaLocation" = some location) :
    Mentions lib known text target child ⟨systemId, content, source, includer⟩ ↔
      systemId = resolveLocation text.systemId location ∧ lib.contentAt? systemId = some content ∧
        source = text.source ∧ (child.name.localName = "include" ∧ includer = some target ∨
          child.name.localName = "import" ∧ includer = none ∧
            known ((child.attribute? "namespace").getD "") = false ∧ lib.source? systemId = none) := by
  constructor
  · rintro ⟨⟨_, located, resolved⟩, found, same, kind⟩
    rw [Option.some.inj (given.symm.trans located)]
    exact ⟨resolved, found, same, kind⟩
  · rintro ⟨resolved, found, same, kind⟩
    exact ⟨⟨location, given, resolved⟩, found, same, kind⟩

theorem mentioned?_eq_some_iff {target : String} {child : Element} {first : Option UnitText}
    (ran : mentioned? lib known text target child = .ok first) :
    first = some other ↔ Mentions lib known text target child other := by
  obtain ⟨systemId, content, source, includer⟩ := other
  unfold mentioned? at ran
  cases given : child.attribute? "schemaLocation" with
  | none =>
    rw [given] at ran
    cases ran
    simp [not_mentions_of_unlocated given]
  | some location =>
    rw [mentions_iff given]
    simp only [given] at ran
    split at ran
    · next isInclude =>
      split at ran
      · cases ran
      · next found =>
        cases ran
        simp only [isInclude, Option.some.injEq, UnitText.mk.injEq, String.reduceEq, true_and,
          false_and, or_false]
        grind
    · next isImport =>
      simp only [isImport, String.reduceEq, false_and, false_or, true_and]
      split at ran
      · next skipped =>
        -- An import is skipped if its namespace is known or its document is a source.
        cases ran
        rw [Bool.or_eq_true, Option.isSome_iff_ne_none] at skipped
        constructor
        · intro equal
          cases equal
        · rintro ⟨rfl, _, _, _, unknown, notSource⟩
          rcases skipped with isKnown | isSource
          · cases unknown.symm.trans isKnown
          · exact absurd notSource isSource
      · next followed =>
        cases ran
        rw [Bool.or_eq_true, not_or, Bool.not_eq_true, Option.not_isSome_iff_eq_none] at followed
        obtain ⟨unknown, notSource⟩ := followed
        simp only [Option.map_eq_some_iff, UnitText.mk.injEq, unknown, true_and]
        constructor
        · rintro ⟨_, found, rfl, rfl, rfl, rfl⟩
          exact ⟨rfl, by rw [Library.contentAt?, notSource, found]; rfl, rfl, rfl, notSource⟩
        · rintro ⟨rfl, found, rfl, rfl, _⟩
          rw [Library.contentAt?, notSource] at found
          exact ⟨content, found, rfl, rfl, rfl, rfl⟩
    · next notInclude notImport =>
      cases ran
      constructor
      · intro equal
        cases equal
      · rintro ⟨_, _, _, isInclude | isImport⟩
        · exact absurd isInclude.1 notInclude
        · exact absurd isImport.1 notImport

theorem mem_referencedBy_iff {target : String} {children : List Element} {referenced : List UnitText}
    (ran : referencedBy lib known text target children = .ok referenced) :
    other ∈ referenced ↔ ∃ child ∈ children, Mentions lib known text target child other := by
  induction children generalizing referenced with
  | nil =>
    cases ran
    simp
  | cons child rest ih =>
    rw [referencedBy_cons] at ran
    cases mentioned : mentioned? lib known text target child with
    | error fault =>
      rw [mentioned] at ran
      cases ran
    | ok first =>
      cases later : referencedBy lib known text target rest with
      | error fault =>
        rw [mentioned, later] at ran
        cases ran
      | ok others =>
        rw [mentioned, later] at ran
        cases ran
        simp [ih later, ← mentioned?_eq_some_iff mentioned, eq_comm]

theorem mem_referencedDocuments_iff {referenced : List UnitText}
    (ran : referencedDocuments lib known text = .ok referenced) :
    other ∈ referenced ↔ Refers lib known text other := by
  unfold referencedDocuments at ran
  cases read : parse text.systemId text.content with
  | error fault =>
    rw [read] at ran
    cases ran
  | ok root =>
    rw [read] at ran
    rw [mem_referencedBy_iff ran]
    refine ⟨fun mentions => ⟨root, read, mentions⟩, fun ⟨root', read', mentions⟩ => ?_⟩
    rwa [UnitText.HasRoot.unique read read']

structure Placed (lib : Library) (text : UnitText) : Prop where
  content : lib.contentAt? text.place = some text.content
  resolves : ∀ location, resolveLocation text.systemId location = resolveLocation text.place location

theorem Mentions.place_eq {target : String} {child : Element}
    (mentions : Mentions lib known text target child other) : other.place = other.systemId := by
  obtain ⟨location, _, resolved⟩ := mentions.location
  rw [UnitText.place, resolved, normalizeLocation_resolveLocation]

theorem Refers.placed (refers : Refers lib known text other) : Placed lib other := by
  obtain ⟨_, _, _, _, mentions⟩ := refers
  have same := mentions.place_eq
  refine ⟨?_, fun location => ?_⟩
  · rw [same]
    exact mentions.content
  · rw [same]

theorem placed_textOf {files : Option Files.Tree} {source : LoadedSource}
    (distinct : (loaded.map fun source => normalizeLocation source.1).Nodup)
    (named : (Path.ofText source.1).EndsWithName) (member : source ∈ loaded) :
    Placed (.ofSources loaded files) (textOf source) := by
  refine ⟨?_, fun location => (resolveLocation_normalizeLocation named location).symm⟩
  have found : (Library.ofSources loaded files).source? (normalizeLocation source.1) =
      some source.2 := by
    refine (lookup_eq_some_iff_mem ?_).2 (List.mem_reverse.2 (List.mem_map.2 ⟨source, member, rfl⟩))
    simpa [Library.ofSources, Function.comp_def] using List.nodup_reverse.2 distinct
  change (_ <|> _) = _
  rw [show (textOf source).place = normalizeLocation source.1 from rfl, found]
  rfl

theorem Joins.placed (placed : ∀ source ∈ unit, Placed lib (textOf source))
    (joins : Joins lib known unit text) : Placed lib text := by
  cases joins with
  | source member => exact placed _ member
  | refer _ refers => exact refers.placed

theorem Refers.of_place {twin : UnitText} (placed : Placed lib text) (placedTwin : Placed lib twin)
    (same : twin.place = text.place) (refers : Refers lib known text other) :
    ∃ other', Refers lib known twin other' ∧ other'.place = other.place := by
  obtain ⟨root, read, child, member, mentions⟩ := refers
  have content : twin.content = text.content :=
    Option.some.inj (by rw [← placedTwin.content, ← placed.content, same])
  obtain ⟨location, given, resolved⟩ := mentions.location
  let other' : UnitText := { other with
    source := twin.source
    includer := if child.name.localName = "include" then some (targetOf root twin.includer) else none }
  refine ⟨other', ⟨root, UnitText.HasRoot.of_content read content, child, member, ⟨location, given, ?_⟩,
    mentions.content, rfl, ?_⟩, rfl⟩
  · rw [placedTwin.resolves, same, ← placed.resolves]
    exact resolved
  · rcases mentions.kind with ⟨isInclude, _⟩ | ⟨isImport, _, unknown, notSource⟩
    · exact .inl ⟨isInclude, if_pos isInclude⟩
    · exact .inr ⟨isImport, if_neg (by rw [isImport]; decide), unknown, notSource⟩

theorem gather_cons_of_seen {fuel : Nat} {seen : List String} {stack : List UnitText}
    (isSeen : text.place ∈ seen) :
    gather lib known fuel seen (text :: stack) = gather lib known fuel seen stack := by
  rw [gather.eq_def]
  exact if_pos (List.contains_iff_mem.2 isSeen)

theorem gather_cons_of_new {fuel : Nat} {seen : List String} {stack : List UnitText}
    (isNew : text.place ∉ seen) :
    gather lib known (fuel + 1) seen (text :: stack) =
      referencedDocuments lib known text >>= fun referenced =>
        gather lib known fuel (text.place :: seen) (referenced.reverse ++ stack) >>= fun others =>
          .ok (text :: others) := by
  rw [gather.eq_def]
  exact if_neg fun contains => isNew (List.contains_iff_mem.1 contains)

theorem exists_of_gather_cons {fuel : Nat} {seen : List String} {stack texts : List UnitText}
    (isNew : text.place ∉ seen)
    (ran : gather lib known (fuel + 1) seen (text :: stack) = .ok texts) :
    ∃ referenced others : List UnitText,
      (∀ other, other ∈ referenced ↔ Refers lib known text other) ∧
      gather lib known fuel (text.place :: seen) (referenced.reverse ++ stack) = .ok others ∧
      texts = text :: others := by
  rw [gather_cons_of_new isNew] at ran
  cases refers : referencedDocuments lib known text with
  | error fault =>
    rw [refers] at ran
    cases ran
  | ok referenced =>
    cases later : gather lib known fuel (text.place :: seen) (referenced.reverse ++ stack) with
    | error fault =>
      rw [refers] at ran
      change (gather _ _ _ _ _ >>= _) = _ at ran
      rw [later] at ran
      cases ran
    | ok others =>
      rw [refers] at ran
      change (gather _ _ _ _ _ >>= _) = _ at ran
      rw [later] at ran
      cases ran
      exact ⟨referenced, others, fun other => mem_referencedDocuments_iff refers, later, rfl⟩

theorem forall_mem_of_gather {P : UnitText → Prop} {fuel : Nat} {seen : List String}
    {stack texts : List UnitText} (kept : ∀ text other, P text → Refers lib known text other → P other)
    (start : ∀ text ∈ stack, P text) (ran : gather lib known fuel seen stack = .ok texts) :
    ∀ text ∈ texts, P text := by
  induction fuel, seen, stack using gather.induct generalizing texts with
  | case1 fuel seen =>
    rw [gather] at ran
    cases ran
    exact List.forall_mem_nil _
  | case2 fuel seen text stack _ isSeen =>
    rename_i ih
    rw [gather_cons_of_seen (List.contains_iff_mem.1 isSeen)] at ran
    exact ih (List.forall_mem_cons.1 start).2 ran
  | case3 seen text stack _ =>
    rename_i notSeen
    rw [gather, if_neg notSeen] at ran
    cases ran
    exact List.forall_mem_nil _
  | case4 seen text stack _ notSeen fuel =>
    rename_i ih
    obtain ⟨startFirst, startRest⟩ := List.forall_mem_cons.1 start
    obtain ⟨referenced, others, refers, later, rfl⟩ :=
      exists_of_gather_cons (fun member => notSeen (List.contains_iff_mem.2 member)) ran
    refine List.forall_mem_cons.2 ⟨startFirst, ih referenced (fun other member => ?_) later⟩
    rcases List.mem_append.1 member with among | among
    · exact kept text other startFirst ((refers other).1 (List.mem_reverse.1 among))
    · exact startRest other among

structure Covers (lib : Library) (known : String → Bool) (seen : List String)
    (stack texts : List UnitText) : Prop where
  stack : ∀ text ∈ stack, text.place ∈ seen ∨ ∃ twin ∈ texts, twin.place = text.place
  referred : ∀ text ∈ texts, ∀ other, Refers lib known text other →
    other.place ∈ seen ∨ ∃ twin ∈ texts, twin.place = other.place

theorem Covers.cons {seen : List String} {referenced stack texts : List UnitText}
    (refers : ∀ other, other ∈ referenced ↔ Refers lib known text other)
    (covers : Covers lib known (text.place :: seen) (referenced.reverse ++ stack) texts) :
    Covers lib known seen (text :: stack) (text :: texts) := by
  have shift {place : String} (covered : place ∈ text.place :: seen ∨ ∃ twin ∈ texts, twin.place = place) :
      place ∈ seen ∨ ∃ twin ∈ text :: texts, twin.place = place := by
    rcases covered with isSeen | ⟨twin, among, same⟩
    · rcases List.mem_cons.1 isSeen with rfl | before
      · exact .inr ⟨text, List.mem_cons_self, rfl⟩
      · exact .inl before
    · exact .inr ⟨twin, List.mem_cons_of_mem _ among, same⟩
  refine ⟨List.forall_mem_cons.2 ⟨.inr ⟨text, List.mem_cons_self, rfl⟩, fun other member => ?_⟩,
    List.forall_mem_cons.2 ⟨fun other refersTo => ?_, fun twin member other refersTo => ?_⟩⟩
  · exact shift (covers.stack other (List.mem_append_right _ member))
  · exact shift (covers.stack other (List.mem_append_left _ (List.mem_reverse.2 ((refers other).2 refersTo))))
  · exact shift (covers.referred twin member other refersTo)

theorem covers_of_gather {places : List String} {fuel : Nat} {seen : List String}
    {stack texts : List UnitText}
    (within : ∀ text other, Refers lib known text other → other.place ∈ places)
    (withinStack : ∀ text ∈ stack, text.place ∈ places) (distinct : seen.Nodup)
    (withinSeen : seen ⊆ places) (room : places.length ≤ fuel + seen.length)
    (ran : gather lib known fuel seen stack = .ok texts) : Covers lib known seen stack texts := by
  induction fuel, seen, stack using gather.induct generalizing texts with
  | case1 fuel seen =>
    rw [gather] at ran
    cases ran
    constructor <;> simp
  | case2 fuel seen text stack _ isSeen =>
    rename_i ih
    have isSeen := List.contains_iff_mem.1 isSeen
    rw [gather_cons_of_seen isSeen] at ran
    have covers := ih (List.forall_mem_cons.1 withinStack).2 distinct withinSeen room ran
    exact ⟨List.forall_mem_cons.2 ⟨.inl isSeen, covers.stack⟩, covers.referred⟩
  | case3 seen text stack _ =>
    rename_i notSeen
    -- All places have been seen, so this one has.
    have isNew : text.place ∉ seen := fun member => notSeen (List.contains_iff_mem.2 member)
    have all : text.place :: seen ⊆ places :=
      List.cons_subset.2 ⟨(List.forall_mem_cons.1 withinStack).1, withinSeen⟩
    have := (List.subperm_of_subset (List.nodup_cons.2 ⟨isNew, distinct⟩) all).length_le
    rw [List.length_cons] at this
    omega
  | case4 seen text stack _ notSeen fuel =>
    rename_i ih
    obtain ⟨withinFirst, withinRest⟩ := List.forall_mem_cons.1 withinStack
    have isNew : text.place ∉ seen := fun member => notSeen (List.contains_iff_mem.2 member)
    obtain ⟨referenced, others, refers, later, rfl⟩ := exists_of_gather_cons isNew ran
    refine .cons refers (ih referenced (fun other member => ?_)
      (List.nodup_cons.2 ⟨isNew, distinct⟩) (List.cons_subset.2 ⟨withinFirst, withinSeen⟩) ?_ later)
    · rcases List.mem_append.1 member with among | among
      · exact within text other ((refers other).1 (List.mem_reverse.1 among))
      · exact withinRest other among
    · rw [List.length_cons]
      omega

def placesOf (lib : Library) (unit : List LoadedSource) : List String :=
  unit.map (fun source => normalizeLocation source.1) ++ lib.catalog.map (·.1) ++
    ((lib.files.map fun files => files.entries.map (·.1.text)).getD [])

theorem Refers.mem_placesOf (refers : Refers lib known text other) :
    other.place ∈ placesOf lib unit := by
  have found : (lib.source? other.place <|> lib.discover? other.place) = some other.content :=
    refers.placed.content
  cases isSource : lib.source? other.place with
  | some content =>
    obtain ⟨before, after, catalog, _⟩ := List.lookup_eq_some_iff.1 isSource
    simp [placesOf, catalog]
  | none =>
    rw [isSource] at found
    obtain ⟨files, given, among⟩ := mem_entries_of_discover? found
    rw [UnitText.place, normalizeLocation_normalizeLocation] at among
    exact List.mem_append_right _ (by rw [given]; exact among)

theorem covers_of_unitTexts {texts : List UnitText} (ran : unitTexts lib known unit = .ok texts) :
    Covers lib known [] (unit.map textOf) texts := by
  have within : ∀ text other, Refers lib known text other → other.place ∈ placesOf lib unit :=
    fun _ _ refers => refers.mem_placesOf
  refine covers_of_gather within (fun text member => ?_) List.nodup_nil (List.nil_subset _) ?_ ran
  · obtain ⟨source, among, rfl⟩ := List.mem_map.1 member
    exact List.mem_append_left _ (List.mem_append_left _ (List.mem_map.2 ⟨source, among, rfl⟩))
  · cases given : lib.files with
    | none => simp [placesOf, given]
    | some files =>
      simp only [placesOf, given, List.length_append, List.length_map, Option.map_some,
        Option.getD_some]
      omega

theorem joins_of_mem_unitTexts {texts : List UnitText} (ran : unitTexts lib known unit = .ok texts) :
    ∀ text ∈ texts, Joins lib known unit text := by
  refine forall_mem_of_gather (fun _ _ joins refers => .refer joins refers) (fun text member => ?_) ran
  obtain ⟨source, among, rfl⟩ := List.mem_map.1 member
  exact .source among

theorem exists_place_of_joins (placed : ∀ source ∈ unit, Placed lib (textOf source))
    {texts : List UnitText} (ran : unitTexts lib known unit = .ok texts)
    (joins : Joins lib known unit text) : ∃ twin ∈ texts, twin.place = text.place := by
  have covers := covers_of_unitTexts ran
  induction joins with
  | source member =>
    exact (covers.stack _ (List.mem_map.2 ⟨_, member, rfl⟩)).resolve_left List.not_mem_nil
  | refer joins refers ih =>
    obtain ⟨twin, among, same⟩ := ih
    obtain ⟨other, refersTwin, place⟩ :=
      refers.of_place (joins.placed placed) ((joins_of_mem_unitTexts ran twin among).placed placed) same
    rw [← place]
    exact (covers.referred twin among other refersTwin).resolve_left List.not_mem_nil

theorem exists_mem_zip_of_mapM {α β ε : Type} {f : α → Except ε β} {as : List α} {bs : List β}
    (ran : as.mapM f = .ok bs) {a : α} (member : a ∈ as) : ∃ b, (a, b) ∈ as.zip bs ∧ f a = .ok b := by
  induction as generalizing bs with
  | nil => cases member
  | cons first rest ih =>
    rw [List.mapM_cons] at ran
    cases given : f first with
    | error fault =>
      rw [given] at ran
      cases ran
    | ok b =>
      cases later : rest.mapM f with
      | error fault =>
        rw [given, later] at ran
        cases ran
      | ok others =>
        rw [given, later] at ran
        cases ran
        rcases List.mem_cons.1 member with rfl | among
        · exact ⟨b, List.mem_cons_self, given⟩
        · obtain ⟨c, inZip, gives⟩ := ih later among
          exact ⟨c, List.mem_cons_of_mem _ inZip, gives⟩

theorem exists_document {texts : List UnitText} {docs : List Document}
    (ran : documents texts = .ok docs) (member : text ∈ texts) :
    ∃ root, text.HasRoot root ∧
      ∃ d ∈ docs, d.root = root ∧ d.target = targetOf root text.includer := by
  unfold documents at ran
  cases parsed : texts.mapM fun text => parse text.systemId text.content with
  | error fault =>
    rw [parsed] at ran
    cases ran
  | ok roots =>
    rw [parsed] at ran
    obtain ⟨root, pair, read⟩ := exists_mem_zip_of_mapM parsed member
    obtain ⟨d, among, made⟩ := exists_mem_zip_of_mapM ran pair
    refine ⟨root, read, d, (List.of_mem_zip among).2, ?_⟩
    dsimp only [Document.ofRoot] at made
    split at made
    · cases made
    · cases made
      exact ⟨rfl, rfl⟩

def Supplies (lib : Library) (known : String → Bool) (unit : List LoadedSource) (pool : Pool) : Prop :=
  ∀ text, Joins lib known unit text → ∃ root, text.HasRoot root ∧
    ∃ twin, Joins lib known unit twin ∧ twin.place = text.place ∧
      ∀ e ∈ schemaChildren root, ∀ kind name, Declares e kind name →
        (pool.find? kind ⟨targetOf root twin.includer, name⟩).isSome

theorem supplies_keptByUnits : KeptByUnits (Supplies lib known unit) := by
  intro docs pool symbols grammars st supplies ran text joins
  obtain ⟨root, read, twin, joinsTwin, same, holds⟩ := supplies text joins
  refine ⟨root, read, twin, joinsTwin, same, fun e member kind name declares => ?_⟩
  exact Pool.isSome_find?_foldl_insert (holds e member kind name declares) grammars

theorem supplies_of_compileUnit {p p' : Progress} {grammars : List Grammar}
    (placed : ∀ source ∈ unit, Placed lib (textOf source))
    (compiled : p.compileUnit lib unit = (.ok grammars, p')) :
    Supplies lib p.pool.containsNamespace unit (p'.register grammars).pool := by
  intro text joins
  unfold Progress.compileUnit at compiled
  split at compiled
  · cases compiled
  · next docs read =>
    cases gathered : unitTexts lib p.pool.containsNamespace unit with
    | error fault =>
      rw [gathered] at read
      cases read
    | ok texts =>
      rw [gathered] at read
      rcases ran : (CompilationUnit.ofDocuments docs p.pool).compile.run { symbols := p.symbols } with
        ⟨result, st⟩
      rw [ran] at compiled
      obtain ⟨rfl, _⟩ := Prod.mk.inj compiled
      have describes := (CompilationUnit.yields_compile_describes _ _ _ _ trivial ran).2
      obtain ⟨twin, among, same⟩ := exists_place_of_joins placed gathered joins
      have joinsTwin := joins_of_mem_unitTexts gathered twin among
      have content : text.content = twin.content := Option.some.inj (by
        rw [← (joins.placed placed).content, ← (joinsTwin.placed placed).content, same])
      obtain ⟨root, hasRoot, d, isDocument, isRoot, target⟩ := exists_document read among
      refine ⟨root, hasRoot.of_content content, twin, joinsTwin, same,
        fun e member kind name declares => ?_⟩
      rw [← isRoot] at member
      have held := describes.complete d isDocument e member kind name declares
      rw [target] at held
      obtain ⟨value, provided⟩ := Option.isSome_iff_exists.1 held
      exact Pool.isSome_find?_of_provides (Pool.provides_of_find? provided)

namespace Progress

theorem Passing.supplies {sources deferred : List LoadedSource} {p p' : Progress} {changed : Bool}
    (passing : Passing lib p sources p' deferred changed)
    (placed : ∀ source ∈ sources, Placed lib (textOf source)) :
    ∀ source ∈ sources, source ∈ deferred ∨ ∃ known, Supplies lib known [source] p'.pool := by
  induction passing with
  | done p => exact fun _ member => nomatch member
  | putOff _ _ _ ih =>
    have supplies := ih (List.forall_mem_cons.1 placed).2
    refine List.forall_mem_cons.2 ⟨.inl List.mem_cons_self, fun other member => ?_⟩
    exact (supplies other member).imp_left (List.mem_cons_of_mem _)
  | takeIn compiled later ih =>
    obtain ⟨placedFirst, placedRest⟩ := List.forall_mem_cons.1 placed
    have first := supplies_of_compileUnit (by simpa using placedFirst) compiled
    have kept := later.kept (supplies_keptByUnits.bySources lib _) (List.Subset.refl _) first
    exact List.forall_mem_cons.2 ⟨.inr ⟨_, kept⟩, ih placedRest⟩

theorem Rounds.supplies {n : Nat} {sources deferred : List LoadedSource} {p p' : Progress}
    (rounds : Rounds lib n p sources p' deferred)
    (placed : ∀ source ∈ sources, Placed lib (textOf source)) :
    ∀ source ∈ sources, source ∈ deferred ∨ ∃ known, Supplies lib known [source] p'.pool := by
  induction rounds with
  | spent p sources => exact fun _ member => .inl member
  | last passing _ => exact passing.supplies placed
  | more passing later ih =>
    have within := (passing.advances (List.Subset.refl _)).1
    intro source member
    rcases passing.supplies placed source member with left | ⟨known, done⟩
    · exact ih (fun source member => placed source (within member)) source left
    · exact .inr ⟨known,
        later.kept (supplies_keptByUnits.bySources lib _) (List.Subset.refl _) done⟩

end Progress

end XmlSchema.Schema
