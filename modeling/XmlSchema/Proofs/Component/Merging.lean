import Mathlib.Data.List.Induction
import XmlSchema.Proofs.Component.Content

namespace XmlSchema.Component

open Schema (ComponentKind)

theorem eraseDups_of_nodup {items : List String} (distinct : items.Nodup) :
    items.eraseDups = items := by
  induction items with
  | nil => rfl
  | cons first items ih =>
    obtain ⟨new, distinct⟩ := List.nodup_cons.1 distinct
    have others : items.filter (fun item => !item == first) = items :=
      List.filter_eq_self.2 fun item member => by
        simpa using fun same : item = first => new (same ▸ member)
    rw [List.eraseDups_cons, others, ih distinct]

theorem addMissing_eraseDups (items more : List String) :
    addMissing items.eraseDups more = (items ++ more).eraseDups := by
  unfold addMissing
  induction more generalizing items with
  | nil => rw [List.append_nil, List.foldl_nil]
  | cons first more ih =>
    have one : (if items.eraseDups.contains first then items.eraseDups
        else items.eraseDups ++ [first]) = (items ++ [first]).eraseDups := by
      rw [List.eraseDups_append, List.cons_removeAll]
      by_cases known : first ∈ items <;>
        simp [known, List.removeAll, List.eraseDups_cons, List.eraseDups_nil]
    rw [List.foldl_cons, one, ih, List.append_assoc, List.singleton_append]

theorem addMissing_of_subset {items more : List String} (known : more ⊆ items) :
    addMissing items more = items := by
  unfold addMissing
  induction more with
  | nil => rfl
  | cons first more ih =>
    obtain ⟨isKnown, others⟩ := List.cons_subset.1 known
    rw [List.foldl_cons, if_pos (List.contains_iff_mem.2 isKnown), ih others]

theorem Table.merge_eq_self {α : Type} {t u : Table α}
    (known : ∀ name, (u.get? name).isSome → (t.get? name).isSome) : t.merge u = t := by
  have contained : ∀ entry ∈ u.entries, t.contains entry.1 = true := fun entry member =>
    known entry.1 (List.lookup_isSome_iff.2 ⟨entry, member, beq_self_eq_true _⟩)
  unfold merge
  generalize u.entries = entries at contained
  induction entries with
  | nil => rfl
  | cons entry entries ih =>
    obtain ⟨name, a⟩ := entry
    obtain ⟨first, others⟩ := List.forall_mem_cons.1 contained
    have kept : t.insertNew name a = t := if_pos first
    simp only [List.foldl_cons, kept]
    exact ih others

structure Grammar.Covers (h g : Grammar) : Prop where
  tables : ∀ kind name, ((g.table kind).get? name).isSome → ((h.table kind).get? name).isSome
  imports : g.imports ⊆ h.imports
  systemIds : g.systemIds ⊆ h.systemIds

theorem Grammar.Covers.merge_eq_self {h g : Grammar} (covers : h.Covers g) : h.merge g = h := by
  have table (kind : ComponentKind) : (h.table kind).merge (g.table kind) = h.table kind :=
    Table.merge_eq_self (covers.tables kind)
  obtain ⟨target, systemIds, imports, elements, types, attributes, groups, attributeGroups⟩ := h
  rw [Grammar.merge, Grammar.mk.injEq]
  exact ⟨rfl, addMissing_of_subset covers.systemIds, addMissing_of_subset covers.imports,
    table .element, table .type, table .attribute, table .group, table .attributeGroup⟩

namespace Pool

variable {pool : Pool} {grammars : List Grammar} {g h : Grammar} {ns : String}

theorem Gathers.covers (gathers : pool.Gathers grammars) (member : g ∈ grammars)
    (found : pool.grammar? g.target = some h) : h.Covers g where
  tables kind name defined := by
    obtain ⟨value, isValue⟩ := Option.isSome_iff_exists.1 defined
    have held := gathers.complete kind ⟨g.target, name⟩ value ⟨g, member, rfl, isValue⟩
    rwa [find?, found, Option.bind_some] at held
  imports _ imported := (gathers.imports g.target h found _).2 ⟨g, member, rfl, imported⟩
  systemIds _ listed := (gathers.systemIds g.target h found _).2 ⟨g, member, rfl, listed⟩

theorem insert_eq_self (found : pool.grammar? g.target = some h) (same : h.merge g = h) :
    pool.insert g = pool := by
  obtain ⟨grammars⟩ := pool
  rw [insert, Pool.mk.injEq]
  rw [grammar?] at found
  induction grammars with
  | nil => cases found
  | cons old rest ih =>
    rw [insertInto]
    by_cases here : old.target = g.target
    · rw [List.find?_cons_of_pos (by simpa using here)] at found
      obtain rfl := Option.some.inj found
      rw [if_pos (by simpa using here), same]
    · rw [List.find?_cons_of_neg (by simpa using here)] at found
      rw [if_neg (by simpa using here), ih found]

theorem Gathers.insert_eq_self (gathers : pool.Gathers grammars) (member : g ∈ grammars) :
    pool.insert g = pool := by
  obtain ⟨h, found⟩ := Option.isSome_iff_exists.1 ((gathers.target g.target).2 ⟨g, member, rfl⟩)
  exact Pool.insert_eq_self found (gathers.covers member found).merge_eq_self

def listed (items : Grammar → List String) (grammars : List Grammar) (ns : String) : List String :=
  ((grammars.filter (·.target == ns)).flatMap items).eraseDups

theorem listed_concat (items : Grammar → List String) (grammars : List Grammar) (g : Grammar)
    (ns : String) : listed items (grammars ++ [g]) ns =
      if g.target = ns then addMissing (listed items grammars ns) (items g)
      else listed items grammars ns := by
  by_cases same : g.target = ns <;> simp [listed, addMissing_eraseDups, same]

variable {items : Grammar → List String}

theorem items_insert (merge : ∀ g h, items (Grammar.merge g h) = addMissing (items g) (items h))
    (gathers : pool.Gathers grammars)
    (before : ∀ h, pool.grammar? ns = some h → items h = listed items grammars ns)
    (distinct : g.target = ns → (items g).Nodup)
    (found : (pool.insert g).grammar? ns = some h) :
    items h = listed items (grammars ++ [g]) ns := by
  rw [listed_concat]
  rw [grammar?_insert] at found
  by_cases same : g.target = ns
  · rw [if_pos same] at found ⊢
    cases old : pool.grammar? ns with
    | none =>
      have absent : grammars.filter (·.target == ns) = [] :=
        List.filter_eq_nil_iff.2 fun k member target => by
          have known := (gathers.target ns).2 ⟨k, member, by simpa using target⟩
          rw [old] at known
          cases known
      obtain rfl : g = h := by simpa [old] using found
      have none : listed items grammars ns = [].eraseDups := by rw [listed, absent, List.flatMap_nil]
      rw [none, addMissing_eraseDups, List.nil_append, eraseDups_of_nodup (distinct same)]
    | some k =>
      obtain rfl : k.merge g = h := by simpa [old] using found
      rw [merge, before k old]
  · rw [if_neg same] at found ⊢
    exact before h found

theorem items_foldl_insert
    (merge : ∀ g h, items (Grammar.merge g h) = addMissing (items g) (items h))
    (distinct : ∀ g ∈ grammars, g.target = ns → (items g).Nodup)
    (found : (grammars.foldl Pool.insert {}).grammar? ns = some h) :
    items h = listed items grammars ns := by
  induction grammars using List.reverseRecOn generalizing h with
  | nil => cases found
  | append_singleton grammars g ih =>
    rw [List.foldl_append] at found
    have gathers : (grammars.foldl Pool.insert {}).Gathers grammars :=
      gathers_nil.foldl_insert grammars
    refine items_insert merge gathers (fun h => ih fun k member => ?_) (fun same => ?_) found
    · exact distinct k (List.mem_append_left _ member)
    · exact distinct g (List.mem_append_right _ List.mem_cons_self) same

def lookup? (pool : Pool) : (kind : ComponentKind) → QName → Option (Global kind)
  | .element => pool.element?
  | .type => pool.type?
  | .attribute => pool.attribute?
  | .group => pool.group?
  | .attributeGroup => pool.attributeGroup?

theorem lookup?_eq_find? (pool : Pool) (kind : ComponentKind) {name : QName}
    (foreign : name.ns ≠ schemaNamespace) : pool.lookup? kind name = pool.find? kind name := by
  cases kind with
  | type => exact type?_eq_find? pool name foreign
  | _ => rfl

def DefinedFirst (grammars : List Grammar) (kind : ComponentKind) (name : QName)
    (value : Global kind) : Prop :=
  ∃ before g after, grammars = before ++ g :: after ∧
    (g.target = name.ns ∧ (g.table kind).get? name.localName = some value) ∧
    ∀ h ∈ before, h.target = name.ns → (h.table kind).get? name.localName = none

theorem firstOf?_eq_some_iff {kind : ComponentKind} {name : QName} {value : Global kind} :
    firstOf? grammars kind name = some value ↔ DefinedFirst grammars kind name value := by
  simp [firstOf?, DefinedFirst, List.findSome?_eq_some_iff]

theorem firstOf?_eq_none_iff {kind : ComponentKind} {name : QName} :
    firstOf? grammars kind name = none ↔
      ∀ g ∈ grammars, g.target = name.ns → (g.table kind).get? name.localName = none := by
  simp [firstOf?, List.findSome?_eq_none_iff]

/-- In a pool to which grammars have been added one after the other, the first definition of a name
is found, and none if there is none; the grammar of a namespace lists the documents and the imports
of all grammars of that namespace, each once and in their order; and none of the grammars changes
anything when it is added again. -/
theorem definitions_of_grammars (grammars : List Grammar) :
    let pool := grammars.foldl Pool.insert {}
    (∀ kind name, name.ns ≠ schemaNamespace →
      (∀ value, pool.lookup? kind name = some value ↔ DefinedFirst grammars kind name value) ∧
      (pool.lookup? kind name = none ↔
        ∀ g ∈ grammars, g.target = name.ns → (g.table kind).get? name.localName = none)) ∧
    (∀ g ∈ grammars, ∃ merged, pool.grammar? g.target = some merged ∧
      ((∀ h ∈ grammars, h.target = g.target → h.imports.Nodup) →
        merged.imports = listed (·.imports) grammars g.target) ∧
      ((∀ h ∈ grammars, h.target = g.target → h.systemIds.Nodup) →
        merged.systemIds = listed (·.systemIds) grammars g.target)) ∧
    ∀ g ∈ grammars, pool.insert g = pool := by
  intro pool
  have gathers : pool.Gathers grammars := gathers_nil.foldl_insert grammars
  refine ⟨fun kind name foreign => ?_, fun g member => ?_, fun g => gathers.insert_eq_self⟩
  · have first : pool.lookup? kind name = firstOf? grammars kind name := by
      rw [lookup?_eq_find? pool kind foreign, find?_foldl_insert]
      exact Option.none_or
    rw [first]
    exact ⟨fun value => firstOf?_eq_some_iff, firstOf?_eq_none_iff⟩
  · have known := (gathers.target g.target).2 ⟨g, member, rfl⟩
    obtain ⟨merged, found⟩ := Option.isSome_iff_exists.1 known
    exact ⟨merged, found, fun distinct => items_foldl_insert (fun _ _ => rfl) distinct found,
      fun distinct => items_foldl_insert (fun _ _ => rfl) distinct found⟩

def plainElement (name : QName) (nillable : Bool) : ElementDecl where
  name
  type := .named ⟨schemaNamespace, "string"⟩
  nillable
  default? := none
  fixed? := none
  isAbstract := false

def orderGrammars : List Grammar :=
  [{ target := "urn:a", systemIds := ["a.xsd"], imports := ["urn:b"],
     elements := ⟨[("Order", plainElement ⟨"urn:a", "Order"⟩ false)]⟩ },
   { target := "urn:b", systemIds := ["b.xsd"],
     elements := ⟨[("Order", plainElement ⟨"urn:b", "Order"⟩ true)]⟩ },
   { target := "urn:a", systemIds := ["more.xsd", "a.xsd"], imports := ["urn:c", "urn:b"],
     elements := ⟨[("Order", plainElement ⟨"urn:a", "Order"⟩ true),
       ("Item", plainElement ⟨"urn:a", "Item"⟩ false)]⟩ }]

theorem definitions_of_orderGrammars :
    let pool := orderGrammars.foldl Pool.insert {}
    pool.lookup? .element ⟨"urn:a", "Order"⟩ = some (plainElement ⟨"urn:a", "Order"⟩ false) ∧
    pool.lookup? .element ⟨"urn:a", "Item"⟩ = some (plainElement ⟨"urn:a", "Item"⟩ false) ∧
    pool.lookup? .element ⟨"urn:b", "Item"⟩ = none ∧
    (∃ merged, pool.grammar? "urn:a" = some merged ∧ merged.imports = ["urn:b", "urn:c"] ∧
      merged.systemIds = ["a.xsd", "more.xsd"]) ∧
    ∀ g ∈ orderGrammars, pool.insert g = pool := by
  obtain ⟨finds, lists, again⟩ := definitions_of_grammars orderGrammars
  obtain ⟨merged, found, imports, systemIds⟩ := lists _ List.mem_cons_self
  refine ⟨?_, ?_, ?_, ⟨merged, found, ?_, ?_⟩, again⟩
  · exact ((finds .element _ (by decide)).1 _).2 ⟨[], _, _, rfl, ⟨rfl, rfl⟩, nofun⟩
  · refine ((finds .element _ (by decide)).1 _).2 ⟨orderGrammars.take 2, _, [], rfl, ⟨rfl, rfl⟩, ?_⟩
    simp [orderGrammars, Grammar.table, Table.get?]
  · refine (finds .element _ (by decide)).2.2 ?_
    simp [orderGrammars, Grammar.table, Table.get?]
  · rw [imports (by simp [orderGrammars])]
    rfl
  · rw [systemIds (by simp [orderGrammars])]
    rfl

end Pool

end XmlSchema.Component
