import XmlSchema.Proofs.Component.Pool
import XmlSchema.Schema.Compiler

namespace XmlSchema.Component

open Schema (ComponentKind)

abbrev Global : ComponentKind → Type
  | .element => ElementDecl
  | .type => TypeDefinition ElementDecl
  | .attribute => AttributeDecl
  | .group => ContentModel.Particle ElementDecl
  | .attributeGroup => AttributeGroup

theorem mem_addMissing {items more : List String} {item : String} :
    item ∈ addMissing items more ↔ item ∈ items ∨ item ∈ more := by
  unfold addMissing
  induction more generalizing items with
  | nil => simp
  | cons first more ih =>
    rw [List.foldl_cons, ih, List.mem_cons]
    by_cases known : items.contains first = true
    · have member : first ∈ items := by simpa using known
      rw [if_pos known]
      constructor
      · rintro (old | later)
        · exact .inl old
        · exact .inr (.inr later)
      · rintro (old | rfl | later)
        · exact .inl old
        · exact .inl member
        · exact .inr later
    · rw [if_neg known]
      simp only [List.mem_append, List.mem_singleton, or_assoc]

namespace Grammar

def table (g : Grammar) : (kind : ComponentKind) → Table (Global kind)
  | .element => g.elements
  | .type => g.types
  | .attribute => g.attributes
  | .group => g.groups
  | .attributeGroup => g.attributeGroups

def define (g : Grammar) (name : String) : (kind : ComponentKind) → Global kind → Grammar
  | .element, decl => { g with elements := g.elements.insertNew name decl }
  | .type, type => { g with types := g.types.insertNew name type }
  | .attribute, decl => { g with attributes := g.attributes.insertNew name decl }
  | .group, particle => { g with groups := g.groups.insertNew name particle }
  | .attributeGroup, group => { g with attributeGroups := g.attributeGroups.insertNew name group }

variable (g h : Grammar) {kind : ComponentKind} {name : String}

theorem table_merge (kind : ComponentKind) :
    (g.merge h).table kind = (g.table kind).merge (h.table kind) := by
  cases kind <;> rfl

theorem table_define_self (value : Global kind) :
    (g.define name kind value).table kind = (g.table kind).insertNew name value := by
  cases kind <;> rfl

theorem table_define_of_ne {other : ComponentKind} (value : Global kind) (different : other ≠ kind) :
    (g.define name kind value).table other = g.table other := by
  cases kind <;> cases other <;> first | rfl | exact absurd rfl different

@[simp] theorem target_define (value : Global kind) :
    (g.define name kind value).target = g.target := by
  cases kind <;> rfl

@[simp] theorem imports_define (value : Global kind) :
    (g.define name kind value).imports = g.imports := by
  cases kind <;> rfl

@[simp] theorem systemIds_define (value : Global kind) :
    (g.define name kind value).systemIds = g.systemIds := by
  cases kind <;> rfl

end Grammar

def Pool.find? (pool : Pool) (kind : ComponentKind) (name : QName) : Option (Global kind) :=
  (pool.grammar? name.ns).bind fun g => (g.table kind).get? name.localName

namespace Pool

variable (pool : Pool) (name : QName)

theorem element?_eq_find? : pool.element? name = pool.find? .element name := rfl

theorem type?_eq_find? (foreign : name.ns ≠ schemaNamespace) :
    pool.type? name = pool.find? .type name := by
  simp only [type?, beq_iff_eq, foreign, if_false]
  rfl

end Pool

def Provides (grammars : List Grammar) (kind : ComponentKind) (name : QName)
    (value : Global kind) : Prop :=
  ∃ g ∈ grammars, g.target = name.ns ∧ (g.table kind).get? name.localName = some value

theorem Pool.provides_of_find? {grammars : List Grammar} {kind : ComponentKind} {name : QName}
    {value : Global kind} (found : (Pool.mk grammars).find? kind name = some value) :
    Provides grammars kind name value := by
  obtain ⟨g, isGrammar, defined⟩ := Option.bind_eq_some_iff.1 found
  exact ⟨g, mem_of_grammar? isGrammar, grammar?_target isGrammar, defined⟩

/-- Grammars do not contradict each other. -/
def Consistent (grammars : List Grammar) : Prop :=
  ∀ kind name value other, Provides grammars kind name value → Provides grammars kind name other →
    value = other

structure SameContent (grammars others : List Grammar) : Prop where
  provides : ∀ kind name value, Provides grammars kind name value ↔ Provides others kind name value
  target : ∀ ns, (∃ g ∈ grammars, g.target = ns) ↔ ∃ g ∈ others, g.target = ns
  imports : ∀ ns item, (∃ g ∈ grammars, g.target = ns ∧ item ∈ g.imports) ↔
    ∃ g ∈ others, g.target = ns ∧ item ∈ g.imports
  systemIds : ∀ ns item, (∃ g ∈ grammars, g.target = ns ∧ item ∈ g.systemIds) ↔
    ∃ g ∈ others, g.target = ns ∧ item ∈ g.systemIds

theorem exists_mem_append {grammars others : List Grammar} {P : Grammar → Prop} :
    (∃ g ∈ grammars ++ others, P g) ↔ (∃ g ∈ grammars, P g) ∨ ∃ g ∈ others, P g := by
  simp only [List.mem_append, or_and_right, exists_or]

theorem provides_append {grammars others : List Grammar} {kind : ComponentKind} {name : QName}
    {value : Global kind} : Provides (grammars ++ others) kind name value ↔
      Provides grammars kind name value ∨ Provides others kind name value :=
  exists_mem_append

theorem SameContent.of_mem_iff {grammars others : List Grammar}
    (same : ∀ g, g ∈ grammars ↔ g ∈ others) : SameContent grammars others := by
  constructor <;> intros <;> simp only [Provides, same]

theorem SameContent.append {grammars others more moreOthers : List Grammar}
    (first : SameContent grammars others) (rest : SameContent more moreOthers) :
    SameContent (grammars ++ more) (others ++ moreOthers) where
  provides kind name value := by
    rw [provides_append, provides_append, first.provides, rest.provides]
  target ns := by rw [exists_mem_append, exists_mem_append, first.target, rest.target]
  imports ns item := by rw [exists_mem_append, exists_mem_append, first.imports, rest.imports]
  systemIds ns item := by
    rw [exists_mem_append, exists_mem_append, first.systemIds, rest.systemIds]

structure Pool.Gathers (pool : Pool) (grammars : List Grammar) : Prop where
  target : ∀ ns, (pool.grammar? ns).isSome ↔ ∃ g ∈ grammars, g.target = ns
  sound : ∀ kind name value, pool.find? kind name = some value → Provides grammars kind name value
  complete : ∀ kind name value, Provides grammars kind name value → (pool.find? kind name).isSome
  imports : ∀ ns h, pool.grammar? ns = some h → ∀ item, item ∈ h.imports ↔
    ∃ g ∈ grammars, g.target = ns ∧ item ∈ g.imports
  systemIds : ∀ ns h, pool.grammar? ns = some h → ∀ item, item ∈ h.systemIds ↔
    ∃ g ∈ grammars, g.target = ns ∧ item ∈ g.systemIds

namespace Pool

variable {pool : Pool} {grammars : List Grammar}

theorem gathers_nil : Pool.Gathers {} [] where
  target ns := by simp [grammar?]
  sound kind name value found := by simp [find?, grammar?] at found
  complete kind name value provided := by
    obtain ⟨g, member, _⟩ := provided
    cases member
  imports ns h found := by simp [grammar?] at found
  systemIds ns h found := by simp [grammar?] at found

theorem find?_insert (pool : Pool) (g : Grammar) (kind : ComponentKind) (name : QName) :
    (pool.insert g).find? kind name = (pool.find? kind name).or
      (if g.target = name.ns then (g.table kind).get? name.localName else none) := by
  simp only [find?, grammar?_insert]
  by_cases same : g.target = name.ns
  · rw [if_pos same, if_pos same]
    cases pool.grammar? name.ns with
    | none => simp
    | some h => simp [Grammar.table_merge, Table.get?_merge]
  · rw [if_neg same, if_neg same, Option.or_none]

theorem provides_singleton {g : Grammar} {kind : ComponentKind} {name : QName}
    {value : Global kind} : Provides [g] kind name value ↔
      g.target = name.ns ∧ (g.table kind).get? name.localName = some value := by
  simp [Provides]

theorem mem_items_insert {items : Grammar → List String}
    (merge : ∀ g h item, item ∈ items (Grammar.merge g h) ↔ item ∈ items g ∨ item ∈ items h)
    (target : ∀ ns, (pool.grammar? ns).isSome ↔ ∃ g ∈ grammars, g.target = ns)
    (before : ∀ ns h, pool.grammar? ns = some h → ∀ item, item ∈ items h ↔
      ∃ g ∈ grammars, g.target = ns ∧ item ∈ items g) (g : Grammar) :
    ∀ ns h, (pool.insert g).grammar? ns = some h → ∀ item, item ∈ items h ↔
      ∃ k ∈ grammars ++ [g], k.target = ns ∧ item ∈ items k := by
  intro ns h found item
  rw [grammar?_insert] at found
  rw [exists_mem_append]
  by_cases same : g.target = ns
  · rw [if_pos same] at found
    cases old : pool.grammar? ns with
    | none =>
      have absent : ¬∃ k ∈ grammars, k.target = ns ∧ item ∈ items k := by
        rintro ⟨k, among, target', _⟩
        have isSome := (target ns).2 ⟨k, among, target'⟩
        simp [old] at isSome
      obtain rfl : g = h := by simpa [old] using found
      simp [absent, same]
    | some k =>
      obtain rfl : k.merge g = h := by simpa [old] using found
      simp [merge, before ns k old, same]
  · rw [if_neg same] at found
    rw [before ns h found]
    simp [same]

theorem Gathers.insert (gathers : pool.Gathers grammars) (g : Grammar) :
    (pool.insert g).Gathers (grammars ++ [g]) where
  target ns := by
    rw [grammar?_insert, exists_mem_append]
    by_cases same : g.target = ns
    · simp [same]
    · rw [if_neg same, gathers.target]
      simp [same]
  sound kind name value found := by
    rw [find?_insert, Option.or_eq_some_iff] at found
    rw [provides_append]
    rcases found with old | ⟨_, new⟩
    · exact .inl (gathers.sound kind name value old)
    · split at new
      · next same => exact .inr (provides_singleton.2 ⟨same, new⟩)
      · cases new
  complete kind name value provided := by
    rw [find?_insert, Option.isSome_or]
    rcases provides_append.1 provided with old | new
    · rw [gathers.complete kind name value old, Bool.true_or]
    · obtain ⟨same, found⟩ := provides_singleton.1 new
      rw [if_pos same, found, Option.isSome_some, Bool.or_true]
  imports := mem_items_insert (fun _ _ _ => mem_addMissing) gathers.target gathers.imports g
  systemIds := mem_items_insert (fun _ _ _ => mem_addMissing) gathers.target gathers.systemIds g

def firstOf? (grammars : List Grammar) (kind : ComponentKind) (name : QName) :
    Option (Global kind) :=
  grammars.findSome? fun g =>
    if g.target = name.ns then (g.table kind).get? name.localName else none

theorem find?_foldl_insert (pool : Pool) (more : List Grammar) (kind : ComponentKind)
    (name : QName) :
    (more.foldl Pool.insert pool).find? kind name =
      (pool.find? kind name).or (firstOf? more kind name) := by
  induction more generalizing pool with
  | nil => simp [firstOf?]
  | cons g more ih =>
    rw [List.foldl_cons, ih, find?_insert, Option.or_assoc]
    congr 1
    simp only [firstOf?, List.findSome?_cons]
    generalize (if g.target = name.ns then (g.table kind).get? name.localName else none) = first
    cases first <;> rfl

theorem isSome_find?_foldl_insert {kind : ComponentKind} {name : QName}
    (known : (pool.find? kind name).isSome) (more : List Grammar) :
    ((more.foldl Pool.insert pool).find? kind name).isSome := by
  rw [find?_foldl_insert, Option.isSome_or, known, Bool.true_or]

theorem isSome_find?_of_provides {kind : ComponentKind} {name : QName} {value : Global kind}
    {more : List Grammar} (provided : Provides more kind name value) :
    ((more.foldl Pool.insert pool).find? kind name).isSome := by
  obtain ⟨g, member, target, found⟩ := provided
  have first : (firstOf? more kind name).isSome :=
    List.findSome?_isSome_iff.2 ⟨g, member, by rw [if_pos target, found, Option.isSome_some]⟩
  rw [find?_foldl_insert, Option.isSome_or, first, Bool.or_true]

theorem provides_of_find?_foldl_insert {kind : ComponentKind} {name : QName} {value : Global kind}
    {more : List Grammar} (found : (more.foldl Pool.insert pool).find? kind name = some value) :
    pool.find? kind name = some value ∨ Provides more kind name value := by
  rw [find?_foldl_insert, Option.or_eq_some_iff] at found
  refine found.imp_right fun ⟨_, first⟩ => ?_
  obtain ⟨g, member, defined⟩ := List.exists_of_findSome?_eq_some first
  split at defined
  · next target => exact ⟨g, member, target, defined⟩
  · cases defined

theorem Gathers.foldl_insert (gathers : pool.Gathers grammars) (more : List Grammar) :
    (more.foldl Pool.insert pool).Gathers (grammars ++ more) := by
  induction more generalizing pool grammars with
  | nil => simpa using gathers
  | cons g more ih => simpa using ih (gathers.insert g)

theorem Gathers.find?_eq_some_iff (gathers : pool.Gathers grammars) (consistent : Consistent grammars)
    {kind : ComponentKind} {name : QName} {value : Global kind} :
    pool.find? kind name = some value ↔ Provides grammars kind name value := by
  refine ⟨gathers.sound kind name value, fun provided => ?_⟩
  obtain ⟨found, holds⟩ := Option.isSome_iff_exists.1 (gathers.complete kind name value provided)
  rw [holds, consistent kind name found value (gathers.sound kind name found holds) provided]

end Pool

/-- Two grammars define the same, from the same documents and with the same imports. -/
structure Grammar.Agrees (g h : Grammar) : Prop where
  elements : ∀ name, g.elements.get? name = h.elements.get? name
  types : ∀ name, g.types.get? name = h.types.get? name
  attributes : ∀ name, g.attributes.get? name = h.attributes.get? name
  groups : ∀ name, g.groups.get? name = h.groups.get? name
  attributeGroups : ∀ name, g.attributeGroups.get? name = h.attributeGroups.get? name
  imports : ∀ ns, ns ∈ g.imports ↔ ns ∈ h.imports
  systemIds : ∀ systemId, systemId ∈ g.systemIds ↔ systemId ∈ h.systemIds

/-- Two pools have grammars of the same namespaces, and these agree. -/
def Pool.Agrees (pool other : Pool) : Prop :=
  ∀ ns, Option.Rel Grammar.Agrees (pool.grammar? ns) (other.grammar? ns)

theorem Pool.Gathers.agrees {pool other : Pool} {grammars others : List Grammar}
    (gathers : pool.Gathers grammars) (gathersOther : other.Gathers others)
    (consistent : Consistent grammars) (same : SameContent grammars others) :
    pool.Agrees other := by
  have consistentOthers : Consistent others := fun kind name value w provided provided' =>
    consistent kind name value w ((same.provides ..).2 provided) ((same.provides ..).2 provided')
  have find (kind : ComponentKind) (name : QName) : pool.find? kind name = other.find? kind name :=
    Option.ext fun value => by
      rw [gathers.find?_eq_some_iff consistent, gathersOther.find?_eq_some_iff consistentOthers,
        same.provides]
  intro ns
  have targets : (pool.grammar? ns).isSome ↔ (other.grammar? ns).isSome := by
    rw [gathers.target, gathersOther.target, same.target]
  cases found : pool.grammar? ns with
  | none =>
    cases foundOther : other.grammar? ns with
    | none => exact .none
    | some h => simp [found, foundOther] at targets
  | some g =>
    cases foundOther : other.grammar? ns with
    | none => simp [found, foundOther] at targets
    | some h =>
      have tables (kind : ComponentKind) (name : String) :
          (g.table kind).get? name = (h.table kind).get? name := by
        have at_ns := find kind ⟨ns, name⟩
        simpa only [Pool.find?, found, foundOther, Option.bind_some] using at_ns
      refine .some ⟨tables .element, tables .type, tables .attribute, tables .group,
        tables .attributeGroup, fun item => ?_, fun item => ?_⟩
      · rw [gathers.imports ns g found, gathersOther.imports ns h foundOther, same.imports]
      · rw [gathers.systemIds ns g found, gathersOther.systemIds ns h foundOther, same.systemIds]

end XmlSchema.Component
