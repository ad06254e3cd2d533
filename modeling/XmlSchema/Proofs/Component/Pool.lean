import XmlSchema.Component.Grammar

namespace XmlSchema.Component

open ContentModel (Particle)

theorem lookup_cons_eq {κ α : Type} [BEq κ] [LawfulBEq κ] [DecidableEq κ] (entries : List (κ × α))
    (key : κ) (a : α) (name : κ) :
    ((key, a) :: entries).lookup name = if name = key then some a else entries.lookup name := by
  rw [List.lookup_cons]
  by_cases same : name = key
  · simp [same]
  · rw [beq_false_of_ne same, if_neg same]

namespace Table

variable {α : Type} {name key : String} {a : α}

theorem get?_insertNew (t : Table α) (key : String) (a : α) (name : String) :
    (t.insertNew key a).get? name =
      (t.get? name).or (if name = key then some a else none) := by
  unfold insertNew
  by_cases known : t.contains key = true
  · rw [if_pos known]
    by_cases same : name = key
    · obtain ⟨b, found⟩ := Option.isSome_iff_exists.1 known
      simp [same, found]
    · simp [same]
  · rw [if_neg known]
    simp only [get?, List.lookup_append, lookup_cons_eq, List.lookup_nil]

theorem get?_merge (t u : Table α) (name : String) :
    (t.merge u).get? name = (t.get? name).or (u.get? name) := by
  obtain ⟨entries⟩ := u
  simp only [merge, get?]
  induction entries generalizing t with
  | nil => simp
  | cons entry entries ih =>
    obtain ⟨key, a⟩ := entry
    rw [List.foldl_cons, ih]
    have inserted := get?_insertNew t key a name
    simp only [get?] at inserted
    rw [inserted, Option.or_assoc, lookup_cons_eq]
    by_cases same : name = key <;> simp [same]

theorem mem_insertNew {t : Table α} {entry : String × α}
    (member : entry ∈ (t.insertNew key a).entries) : entry ∈ t.entries ∨ entry = (key, a) := by
  unfold insertNew at member
  split at member
  · exact .inl member
  · simpa using member

theorem mem_merge {t u : Table α} {entry : String × α} (member : entry ∈ (t.merge u).entries) :
    entry ∈ t.entries ∨ entry ∈ u.entries := by
  obtain ⟨entries⟩ := u
  simp only [merge] at member ⊢
  induction entries generalizing t with
  | nil => exact .inl member
  | cons new entries ih =>
    rcases ih member with old | later
    · rcases mem_insertNew old with old | rfl
      · exact .inl old
      · exact .inr List.mem_cons_self
    · exact .inr (List.mem_cons_of_mem _ later)

theorem mem_of_get? {t : Table α} (found : t.get? name = some a) : (name, a) ∈ t.entries := by
  obtain ⟨before, after, entries, _⟩ := List.lookup_eq_some_iff.1 found
  simp [entries]

end Table

namespace Pool

variable {pool : Pool} {ns : String}

theorem grammar?_target {g : Grammar} (found : pool.grammar? ns = some g) : g.target = ns := by
  simpa using List.find?_some found

theorem mem_of_grammar? {g : Grammar} (found : pool.grammar? ns = some g) : g ∈ pool.grammars :=
  List.mem_of_find?_eq_some found

theorem isSome_grammar?_iff {grammars : List Grammar} :
    ((Pool.mk grammars).grammar? ns).isSome ↔ ∃ g ∈ grammars, g.target = ns := by
  simp [grammar?]

theorem grammar?_of_mem {grammars : List Grammar} (distinct : (grammars.map (·.target)).Nodup)
    {g : Grammar} (member : g ∈ grammars) : (Pool.mk grammars).grammar? g.target = some g := by
  obtain ⟨before, after, rfl⟩ := List.append_of_mem member
  rw [List.map_append, List.map_cons, List.nodup_append] at distinct
  rw [grammar?, List.find?_append, List.find?_cons_of_pos (by simp), Option.or_eq_some_iff]
  refine .inr ⟨List.find?_eq_none.2 fun h among => ?_, rfl⟩
  have different := distinct.2.2 h.target (List.mem_map_of_mem among) g.target List.mem_cons_self
  simpa using different

theorem exists_mem_iff {grammars : List Grammar} (distinct : (grammars.map (·.target)).Nodup)
    {P : Grammar → Prop} : (∃ g ∈ grammars, g.target = ns ∧ P g) ↔
      ∃ g, (Pool.mk grammars).grammar? ns = some g ∧ P g := by
  constructor
  · rintro ⟨g, member, rfl, holds⟩
    exact ⟨g, grammar?_of_mem distinct member, holds⟩
  · rintro ⟨g, found, holds⟩
    exact ⟨g, mem_of_grammar? found, grammar?_target found, holds⟩

theorem grammar?_insert (pool : Pool) (g : Grammar) (ns : String) :
    (pool.insert g).grammar? ns =
      if g.target = ns then some (((pool.grammar? ns).map (·.merge g)).getD g)
      else pool.grammar? ns := by
  simp only [insert, grammar?]
  induction pool.grammars with
  | nil => by_cases same : g.target = ns <;> simp [insertInto, same]
  | cons h rest ih =>
    unfold insertInto
    by_cases merged : h.target = g.target
    · by_cases same : g.target = ns <;>
        simp [merged, same, Grammar.merge]
    · by_cases here : h.target = ns
      · have other : g.target ≠ ns := fun same => merged (here.trans same.symm)
        rw [if_neg (by simpa using merged), if_neg other]
        simp [here]
      · rw [if_neg (by simpa using merged)]
        simp [here, ih]

theorem mem_insert {g h : Grammar} (member : h ∈ (pool.insert g).grammars) :
    h ∈ pool.grammars ∨ h = g ∨ ∃ old ∈ pool.grammars, h = old.merge g := by
  obtain ⟨grammars⟩ := pool
  simp only [insert] at member ⊢
  induction grammars with
  | nil => simpa [insertInto] using member
  | cons old rest ih =>
    unfold insertInto at member
    split at member
    · rcases List.mem_cons.1 member with rfl | member
      · exact .inr (.inr ⟨old, List.mem_cons_self, rfl⟩)
      · exact .inl (List.mem_cons_of_mem _ member)
    · rcases List.mem_cons.1 member with rfl | member
      · exact .inl List.mem_cons_self
      · rcases ih member with member | rfl | ⟨older, known, rfl⟩
        · exact .inl (List.mem_cons_of_mem _ member)
        · exact .inr (.inl rfl)
        · exact .inr (.inr ⟨older, List.mem_cons_of_mem _ known, rfl⟩)

end Pool

end XmlSchema.Component
