import Mathlib.Data.Finset.Card
import XmlSchema.Component.Symbol

namespace XmlSchema.Component

section
variable {τ σ : Type} {intern : τ → String → σ × τ} {symbol? : τ → String → Option σ}

def internAll (intern : τ → String → σ × τ) (t : τ) : List String → List (String × σ) × τ
  | [] => ([], t)
  | name :: names =>
    let (symbol, t) := intern t name
    let (calls, t) := internAll intern t names
    ((name, symbol) :: calls, t)

theorem map_fst_internAll (t : τ) (names : List String) :
    (internAll intern t names).1.map (·.1) = names := by
  induction names generalizing t with
  | nil => rfl
  | cons name names ih => exact congrArg (name :: ·) (ih _)

theorem internAll_keeps {P : τ → Prop} (step : ∀ t name, P t → P (intern t name).2) {t : τ}
    (start : P t) (names : List String) : P (internAll intern t names).2 := by
  induction names generalizing t with
  | nil => exact start
  | cons name names ih => exact ih (step t name start)

structure Interns (intern : τ → String → σ × τ) (symbol? : τ → String → Option σ) : Prop where
  symbol?_intern : ∀ t name other, symbol? (intern t name).2 other =
    if other = name then some (intern t name).1 else symbol? t other
  again : ∀ t name symbol, symbol? t name = some symbol → (intern t name).1 = symbol

theorem Interns.kept (h : Interns intern symbol?) {t : τ} {other : String} {symbol : σ}
    (known : symbol? t other = some symbol) (names : List String) :
    symbol? (internAll intern t names).2 other = some symbol := by
  refine internAll_keeps (P := fun t => symbol? t other = some symbol) (fun t name known => ?_) known
    names
  rw [h.symbol?_intern]
  split
  · next same =>
    subst same
    rw [h.again t other symbol known]
  · exact known

theorem Interns.known_of_mem (h : Interns intern symbol?) (t : τ) {names : List String}
    {call : String × σ} (member : call ∈ (internAll intern t names).1) :
    symbol? (internAll intern t names).2 call.1 = some call.2 := by
  induction names generalizing t with
  | nil => cases member
  | cons name names ih =>
    rcases List.mem_cons.1 member with rfl | member
    · exact h.kept (by rw [h.symbol?_intern, if_pos rfl]) names
    · exact ih _ member

theorem Interns.isSome_iff (h : Interns intern symbol?) (t : τ) (names : List String)
    (name : String) :
    (symbol? (internAll intern t names).2 name).isSome ↔ (symbol? t name).isSome ∨ name ∈ names := by
  induction names generalizing t with
  | nil => simp [internAll]
  | cons first names ih =>
    have first_iff : (symbol? (intern t first).2 name).isSome ↔
        (symbol? t name).isSome ∨ name = first := by
      rw [h.symbol?_intern]
      by_cases same : name = first <;> simp [same]
    rw [List.mem_cons, ← or_assoc, ← first_iff]
    exact ih _

end

namespace SymbolTable

variable {t : SymbolTable} {name other : String}

theorem index?_eq_none_iff : t.index? name = none ↔ name ∉ t.names := List.idxOf?_eq_none_iff

theorem isSome_index?_iff : (t.index? name).isSome ↔ name ∈ t.names := by
  rw [Option.isSome_iff_ne_none, ne_eq, index?_eq_none_iff, not_not]

theorem eq_of_index?_eq {i : Nat} (first : t.index? name = some i)
    (second : t.index? other = some i) : name = other := by
  obtain ⟨_, here, -⟩ := List.idxOf?_eq_some_iff.1 first
  obtain ⟨_, there, -⟩ := List.idxOf?_eq_some_iff.1 second
  exact here.symm.trans there

theorem intern_of_known {i : Nat} (known : t.index? name = some i) : t.intern name = (i, t) := by
  simp [intern, known]

theorem intern_of_unknown (unknown : t.index? name = none) :
    t.intern name = (t.size, { names := t.names ++ [name] }) := by
  simp [intern, unknown]

theorem index?_concat (unknown : t.index? name = none) (other : String) :
    index? { names := t.names ++ [name] } other =
      if other = name then some t.size else t.index? other := by
  have absent : t.names.findIdx? (· == name) = none := unknown
  simp only [index?, List.idxOf?, List.findIdx?_append, List.findIdx?_singleton]
  by_cases same : other = name
  · subst same
    simp [absent, size]
  · simp [same, Ne.symm same]

theorem interns : Interns intern index? where
  symbol?_intern t name other := by
    cases known : t.index? name with
    | some i =>
      rw [intern_of_known known]
      split
      · next same => exact same ▸ known
      · rfl
    | none => rw [intern_of_unknown known, index?_concat known]
  again t name i known := by rw [intern_of_known known]

def ofNames (names : List String) : List (String × Nat) × SymbolTable := internAll intern {} names

theorem contains_ofNames_iff (given : List String) :
    (ofNames given).2.contains name = true ↔ name ∈ given := by
  rw [contains, List.contains_iff_mem, ← isSome_index?_iff, ofNames, interns.isSome_iff]
  exact or_iff_right Bool.false_ne_true

theorem nodup_intern (t : SymbolTable) (name : String) (nodup : t.names.Nodup) :
    (t.intern name).2.names.Nodup := by
  cases known : t.index? name with
  | some i => rwa [intern_of_known known]
  | none =>
    rw [intern_of_unknown known]
    exact List.nodup_append.2 ⟨nodup, List.nodup_singleton name,
      fun a member b last equal => index?_eq_none_iff.1 known
        (List.mem_singleton.1 last ▸ equal ▸ member)⟩

end SymbolTable

namespace ShadowTable

variable {t : ShadowTable} {name other : String}

def symbol? (t : ShadowTable) (name : String) : Option Symbol :=
  match t.shared.index? name with
  | some i => some (.shared i)
  | none => (t.overlay.index? name).map .overlay

theorem symbol?_of_shared {i : Nat} (known : t.shared.index? name = some i) :
    t.symbol? name = some (.shared i) := by
  simp [symbol?, known]

theorem symbol?_of_unshared (unknown : t.shared.index? name = none) :
    t.symbol? name = (t.overlay.index? name).map .overlay := by
  simp [symbol?, unknown]

theorem eq_of_symbol?_eq {symbol : Symbol} (first : t.symbol? name = some symbol)
    (second : t.symbol? other = some symbol) : name = other := by
  cases symbol with
  | shared i =>
    have among {name : String} (known : t.symbol? name = some (.shared i)) :
        t.shared.index? name = some i := by
      cases found : t.shared.index? name with
      | some j => simpa [symbol?_of_shared found] using known
      | none => simp [symbol?_of_unshared found] at known
    exact SymbolTable.eq_of_index?_eq (among first) (among second)
  | overlay i =>
    have among {name : String} (known : t.symbol? name = some (.overlay i)) :
        t.overlay.index? name = some i := by
      cases found : t.shared.index? name with
      | some j => simp [symbol?_of_shared found] at known
      | none => simpa [symbol?_of_unshared found] using known
    exact SymbolTable.eq_of_index?_eq (among first) (among second)

theorem intern_of_shared {i : Nat} (known : t.shared.index? name = some i) :
    t.intern name = (.shared i, t) := by
  simp [intern, known]

theorem intern_of_unshared (unknown : t.shared.index? name = none) :
    t.intern name =
      (.overlay (t.overlay.intern name).1, { t with overlay := (t.overlay.intern name).2 }) := by
  simp [intern, unknown]

theorem interns : Interns intern symbol? where
  symbol?_intern t name other := by
    cases shared : t.shared.index? name with
    | some i =>
      rw [intern_of_shared shared]
      split
      · next same => exact same ▸ symbol?_of_shared shared
      · rfl
    | none =>
      rw [intern_of_unshared shared]
      cases sharedOther : t.shared.index? other with
      | some j =>
        have different : other ≠ name := by
          rintro rfl
          cases shared.symm.trans sharedOther
        rw [if_neg different, symbol?_of_shared sharedOther]
        exact symbol?_of_shared sharedOther
      | none =>
        have after : symbol? { t with overlay := (t.overlay.intern name).2 } other =
            ((t.overlay.intern name).2.index? other).map .overlay := symbol?_of_unshared sharedOther
        rw [SymbolTable.interns.symbol?_intern, apply_ite (Option.map _),
          ← symbol?_of_unshared sharedOther] at after
        exact after
  again t name symbol known := by
    cases shared : t.shared.index? name with
    | some i =>
      rw [symbol?_of_shared shared] at known
      rw [intern_of_shared shared, Option.some.inj known]
    | none =>
      rw [symbol?_of_unshared shared] at known
      obtain ⟨i, index, rfl⟩ := Option.map_eq_some_iff.1 known
      rw [intern_of_unshared shared, SymbolTable.interns.again _ _ _ index]

theorem shared_intern (t : ShadowTable) (name : String) : (t.intern name).2.shared = t.shared := by
  unfold intern
  split <;> rfl

structure IsApart (t : ShadowTable) : Prop where
  nodup : t.overlay.names.Nodup
  disjoint : ∀ name ∈ t.overlay.names, name ∉ t.shared.names

theorem IsApart.intern (t : ShadowTable) (name : String) (apart : t.IsApart) :
    (t.intern name).2.IsApart := by
  cases shared : t.shared.index? name with
  | some i => rwa [intern_of_shared shared]
  | none =>
    rw [intern_of_unshared shared]
    refine ⟨SymbolTable.nodup_intern _ _ apart.nodup, fun other member => ?_⟩
    change other ∉ t.shared.names
    rw [← SymbolTable.isSome_index?_iff, SymbolTable.interns.symbol?_intern] at member
    split at member
    · next same => exact same ▸ SymbolTable.index?_eq_none_iff.1 shared
    · exact apart.disjoint other (SymbolTable.isSome_index?_iff.1 member)

def ofNames (table : SymbolTable) (names : List String) : List (String × Symbol) × ShadowTable :=
  internAll intern { shared := table } names

variable {table : SymbolTable} {session : List String}

theorem shared_ofNames : (ofNames table session).2.shared = table :=
  internAll_keeps (P := fun t : ShadowTable => t.shared = table)
    (fun t name same => (t.shared_intern name).trans same) rfl session

theorem isApart_ofNames : (ofNames table session).2.IsApart :=
  internAll_keeps IsApart.intern
    ⟨List.nodup_nil, fun _ member => absurd member List.not_mem_nil⟩ session

theorem symbol?_ofNames_of_shared {i : Nat} (known : table.index? name = some i) :
    (ofNames table session).2.symbol? name = some (.shared i) :=
  interns.kept (symbol?_of_shared known) session

theorem mem_overlay_ofNames_iff :
    name ∈ (ofNames table session).2.overlay.names ↔
      name ∈ session ∧ table.contains name = false := by
  have known := interns.isSome_iff { shared := table } session name
  have shared_eq : (ofNames table session).2.shared = table := shared_ofNames
  have apart : (ofNames table session).2.IsApart := isApart_ofNames
  rw [ofNames] at shared_eq apart ⊢
  generalize (internAll intern { shared := table } session).2 = t at known shared_eq apart ⊢
  rw [← Bool.not_eq_true, SymbolTable.contains, List.contains_iff_mem]
  cases shared : table.index? name with
  | some i =>
    have member := SymbolTable.isSome_index?_iff.1 (shared ▸ rfl : (table.index? name).isSome)
    exact iff_of_false (fun among => apart.disjoint name among (shared_eq ▸ member))
      fun h => h.2 member
  | none =>
    rw [symbol?_of_unshared (shared_eq ▸ shared), symbol?_of_unshared shared, Option.isSome_map,
      SymbolTable.isSome_index?_iff] at known
    rw [known, and_iff_left (SymbolTable.index?_eq_none_iff.1 shared)]
    exact or_iff_right Bool.false_ne_true

theorem size_overlay_ofNames : (ofNames table session).2.overlay.size =
    (session.filter fun name => !table.contains name).toFinset.card := by
  have members : (ofNames table session).2.overlay.names.toFinset =
      (session.filter fun name => !table.contains name).toFinset := by
    ext name
    simp [mem_overlay_ofNames_iff]
  rw [← members, List.toFinset_card_of_nodup isApart_ofNames.nodup]
  rfl

end ShadowTable

def symbolCalls (given session : List String) : List (String × Symbol) :=
  (SymbolTable.ofNames given).1.map (fun call => (call.1, .shared call.2)) ++
    (ShadowTable.ofNames (SymbolTable.ofNames given).2 session).1

theorem map_fst_symbolCalls (given session : List String) :
    (symbolCalls given session).map (·.1) = given ++ session := by
  rw [symbolCalls, List.map_append, List.map_map]
  exact congrArg₂ (· ++ ·) (map_fst_internAll _ given) (map_fst_internAll _ session)

theorem symbol?_of_mem_symbolCalls {given session : List String} {call : String × Symbol}
    (member : call ∈ symbolCalls given session) :
    (ShadowTable.ofNames (SymbolTable.ofNames given).2 session).2.symbol? call.1 = some call.2 := by
  rcases List.mem_append.1 member with member | member
  · obtain ⟨call, among, rfl⟩ := List.mem_map.1 member
    exact ShadowTable.symbol?_ofNames_of_shared (SymbolTable.interns.known_of_mem {} among)
  · exact ShadowTable.interns.known_of_mem _ member

/-- Two symbols are the same exactly if they are given for the same name, by the table or by the
overlay. A name that is in the table keeps the symbol from there. The table has the names that have
been interned in it and stays as it is, and the overlay has each of the names once that have been
interned since and are not in the table. -/
theorem symbols_stand_for_names (given session : List String) :
    (symbolCalls given session).map (·.1) = given ++ session ∧
    (∀ c ∈ symbolCalls given session, ∀ d ∈ symbolCalls given session, c.2 = d.2 ↔ c.1 = d.1) ∧
    (∀ c ∈ (SymbolTable.ofNames given).1,
      ∀ d ∈ (ShadowTable.ofNames (SymbolTable.ofNames given).2 session).1,
        d.1 = c.1 → d.2 = .shared c.2) ∧
    (∀ name, (SymbolTable.ofNames given).2.contains name = true ↔ name ∈ given) ∧
    (ShadowTable.ofNames (SymbolTable.ofNames given).2 session).2.shared =
      (SymbolTable.ofNames given).2 ∧
    (∀ name ∈ (ShadowTable.ofNames (SymbolTable.ofNames given).2 session).2.overlay.names,
      (SymbolTable.ofNames given).2.contains name = false) ∧
    (ShadowTable.ofNames (SymbolTable.ofNames given).2 session).2.overlay.size =
      (session.filter fun name => !(SymbolTable.ofNames given).2.contains name).toFinset.card := by
  refine ⟨map_fst_symbolCalls given session, fun c first d second => ⟨fun same => ?_, fun same => ?_⟩,
    fun c first d second same => ?_, fun name => SymbolTable.contains_ofNames_iff given,
    ShadowTable.shared_ofNames, fun name member => (ShadowTable.mem_overlay_ofNames_iff.1 member).2,
    ShadowTable.size_overlay_ofNames⟩
  · exact ShadowTable.eq_of_symbol?_eq (symbol?_of_mem_symbolCalls first)
      (same ▸ symbol?_of_mem_symbolCalls second)
  · exact Option.some.inj ((symbol?_of_mem_symbolCalls first).symm.trans
      (same ▸ symbol?_of_mem_symbolCalls second))
  · have known := SymbolTable.interns.known_of_mem {} first
    exact Option.some.inj ((ShadowTable.interns.known_of_mem _ second).symm.trans
      (same ▸ ShadowTable.symbol?_ofNames_of_shared known))

end XmlSchema.Component
