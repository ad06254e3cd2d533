import XmlSchema.Proofs.Datatype.DecimalLiterals

namespace XmlSchema.Datatype

namespace SimpleType

variable {base t : SimpleType} {raw value literal : String} {literals : List String}

/-- A literal stands for the same value as a text: it is a numeral of the same number, or the same
text. -/
def StandsFor (t : SimpleType) (literal value : String) : Prop :=
  if t.primitive?.any Builtin.isDecimal then
    ∃ m n : Numeral, m.text = literal ∧ n.text = value ∧ m.value = n.value
  else literal = value

theorem compareDecimal?_eq_eq_iff : compareDecimal? value literal = some .eq ↔
    ∃ m n : Numeral, m.text = literal ∧ n.text = value ∧ m.value = n.value := by
  constructor
  · intro same
    obtain ⟨⟨n, rfl⟩, m, rfl⟩ := isSome_compareDecimal?_iff.1 (Option.isSome_of_eq_some same)
    rw [compareDecimal?_text, Option.some.injEq, compare_eq_iff_eq] at same
    exact ⟨m, n, rfl, rfl, same.symm⟩
  · rintro ⟨m, n, rfl, rfl, same⟩
    rw [compareDecimal?_text, same, compare_eq_iff_eq.2 rfl]

theorem valuesEqual_iff (notFloat : ∀ b ∈ t.primitive?, b.isFloat = false) :
    t.valuesEqual value literal = true ↔ t.StandsFor literal value := by
  unfold valuesEqual StandsFor
  have sameText : (value == literal) = true ↔ literal = value := beq_iff_eq.trans eq_comm
  cases primitive : t.primitive? with
  | none => exact sameText
  | some b =>
    have notFloat : b.isFloat = false := notFloat b primitive
    cases isDecimal : b.isDecimal with
    | true => simp [isDecimal, Builtin.compare?, compareDecimal?_eq_eq_iff]
    | false => simpa [isDecimal, notFloat] using sameText

theorem admits_restrict_iff {name : Option String} {whiteSpace : Option WhiteSpace}
    {facets : List Facet} : (base.restrict name whiteSpace facets).Admits value ↔
      base.Admits value ∧ ∀ facet ∈ facets, base.passes value facet = true := by
  have same (facet : Facet) :
      (base.restrict name whiteSpace facets).passes value facet = base.passes value facet :=
    passes_of_variety rfl value facet
  simp only [Admits, same]
  rw [restrict, List.forall_mem_append, and_assoc]

theorem validate_enumeration_iff (notFloat : ∀ b ∈ base.primitive?, b.isFloat = false)
    (name : Option String) :
    (base.restrict name none [.enumeration literals]).validate raw = .ok value ↔
      base.validate raw = .ok value ∧ ∃ literal ∈ literals, base.StandsFor literal value := by
  have passes : base.passes value (.enumeration literals) = true ↔
      ∃ literal ∈ literals, base.StandsFor literal value := by
    simp only [SimpleType.passes, List.any_eq_true, valuesEqual_iff notFloat]
  rw [validate_eq_ok_iff, validate_eq_ok_iff, admits_restrict_iff, List.forall_mem_singleton, passes,
    and_assoc]
  rfl

theorem standsFor_self (valid : base.validate raw = .ok value)
    (ascii : ∀ b ∈ base.primitive?, b.isDecimal = true → IsAscii value.toList) :
    base.StandsFor value value := by
  unfold StandsFor
  split
  · next decimal =>
    obtain ⟨b, primitive, isDecimal⟩ := (Option.any_eq_true _ _).1 decimal
    obtain ⟨-, ofVariety, -⟩ := validate_eq_ok_iff.1 valid
    rw [variety_eq_of_primitive? primitive] at ofVariety
    obtain ⟨n, same, -⟩ :=
      (isAscii_iff_of_isLiteral isDecimal ofVariety).2 (ascii b primitive isDecimal)
    exact ⟨n, n, same, same, rfl⟩
  · rfl

/-- A literal of an enumeration that is valid for the base is admitted exactly if one of the literals,
as they are written, stands for its value. So it is admitted if the base leaves its white space alone,
unless it is a decimal with digits of another script. -/
theorem enumeration_admits_own (notFloat : ∀ b ∈ base.primitive?, b.isFloat = false)
    (name : Option String) (own : literal ∈ literals) (valid : base.validate literal = .ok value) :
    ((base.restrict name none [.enumeration literals]).validate literal = .ok value ↔
      ∃ literal ∈ literals, base.StandsFor literal value) ∧
    (base.whiteSpace.apply literal = literal →
      (∀ b ∈ base.primitive?, b.isDecimal = true → IsAscii value.toList) →
      (base.restrict name none [.enumeration literals]).validate literal = .ok value) := by
  have admitted : (base.restrict name none [.enumeration literals]).validate literal = .ok value ↔
      ∃ literal ∈ literals, base.StandsFor literal value := by
    rw [validate_enumeration_iff notFloat]
    exact and_iff_right valid
  refine ⟨admitted, fun treated ascii => admitted.2 ⟨literal, own, ?_⟩⟩
  obtain rfl : literal = value := treated.symm.trans (validate_eq_ok_iff.1 valid).1
  exact standsFor_self valid ascii

def price : SimpleType := (builtin .decimal).restrict (some "price") none [.fractionDigits 2]

theorem price_enumeration_admits_own : (∀ b ∈ price.primitive?, b.isFloat = false) ∧
    "+02.50" ∈ ["1", "+02.50"] ∧ price.validate "+02.50" = .ok "+02.50" ∧
    price.whiteSpace.apply "+02.50" = "+02.50" ∧
    (∀ b ∈ price.primitive?, b.isDecimal = true → IsAscii "+02.50".toList) ∧
    (price.restrict none none [.enumeration ["1", "+02.50"]]).validate "+02.50" = .ok "+02.50" := by
  have notFloat : ∀ b ∈ price.primitive?, b.isFloat = false := by
    rintro b ⟨⟩
    rfl
  have own : "+02.50" ∈ ["1", "+02.50"] := by simp
  have treated : price.whiteSpace.apply "+02.50" = "+02.50" := by decide +kernel
  have ascii : IsAscii "+02.50".toList := by simp [IsAscii]
  have literal : Builtin.decimal.isLiteral "+02.50" = true :=
    (isLiteral_iff rfl).2 ⟨⟨some .plus, ['0', '2'], some ['5', '0'],
      ⟨category_of_allDigits (by decide), category_of_allDigits (by decide),
        .inl (List.cons_ne_nil _ _)⟩, .inl rfl, rfl⟩, rfl⟩
  have valid : price.validate "+02.50" = .ok "+02.50" :=
    validate_eq_ok_iff.2 ⟨treated, literal, List.forall_mem_singleton.2 (by decide +kernel)⟩
  exact ⟨notFloat, own, valid, treated, fun _ _ _ => ascii,
    (enumeration_admits_own notFloat none own valid).2 treated fun _ _ _ => ascii⟩

/-- A literal that is written with blanks around it is never equal to a value of a type that
collapses white space. -/
theorem spacedLetter_not_admitted : (∀ b ∈ (builtin .token).primitive?, b.isFloat = false) ∧
    (builtin .token).validate " a " = .ok "a" ∧
    ∀ value, ((builtin .token).restrict none none [.enumeration [" a "]]).validate " a " ≠
      .ok value := by
  have notFloat : ∀ b ∈ (builtin .token).primitive?, b.isFloat = false := by
    rintro b ⟨⟩
    rfl
  have valid : (builtin .token).validate " a " = .ok "a" :=
    validate_eq_ok_iff.2 ⟨by decide +kernel, rfl, List.forall_mem_nil _⟩
  refine ⟨notFloat, valid, fun value admitted => ?_⟩
  obtain ⟨valid', literal, own, same⟩ := (validate_enumeration_iff notFloat none).1 admitted
  obtain rfl : "a" = value := Except.ok.inj (valid.symm.trans valid')
  obtain rfl := List.mem_singleton.1 own
  simp [StandsFor, primitive?, builtin, Builtin.isDecimal] at same

end SimpleType

end XmlSchema.Datatype
