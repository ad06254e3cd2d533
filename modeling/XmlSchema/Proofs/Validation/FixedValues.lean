import XmlSchema.Proofs.Datatype.Enumeration
import XmlSchema.Validation.Frame

namespace XmlSchema.Validation

open Component (AttributeDecl ElementDecl)
open Datatype
open Instance (Attribute)

variable {type : SimpleType} {fixed fixedValue text value : String}

theorem checkElementValue_of_valid {decl : ElementDecl} (isFixed : decl.fixed? = some fixed)
    (valid : type.validate text = .ok value) (nonempty : text ≠ "") (element : String) :
    checkElementValue type decl text element =
      if value = type.whiteSpace.apply fixed then []
      else [violated (.elementNotFixed value element fixed)] := by
  simp [checkElementValue, nonempty, valid, isFixed]

theorem checkAttributeValue_of_valid {decl : AttributeDecl} {given : Attribute}
    (isFixed : decl.fixed? = some fixed) (valid : decl.type.validate given.value = .ok value)
    (element : String) :
    checkAttributeValue decl given element =
      if value = decl.type.whiteSpace.apply fixed then []
      else [violated (.attributeNotFixed given.value given.name.localName element fixed)] := by
  simp [checkAttributeValue, valid, isFixed]

/-- A value is complained of exactly if it is written otherwise than the fixed value. For the types
that are no decimal types this means that the two are not equal. For the decimal types it is the
case at least where they are not equal, as long as they are in ASCII. -/
theorem fixed_compared (notFloat : ∀ b ∈ type.primitive?, b.isFloat = false)
    (fixedValid : type.validate fixed = .ok fixedValue) (valid : type.validate text = .ok value)
    (nonempty : text ≠ "") :
    (∀ (decl : ElementDecl) element, decl.fixed? = some fixed →
      (violated (.elementNotFixed value element fixed) ∈ checkElementValue type decl text element ↔
        value ≠ fixedValue)) ∧
    (∀ (decl : AttributeDecl) (given : Attribute) element, decl.type = type →
      decl.fixed? = some fixed → given.value = text →
      (violated (.attributeNotFixed text given.name.localName element fixed) ∈
        checkAttributeValue decl given element ↔ value ≠ fixedValue)) ∧
    ((∀ b ∈ type.primitive?, b.isDecimal = false) →
      (value ≠ fixedValue ↔ type.valuesEqual value fixedValue = false)) ∧
    ((∀ b ∈ type.primitive?, b.isDecimal = true → IsAscii value.toList) →
      type.valuesEqual value fixedValue = false → value ≠ fixedValue) := by
  obtain ⟨treated, -⟩ := SimpleType.validate_eq_ok_iff.1 fixedValid
  refine ⟨fun decl element isFixed => ?_, fun decl given element isType isFixed isGiven => ?_,
    fun notDecimal => ?_, fun ascii differ same => ?_⟩
  · rw [checkElementValue_of_valid isFixed valid nonempty, treated]
    split <;> simp_all
  · subst isType isGiven
    rw [checkAttributeValue_of_valid isFixed valid, treated]
    split <;> simp_all
  · have asWritten : ¬ type.primitive?.any Builtin.isDecimal = true := by
      simpa [Option.any_eq_true] using notDecimal
    rw [← Bool.not_eq_true, SimpleType.valuesEqual_iff notFloat, SimpleType.StandsFor,
      if_neg asWritten]
    exact not_congr eq_comm
  · subst same
    have equal := (SimpleType.valuesEqual_iff notFloat).2 (SimpleType.standsFor_self valid ascii)
    exact Bool.false_ne_true (differ.symm.trans equal)

theorem shade_fixed_compared : (∀ b ∈ (SimpleType.builtin .token).primitive?, b.isFloat = false) ∧
    (SimpleType.builtin .token).validate "dark  red" = .ok "dark red" ∧
    (SimpleType.builtin .token).validate " light red" = .ok "light red" ∧ " light red" ≠ "" ∧
    (∀ b ∈ (SimpleType.builtin .token).primitive?, b.isDecimal = false) ∧
    (∀ (decl : ElementDecl) element, decl.fixed? = some "dark  red" →
      violated (.elementNotFixed "light red" element "dark  red") ∈
        checkElementValue (.builtin .token) decl " light red" element) ∧
    (∀ (decl : AttributeDecl) (given : Attribute) element, decl.type = .builtin .token →
      decl.fixed? = some "dark  red" → given.value = " light red" →
      violated (.attributeNotFixed " light red" given.name.localName element "dark  red") ∈
        checkAttributeValue decl given element) ∧
    (SimpleType.builtin .token).valuesEqual "light red" "dark red" = false := by
  have notFloat : ∀ b ∈ (SimpleType.builtin .token).primitive?, b.isFloat = false := by
    rintro b ⟨⟩
    rfl
  have notDecimal : ∀ b ∈ (SimpleType.builtin .token).primitive?, b.isDecimal = false := by
    rintro b ⟨⟩
    rfl
  obtain ⟨treated, treated', differ⟩ : WhiteSpace.collapse.apply "dark  red" = "dark red" ∧
      WhiteSpace.collapse.apply " light red" = "light red" ∧ "light red" ≠ "dark red" := by
    decide +kernel
  have fixedValid : (SimpleType.builtin .token).validate "dark  red" = .ok "dark red" :=
    SimpleType.validate_eq_ok_iff.2 ⟨treated, rfl, List.forall_mem_nil _⟩
  have valid : (SimpleType.builtin .token).validate " light red" = .ok "light red" :=
    SimpleType.validate_eq_ok_iff.2 ⟨treated', rfl, List.forall_mem_nil _⟩
  have nonempty : " light red" ≠ "" := by decide
  obtain ⟨elements, attributes, unequal, -⟩ := fixed_compared notFloat fixedValid valid nonempty
  exact ⟨notFloat, fixedValid, valid, nonempty, notDecimal,
    fun decl element isFixed => (elements decl element isFixed).2 differ,
    fun decl given element isType isFixed isGiven =>
      (attributes decl given element isType isFixed isGiven).2 differ,
    (unequal notDecimal).1 differ⟩

def ratioElement : ElementDecl where
  name := ⟨"", "ratio"⟩
  type := .named ⟨Component.schemaNamespace, "decimal"⟩
  nillable := false
  default? := none
  fixed? := some "1.0"
  isAbstract := false

def ratioAttribute : AttributeDecl where
  name := ⟨"", "ratio"⟩
  type := .builtin .decimal
  default? := none
  fixed? := some "1.0"

def givenRatio : Attribute := ⟨⟨"", "ratio"⟩, "1"⟩

/-- The number that is fixed, written in another way, is equal to the fixed value and complained
of. -/
theorem sameNumber_reported :
    (∀ b ∈ (SimpleType.builtin .decimal).primitive?, b.isFloat = false) ∧
    (SimpleType.builtin .decimal).validate "1.0" = .ok "1.0" ∧
    (SimpleType.builtin .decimal).validate "1" = .ok "1" ∧
    (SimpleType.builtin .decimal).valuesEqual "1" "1.0" = true ∧
    checkElementValue (.builtin .decimal) ratioElement "1" "a" =
      [violated (.elementNotFixed "1" "a" "1.0")] ∧
    checkAttributeValue ratioAttribute givenRatio "a" =
      [violated (.attributeNotFixed "1" "ratio" "a" "1.0")] := by
  have notFloat : ∀ b ∈ (SimpleType.builtin .decimal).primitive?, b.isFloat = false := by
    rintro b ⟨⟩
    rfl
  obtain ⟨treated, treated', equal⟩ : WhiteSpace.collapse.apply "1.0" = "1.0" ∧
      WhiteSpace.collapse.apply "1" = "1" ∧
      (SimpleType.builtin .decimal).valuesEqual "1" "1.0" = true := by decide +kernel
  have literal (fraction : Option (List Char)) (all : AllDigits (fraction.getD [])) {v : String}
      (spells : spelled none ['1'] fraction = v.toList) : Builtin.decimal.isLiteral v = true :=
    (isLiteral_iff rfl).2 ⟨⟨none, ['1'], fraction, ⟨category_of_allDigits (by decide),
      category_of_allDigits all, .inl (List.cons_ne_nil _ _)⟩, .inl rfl, spells⟩, rfl⟩
  have isOne : Builtin.decimal.isLiteral "1" = true := literal none (by decide) rfl
  have isOne' : Builtin.decimal.isLiteral "1.0" = true := literal (some ['0']) (by decide) rfl
  have fixedValid : (SimpleType.builtin .decimal).validate "1.0" = .ok "1.0" :=
    SimpleType.validate_eq_ok_iff.2 ⟨treated, isOne', List.forall_mem_nil _⟩
  have valid : (SimpleType.builtin .decimal).validate "1" = .ok "1" :=
    SimpleType.validate_eq_ok_iff.2 ⟨treated', isOne, List.forall_mem_nil _⟩
  have differ : "1" ≠ WhiteSpace.collapse.apply "1.0" := by
    rw [treated]
    decide
  have isFixed : ratioElement.fixed? = some "1.0" := rfl
  have isFixed' : ratioAttribute.fixed? = some "1.0" := rfl
  have valid' : ratioAttribute.type.validate givenRatio.value = .ok "1" := valid
  refine ⟨notFloat, fixedValid, valid, equal, ?_, ?_⟩
  · exact (checkElementValue_of_valid isFixed valid (by decide) "a").trans (if_neg differ)
  · exact (checkAttributeValue_of_valid isFixed' valid' "a").trans (if_neg differ)

end XmlSchema.Validation
