import XmlSchema.Component.Grammar
import XmlSchema.Proofs.Datatype.Restriction

/-!
# Derivation of types

A simple type that restricts an atomic one is recognised as derived from it
(`isDerivedFrom_of_restricts`), and so is a complex type that base names lead from to another one in
a few steps (`isDerivedFrom_of_derives`).

What is recognised as derived need not be: types that restrict one datatype are all taken to derive
from each other. A type that does restrict another one accepts only values of it
(`SimpleType.Restricts.validate_value`), but one that merely counts as derived also accepts the
values on which only the facets of the base tell the two apart (`validate_iff_of_isDerivedFrom`).
-/

namespace XmlSchema.Component

open Datatype

/-- The simple type of the text of elements of a type, if this text is a single value. -/
def TypeDefinition.valueType? {δ : Type} : TypeDefinition δ → Option SimpleType
  | .simple t => some t
  | .anyType => none
  | .complex c =>
    match c.content with
    | .simple t => some t
    | _ => none

namespace Pool

/-! ## Chains of base names -/

/-- How many base names lead from a type to one that it derives from. -/
inductive Derives (pool : Pool) : Nat → TypeDefinition ElementDecl → TypeDefinition ElementDecl → Prop
  | self (type : TypeDefinition ElementDecl) : Derives pool 0 type type
  | step {n : Nat} {type parent base : TypeDefinition ElementDecl} {t : ComplexType ElementDecl}
      {name : QName} {derivation : Derivation} (isComplex : type.complex? = some t)
      (up : t.base = some (name, derivation)) (found : pool.type? name = some parent)
      (further : Derives pool n parent base) : Derives pool (n + 1) type base

variable {pool : Pool} {n : Nat} {derived base : TypeDefinition ElementDecl}

theorem Derives.isSome_complex? (derives : pool.Derives n derived base)
    (isComplex : base.complex?.isSome) : derived.complex?.isSome := by
  cases derives with
  | self => exact isComplex
  | step known up found further =>
    rw [known]
    rfl

theorem Derives.of_anyType (derives : pool.Derives n .anyType base) : base = .anyType := by
  cases derives with
  | self => rfl
  | step known up found further =>
    cases known
    cases up

theorem derivesFrom_of_derives {t b : ComplexType ElementDecl} {fuel : Nat}
    (derives : pool.Derives n derived base) (isDerived : derived.complex? = some t)
    (isBase : base.complex? = some b) (enough : n < fuel) : pool.derivesFrom b fuel t = true := by
  induction derives generalizing fuel t with
  | self type =>
    cases fuel with
    | zero => cases enough
    | succ fuel =>
      cases isDerived.symm.trans isBase
      simp [derivesFrom]
  | step isComplex up found further ih =>
    cases fuel with
    | zero => cases enough
    | succ fuel =>
      have same := Option.some.inj (isDerived.symm.trans isComplex)
      subst same
      obtain ⟨parent, isParent⟩ := Option.isSome_iff_exists.1 <|
        further.isSome_complex? (Option.isSome_of_eq_some isBase)
      have reached := ih isParent isBase (Nat.lt_of_succ_lt_succ enough)
      have above : pool.baseOf? t = some parent := by simp [baseOf?, up, found, isParent]
      simp [derivesFrom, above, reached]

theorem isDerivedFrom_of_derives (isComplex : base.complex?.isSome) (few : n < maxDerivations)
    (derives : pool.Derives n derived base) : pool.isDerivedFrom derived base = true := by
  cases base with
  | simple => cases isComplex
  | anyType => cases derived <;> rfl
  | complex b =>
    cases derived with
    | simple => cases derives.isSome_complex? rfl
    | anyType => cases derives.of_anyType
    | complex t => exact derivesFrom_of_derives derives rfl rfl few

theorem isDerivedFrom_of_restricts {base t : SimpleType} (atomic : base.primitive?.isSome)
    (restricts : base.Restricts t) : pool.isDerivedFrom (.simple t) (.simple base) = true := by
  have same := restricts.primitive?_eq
  simp [isDerivedFrom, same, atomic]

/-! ## A ladder of types -/

def rungName (n : Nat) : String := String.ofList (List.replicate (n + 1) 't')

def rung (n : Nat) : ComplexType ElementDecl where
  key := .defined ⟨"", "", n⟩
  name := some ⟨"", rungName n⟩
  base := if n = 0 then none else some (⟨"", rungName (n - 1)⟩, .extension)
  isAbstract := false
  particle := none
  mixed := false
  content := .empty
  attributes := []
  attributeWildcard := none
  violations := []

def rungs : Nat → List (String × TypeDefinition ElementDecl)
  | 0 => []
  | n + 1 => (rungName n, .complex (rung n)) :: rungs n

def ladder (height : Nat) : Pool :=
  { grammars := [{ target := "", systemIds := [], types := { entries := rungs height } }] }

theorem lookup_rungs {n height : Nat} (below : n < height) :
    (rungs height).lookup (rungName n) = some (.complex (rung n)) := by
  induction height with
  | zero => cases below
  | succ height ih =>
    by_cases top : n = height
    · subst top
      simp [rungs]
    · have other : (rungName n == rungName height) = false := by
        simp [rungName, String.ofList_inj, List.replicate_inj, top]
      have found := ih (Nat.lt_of_le_of_ne (Nat.le_of_lt_succ below) top)
      simp only [rungs, List.lookup_cons, other, found]

theorem type?_ladder {n height : Nat} (below : n < height) :
    (ladder height).type? ⟨"", rungName n⟩ = some (.complex (rung n)) := by
  have found := lookup_rungs below
  simp [type?, grammar?, ladder, Table.get?, found, schemaNamespace]

theorem derives_rung {n height : Nat} (below : n < height + 1) :
    (ladder height).Derives n (.complex (rung n)) (.complex (rung 0)) := by
  induction n with
  | zero => exact .self _
  | succ n ih =>
    exact .step rfl rfl (type?_ladder (Nat.lt_of_succ_lt_succ below)) (ih (Nat.lt_of_succ_lt below))

def shortCode : SimpleType :=
  ((SimpleType.builtin .string).restrict (some "text") none []).restrict (some "code") none
    [.maxLength 3]

theorem shortCode_restricts : (SimpleType.builtin .string).Restricts shortCode :=
  .again (.once _ _ _) _ _ _

/-- Derivation is recognised of the simple types that restrict an atomic one, and of the complex
types from which fewer than `maxDerivations` base names lead to another one. -/
theorem isDerivedFrom_of_derivation :
    (∀ (pool : Pool) (base t : SimpleType), base.primitive?.isSome → base.Restricts t →
      pool.isDerivedFrom (.simple t) (.simple base) = true) ∧
    ∀ (pool : Pool) n derived base, base.complex?.isSome → n < maxDerivations →
      pool.Derives n derived base → pool.isDerivedFrom derived base = true :=
  ⟨fun _ _ _ => isDerivedFrom_of_restricts, fun _ _ _ _ => isDerivedFrom_of_derives⟩

def nameless : ComplexType ElementDecl := { rung 0 with name := none }

theorem isDerivedFrom_ladder :
    (ladder 65).isDerivedFrom (.simple shortCode) (.simple (.builtin .string)) = true ∧
    (ladder 65).isDerivedFrom (.complex (rung 64)) (.complex (rung 0)) = true ∧
    (ladder 65).isDerivedFrom (.complex nameless) (.complex nameless) = true := by
  obtain ⟨restrictions, chains⟩ := isDerivedFrom_of_derivation
  exact ⟨restrictions _ _ _ rfl shortCode_restricts,
    chains _ 64 _ _ rfl (by decide) (derives_rung (by decide)),
    chains _ 0 _ _ rfl (by decide) (.self _)⟩

/-- A restriction of a list or of a union is not recognised, nor is a type that 65 base names lead
up from. -/
theorem not_isDerivedFrom_of_derivation :
    (∃ base t : SimpleType, (∃ item, base.variety = .list item) ∧ base.Restricts t ∧
      (ladder 66).isDerivedFrom (.simple t) (.simple base) = false) ∧
    (∃ base t : SimpleType, (∃ members, base.variety = .union members) ∧ base.Restricts t ∧
      (ladder 66).isDerivedFrom (.simple t) (.simple base) = false) ∧
    ∃ derived base, base.complex?.isSome ∧ (ladder 66).Derives 65 derived base ∧
      (ladder 66).isDerivedFrom derived base = false := by
  refine ⟨⟨.listOf (some "codes") shortCode, _, ⟨_, rfl⟩, .once (some "fewCodes") none [.maxLength 2],
    rfl⟩, ⟨.unionOf (some "either") [shortCode], _, ⟨_, rfl⟩, .once (some "one") none [.length 1],
    rfl⟩, .complex (rung 65), .complex (rung 0), rfl, derives_rung (by decide), by decide +kernel⟩

/-! ## Derived types and their values -/

def Weakens (pool : Pool) (derived : TypeDefinition ElementDecl) (base : SimpleType) (raw : String) :
    Prop :=
  pool.isDerivedFrom derived (.simple base) = true ∧
    ∃ t, derived.valueType? = some t ∧ (t.validate raw).isOk = true ∧ (base.validate raw).isOk = false

theorem primitive?_of_isDerivedFrom {derived : TypeDefinition ElementDecl} {base t : SimpleType}
    (accepted : pool.isDerivedFrom derived (.simple base) = true) (values : derived.valueType? = some t)
    (told : ∀ s, derived = .simple s → s.name.isSome → s.name = base.name → s = base) :
    base.primitive? = some .anySimpleType ∨ t.primitive? = base.primitive? := by
  cases derived with
  | anyType => cases values
  | simple s =>
    cases values
    simp only [isDerivedFrom, Bool.or_eq_true, Bool.and_eq_true, beq_iff_eq] at accepted
    rcases accepted with (any | ⟨named, same⟩) | ⟨_, same⟩
    · exact .inl any
    · rw [told t rfl named same]
      exact .inr rfl
    · exact .inr same
  | complex c =>
    simp only [isDerivedFrom] at accepted
    simp only [TypeDefinition.valueType?] at values
    cases content : c.content with
    | simple s =>
      rw [content] at accepted values
      cases values
      exact .inr (by simpa using accepted)
    | empty | elementOnly | mixed =>
      rw [content] at values
      cases values

theorem isOfVariety_of_primitive? {base t : SimpleType} {value : String}
    (atomic : base.primitive?.isSome)
    (related : base.primitive? = some .anySimpleType ∨ t.primitive? = base.primitive?)
    (ofVariety : SimpleType.isOfVariety t.variety value = true) :
    SimpleType.isOfVariety base.variety value = true := by
  simp only [SimpleType.primitive?] at atomic related
  split at atomic
  · next type isAtomic =>
    rw [isAtomic] at related ⊢
    rcases related with any | same
    · cases any
      rfl
    · split at same
      · next isAtomic => rwa [isAtomic, Option.some.inj same] at ofVariety
      · cases same
  · cases atomic

/-- A value of a type that counts as derived from an atomic one is a value of the atomic type if it
passes the facets of this type, as it does if the one type restricts the other. Its text is one as
well, where both types treat white space in one way. -/
theorem validate_iff_of_isDerivedFrom {derived : TypeDefinition ElementDecl} {base t : SimpleType}
    {raw value : String} (accepted : pool.isDerivedFrom derived (.simple base) = true)
    (values : derived.valueType? = some t) (atomic : base.primitive?.isSome)
    (told : ∀ s, derived = .simple s → s.name.isSome → s.name = base.name → s = base)
    (noMore : base.whiteSpace.strength ≤ t.whiteSpace.strength) (valid : t.validate raw = .ok value) :
    (base.validate value = .ok value ↔ ∀ facet ∈ base.facets, base.passes value facet = true) ∧
    (base.Restricts t → base.validate value = .ok value) ∧
    (t.whiteSpace = base.whiteSpace →
      (base.validate raw = .ok value ↔ base.validate value = .ok value)) := by
  have related := primitive?_of_isDerivedFrom accepted values told
  obtain ⟨treated, admits⟩ := SimpleType.validate_eq_ok_iff.1 valid
  have again : base.whiteSpace.apply value = value := by
    rw [← treated, WhiteSpace.apply_apply noMore]
  have ofVariety := isOfVariety_of_primitive? atomic related admits.1
  refine ⟨?_, fun restricts => restricts.validate_value noMore valid, fun same => ?_⟩
  · rw [SimpleType.validate_eq_ok_iff]
    exact ⟨fun ⟨_, admits⟩ => admits.2, fun passes => ⟨again, ofVariety, passes⟩⟩
  · rw [SimpleType.validate_eq_ok_iff, SimpleType.validate_eq_ok_iff, ← same, treated, same, again]

def pairCode : SimpleType := shortCode.restrict (some "pair") none [.length 2]

theorem pairCode_validate : pairCode.validate "ab" = .ok "ab" :=
  SimpleType.validate_eq_ok_iff.2 ⟨by decide, by decide, by decide⟩

theorem shortCode_validate_of_pairCode : shortCode.validate "ab" = .ok "ab" := by
  have accepted : (ladder 0).isDerivedFrom (.simple pairCode) (.simple shortCode) = true := by
    decide
  have told : ∀ s, TypeDefinition.simple (δ := ElementDecl) pairCode = .simple s → s.name.isSome →
      s.name = shortCode.name → s = shortCode := by
    rintro _ ⟨⟩ _ same
    exact absurd same (by decide)
  obtain ⟨-, kept, -⟩ :=
    validate_iff_of_isDerivedFrom accepted rfl rfl told (by decide) pairCode_validate
  exact kept (.once _ _ _)

/-- A type that counts as derived from another one accepts texts that the other one refuses: a type
of the same datatype, one of the same local name, any one where the base is a restriction of the type
of all values, and a complex type whose text is a list where the base is a union. -/
theorem isDerivedFrom_weakens :
    (ladder 0).Weakens (.simple (.builtin .string)) shortCode "abcd" ∧
    (ladder 0).Weakens (.simple ((SimpleType.builtin .boolean).restrict (some "code") none []))
      shortCode "true" ∧
    (ladder 0).Weakens (.simple (.builtin .string))
      ((SimpleType.builtin .anySimpleType).restrict (some "on") none [.enumeration ["on"]]) "off" ∧
    (ladder 0).Weakens
      (.complex { rung 0 with content := .simple (.listOf none (.builtin .string)) })
      (.unionOf none [.builtin .boolean]) "a b" := by
  refine ⟨⟨?_, _, rfl, ?_, ?_⟩, ⟨?_, _, rfl, ?_, ?_⟩, ⟨?_, _, rfl, ?_, ?_⟩, ?_, _, rfl, ?_, ?_⟩
  all_goals decide

end Pool

end XmlSchema.Component
