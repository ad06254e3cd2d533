import XmlSchema.Datatype.SimpleType
import XmlSchema.Proofs.Datatype.WhiteSpace

namespace XmlSchema.Datatype

namespace SimpleType

variable {t base : SimpleType} {raw value : String}

def isOfVariety (variety : Variety SimpleType) (value : String) : Bool :=
  match variety with
  | .atomic type => type.isLiteral value
  | .list item => (tokens value).all fun token => (item.validate token).isOk
  | .union members => members.any fun member => (member.validate value).isOk

def Admits (t : SimpleType) (value : String) : Prop :=
  isOfVariety t.variety value = true ∧ ∀ facet ∈ t.facets, t.passes value facet = true

theorem admittedByAny_eq_any (value : String) (members : List SimpleType) :
    admittedByAny value members = members.any fun member => (member.validate value).isOk := by
  induction members with
  | nil => simp [admittedByAny]
  | cons member members ih => simp [admittedByAny, ih]

theorem facetFault?_eq_none :
    t.facetFault? value = none ↔ ∀ facet ∈ t.facets, t.passes value facet = true := by
  simp [facetFault?]

theorem forM_eq_ok {α ε : Type} {f : α → Except ε Unit} {items : List α} :
    items.forM f = .ok () ↔ ∀ item ∈ items, f item = .ok () := by
  induction items with
  | nil => simp [List.forM, pure, Except.pure]
  | cons item items ih =>
    rw [List.forall_mem_cons, ← ih]
    change (f item >>= fun _ => items.forM f) = .ok () ↔ _
    cases f item <;> simp [bind, Except.bind]

theorem validate_eq_ok_iff :
    t.validate raw = .ok value ↔ t.whiteSpace.apply raw = value ∧ t.Admits value := by
  suffices checked : t.validate raw = .ok value ↔ isOfVariety t.variety (t.whiteSpace.apply raw) ∧
      t.facetFault? (t.whiteSpace.apply raw) = none ∧ t.whiteSpace.apply raw = value by
    rw [checked, facetFault?_eq_none]
    constructor
    · rintro ⟨ofVariety, passes, rfl⟩
      exact ⟨rfl, ofVariety, passes⟩
    · rintro ⟨rfl, ofVariety, passes⟩
      exact ⟨ofVariety, passes, rfl⟩
  -- The facets are generalized in each case, so that only the check of the variety is unfolded.
  obtain ⟨name, variety, whiteSpace, facets⟩ := t
  dsimp only
  cases variety with
  | atomic type =>
    simp only [validate, isOfVariety]
    generalize facetFault? _ (whiteSpace.apply raw) = fault
    cases type.isLiteral (whiteSpace.apply raw) <;> cases fault <;>
      simp [throw, throwThe, MonadExceptOf.throw, bind, Except.bind, pure, Except.pure]
  | list item =>
    have items : (tokens (whiteSpace.apply raw)).forM (fun token => do
        let _ ← item.validate token) = .ok () ↔
          ∀ token ∈ tokens (whiteSpace.apply raw), (item.validate token).isOk = true := by
      rw [forM_eq_ok]
      refine forall_congr' fun token => imp_congr_right fun _ => ?_
      cases item.validate token <;> simp [bind, Except.bind, pure, Except.pure, Except.isOk,
        Except.toBool]
    simp only [validate, isOfVariety, List.all_eq_true, ← items]
    generalize facetFault? _ (whiteSpace.apply raw) = fault
    generalize List.forM (m := Except ValueFault) (tokens (whiteSpace.apply raw)) _ = result
    cases result <;> cases fault <;>
      simp [throw, throwThe, MonadExceptOf.throw, bind, Except.bind, pure, Except.pure]
  | union members =>
    simp only [validate, isOfVariety, ← admittedByAny_eq_any]
    generalize facetFault? _ (whiteSpace.apply raw) = fault
    cases admittedByAny (whiteSpace.apply raw) members <;> cases fault <;>
      simp [throw, throwThe, MonadExceptOf.throw, bind, Except.bind, pure, Except.pure]

theorem validate_eq_of_apply_eq {other : String}
    (same : t.whiteSpace.apply raw = t.whiteSpace.apply other) :
    t.validate raw = t.validate other := by
  obtain ⟨name, variety, whiteSpace, facets⟩ := t
  change whiteSpace.apply raw = whiteSpace.apply other at same
  cases variety <;> simp only [validate, same]

/-- A type sees no more of a text than the text with its white space treated, and reads this one as
it stands. -/
theorem validate_treated (t : SimpleType) :
    (∀ raw value, t.validate raw = .ok value → t.validate value = .ok value) ∧
    (∀ raw other, t.whiteSpace.apply raw = t.whiteSpace.apply other →
      t.validate raw = t.validate other) ∧
    (∀ (mode : WhiteSpace) text, mode.apply (mode.apply text) = mode.apply text) ∧
    ∀ text, WhiteSpace.collapse.apply (WhiteSpace.replace.apply text) =
      WhiteSpace.collapse.apply text := by
  have idempotent (mode : WhiteSpace) (text : String) :
      mode.apply (mode.apply text) = mode.apply text := WhiteSpace.apply_apply (Nat.le_refl _) text
  refine ⟨fun raw value valid => ?_, fun raw other => validate_eq_of_apply_eq, idempotent,
    fun text => WhiteSpace.apply_absorbs (by decide) text⟩
  obtain ⟨rfl, -⟩ := validate_eq_ok_iff.1 valid
  exact (validate_eq_of_apply_eq (idempotent t.whiteSpace raw)).trans valid

def answers : SimpleType :=
  (listOf none (unionOf (some "answer") [builtin .boolean,
    (builtin .token).restrict none none [.enumeration ["unknown"]]])).restrict
      (some "answers") none [.maxLength 3]

theorem answers_validate_treated : answers.validate " true\n unknown " = .ok "true unknown" ∧
    answers.validate "true unknown" = .ok "true unknown" ∧
    answers.whiteSpace.apply " true\n unknown " = answers.whiteSpace.apply "true  unknown" ∧
    answers.validate " true\n unknown " = answers.validate "true  unknown" := by
  obtain ⟨treated, same, ofVariety, few⟩ :
      answers.whiteSpace.apply " true\n unknown " = "true unknown" ∧
      answers.whiteSpace.apply " true\n unknown " = answers.whiteSpace.apply "true  unknown" ∧
      isOfVariety answers.variety "true unknown" = true ∧
      answers.passes "true unknown" (.maxLength 3) = true := by decide +kernel
  have valid : answers.validate " true\n unknown " = .ok "true unknown" :=
    validate_eq_ok_iff.2 ⟨treated, ofVariety, List.forall_mem_singleton.2 few⟩
  obtain ⟨again, alike, -⟩ := validate_treated answers
  exact ⟨valid, again _ _ valid, same, alike _ _ same⟩

theorem variety_eq_of_primitive? {b : Builtin} (primitive : t.primitive? = some b) :
    t.variety = .atomic b := by
  unfold primitive? at primitive
  split at primitive
  · next type same => rw [same, Option.some.inj primitive]
  · cases primitive

theorem passes_of_variety (same : t.variety = base.variety) (value : String) (facet : Facet) :
    t.passes value facet = base.passes value facet := by
  obtain ⟨name, variety, whiteSpace, facets⟩ := t
  obtain ⟨baseName, _, baseWhiteSpace, baseFacets⟩ := base
  cases same
  cases facet <;> rfl

/-- One or more steps of restriction from a base to a type. -/
inductive Restricts (base : SimpleType) : SimpleType → Prop
  | once (name : Option String) (whiteSpace : Option WhiteSpace) (facets : List Facet) :
      Restricts base (base.restrict name whiteSpace facets)
  | again {t : SimpleType} (step : Restricts base t) (name : Option String)
      (whiteSpace : Option WhiteSpace) (facets : List Facet) :
      Restricts base (t.restrict name whiteSpace facets)

theorem Restricts.variety_eq (restricts : base.Restricts t) : t.variety = base.variety := by
  induction restricts with
  | once => rfl
  | again step name whiteSpace facets ih => exact ih

theorem Restricts.facets_subset (restricts : base.Restricts t) : base.facets ⊆ t.facets := by
  induction restricts with
  | once name whiteSpace facets => exact List.subset_append_left _ _
  | again step name whiteSpace facets ih => exact List.Subset.trans ih (List.subset_append_left _ _)

theorem Restricts.primitive?_eq (restricts : base.Restricts t) :
    t.primitive? = base.primitive? := by
  simp only [primitive?, restricts.variety_eq]

theorem Restricts.admits (restricts : base.Restricts t) (admits : t.Admits value) :
    base.Admits value := by
  obtain ⟨ofVariety, passes⟩ := admits
  refine ⟨restricts.variety_eq ▸ ofVariety, fun facet member => ?_⟩
  rw [← passes_of_variety restricts.variety_eq]
  exact passes facet (restricts.facets_subset member)

theorem Restricts.validate_value (restricts : base.Restricts t)
    (noMore : base.whiteSpace.strength ≤ t.whiteSpace.strength) (valid : t.validate raw = .ok value) :
    base.validate value = .ok value := by
  obtain ⟨rfl, admits⟩ := validate_eq_ok_iff.1 valid
  exact validate_eq_ok_iff.2 ⟨WhiteSpace.apply_apply noMore raw, restricts.admits admits⟩

theorem strength_restrict {name : Option String} {whiteSpace : Option WhiteSpace}
    {facets : List Facet}
    (noLess : ∀ mode ∈ whiteSpace, base.whiteSpace.strength ≤ mode.strength) :
    base.whiteSpace.strength ≤ (base.restrict name whiteSpace facets).whiteSpace.strength := by
  cases whiteSpace with
  | none => exact Nat.le_refl _
  | some mode => exact noLess mode rfl

/-- One or more steps of restriction from a base to a type, none of which does less to white space
than the type before it. -/
inductive Narrows (base : SimpleType) : SimpleType → Prop
  | once {name : Option String} {whiteSpace : Option WhiteSpace} {facets : List Facet}
      (noLess : ∀ mode ∈ whiteSpace, base.whiteSpace.strength ≤ mode.strength) :
      Narrows base (base.restrict name whiteSpace facets)
  | again {t : SimpleType} (steps : Narrows base t) {name : Option String}
      {whiteSpace : Option WhiteSpace} {facets : List Facet}
      (noLess : ∀ mode ∈ whiteSpace, t.whiteSpace.strength ≤ mode.strength) :
      Narrows base (t.restrict name whiteSpace facets)

theorem Narrows.restricts (narrows : base.Narrows t) : base.Restricts t := by
  induction narrows with
  | once _ => exact .once _ _ _
  | again steps _ ih => exact .again ih _ _ _

theorem Narrows.strength_le (narrows : base.Narrows t) :
    base.whiteSpace.strength ≤ t.whiteSpace.strength := by
  induction narrows with
  | once noLess => exact strength_restrict noLess
  | again steps noLess ih => exact Nat.le_trans ih (strength_restrict noLess)

/-- The values that a type accepts are accepted by all types that it has been restricted from. -/
theorem narrows_validate (narrows : base.Narrows t) (valid : t.validate raw = .ok value) :
    base.validate value = .ok value :=
  narrows.restricts.validate_value narrows.strength_le valid

def shortLine : SimpleType := (builtin .normalizedString).restrict (some "line") none [.maxLength 5]

def twoLetters : SimpleType := shortLine.restrict none (some .collapse) [.enumeration ["a b"]]

theorem twoLetters_narrows_validate : (builtin .normalizedString).Narrows twoLetters ∧
    twoLetters.validate " a\t b " = .ok "a b" ∧
    (builtin .normalizedString).validate "a b" = .ok "a b" := by
  have narrows : (builtin .normalizedString).Narrows twoLetters := by
    refine .again (.once fun mode isGiven => ?_) fun mode isGiven => ?_
    · cases isGiven
    · cases isGiven
      decide
  obtain ⟨treated, short, listed⟩ : twoLetters.whiteSpace.apply " a\t b " = "a b" ∧
      twoLetters.passes "a b" (.maxLength 5) = true ∧
      twoLetters.passes "a b" (.enumeration ["a b"]) = true := by decide +kernel
  have valid : twoLetters.validate " a\t b " = .ok "a b" :=
    validate_eq_ok_iff.2
      ⟨treated, rfl, List.forall_mem_cons.2 ⟨short, List.forall_mem_singleton.2 listed⟩⟩
  exact ⟨narrows, valid, narrows_validate narrows valid⟩

end SimpleType

end XmlSchema.Datatype
