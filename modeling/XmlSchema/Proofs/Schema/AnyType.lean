import XmlSchema.Proofs.Schema.Depth
import XmlSchema.Proofs.Schema.Memory
import XmlSchema.Proofs.Validation.Judgement

namespace XmlSchema.Validation

open Component

variable {t t' : ComplexType ElementDecl}

theorem allowsAttribute_congr (attributes : t.attributes = t'.attributes)
    (wildcard : t.attributeWildcard = t'.attributeWildcard) (pool : Pool) :
    allowsAttribute pool t = allowsAttribute pool t' := by
  funext given
  simp only [allowsAttribute, ComplexType.attribute?, attributes, wildcard]

theorem acceptsAttributes_congr (attributes : t.attributes = t'.attributes)
    (wildcard : t.attributeWildcard = t'.attributeWildcard) (pool : Pool) (tag : Instance.StartTag) :
    acceptsAttributes pool tag (.complex t) = acceptsAttributes pool tag (.complex t') := by
  simp only [acceptsAttributes, acceptsAttributes.ofComplex, attributes,
    allowsAttribute_congr attributes wildcard]

theorem contentDemands_congr (content : t.content = t'.content) (decl : ElementDecl) :
    contentDemands decl (.complex t) = contentDemands decl (.complex t') := by
  simp only [contentDemands, complexDemands, content]

end XmlSchema.Validation

namespace XmlSchema.Schema

open Component
open ContentModel (Particle)
open Xml (Element)
open Compile

namespace Definition

variable {names : Names} {d : Document} {e e' step : Element} {body : List Element} {mixed : Bool}
  {depth : Nat} {name : Option QName} {t t' : ComplexType ElementDecl}

def attributeStep (names : Names) (d : Document) (child : Element) :
    Compile (AttributeSet → AttributeSet) :=
  match child.name.localName with
  | "attribute" => do
    let decl ← attributeUse names d child
    let usage := child.attribute? "use"
    pure fun set => if usage == some "prohibited" then set.erase decl.name
      else set.upsert { decl, required := usage == some "required" }
  | "attributeGroup" => do
    let group ← names.attributeGroup d child (← reference d child "ref")
    pure fun set => set.addGroup group
  | "anyAttribute" => do
    let w ← wildcard d child
    pure fun set => { set with wildcard := some w }
  | _ => pure id

theorem attributesFrom_cons (child : Element) (set : AttributeSet) :
    attributesFrom names d (child :: body) set =
      attributeStep names d child >>= fun step => attributesFrom names d body (step set) := by
  unfold attributeStep
  rw [attributesFrom]
  generalize child.name.localName = kind
  split <;> simp only [bind_assoc, pure_bind, id]

theorem stateless_attributesFrom (stateless : names.Stateless) (set : AttributeSet) :
    (attributesFrom names d body set).Stateless :=
  (uniform_attributesFrom d body set).stateless stateless

theorem uniform_attributeStep (d : Document) (child : Element) :
    Uniform True fun names => attributeStep names d child := by
  unfold attributeStep
  split
  · exact .bind (uniform_attributeUse _ _) fun _ => .pure _
  · exact .bind (uniform_reference _ _ _) fun _ => .bind (.attributeGroup _ _ _) fun _ => .pure _
  · exact .bind (uniform_wildcard _ _) fun _ => .pure _
  · exact .pure _

theorem gives_attributesFrom_cons (stateless : names.Stateless) {child : Element}
    {set added : AttributeSet} :
    (attributesFrom names d (child :: body) set).Gives added ↔
      ∃ step, (attributeStep names d child).Gives step ∧
        (attributesFrom names d body (step set)).Gives added := by
  rw [attributesFrom_cons]
  exact ((uniform_attributeStep d child).stateless stateless).gives_bind_iff fun _ =>
    stateless_attributesFrom stateless _

def isWildcard (child : Element) : Bool := child.name.localName == "anyAttribute"

structure AddsTo (replaces : Bool) (step : AttributeSet → AttributeSet) : Prop where
  uses : ∀ set set', set.uses = set'.uses → (step set).uses = (step set').uses
  replaced : replaces = true → ∃ w, ∀ set, (step set).wildcard = some w
  kept : replaces = false → ∀ set w, set.wildcard = some w → (step set).wildcard = some w

theorem addsTo_upsert (use : AttributeUse) : AddsTo false fun set => set.upsert use where
  uses set set' same := by simp [AttributeSet.upsert, same]
  replaced isReplaced := nomatch isReplaced
  kept _ _ _ found := found

theorem addsTo_erase (name : QName) : AddsTo false fun set => set.erase name where
  uses set set' same := by simp [AttributeSet.erase, same]
  replaced isReplaced := nomatch isReplaced
  kept _ _ _ found := found

theorem uses_foldl_upsert (uses : List AttributeUse) {set set' : AttributeSet}
    (same : set.uses = set'.uses) :
    (uses.foldl AttributeSet.upsert set).uses = (uses.foldl AttributeSet.upsert set').uses := by
  induction uses generalizing set set' with
  | nil => exact same
  | cons use uses ih => exact ih ((addsTo_upsert use).uses set set' same)

theorem addsTo_addGroup (group : AttributeGroup) : AddsTo false fun set => set.addGroup group where
  uses _ _ same := uses_foldl_upsert _ same
  replaced isReplaced := nomatch isReplaced
  kept _ set w found := by simp [AttributeSet.addGroup, found]

theorem addsTo_wildcard (w : Wildcard) :
    AddsTo true fun set => { set with wildcard := some w } where
  uses _ _ same := same
  replaced _ := ⟨w, fun _ => rfl⟩
  kept isKept := nomatch isKept

theorem addsTo_id : AddsTo false id where
  uses _ _ same := same
  replaced isReplaced := nomatch isReplaced
  kept _ _ _ found := found

theorem addsTo_use (prohibited : Bool) (use : AttributeUse) :
    AddsTo false fun set => if prohibited then set.erase use.decl.name else set.upsert use := by
  cases prohibited with
  | true => exact addsTo_erase _
  | false => exact addsTo_upsert _

theorem yields_attributeStep (child : Element) :
    Yields (fun _ => True) (attributeStep names d child) (AddsTo (isWildcard child)) := by
  unfold attributeStep isWildcard
  generalize child.name.localName = kind
  split
  · exact (yields_trivial _).bind fun _ _ => yields_pure (addsTo_use _ ⟨_, _⟩)
  · exact (yields_trivial _).bind fun _ _ => (yields_trivial _).bind fun _ _ =>
      yields_pure (addsTo_addGroup _)
  · exact (yields_trivial _).bind fun _ _ => yields_pure (addsTo_wildcard _)
  · next notWildcard =>
    have keeps : (kind == "anyAttribute") = false := by simpa using notWildcard
    rw [keeps]
    exact yields_pure addsTo_id

theorem attributesFrom_of_wildcard (stateless : names.Stateless) {w : Wildcard}
    {set set' added added' : AttributeSet} (uses : set.uses = set'.uses)
    (wildcard : set.wildcard = some w) (gives : (attributesFrom names d body set).Gives added)
    (gives' : (attributesFrom names d body set').Gives added') :
    added.uses = added'.uses ∧
      added.wildcard = if body.any isWildcard then added'.wildcard else some w := by
  induction body generalizing set set' w with
  | nil =>
    obtain rfl := gives_pure.1 gives
    obtain rfl := gives_pure.1 gives'
    exact ⟨uses, wildcard⟩
  | cons child body ih =>
    obtain ⟨step, givesStep, givesRest⟩ := (gives_attributesFrom_cons stateless).1 gives
    obtain ⟨step', givesStep', givesRest'⟩ := (gives_attributesFrom_cons stateless).1 gives'
    obtain rfl := givesStep.unique givesStep'
    obtain ⟨_, ran⟩ := givesStep.run {}
    obtain ⟨_, adds⟩ := yields_attributeStep child _ _ _ trivial ran
    have sameUses := adds.uses set set' uses
    cases replaces : isWildcard child with
    | true =>
      -- From here on the wildcards are the same, and so is all that is added.
      rw [replaces] at adds
      obtain ⟨v, replaced⟩ := adds.replaced rfl
      have same : step set = step set' := by
        cases h : step set
        cases h' : step set'
        have r := replaced set
        have r' := replaced set'
        simp_all
      rw [same] at givesRest
      obtain rfl := givesRest.unique givesRest'
      simp [replaces]
    | false =>
      rw [replaces] at adds
      simpa [replaces] using ih sameUses (adds.kept rfl set w wildcard) givesRest givesRest'

structure HasBody (e : Element) (mixed : Bool) (body : List Element) : Prop where
  noSimpleContent : schemaChild? e "simpleContent" = none
  noComplexContent : schemaChild? e "complexContent" = none
  mixed : isTrue e "mixed" = mixed
  children : schemaChildren e = body

/-- A complex type is a restriction of the type of any content around a body. -/
structure RestrictsAnyType (d : Document) (e : Element) (mixed : Bool) (body : List Element) : Prop where
  noSimpleContent : schemaChild? e "simpleContent" = none
  around : ∃ content step, schemaChild? e "complexContent" = some content ∧
    derivation? content = some (step, .restriction) ∧
    (reference d step "base").Gives ⟨schemaNamespace, "anyType"⟩ ∧
    (if (content.attribute? "mixed").isSome then isTrue content "mixed" else isTrue e "mixed") = mixed ∧
    schemaChildren step = body

def ownParticle (names : Names) (d : Document) (depth : Nat) (e : Element) :
    Compile (Option (Particle ElementDecl)) :=
  match contentChild? e with
  | some child => particle names d depth child
  | none => pure none

theorem stateless_ownParticle (stateless : names.Stateless) :
    (ownParticle names d depth e).Stateless := by
  unfold ownParticle
  split
  · exact (uniform_particle d depth _).stateless stateless
  · exact stateless_pure _

theorem ownParticle_eq {depth' : Nat} (same : schemaChildren e = schemaChildren e')
    (deep : 2 * e.height ≤ depth + 1) (deep' : 2 * e'.height ≤ depth' + 1) :
    ownParticle names d depth e = ownParticle names d depth' e' := by
  have sameChild : contentChild? e = contentChild? e' := by rw [contentChild?, contentChild?, same]
  unfold ownParticle
  rw [← sameChild]
  split
  · next child found =>
    have less := height_lt_of_contentChild? found
    rw [sameChild] at found
    have less' := height_lt_of_contentChild? found
    exact particle_eq_of_deep names d depth depth' child (by omega) (by omega)
  · rfl

def contentOf? (mixed : Bool) : Option (Particle ElementDecl) → Option (ContentType ElementDecl)
  | none => some (if mixed then .mixed .empty else .empty)
  | some p => (ContentModel.build p).toOption.map fun model =>
    if mixed then .mixed model else .elementOnly model

theorem contentType_eq_ok {typeName : String} {b : Body} {st after : CompilerState}
    {result : ContentType ElementDecl × List ContentModel.Violation}
    (ran : (contentType d e typeName b).run st = (.ok result, after)) :
    contentOf? b.mixed b.particle = some result.1 := by
  unfold contentType at ran
  cases found : b.particle with
  | none =>
    rw [found] at ran
    cases ran
    rfl
  | some particle =>
    rw [found] at ran
    cases built : ContentModel.build particle with
    | error fault => cases fault <;> simp only [built] at ran <;> cases ran
    | ok model =>
      simp only [built] at ran
      cases ran
      simp [contentOf?, built, Except.toOption]

theorem ofBody_eq_ok {typeName : String} {b : Body} {st after : CompilerState}
    (notSimple : b.simple = none) (ran : (ofBody d e name typeName b).run st = (.ok t, after)) :
    contentOf? b.mixed b.particle = some t.content ∧ t.attributes = b.attributes.uses ∧
      t.attributeWildcard = b.attributes.wildcard := by
  unfold ofBody at ran
  rw [notSimple] at ran
  obtain ⟨⟨content, violations⟩, _, ranContent, ran⟩ := run_bind_eq_ok ran
  cases ran
  exact ⟨contentType_eq_ok ranContent, rfl, rfl⟩

def Comes (names : Names) (d : Document) (depth : Nat) (e : Element) (mixed : Bool)
    (start : AttributeSet) (t : ComplexType ElementDecl) : Prop :=
  ∃ own set, (ownParticle names d depth e).Gives own ∧ (attributes names d e start).Gives set ∧
    contentOf? mixed own = some t.content ∧ t.attributes = set.uses ∧
      t.attributeWildcard = set.wildcard

theorem HasBody.complexType_eq (plain : HasBody e mixed body) :
    complexType names d (depth + 1) e name = (do
      let particle ← ownParticle names d depth e
      let attributes ← attributes names d e {}
      ofBody d e name ((name.map (·.localName)).getD Datatype.anonymousName)
        { mixed, particle, attributes }) := by
  simp only [complexType, plain.noSimpleContent, plain.noComplexContent, plain.mixed, ownParticle]
  cases contentChild? e <;> simp only [pure_bind]

theorem HasBody.comes (stateless : names.Stateless) (plain : HasBody e mixed body)
    (gives : (complexType names d (depth + 1) e name).Gives t) :
    Comes names d depth e mixed {} t := by
  obtain ⟨_, ran⟩ := gives.run {}
  rw [plain.complexType_eq] at ran
  obtain ⟨own, _, ranOwn, ran⟩ := run_bind_eq_ok ran
  obtain ⟨set, _, ranSet, ran⟩ := run_bind_eq_ok ran
  obtain ⟨content, attributes, wildcard⟩ := ofBody_eq_ok rfl ran
  exact ⟨own, set, (stateless_ownParticle stateless).gives_of_run ranOwn,
    ((uniform_attributes d e _).stateless stateless).gives_of_run ranSet, content, attributes, wildcard⟩

theorem RestrictsAnyType.complexType_eq (restricts : RestrictsAnyType d e mixed body) :
    ∃ step, schemaChildren step = body ∧ step.height < e.height ∧
      (reference d step "base").Gives ⟨schemaNamespace, "anyType"⟩ ∧
      complexType names d (depth + 1) e name = (do
        let base ← reference d step "base"
        let baseType ← names.complexType d step base
        let particle ← ownParticle names d depth step
        let attributes ← attributes names d step (.inherited baseType)
        let base ← Compile.internName base
        ofBody d e name ((name.map (·.localName)).getD Datatype.anonymousName)
          { base := some (base, .restriction), mixed, particle, attributes,
            restricted := some baseType }) := by
  obtain ⟨noSimple, content, step, complex, derives, base, isMixed, children⟩ := restricts
  have below := height_lt_of_schemaChild? complex
  have belowContent := height_lt_of_derivation? derives
  refine ⟨step, children, by omega, base, ?_⟩
  simp only [complexType, noSimple, complex, derives, isMixed, ownParticle]
  cases contentChild? step <;> simp only [pure_bind]

theorem RestrictsAnyType.comes (stateless : names.Stateless)
    (settled : ∀ d e, (names.complexType d e ⟨schemaNamespace, "anyType"⟩).Gives .anyType)
    (restricts : RestrictsAnyType d e mixed body)
    (gives : (complexType names d (depth + 1) e name).Gives t) :
    ∃ step, schemaChildren step = body ∧ step.height < e.height ∧
      Comes names d depth step mixed (.inherited (.anyType : ComplexType ElementDecl)) t := by
  obtain ⟨step, children, below, base, equal⟩ :=
    @RestrictsAnyType.complexType_eq names d e body mixed depth name restricts
  refine ⟨step, children, below, ?_⟩
  obtain ⟨_, ran⟩ := gives.run {}
  rw [equal] at ran
  obtain ⟨_, _, ranBase, ran⟩ := run_bind_eq_ok ran
  have statelessBase := (uniform_reference d step "base").stateless stateless
  obtain rfl := base.unique (statelessBase.gives_of_run ranBase)
  obtain ⟨_, _, ranType, ran⟩ := run_bind_eq_ok ran
  have statelessType := stateless (.complexType d step ⟨schemaNamespace, "anyType"⟩)
  obtain rfl := (settled d step).unique (statelessType.gives_of_run ranType)
  obtain ⟨own, _, ranOwn, ran⟩ := run_bind_eq_ok ran
  obtain ⟨set, _, ranSet, ran⟩ := run_bind_eq_ok ran
  obtain ⟨_, _, _, ran⟩ := run_bind_eq_ok ran
  obtain ⟨content, attributes, wildcard⟩ := ofBody_eq_ok rfl ran
  exact ⟨own, set, (stateless_ownParticle stateless).gives_of_run ranOwn,
    ((uniform_attributes d step _).stateless stateless).gives_of_run ranSet, content, attributes,
    wildcard⟩

end Definition

namespace CompilationUnit

open Definition hiding complexType attributeDecl
open Validation (acceptsAttributes acceptsAttributes_congr contentDemands contentDemands_congr)

variable {unit : CompilationUnit} {nesting nesting' : Nat} {inProgress inProgress' : List ComponentKey}
  {d : Document} {e e' : Element} {mixed : Bool} {body : List Element} {depth depth' : Nat}
  {name name' : Option QName} {t t' : ComplexType ElementDecl} {st st' after after' : CompilerState}

theorem gives_anyType (n : Nat) (d : Document) (e : Element) :
    ((unit.plain (n + 1)).complexType d e ⟨schemaNamespace, "anyType"⟩).Gives .anyType := by
  change ((unit.plain (n + 1)).ask (.complexType d e ⟨schemaNamespace, "anyType"⟩)).Gives _
  rw [ask_plain]
  exact gives_pure.2 rfl

theorem gives_of_run_complexType (faithful : st.Faithful unit)
    (ran : (Definition.complexType (unit.namesWithin nesting inProgress) d depth e name).run st = (.ok t, after)) :
    ∃ n, (Definition.complexType (unit.plain n) d depth e name).Gives t :=
  (yields_of_uniform (uniform_complexType d depth e name) (yields_namesWithin nesting inProgress)
    st t after faithful ran).2

/-- The two spellings of a body: a restriction of the type of any content, and a type with the body
directly inside. What they come to differs in the wildcard for attributes alone, and not even there
if the body has one. -/
theorem restriction_of_anyType (restricts : RestrictsAnyType d e mixed body)
    (plain : HasBody e' mixed body) (deep : 2 * e.height ≤ depth) (deep' : 2 * e'.height ≤ depth')
    (faithful : st.Faithful unit) (faithful' : st'.Faithful unit)
    (ran : (Definition.complexType (unit.namesWithin nesting inProgress) d depth e name).run st = (.ok t, after))
    (ran' : (Definition.complexType (unit.namesWithin nesting' inProgress') d depth' e' name').run st' =
      (.ok t', after')) :
    t.content = t'.content ∧ t.attributes = t'.attributes ∧
      t.attributeWildcard =
        (if body.any isWildcard then t'.attributeWildcard else some ComplexType.anyWildcard) ∧
      (body.any isWildcard = true → ∀ pool tag decl,
        acceptsAttributes pool tag (.complex t) =
          acceptsAttributes pool tag (.complex t') ∧
        contentDemands decl (.complex t) = contentDemands decl (.complex t')) := by
  obtain ⟨n, gives⟩ := gives_of_run_complexType faithful ran
  obtain ⟨n', gives'⟩ := gives_of_run_complexType faithful' ran'
  have same : t.content = t'.content ∧ t.attributes = t'.attributes ∧ t.attributeWildcard =
      if body.any isWildcard then t'.attributeWildcard else some ComplexType.anyWildcard := by
    -- Both are compiled with the same names, deep enough for either.
    let m := max n n' + 1
    have stateless : (unit.plain m).Stateless := stateless_plain m
    replace gives := gives_mono_of_uniform (uniform_complexType _ _ _ _) (by omega : n ≤ m) gives
    replace gives' := gives_mono_of_uniform (uniform_complexType _ _ _ _) (by omega : n' ≤ m) gives'
    have positive := e.height_eq
    have positive' := e'.height_eq
    obtain ⟨depth, rfl⟩ : ∃ k, depth = k + 1 := ⟨depth - 1, by omega⟩
    obtain ⟨depth', rfl⟩ : ∃ k, depth' = k + 1 := ⟨depth' - 1, by omega⟩
    obtain ⟨step, children, below, own, set, givesOwn, givesSet, content, attributes, wildcard⟩ :=
      restricts.comes stateless (gives_anyType _) gives
    obtain ⟨own', set', givesOwn', givesSet', content', attributes', wildcard'⟩ :=
      plain.comes stateless gives'
    have sameChildren : schemaChildren step = schemaChildren e' := children.trans plain.children.symm
    rw [@ownParticle_eq _ d step e' depth depth' sameChildren (by omega) (by omega)] at givesOwn
    obtain rfl := givesOwn.unique givesOwn'
    unfold Definition.attributes at givesSet givesSet'
    rw [children] at givesSet
    rw [plain.children] at givesSet'
    have none : (AttributeSet.inherited (.anyType : ComplexType ElementDecl)).uses =
        ({} : AttributeSet).uses := rfl
    obtain ⟨sameUses, sameWildcard⟩ := attributesFrom_of_wildcard stateless none rfl givesSet givesSet'
    refine ⟨Option.some.inj (content.symm.trans content'), ?_, ?_⟩
    · rw [attributes, attributes', sameUses]
    · rw [wildcard, wildcard', sameWildcard]
  obtain ⟨content, attributes, wildcard⟩ := same
  refine ⟨content, attributes, wildcard, fun hasWildcard pool tag decl => ?_⟩
  rw [hasWildcard, if_pos rfl] at wildcard
  exact ⟨acceptsAttributes_congr attributes wildcard pool tag, contentDemands_congr content decl⟩

def schemaElement (name : String) (attributes : List (String × String)) (children : List Element) :
    Element where
  name := ⟨some schemaNamespace, name⟩
  attributes := attributes.map fun (name, value) => ⟨⟨none, name⟩, value⟩
  bindings := [⟨some "s", schemaNamespace⟩]
  line := 1
  position := 0
  children

def directSpelling (body : List Element) : Element := schemaElement "complexType" [] body

def restrictionSpelling (body : List Element) : Element :=
  schemaElement "complexType" [] [schemaElement "complexContent" []
    [schemaElement "restriction" [("base", "s:anyType")] body]]

def emptyDocument : Document where
  systemId := "empty.xsd"
  source := "empty.xsd"
  root := schemaElement "schema" [] []
  target := ""
  adopted := false
  elementsQualified := false
  attributesQualified := false

def notesBody : List Element :=
  [schemaElement "sequence" [] [schemaElement "element"
      [("name", "note"), ("type", "s:string"), ("maxOccurs", "unbounded")] []],
    schemaElement "attribute" [("name", "lang"), ("type", "s:language")] [],
    schemaElement "anyAttribute" [("namespace", "urn:n")] []]

theorem reference_anyType (body : List Element) :
    reference emptyDocument (schemaElement "restriction" [("base", "s:anyType")] body) "base" =
      pure ⟨schemaNamespace, "anyType"⟩ := by
  have given : (schemaElement "restriction" [("base", "s:anyType")] body).attribute? "base" =
      some "s:anyType" := by simp [schemaElement, Element.attribute?]
  have bound : (schemaElement "restriction" [("base", "s:anyType")] body).namespaceOf? (some "s") =
      some schemaNamespace := by simp [schemaElement, Element.namespaceOf?]
  have trimmed : Text.trim "s:anyType" = "s:anyType" := by decide +kernel
  have split : Xml.splitAtChar ':' "s:anyType".toList = some ("s".toList, "anyType".toList) := by
    decide +kernel
  simp only [reference, given, qName, trimmed, split, String.ofList_toList, bound]
  rfl

theorem restrictsAnyType_restrictionSpelling {body : List Element}
    (among : body.filter isSchemaElement = body) :
    RestrictsAnyType emptyDocument (restrictionSpelling body) false body where
  noSimpleContent := rfl
  around := ⟨_, _, rfl, rfl, by rw [reference_anyType]; exact gives_pure.2 rfl, rfl, among⟩

theorem hasBody_directSpelling {body : List Element} (among : body.filter isSchemaElement = body)
    (noSimple : ∀ child ∈ body, child.name.localName ≠ "simpleContent")
    (noComplex : ∀ child ∈ body, child.name.localName ≠ "complexContent") :
    HasBody (directSpelling body) false body where
  noSimpleContent := by
    rw [schemaChild?, schemaChildren]
    exact List.find?_eq_none.2 fun child member => by
      simpa using noSimple child (List.mem_filter.1 member).1
  noComplexContent := by
    rw [schemaChild?, schemaChildren]
    exact List.find?_eq_none.2 fun child member => by
      simpa using noComplex child (List.mem_filter.1 member).1
  mixed := rfl
  children := among

def aloneType? (e : Element) : Option (ComplexType ElementDecl) :=
  ((Definition.complexType ((ofDocuments [] {}).namesWithin 1 []) emptyDocument (depthBelow e) e
    none).run {}).1.toOption

theorem run_of_aloneType? (alone : aloneType? e = some t) : ∃ after,
    (Definition.complexType ((ofDocuments [] {}).namesWithin 1 []) emptyDocument (depthBelow e) e
      none).run {} = (.ok t, after) := by
  unfold aloneType? at alone
  rcases ran : (Definition.complexType ((ofDocuments [] {}).namesWithin 1 []) emptyDocument
    (depthBelow e) e none).run {} with ⟨fault | other, after⟩
  · simp [ran, Except.toOption] at alone
  · obtain rfl : other = t := by simpa [ran, Except.toOption] using alone
    exact ⟨after, rfl⟩

set_option maxRecDepth 100000 in
theorem isSome_aloneType?_notesBody : (aloneType? (restrictionSpelling notesBody)).isSome ∧
    (aloneType? (directSpelling notesBody)).isSome := by
  decide +kernel

theorem restriction_of_anyType_notesBody : ∃ t t',
    aloneType? (restrictionSpelling notesBody) = some t ∧
    aloneType? (directSpelling notesBody) = some t' ∧ t.content = t'.content ∧
    t.attributes = t'.attributes ∧ t.attributeWildcard = t'.attributeWildcard := by
  obtain ⟨some, some'⟩ := isSome_aloneType?_notesBody
  obtain ⟨t, alone⟩ := Option.isSome_iff_exists.1 some
  obtain ⟨t', alone'⟩ := Option.isSome_iff_exists.1 some'
  obtain ⟨_, ran⟩ := run_of_aloneType? alone
  obtain ⟨_, ran'⟩ := run_of_aloneType? alone'
  have start := faithful_initial (ofDocuments [] {}) {}
  have restricts : RestrictsAnyType emptyDocument (restrictionSpelling notesBody) false notesBody :=
    restrictsAnyType_restrictionSpelling rfl
  obtain ⟨content, attributes, wildcard, _⟩ := restriction_of_anyType restricts
    (hasBody_directSpelling rfl (by decide) (by decide)) (deep_depthBelow _) (deep_depthBelow _)
    start start ran ran'
  exact ⟨t, t', alone, alone', content, attributes, wildcard⟩

def strayTag : Instance.StartTag where
  name := ⟨"", "note"⟩
  attributes := [⟨⟨"", "stray"⟩, "1"⟩]
  typeRequest? := none

set_option maxRecDepth 100000 in
theorem aloneType?_nil : ∃ t ∈ aloneType? (restrictionSpelling []),
    ∃ t' ∈ aloneType? (directSpelling []), t.attributeWildcard ≠ t'.attributeWildcard ∧
      acceptsAttributes {} strayTag (.complex t) = true ∧
      acceptsAttributes {} strayTag (.complex t') = false := by
  decide +kernel

/-- The two spellings of an empty body do not take the same attributes. -/
theorem restriction_of_anyType_admits_more : ∃ e e' t t',
    RestrictsAnyType emptyDocument e false [] ∧ HasBody e' false [] ∧
    aloneType? e = some t ∧ aloneType? e' = some t' ∧ t.attributeWildcard ≠ t'.attributeWildcard ∧
    acceptsAttributes {} strayTag (.complex t) = true ∧
    acceptsAttributes {} strayTag (.complex t') = false := by
  obtain ⟨t, alone, t', alone', differ⟩ := aloneType?_nil
  exact ⟨_, _, t, t', restrictsAnyType_restrictionSpelling rfl,
    hasBody_directSpelling rfl (by simp) (by simp), alone, alone', differ⟩

end CompilationUnit

end XmlSchema.Schema
