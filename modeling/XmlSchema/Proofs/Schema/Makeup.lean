import XmlSchema.Proofs.Component.Inside
import XmlSchema.Proofs.Schema.AnyType

namespace XmlSchema.Schema

open Component
open ContentModel (Particle ElementTerm)
open Datatype (SimpleType)
open Xml (Element)
open Compile

namespace Compile

theorem Stateless.exists_gives {α β : Type} {c : Compile α} {f : α → Compile β} {b : β}
    {st after : CompilerState} (stateless : c.Stateless) (ran : (c >>= f).run st = (.ok b, after)) :
    ∃ a, c.Gives a ∧ ∃ middle, (f a).run middle = (.ok b, after) := by
  obtain ⟨a, middle, ranFirst, ranRest⟩ := run_bind_eq_ok ran
  exact ⟨a, stateless.gives_of_run ranFirst, middle, ranRest⟩

theorem run_internName_bind_eq_ok {β : Type} {name : QName} {f : QName → Compile β} {b : β}
    {st after : CompilerState} (ran : (internName name >>= f).run st = (.ok b, after)) :
    ∃ middle, (f name).run middle = (.ok b, after) := by
  obtain ⟨result, middle, ranFirst, ranRest⟩ := run_bind_eq_ok ran
  have ignores : IgnoresUnread fun _ => True := fun _ _ _ => id
  obtain rfl := (yields_internName ignores name _ _ _ trivial ranFirst).2
  exact ⟨middle, ranRest⟩

end Compile

namespace Definition

variable {names : Names} {d : Document} {e step : Element} {depth : Nat} {name : Option QName}
  {t base : ComplexType ElementDecl} {base? : Option (QName × Derivation)}
  {parent? : Option (ComplexType ElementDecl)}

/-- A complex type is written in some place, as a derivation by some name and from some complex
type, if it is one. -/
inductive Derives (names : Names) (d : Document) (e : Element) :
    Element → Option (QName × Derivation) → Option (ComplexType ElementDecl) → Prop
  | own (noSimple : schemaChild? e "simpleContent" = none)
      (noComplex : schemaChild? e "complexContent" = none) : Derives names d e e none none
  | fromSimple {content step : Element} {derivation : Derivation} {name : QName} {type : SimpleType}
      (found : schemaChild? e "simpleContent" = some content)
      (derives : derivation? content = some (step, derivation))
      (named : (reference d step "base").Gives name)
      (means : (names.type d step name).Gives (.simple type)) :
      Derives names d e step (some (name, derivation)) none
  | fromSimpleContent {content step : Element} {derivation : Derivation} {name : QName}
      {definition : TypeDefinition ElementDecl} {base : ComplexType ElementDecl}
      (found : schemaChild? e "simpleContent" = some content)
      (derives : derivation? content = some (step, derivation))
      (named : (reference d step "base").Gives name)
      (means : (names.type d step name).Gives definition)
      (complex : definition.complex? = some base) :
      Derives names d e step (some (name, derivation)) (some base)
  | fromComplex {content step : Element} {derivation : Derivation} {name : QName}
      {base : ComplexType ElementDecl}
      (noSimple : schemaChild? e "simpleContent" = none)
      (found : schemaChild? e "complexContent" = some content)
      (derives : derivation? content = some (step, derivation))
      (named : (reference d step "base").Gives name)
      (means : (names.complexType d step name).Gives base) :
      Derives names d e step (some (name, derivation)) (some base)

theorem Derives.height_le (derives : Derives names d e step base? parent?) :
    step.height ≤ e.height := by
  cases derives with
  | own => exact Nat.le_refl _
  | fromSimple found derives | fromSimpleContent found derives | fromComplex _ found derives =>
    have below := height_lt_of_schemaChild? found
    have belowContent := height_lt_of_derivation? derives
    omega

structure Makeup (names : Names) (d : Document) (depth : Nat) (e : Element)
    (t : ComplexType ElementDecl) (step : Element) (parent? : Option (ComplexType ElementDecl)) :
    Prop where
  derives : Derives names d e step t.base parent?
  attributes : ∃ set, (attributes names d step ((parent?.map .inherited).getD {})).Gives set ∧
    t.attributes = set.uses ∧ t.attributeWildcard = set.wildcard
  terms : ∀ x, t.HasTerm x → (∃ parent, parent? = some parent ∧ parent.HasTerm x) ∨
    ∃ own, (ownParticle names d depth step).Gives (some own) ∧ x ∈ own.elements

theorem mem_of_contentOf? {mixed : Bool} {p? : Option (Particle ElementDecl)}
    {content : ContentType ElementDecl} {model : ContentModel ElementDecl}
    {x : ElementTerm ElementDecl} (built : contentOf? mixed p? = some content)
    (isModel : content.model? = some model) (member : x ∈ model.elements) :
    ∃ p, p? = some p ∧ x ∈ p.elements := by
  cases p? with
  | none =>
    obtain rfl : content = if mixed then .mixed .empty else .empty := (Option.some.inj built).symm
    cases mixed with
    | false => cases isModel
    | true =>
      cases isModel
      cases member
  | some p =>
    obtain ⟨model', found, rfl⟩ := Option.map_eq_some_iff.1 built
    cases result : ContentModel.build p with
    | error fault => simp [result, Except.toOption] at found
    | ok made =>
      obtain rfl : made = model' := by simpa [result, Except.toOption] using found
      obtain rfl : made = model := by cases mixed <;> simpa [ContentType.model?] using isModel
      exact ⟨p, rfl, ContentModel.mem_elements_of_build result member⟩

theorem ofBody_makes {typeName : String} {b : Body} {st after : CompilerState}
    (ran : (ofBody d e name typeName b).run st = (.ok t, after)) :
    t.base = b.base ∧ t.attributes = b.attributes.uses ∧
      t.attributeWildcard = b.attributes.wildcard ∧
      ∀ x, t.HasTerm x → ∃ p, b.particle = some p ∧ x ∈ p.elements := by
  have simple (type : SimpleType) (content : t.content = .simple type)
      (particle : t.particle = b.particle) (x : ElementTerm ElementDecl) (has : t.HasTerm x) :
      ∃ p, b.particle = some p ∧ x ∈ p.elements := by
    cases has with
    | ofParticle given member => exact ⟨_, particle ▸ given, member⟩
    | ofModel isModel =>
      rw [content] at isModel
      cases isModel
  unfold ofBody at ran
  dsimp only at ran
  split at ran
  · cases ran
    exact ⟨rfl, rfl, rfl, simple _ rfl rfl⟩
  · obtain ⟨⟨content, violations⟩, _, ranContent, ran⟩ := run_bind_eq_ok ran
    cases ran
    refine ⟨rfl, rfl, rfl, fun x has => ?_⟩
    cases has with
    | ofParticle given member => exact ⟨_, given, member⟩
    | ofModel isModel member =>
      exact mem_of_contentOf? (contentType_eq_ok ranContent) isModel member

theorem mem_extendedParticle {inherited own : Option (Particle ElementDecl)}
    {p : Particle ElementDecl} {x : ElementTerm ElementDecl}
    (extended : extendedParticle inherited own = some p) (member : x ∈ p.elements) :
    (∃ q, inherited = some q ∧ x ∈ q.elements) ∨ ∃ q, own = some q ∧ x ∈ q.elements := by
  match inherited, own with
  | none, own => exact .inr ⟨p, extended, member⟩
  | some inherited, none =>
    cases extended
    exact .inl ⟨_, rfl, member⟩
  | some inherited, some own =>
    cases extended
    obtain ⟨q, among, inside⟩ := ContentModel.mem_allElements.1 member
    rw [List.mem_cons, List.mem_singleton] at among
    rcases among with rfl | rfl
    · exact .inl ⟨_, rfl, inside⟩
    · exact .inr ⟨_, rfl, inside⟩

def derivedBody (base : QName) (derivation : Derivation) (mixed : Bool)
    (parent : ComplexType ElementDecl) (own : Option (Particle ElementDecl))
    (attributes : AttributeSet) : Body :=
  match derivation with
  | .extension =>
    { base := some (base, derivation), mixed,
      particle := extendedParticle parent.particle own, attributes }
  | .restriction =>
    { base := some (base, derivation), mixed, particle := own, attributes,
      restricted := some parent }

theorem complexType_eq_of_complexContent {content : Element} {derivation : Derivation}
    (noSimple : schemaChild? e "simpleContent" = none)
    (found : schemaChild? e "complexContent" = some content)
    (derives : derivation? content = some (step, derivation)) :
    complexType names d (depth + 1) e name = (do
      let base ← reference d step "base"
      let parent ← names.complexType d step base
      let own ← ownParticle names d depth step
      let attributes ← attributes names d step (.inherited parent)
      let base ← Compile.internName base
      ofBody d e name ((name.map (·.localName)).getD Datatype.anonymousName)
        (derivedBody base derivation
          (if (content.attribute? "mixed").isSome then isTrue content "mixed" else isTrue e "mixed")
          parent own attributes)) := by
  simp only [complexType, noSimple, found, derives, ownParticle]
  cases contentChild? step <;> cases derivation <;> simp only [pure_bind, derivedBody]

theorem simpleBody_makes (stateless : names.Stateless) {typeName : String} {mixed : Bool}
    {derivation : Derivation} {base : QName} {set : AttributeSet} {type : SimpleType} {b : Body}
    {st after : CompilerState}
    (ran : (simpleBody names d typeName mixed step derivation base set type).run st =
      (.ok b, after)) :
    b.base = some (base, derivation) ∧ b.particle = none ∧
      (attributes names d step set).Gives b.attributes := by
  have named {type : SimpleType} {st : CompilerState} (ran : (do
      let attributes ← attributes names d step set
      pure { base := some (← Compile.internName base, derivation), mixed, simple := some type,
             attributes : Body }).run st = (.ok b, after)) :
      b.base = some (base, derivation) ∧ b.particle = none ∧
        (attributes names d step set).Gives b.attributes := by
    obtain ⟨added, gives, _, ran⟩ :=
      ((uniform_attributes d step set).stateless stateless).exists_gives ran
    obtain ⟨_, ran⟩ := run_internName_bind_eq_ok ran
    cases ran
    exact ⟨rfl, rfl, gives⟩
  unfold simpleBody at ran
  cases derivation with
  | extension => exact named ran
  | restriction =>
    obtain ⟨_, _, _, ran⟩ := run_bind_eq_ok ran
    exact named ran

theorem simpleContent_makes (stateless : names.Stateless) {typeName : String} {mixed : Bool}
    {content : Element} {b : Body} {st after : CompilerState}
    (ran : (simpleContent names d typeName mixed content).run st = (.ok b, after)) :
    ∃ step derivation name definition, derivation? content = some (step, derivation) ∧
      (reference d step "base").Gives name ∧ (names.type d step name).Gives definition ∧
      b.base = some (name, derivation) ∧ b.particle = none ∧
      ((∃ type, definition = .simple type) ∧ (attributes names d step {}).Gives b.attributes ∨
        ∃ parent, definition.complex? = some parent ∧
          (attributes names d step (.inherited parent)).Gives b.attributes) := by
  unfold simpleContent at ran
  cases derives : derivation? content with
  | none =>
    rw [derives] at ran
    cases ran
  | some found =>
    obtain ⟨step, derivation⟩ := found
    rw [derives] at ran
    obtain ⟨name, named, _, ran⟩ :=
      ((uniform_reference d step _).stateless stateless).exists_gives ran
    obtain ⟨definition, means, _, ran⟩ := (stateless (.type d step name)).exists_gives ran
    refine ⟨step, derivation, name, definition, rfl, named, means, ?_⟩
    cases definition with
    | simple type =>
      obtain ⟨base, particle, gives⟩ := simpleBody_makes stateless ran
      exact ⟨base, particle, .inl ⟨⟨_, rfl⟩, gives⟩⟩
    | anyType => cases ran
    | complex parent =>
      simp only [TypeDefinition.complex?] at ran
      cases content : parent.content with
      | simple type =>
        simp only [content] at ran
        obtain ⟨base, particle, gives⟩ := simpleBody_makes stateless ran
        exact ⟨base, particle, .inr ⟨parent, rfl, gives⟩⟩
      | empty | elementOnly | mixed =>
        simp only [content] at ran
        cases ran

section Makeup

variable (stateless : names.Stateless)
  (gives : (complexType names d (depth + 1) e name).Gives t)

include stateless gives

theorem exists_makeup_of_simpleContent {content : Element}
    (simple : schemaChild? e "simpleContent" = some content) :
    ∃ step parent?, Makeup names d depth e t step parent? := by
  obtain ⟨_, ran⟩ := gives.run {}
  simp only [complexType, simple] at ran
  obtain ⟨b, _, ranContent, ran⟩ := run_bind_eq_ok ran
  obtain ⟨base, uses, wildcard, terms⟩ := ofBody_makes ran
  obtain ⟨step, derivation, name, definition, derives, named, means, isBase, noParticle, start⟩ :=
    simpleContent_makes stateless ranContent
  have noTerms (x : ElementTerm ElementDecl) (has : t.HasTerm x) : False := by
    obtain ⟨p, particle, _⟩ := terms x has
    rw [noParticle] at particle
    cases particle
  rcases start with ⟨⟨type, rfl⟩, gives⟩ | ⟨parent, isComplex, gives⟩
  · refine ⟨step, none, ?_, ⟨_, gives, uses, wildcard⟩, fun x has => (noTerms x has).elim⟩
    rw [base, isBase]
    exact .fromSimple simple derives named means
  · refine ⟨step, some parent, ?_, ⟨_, gives, uses, wildcard⟩, fun x has => (noTerms x has).elim⟩
    rw [base, isBase]
    exact .fromSimpleContent simple derives named means isComplex

theorem exists_makeup_of_complexContent {content : Element}
    (simple : schemaChild? e "simpleContent" = none)
    (complex : schemaChild? e "complexContent" = some content) :
    ∃ step parent?, Makeup names d depth e t step parent? := by
  obtain ⟨_, ran⟩ := gives.run {}
  cases derives : derivation? content with
  | none =>
    simp only [complexType, simple, complex, derives] at ran
    cases ran
  | some found =>
    obtain ⟨step, derivation⟩ := found
    rw [complexType_eq_of_complexContent simple complex derives] at ran
    obtain ⟨name, named, _, ran⟩ := (uniform_reference d step _).stateless stateless
      |>.exists_gives ran
    obtain ⟨parent, means, _, ran⟩ := (stateless (.complexType d step name)).exists_gives ran
    obtain ⟨own, givesOwn, _, ran⟩ := (stateless_ownParticle stateless).exists_gives ran
    obtain ⟨set, givesSet, _, ran⟩ :=
      ((uniform_attributes d step _).stateless stateless).exists_gives ran
    obtain ⟨_, ran⟩ := run_internName_bind_eq_ok ran
    obtain ⟨base, uses, wildcard, terms⟩ := ofBody_makes ran
    have isBase : t.base = some (name, derivation) := by cases derivation <;> exact base
    have isSet : t.attributes = set.uses ∧ t.attributeWildcard = set.wildcard := by
      cases derivation <;> exact ⟨uses, wildcard⟩
    refine ⟨step, some parent, ?_, ⟨set, givesSet, isSet⟩, fun x has => ?_⟩
    · rw [isBase]
      exact .fromComplex simple complex derives named means
    · obtain ⟨p, particle, member⟩ := terms x has
      cases derivation with
      | extension =>
        rcases mem_extendedParticle particle member with ⟨q, given, member⟩ | ⟨q, rfl, member⟩
        · exact .inl ⟨parent, rfl, .ofParticle given member⟩
        · exact .inr ⟨q, givesOwn, member⟩
      | restriction =>
        -- A restriction leaves nothing of the particle that it restricts.
        obtain rfl : own = some p := particle
        exact .inr ⟨p, givesOwn, member⟩

theorem exists_makeup_of_own (simple : schemaChild? e "simpleContent" = none)
    (complex : schemaChild? e "complexContent" = none) :
    ∃ step parent?, Makeup names d depth e t step parent? := by
  obtain ⟨_, ran⟩ := gives.run {}
  have plain : HasBody e (isTrue e "mixed") (schemaChildren e) := ⟨simple, complex, rfl, rfl⟩
  rw [plain.complexType_eq] at ran
  obtain ⟨own, givesOwn, _, ran⟩ := (stateless_ownParticle stateless).exists_gives ran
  obtain ⟨set, givesSet, _, ran⟩ :=
    ((uniform_attributes d e _).stateless stateless).exists_gives ran
  obtain ⟨base, uses, wildcard, terms⟩ := ofBody_makes ran
  refine ⟨e, none, ?_, ⟨set, givesSet, uses, wildcard⟩, fun x has => ?_⟩
  · rw [base]
    exact .own simple complex
  · obtain ⟨p, rfl, member⟩ := terms x has
    exact .inr ⟨p, givesOwn, member⟩

theorem exists_makeup : ∃ step parent?, Makeup names d depth e t step parent? := by
  cases simple : schemaChild? e "simpleContent" with
  | some content => exact exists_makeup_of_simpleContent stateless gives simple
  | none =>
    cases complex : schemaChild? e "complexContent" with
    | some content => exact exists_makeup_of_complexContent stateless gives simple complex
    | none => exact exists_makeup_of_own stateless gives simple complex

end Makeup

end Definition

end XmlSchema.Schema
