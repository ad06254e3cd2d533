import XmlSchema.Proofs.Schema.Depth
import XmlSchema.Proofs.Schema.Program

namespace XmlSchema.Schema

open Component
open ContentModel (Particle)
open Datatype (SimpleType)
open Xml (Element)

namespace Definition

variable {stops : Prop}

theorem uniform_qName (d : Document) (e : Element) (value : String) :
    Uniform stops fun _ => qName d e value := by
  unfold qName
  rcases Xml.splitAtChar ':' (Text.trim value).toList with _ | ⟨label, localName⟩
  all_goals
    dsimp only
    split
    · exact .bind (.pure _) fun _ => .pure _
    · split
      · exact .bind (.malformed _ _ False.elim) fun _ => .pure _
      · exact .bind (.pure _) fun _ => .pure _

theorem uniform_reference (d : Document) (e : Element) (given : String) :
    Uniform stops fun _ => reference d e given := by
  unfold reference
  split
  · exact uniform_qName _ _ _
  · exact .malformed _ _ False.elim

theorem uniform_occurrence (d : Document) (e : Element) (value : String) :
    Uniform stops fun _ => occurrence d e value := by
  unfold occurrence
  split
  · exact .pure _
  · exact .malformed _ _ False.elim

theorem uniform_occursFrom (d : Document) (e : Element) (min : Nat) : Uniform stops fun _ => (do
    let max ← match (e.attribute? "maxOccurs").map Text.trim with
      | none => pure (some 1)
      | some value =>
        if value == "unbounded" then pure none else do pure (some (← occurrence d e value))
    if max.any (· < min) then Compile.malformed d e .boundsInverted
    pure (min, max) : Compile (Nat × Option Nat)) := by
  have checked (max : Option Nat) : Uniform stops fun _ => (if max.any (· < min) then do
      Compile.malformed d e .boundsInverted
      pure (min, max)
      else pure (min, max) : Compile (Nat × Option Nat)) := by
    split
    · exact .bind (.malformed _ _ False.elim) fun _ => .pure _
    · exact .pure _
  dsimp only
  split
  · exact .bind (.pure _) fun _ => checked _
  · split
    · exact .bind (.pure _) fun _ => checked _
    · exact .bind (uniform_occurrence _ _ _) fun _ => .bind (.pure _) fun _ => checked _

theorem uniform_occurs (d : Document) (e : Element) : Uniform stops fun _ => occurs d e := by
  unfold occurs
  dsimp only
  split
  · exact .bind (uniform_occurrence _ _ _) fun _ => uniform_occursFrom _ _ _
  · exact .bind (.pure _) fun _ => uniform_occursFrom _ _ _

theorem uniform_wildcard (d : Document) (e : Element) : Uniform stops fun _ => wildcard d e := by
  unfold wildcard
  generalize constraint d (Text.trim ((e.attribute? "namespace").getD "##any")) = allowed
  dsimp only
  cases allowed with
  | any => exact (Uniform.pure ()).bind fun _ => .pure _
  | other target => exact .bind (.intern _) fun _ => .pure _
  | among namespaces => exact .bind (.forM .intern _) fun _ => .pure _

theorem uniform_addFacet (d : Document) (e : Element) (value : String) (list : FacetList) :
    Uniform stops fun _ => addFacet d e value list := by
  unfold addFacet
  dsimp only
  repeat' split
  all_goals first | exact .pure _ | exact .malformed _ _ False.elim

theorem uniform_collectFacets (d : Document) (es : List Element) (list : FacetList) :
    Uniform stops fun _ => collectFacets d es list := by
  induction es generalizing list with
  | nil => exact .pure _
  | cons e es ih =>
    unfold collectFacets
    split
    · exact .bind (uniform_addFacet _ _ _ _) fun _ => ih _
    · exact ih _

theorem uniform_facets (d : Document) (restriction : Element) :
    Uniform stops fun _ => facets d restriction := by
  unfold facets
  refine .bind (uniform_collectFacets _ _ _) fun list => ?_
  dsimp only
  split
  · exact .bind (.pure _) fun _ => .pure _
  · split
    · exact .bind (.pure _) fun _ => .pure _
    · exact .bind (.throw False.elim) fun _ => .pure _

theorem uniform_simpleType_of_deep (d : Document) (depth : Nat) (e : Element) (name : Option String)
    (deep : stops ∨ e.height ≤ depth) : Uniform stops fun names => simpleType names d depth e name := by
  induction depth generalizing e name with
  | zero => exact .malformed _ _ fun _ => deep.resolve_right (by have := e.height_eq; omega)
  | succ depth ih =>
    have named (place : Element) (value : String) : Uniform stops fun names : Names =>
        qName d place value >>= names.simpleType d place :=
      .bind (uniform_qName _ _ _) fun _ => .simpleType _ _ _
    have inline {kind : String} {parent child : Element} (inside : schemaChild? e kind = some parent)
        (member : child ∈ schemaChildren parent) :
        Uniform stops fun names => simpleType names d depth child none := by
      have below := height_lt_of_schemaChild? inside
      have less := height_lt_of_mem_schemaChildren member
      exact ih _ _ (deep.imp_right fun deep => by omega)
    simp only [simpleType]
    split
    · next found =>
      split
      · exact .bind (named _ _) fun _ => .bind (uniform_facets _ _) fun _ => .pure _
      · next inside =>
        exact .bind (inline found (List.mem_of_find?_eq_some inside)) fun _ =>
          .bind (uniform_facets _ _) fun _ => .pure _
      · exact .bind (.malformed _ _ False.elim) fun _ => .bind (uniform_facets _ _) fun _ => .pure _
    · next found =>
      split
      · exact .bind (named _ _) fun _ => .pure _
      · next inside =>
        exact .bind (inline found (List.mem_of_find?_eq_some inside)) fun _ => .pure _
      · exact .bind (.malformed _ _ False.elim) fun _ => .pure _
    · next found =>
      refine .bind (.mapM fun value _ => named _ value) fun _ => .bind
        (.mapM fun child member => inline found (List.mem_filter.1 member).1) fun _ => ?_
      split
      · exact .bind (.malformed _ _ False.elim) fun _ => .pure _
      · exact .pure _
    · exact .malformed _ _ False.elim

theorem uniform_simpleType (d : Document) (depth : Nat) (e : Element) (name : Option String) :
    Uniform True fun names => simpleType names d depth e name :=
  uniform_simpleType_of_deep _ _ _ _ (.inl trivial)

theorem uniform_simpleTypeOf (d : Document) (e : Element) (name : Option String) :
    Uniform stops fun names => simpleTypeOf names d e name :=
  uniform_simpleType_of_deep _ _ _ _ (.inr (Nat.le_refl _))

theorem uniform_attributeDecl (d : Document) (e : Element) (isGlobal : Bool) :
    Uniform stops fun names => attributeDecl names d e isGlobal := by
  unfold attributeDecl
  split
  · exact .malformed _ _ False.elim
  · dsimp only
    split
    · exact .bind (uniform_qName _ _ _) fun _ => .bind (.simpleType _ _ _) fun _ =>
        .bind (.internName _) fun _ => .pure _
    · exact .bind (uniform_simpleTypeOf _ _ _) fun _ => .bind (.internName _) fun _ => .pure _
    · exact .bind (.pure _) fun _ => .bind (.internName _) fun _ => .pure _

theorem uniform_attributeUse (d : Document) (e : Element) :
    Uniform stops fun names => attributeUse names d e := by
  unfold attributeUse
  split
  · exact uniform_attributeDecl _ _ _
  · exact .bind (uniform_qName _ _ _) fun _ => .bind (.attributeDecl _ _ _) fun _ => .pure _

theorem uniform_attributesFrom (d : Document) (es : List Element) (set : AttributeSet) :
    Uniform stops fun names => attributesFrom names d es set := by
  induction es generalizing set with
  | nil => exact .pure _
  | cons e es ih =>
    unfold attributesFrom
    dsimp only
    split
    · exact .bind (uniform_attributeUse _ _) fun _ => .bind (.pure _) fun _ => ih _
    · exact .bind (uniform_reference _ _ _) fun _ => .bind (.attributeGroup _ _ _) fun _ =>
        .bind (.pure _) fun _ => ih _
    · exact .bind (uniform_wildcard _ _) fun _ => .bind (.pure _) fun _ => ih _
    · exact .bind (.pure _) fun _ => ih _

theorem uniform_attributes (d : Document) (parent : Element) (set : AttributeSet) :
    Uniform stops fun names => attributes names d parent set := uniform_attributesFrom _ _ _

theorem uniform_typeRef (d : Document) (e : Element) (name : QName) :
    Uniform stops fun names => typeRef names d e name := by
  unfold typeRef
  by_cases builtIn : name.ns == schemaNamespace
  · simp only [builtIn, if_true]
    split
    · exact .pure _
    · exact .malformed _ _ False.elim
  · simp only [builtIn, Bool.false_eq_true, if_false]
    exact .ifType _ _ _ (.bind (.internName _) fun _ => .pure _)

def simpleBody (names : Names) (d : Document) (typeName : String) (mixed : Bool) (step : Element)
    (derivation : Derivation) (base : QName) (set : AttributeSet) (baseType : SimpleType) :
    Compile Body := do
  let type ← match derivation with
    | .extension => pure baseType
    | .restriction => do
      let (whiteSpace, facets) ← facets d step
      pure (baseType.restrict (some typeName) whiteSpace facets)
  let attributes ← attributes names d step set
  pure { base := some (← Compile.internName base, derivation), mixed, simple := some type,
         attributes }

theorem uniform_simpleBody (d : Document) (typeName : String) (mixed : Bool) (step : Element)
    (derivation : Derivation) (base : QName) (set : AttributeSet) (baseType : SimpleType) :
    Uniform stops fun names => simpleBody names d typeName mixed step derivation base set baseType := by
  unfold simpleBody
  cases derivation with
  | extension =>
    exact .bind (.pure _) fun _ => .bind (uniform_attributes _ _ _) fun _ =>
      .bind (.internName _) fun _ => .pure _
  | restriction =>
    exact .bind (uniform_facets _ _) fun _ => .bind (.pure _) fun _ =>
      .bind (uniform_attributes _ _ _) fun _ => .bind (.internName _) fun _ => .pure _

theorem uniform_simpleContent (d : Document) (typeName : String) (mixed : Bool) (content : Element) :
    Uniform stops fun names => simpleContent names d typeName mixed content := by
  unfold simpleContent
  split
  · exact .malformed _ _ False.elim
  · next step derivation _ =>
    have derived := @uniform_simpleBody stops d typeName mixed step derivation
    refine .bind (uniform_reference _ _ _) fun base => .bind (.type _ _ _) fun definition => ?_
    dsimp only
    split
    · exact .bind (.pure _) fun _ => derived _ _ _
    · split
      · split
        · exact .bind (.pure _) fun _ => derived _ _ _
        · exact .bind (.malformed _ _ False.elim) fun _ => derived _ _ _
      · exact .bind (.malformed _ _ False.elim) fun _ => derived _ _ _

theorem uniform_contentType (d : Document) (e : Element) (typeName : String) (body : Body) :
    Uniform stops fun _ => contentType d e typeName body := by
  unfold contentType
  split
  · exact .pure _
  · split
    · exact .throw False.elim
    · exact .malformed _ _ False.elim
    · exact .pure _

theorem uniform_ofBody (d : Document) (e : Element) (name : Option QName) (typeName : String)
    (body : Body) : Uniform stops fun _ => ofBody d e name typeName body := by
  unfold ofBody
  dsimp only
  split
  · exact .bind (.pure _) fun _ => .pure _
  · exact .bind (uniform_contentType _ _ _ _) fun _ => .pure _

mutual

theorem uniform_elementDecl_of_deep (d : Document) : (depth : Nat) → (e : Element) →
    (isGlobal : Bool) → stops ∨ 2 * e.height ≤ depth + 1 →
      Uniform stops fun names => elementDecl names d depth e isGlobal
  | 0, e, _, deep => .malformed _ _ fun _ => deep.resolve_right (by have := e.height_eq; omega)
  | depth + 1, e, isGlobal, deep => by
      simp only [elementDecl]
      split
      · exact .malformed _ _ False.elim
      · split
        · exact .bind (uniform_qName _ _ _) fun _ => .bind (uniform_typeRef _ _ _) fun _ =>
            .bind (.internName _) fun _ => .pure _
        · next inside =>
          have less := height_lt_of_schemaChild? inside
          exact .bind (uniform_complexType_of_deep d depth _ _ (deep.imp_right fun deep => by omega))
            fun _ => .bind (.pure _) fun _ => .bind (.internName _) fun _ => .pure _
        · exact .bind (uniform_simpleTypeOf _ _ _) fun _ => .bind (.pure _) fun _ =>
            .bind (.internName _) fun _ => .pure _
        · exact .bind (.pure _) fun _ => .bind (.internName _) fun _ => .pure _

theorem uniform_particle_of_deep (d : Document) : (depth : Nat) → (e : Element) →
    stops ∨ 2 * e.height ≤ depth → Uniform stops fun names => particle names d depth e
  | 0, e, deep => .malformed _ _ fun _ => deep.resolve_right (by have := e.height_eq; omega)
  | depth + 1, e, deep => by
      have children : Uniform stops fun names =>
          (schemaChildren e).mapM (particle names d depth) := by
        refine .mapM fun child member => ?_
        have less := height_lt_of_mem_schemaChildren member
        exact uniform_particle_of_deep d depth child (deep.imp_right fun deep => by omega)
      simp only [particle]
      refine .bind (uniform_occurs _ _) fun bounds => ?_
      split
      · split
        · exact .bind (uniform_qName _ _ _) fun _ =>
            .ifElement _ _ _ (.bind (.internName _) fun _ => .pure _)
        · exact .bind (uniform_elementDecl_of_deep d depth _ _ deep) fun _ => .pure _
      · exact .bind (uniform_wildcard _ _) fun _ => .pure _
      · exact .bind (uniform_reference _ _ _) fun _ => .bind (.group _ _ _) fun _ => .pure _
      · exact .bind children fun _ => .pure _
      · exact .bind children fun _ => .pure _
      · exact .bind children fun _ => .pure _
      · exact .pure _

theorem uniform_complexType_of_deep (d : Document) : (depth : Nat) → (e : Element) →
    (name : Option QName) → stops ∨ 2 * e.height ≤ depth →
      Uniform stops fun names => complexType names d depth e name
  | 0, e, _, deep => .malformed _ _ fun _ => deep.resolve_right (by have := e.height_eq; omega)
  | depth + 1, e, name, deep => by
      have base (step : Element) (typeName : String) (mixed : Bool) (derivation : Derivation)
          (baseName : QName) (baseType : ComplexType ElementDecl)
          (own : Option (Particle ElementDecl)) : Uniform stops fun names => (do
            let attributes ← attributes names d step (.inherited baseType)
            let base := some (← Compile.internName baseName, derivation)
            let body ← pure (match derivation with
              | .extension =>
                { base, mixed, particle := extendedParticle baseType.particle own,
                  attributes : Body }
              | .restriction =>
                { base, mixed, particle := own, attributes, restricted := some baseType })
            ofBody d e name typeName body) :=
        .bind (uniform_attributes _ _ _) fun _ => .bind (.internName _) fun _ =>
          .bind (.pure _) fun _ => uniform_ofBody _ _ _ _ _
      have own {parent child : Element} (below : parent.height ≤ e.height)
          (found : contentChild? parent = some child) :
          Uniform stops fun names => particle names d depth child := by
        have less := height_lt_of_contentChild? found
        exact uniform_particle_of_deep d depth child (deep.imp_right fun deep => by omega)
      simp only [complexType]
      split
      · exact .bind (uniform_simpleContent _ _ _ _) fun _ => uniform_ofBody _ _ _ _ _
      · next found =>
        split
        · exact .bind (.malformed _ _ False.elim) fun _ => uniform_ofBody _ _ _ _ _
        · next derives =>
          have lessContent := height_lt_of_schemaChild? found
          have lessStep := height_lt_of_derivation? derives
          refine .bind (uniform_reference _ _ _) fun _ => .bind (.complexType _ _ _) fun _ => ?_
          split
          · next foundChild =>
            exact .bind (own (by omega) foundChild) fun _ => base _ _ _ _ _ _ _
          · exact .bind (.pure _) fun _ => base _ _ _ _ _ _ _
      · split
        · next foundChild =>
          exact .bind (own (Nat.le_refl _) foundChild) fun _ =>
            .bind (uniform_attributes _ _ _) fun _ => .bind (.pure _) fun _ =>
              uniform_ofBody _ _ _ _ _
        · exact .bind (.pure _) fun _ => .bind (uniform_attributes _ _ _) fun _ =>
            .bind (.pure _) fun _ => uniform_ofBody _ _ _ _ _

end

theorem uniform_elementDecl (d : Document) (depth : Nat) (e : Element) (isGlobal : Bool) :
    Uniform True fun names => elementDecl names d depth e isGlobal :=
  uniform_elementDecl_of_deep _ _ _ _ (.inl trivial)

theorem uniform_particle (d : Document) (depth : Nat) (e : Element) :
    Uniform True fun names => particle names d depth e :=
  uniform_particle_of_deep _ _ _ (.inl trivial)

theorem uniform_complexType (d : Document) (depth : Nat) (e : Element) (name : Option QName) :
    Uniform True fun names => complexType names d depth e name :=
  uniform_complexType_of_deep _ _ _ _ (.inl trivial)

end Definition

namespace CompilationUnit

open Definition

variable {stops : Prop}

theorem uniform_addComponent (d : Document) (e : Element) (localName : String) (g : Grammar) :
    Uniform stops fun names => addComponent names d e localName g := by
  unfold addComponent
  dsimp only
  split
  · split
    · exact .pure _
    · have deep := deep_depthBelow e
      exact .bind (uniform_elementDecl_of_deep _ _ _ _ (.inr (by omega))) fun _ => .pure _
  · split
    · exact .pure _
    · exact .bind (.simpleType _ _ _) fun _ => .pure _
  · split
    · exact .pure _
    · exact .bind (.complexType _ _ _) fun _ => .pure _
  · split
    · exact .pure _
    · exact .bind (.attributeDecl _ _ _) fun _ => .pure _
  · split
    · exact .pure _
    · exact .bind (.group _ _ _) fun _ => .pure _
  · split
    · exact .pure _
    · exact .bind (.attributeGroup _ _ _) fun _ => .pure _
  · exact .pure _

theorem uniform_addComponents (d : Document) (es : List Element) (g : Grammar) :
    Uniform stops fun names => addComponents names d es g := by
  induction es generalizing g with
  | nil => exact .pure _
  | cons e es ih =>
    unfold addComponents
    dsimp only
    split
    · exact .bind (.intern _) fun _ => .bind (.pure _) fun _ => ih _
    · split
      · exact .bind (.pure _) fun _ => ih _
      · exact .bind (.intern _) fun _ => .bind (uniform_addComponent _ _ _ _) fun _ => ih _

theorem uniform_addDocuments (ds : List Document) (grammars : List Grammar) :
    Uniform stops fun names => addDocuments names ds grammars := by
  induction ds generalizing grammars with
  | nil => exact .pure _
  | cons d ds ih =>
    unfold addDocuments
    dsimp only
    split
    · exact .bind (.pure _) fun _ => .bind (uniform_addComponents _ _ _) fun _ => ih _
    · exact .bind (.intern _) fun _ => .bind (.pure _) fun _ =>
        .bind (uniform_addComponents _ _ _) fun _ => ih _

end CompilationUnit

end XmlSchema.Schema
