import XmlSchema.Proofs.Component.Content
import XmlSchema.Proofs.Schema.Follow

namespace XmlSchema.Component

open Schema (ComponentKind)

def Pool.Within (pool larger : Pool) : Prop :=
  ∀ kind name value, pool.find? kind name = some value → larger.find? kind name = some value

namespace Pool.Within

variable {pool larger : Pool} {name : QName}

theorem refl (pool : Pool) : pool.Within pool := fun _ _ _ => id

theorem type? (within : pool.Within larger) {definition : TypeDefinition ElementDecl}
    (found : pool.type? name = some definition) : larger.type? name = some definition := by
  by_cases builtIn : name.ns = schemaNamespace
  · simpa [Pool.type?, builtIn] using found
  · rw [type?_eq_find? _ _ builtIn] at found ⊢
    exact within .type name definition found

theorem element? (within : pool.Within larger) {decl : ElementDecl}
    (found : pool.element? name = some decl) : larger.element? name = some decl :=
  within .element name decl found

theorem attribute? (within : pool.Within larger) {decl : AttributeDecl}
    (found : pool.attribute? name = some decl) : larger.attribute? name = some decl :=
  within .attribute name decl found

theorem group? (within : pool.Within larger) {particle : ContentModel.Particle ElementDecl}
    (found : pool.group? name = some particle) : larger.group? name = some particle :=
  within .group name particle found

theorem attributeGroup? (within : pool.Within larger) {group : AttributeGroup}
    (found : pool.attributeGroup? name = some group) : larger.attributeGroup? name = some group :=
  within .attributeGroup name group found

theorem of_gathers {grammars others : List Grammar} (gathers : pool.Gathers grammars)
    (gathersLarger : larger.Gathers others) (consistent : Consistent others)
    (fewer : ∀ g ∈ grammars, g ∈ others) : pool.Within larger := by
  intro kind name value found
  obtain ⟨g, member, provided⟩ := gathers.sound kind name value found
  exact (gathersLarger.find?_eq_some_iff consistent).2 ⟨g, fewer g member, provided⟩

theorem trans {largest : Pool} (within : pool.Within larger) (withinLarger : larger.Within largest) :
    pool.Within largest :=
  fun kind name value found => withinLarger kind name value (within kind name value found)

theorem foldl_insert (pool : Pool) (grammars : List Grammar) :
    pool.Within (grammars.foldl Pool.insert pool) := by
  induction grammars generalizing pool with
  | nil => exact refl pool
  | cons g rest ih =>
    refine trans (fun kind name value found => ?_) (ih (pool.insert g))
    rw [find?_insert, found, Option.some_or]

end Pool.Within

end XmlSchema.Component

namespace XmlSchema.Schema

open Component
open Xml (Element)
open Compile

def Final (fault : SchemaError) : Prop := fault.isDeferrable = false

variable {pool larger : Pool} {d : Document} {e : Element} {name : QName}

theorem follows_unresolved {α : Type} {related : CompilerState → CompilerState → Prop}
    (kind : String) (c : Compile α) : Follows related Final (unresolved d e name kind) c :=
  follows_of_excused (fun final => by cases final) c

theorem follows_internName {counts : SchemaError → Prop} :
    Follows SameSlots counts (internName name) (internName name) :=
  (follows_modify fun _ _ same => same.unread _ _ _ _).bind fun _ =>
    (follows_modify fun _ _ same => same.unread _ _ _ _).bind fun _ => follows_pure _

theorem follows_malformed {α : Type} {related : CompilerState → CompilerState → Prop}
    {counts : SchemaError → Prop} (fault : ComponentFault) :
    Follows related counts (malformed d e fault : Compile α) (malformed d e fault) :=
  follows_throw _

namespace CompilationUnit

variable {docs : List Document}

theorem follows_earlierSimpleType (within : pool.Within larger) :
    Compile.Follows SameSlots Final ((ofDocuments docs pool).earlierSimpleType d e name)
      ((ofDocuments docs larger).earlierSimpleType d e name) := by
  simp only [earlierSimpleType, ofDocuments]
  cases found : pool.type? name with
  | none => exact follows_unresolved _ _
  | some definition =>
    rw [within.type? found]
    cases definition with
    | simple type => exact follows_pure type
    | _ =>
      dsimp only
      split
      · exact follows_pure _
      · exact follows_malformed _

theorem follows_elsewhere (within : pool.Within larger) (slot : Slot) :
    Compile.Follows SameSlots Final ((ofDocuments docs pool).elsewhere d e slot)
      ((ofDocuments docs larger).elsewhere d e slot) := by
  have sameDefinition (kind : ComponentKind) (name : QName) :
      (ofDocuments docs larger).definition? kind name = (ofDocuments docs pool).definition? kind name :=
    rfl
  cases slot with
  | simpleType name =>
    simp only [elsewhere, sameDefinition]
    split
    · exact follows_malformed _
    · exact follows_earlierSimpleType within
  | complexType name =>
    simp only [elsewhere, sameDefinition]
    split
    · exact follows_malformed _
    · simp only [ofDocuments]
      cases found : pool.type? name with
      | none => exact follows_unresolved _ _
      | some definition =>
        rw [within.type? found]
        dsimp only
        split
        · exact follows_pure _
        · exact follows_malformed _
  | group name =>
    simp only [elsewhere, ofDocuments]
    cases found : pool.group? name with
    | none => exact follows_unresolved _ _
    | some particle =>
      rw [within.group? found]
      exact follows_pure _
  | attributeGroup name =>
    simp only [elsewhere, ofDocuments]
    cases found : pool.attributeGroup? name with
    | none => exact follows_unresolved _ _
    | some group =>
      rw [within.attributeGroup? found]
      exact follows_pure _
  | «attribute» name =>
    simp only [elsewhere, ofDocuments]
    cases found : pool.attribute? name with
    | none => exact follows_unresolved _ _
    | some decl =>
      rw [within.attribute? found]
      exact follows_pure _

theorem follows_known {known known' : Bool} (within : known = true → known' = true) (kind : String) :
    Compile.Follows SameSlots Final (if known then pure () else unresolved d e name kind)
      (if known' then pure () else unresolved d e name kind) := by
  cases known with
  | false => exact follows_unresolved _ _
  | true =>
    rw [within rfl]
    exact follows_pure _

theorem isElement_of_within (within : pool.Within larger)
    (isElement : (ofDocuments docs pool).isElement name = true) :
    (ofDocuments docs larger).isElement name = true := by
  simp only [CompilationUnit.isElement, Bool.or_eq_true] at isElement ⊢
  refine isElement.imp id fun inPool => ?_
  obtain ⟨decl, found⟩ := Option.isSome_iff_exists.1 inPool
  exact Option.isSome_iff_exists.2 ⟨decl, within.element? found⟩

theorem isType_of_within (within : pool.Within larger)
    (isType : (ofDocuments docs pool).isType name = true) :
    (ofDocuments docs larger).isType name = true := by
  simp only [CompilationUnit.isType, Bool.or_eq_true] at isType ⊢
  refine isType.imp id fun inPool => ?_
  obtain ⟨definition, found⟩ := Option.isSome_iff_exists.1 inPool
  exact Option.isSome_iff_exists.2 ⟨definition, within.type? found⟩

theorem follows_origin (within : pool.Within larger) (q : Query) :
    Origin.Follows Final ((ofDocuments docs pool).origin q) ((ofDocuments docs larger).origin q) := by
  have sameDefinition (kind : ComponentKind) (name : QName) :
      (ofDocuments docs larger).definition? kind name = (ofDocuments docs pool).definition? kind name :=
    rfl
  cases q with
  | isElement d e name => exact .settled (follows_known (isElement_of_within within) _)
  | isType d e name => exact .settled (follows_known (isType_of_within within) _)
  | simpleType d e name =>
    simp only [origin]
    split
    · refine .settled ?_
      split
      · exact follows_pure _
      · exact follows_malformed _
      · exact follows_malformed _
    · exact .slot
  | complexType d e name =>
    simp only [origin]
    split
    · refine .settled ?_
      split
      · exact follows_pure _
      · exact follows_malformed _
    · exact .slot
  | type d e name =>
    simp only [origin, sameDefinition]
    split
    · refine .settled ?_
      split
      · exact follows_pure _
      · exact follows_malformed _
    · split
      · split <;> exact .slot
      · refine .settled ?_
        simp only [ofDocuments]
        cases found : pool.type? name with
        | none => exact follows_unresolved _ _
        | some definition =>
          rw [within.type? found]
          exact follows_pure _
  | group d e name => exact .slot
  | attributeGroup d e name => exact .slot
  | attributeDecl d e name =>
    simp only [origin]
    split
    · exact .settled (follows_internName.bind fun _ => follows_pure _)
    · exact .slot

theorem follows_of_within (within : pool.Within larger) :
    (ofDocuments docs pool).Follows Final (ofDocuments docs larger) where
  definition _ := rfl
  elsewhere _ _ slot := follows_elsewhere within slot
  origin := follows_origin within

theorem compile_follows (within : pool.Within larger) :
    Compile.Follows SameSlots Final (ofDocuments docs pool).compile
      (ofDocuments docs larger).compile :=
  (uniform_addDocuments docs []).follows (fun _ _ _ _ _ _ same => same.unread _ _ _ _)
    ((follows_of_within within).namesWithin _ _)

end CompilationUnit

end XmlSchema.Schema
