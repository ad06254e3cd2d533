import XmlSchema.Proofs.Schema.Value

namespace XmlSchema.Schema

open Component
open Datatype (SimpleType)
open Xml (Element)
open Compile

namespace CompilationUnit

variable {unit whole : CompilationUnit} {n m : Nat} {d : Document} {e : Element} {names : Names}

/-- What a pool has for a slot. The content of a complex type counts as a simple type. -/
def Offers (pool : Pool) : (slot : Slot) → slot.Value → Prop
  | .simpleType name, (type : SimpleType) =>
    pool.find? .type name = some (TypeDefinition.simple type) ∨
      ∃ definition, ∃ complex : ComplexType ElementDecl,
        pool.find? .type name = some definition ∧
          TypeDefinition.complex? definition = some complex ∧ complex.content = .simple type
  | .complexType name, (type : ComplexType ElementDecl) =>
    ∃ definition, pool.find? .type name = some definition ∧
      TypeDefinition.complex? definition = some type
  | .group name, value => pool.find? .group name = some value
  | .attributeGroup name, value => pool.find? .attributeGroup name = some value
  | .attribute name, value => pool.find? .attribute name = some value

theorem offers_of_elsewhere {slot : Slot} {value : slot.Value} (isForeign : slot.IsForeign)
    (gives : (unit.elsewhere d e slot).Gives value) : Offers unit.pool slot value := by
  cases slot with
  | simpleType name =>
    simp only [elsewhere] at gives
    split at gives
    · exact absurd gives not_gives_throw
    · unfold earlierSimpleType at gives
      rw [Pool.type?_eq_find? _ _ isForeign] at gives
      split at gives
      · next found =>
        obtain rfl := gives_pure.1 gives
        exact .inl found
      · next definition _ found =>
        split at gives
        · next complex isComplex =>
          obtain rfl := gives_pure.1 gives
          exact .inr ⟨definition, _, found, isComplex, rfl⟩
        · exact absurd gives not_gives_throw
      · exact absurd gives not_gives_throw
  | complexType name =>
    simp only [elsewhere] at gives
    split at gives
    · exact absurd gives not_gives_throw
    · rw [Pool.type?_eq_find? _ _ isForeign] at gives
      split at gives
      · next definition found =>
        split at gives
        · next isComplex =>
          obtain rfl := gives_pure.1 gives
          exact ⟨definition, found, isComplex⟩
        · exact absurd gives not_gives_throw
      · exact absurd gives not_gives_throw
  | group name | attributeGroup name | «attribute» name =>
    simp only [elsewhere] at gives
    split at gives
    · next found =>
      obtain rfl := gives_pure.1 gives
      exact found
    · exact absurd gives not_gives_throw

theorem elsewhere_of_find? {slot : Slot} {value : slot.Value} (isForeign : slot.IsForeign)
    (undefined : unit.definition? slot.key.kind slot.key.name = none)
    (found : unit.pool.find? slot.key.kind slot.key.name = some (slot.global value)) :
    (unit.elsewhere d e slot).Gives value := by
  cases slot with
  | simpleType name =>
    have found : unit.pool.find? .type name = some (TypeDefinition.simple value) := found
    have undefined : unit.definition? .type name = none := undefined
    simp only [elsewhere, undefined, earlierSimpleType, Pool.type?_eq_find? _ _ isForeign, found]
    exact fun _ => rfl
  | complexType name =>
    have found : unit.pool.find? .type name = some (TypeDefinition.complex value) := found
    have undefined : unit.definition? .type name = none := undefined
    simp only [elsewhere, undefined, Pool.type?_eq_find? _ _ isForeign, found,
      TypeDefinition.complex?]
    exact fun _ => rfl
  | group name =>
    have found : unit.pool.group? name = some value := found
    simp only [elsewhere, found]
    exact fun _ => rfl
  | attributeGroup name =>
    have found : unit.pool.attributeGroup? name = some value := found
    simp only [elsewhere, found]
    exact fun _ => rfl
  | «attribute» name =>
    have found : unit.pool.attribute? name = some value := found
    simp only [elsewhere, found]
    exact fun _ => rfl

structure PartOf (unit whole : CompilationUnit) : Prop where
  finds : whole.FindsByName
  definition : ∀ kind name definition, unit.definition? kind name = some definition →
    whole.definition? kind name = some definition
  earlier : ∀ kind name value, unit.pool.find? kind name = some value →
    whole.ComesTo kind name value

namespace PartOf

theorem definitionOf? (part : unit.PartOf whole) {slot : Slot} {definition : Definition}
    (found : unit.definitionOf? slot = some definition) :
    whole.definitionOf? slot = some definition := by
  obtain ⟨defined, admits⟩ := Option.filter_eq_some_iff.1 found
  exact Option.filter_eq_some_iff.2 ⟨part.definition _ _ _ defined, admits⟩

theorem isElement (part : unit.PartOf whole) {name : QName}
    (isElement : unit.isElement name = true) : whole.isElement name = true := by
  have known {definition : Definition} (found : whole.definition? .element name = some definition) :
      whole.isElement name = true := by
    simp [CompilationUnit.isElement, found]
  simp only [CompilationUnit.isElement, Bool.or_eq_true, Option.isSome_iff_exists] at isElement
  rcases isElement with ⟨definition, found⟩ | ⟨value, found⟩
  · exact known (part.definition _ _ _ found)
  · obtain ⟨definition, defined, _⟩ := part.earlier .element name value found
    exact known defined

theorem isType (part : unit.PartOf whole) {name : QName} (isType : unit.isType name = true) :
    whole.isType name = true := by
  have known {definition : Definition} (found : whole.definition? .type name = some definition) :
      whole.isType name = true := by
    simp [CompilationUnit.isType, found]
  simp only [CompilationUnit.isType, Bool.or_eq_true, Option.isSome_iff_exists] at isType
  rcases isType with ⟨definition, found⟩ | ⟨value, found⟩
  · exact known (part.definition _ _ _ found)
  · by_cases builtIn : name.ns = schemaNamespace
    · simp only [Pool.type?, builtIn, beq_self_eq_true, if_true] at found
      simp [CompilationUnit.isType, Pool.type?, builtIn, found]
    · rw [Pool.type?_eq_find? _ _ builtIn] at found
      obtain ⟨definition, defined, _⟩ := part.earlier .type name value found
      exact known defined

theorem lenientFresh_of_offers (part : unit.PartOf whole) {slot : Slot} {value : slot.Value}
    (isForeign : slot.IsForeign) (offers : Offers unit.pool slot value) :
    ∃ n, (whole.lenientFresh (whole.lenient n) d e slot).Gives value := by
  have held {slot : Slot} {value : slot.Value} (isForeign : slot.IsForeign)
      (found : unit.pool.find? slot.key.kind slot.key.name = some (slot.global value)) :
      ∃ n, whole.MeansLeniently n slot value :=
    (comesTo_iff_means part.finds isForeign).1 (part.earlier _ _ _ found)
  have fresh {slot : Slot} {value : slot.Value} (isForeign : slot.IsForeign)
      (found : unit.pool.find? slot.key.kind slot.key.name = some (slot.global value)) :
      ∃ n, (whole.lenientFresh (whole.lenient n) d e slot).Gives value := by
    obtain ⟨n, means⟩ := held isForeign found
    exact ⟨n, means.gives d e⟩
  have complexOf {name : QName} {definition : TypeDefinition ElementDecl}
      {type : ComplexType ElementDecl} (found : unit.pool.find? .type name = some definition)
      (isComplex : definition.complex? = some type) :
      unit.pool.find? .type name = some (TypeDefinition.complex type) := by
    rcases (part.earlier .type name definition found).type with ⟨_, rfl⟩ | ⟨other, rfl⟩
    · cases isComplex
    · cases isComplex
      exact found
  cases slot with
  | simpleType name =>
    rcases offers with found | ⟨definition, complex, found, isComplex, content⟩
    · exact fresh isForeign found
    · obtain ⟨n, body, defined, gives⟩ :=
        @held (.complexType name) complex isForeign (complexOf found isComplex)
      exact ⟨n, (gives_lenientFresh_complex defined (stateless_lenient n)).2
        ⟨complex, gives, content⟩⟩
  | complexType name =>
    obtain ⟨definition, found, isComplex⟩ := offers
    exact fresh isForeign (complexOf found isComplex)
  | group name | attributeGroup name | «attribute» name => exact fresh isForeign offers

theorem exists_gives_isElement (part : unit.PartOf whole) {name : QName}
    {answer : (Query.isElement d e name).Answer}
    (gives : ((unit.plain n).ask (.isElement d e name)).Gives answer) :
    ∃ m, ((whole.lenient m).ask (.isElement d e name)).Gives answer := by
  rw [gives_isElement, isElement_plain] at gives
  exact ⟨0, gives_isElement.2 (by rw [isElement_lenient, part.isElement gives])⟩

theorem exists_gives_isType (part : unit.PartOf whole) {name : QName}
    {answer : (Query.isType d e name).Answer}
    (gives : ((unit.plain n).ask (.isType d e name)).Gives answer) :
    ∃ m, ((whole.lenient m).ask (.isType d e name)).Gives answer := by
  rw [gives_isType, isType_plain] at gives
  exact ⟨0, gives_isType.2 (by rw [isType_lenient, part.isType gives])⟩

section

variable (answers : ∀ q answer, ((unit.plain n).ask q).Gives answer →
  ∃ m, ((whole.lenient m).ask q).Gives answer)

include answers

theorem lenientFresh_of_fresh (part : unit.PartOf whole) {slot : Slot} {value : slot.Value}
    (isForeign : slot.IsForeign) (gives : (unit.fresh (unit.plain n) d e slot).Gives value) :
    ∃ m, (whole.lenientFresh (whole.lenient m) d e slot).Gives value := by
  unfold fresh at gives
  cases found : unit.definitionOf? slot with
  | none =>
    rw [found] at gives
    exact part.lenientFresh_of_offers isForeign (offers_of_elsewhere isForeign gives)
  | some definition =>
    rw [found] at gives
    obtain ⟨m, holds⟩ :=
      exists_gives_of_uniform (slot.uniform_body definition) (stateless_plain n) answers gives
    exact ⟨m, by rwa [lenientFresh_of_definition (part.definitionOf? found)]⟩

theorem exists_gives_of_origin (part : unit.PartOf whole) {q : Query} {answer : q.Answer}
    (same : whole.origin q = unit.origin q)
    (gives : (unit.plainAnswer (unit.plain n) q).Gives answer) :
    ∃ m, ((whole.lenient m).ask q).Gives answer := by
  unfold plainAnswer at gives
  cases comes : unit.origin q with
  | settled answer' =>
    rw [comes] at gives
    exact ⟨1, by rwa [ask_lenient, lenientAnswer, same, comes]⟩
  | slot d e slot view =>
    rw [comes] at gives
    obtain ⟨value, givesValue, rfl⟩ :=
      (stateless_fresh (stateless_plain n) slot).gives_map_iff.1 gives
    obtain ⟨m, holds⟩ :=
      part.lenientFresh_of_fresh answers (isForeign_of_origin comes) givesValue
    refine ⟨m + 1, ?_⟩
    rw [ask_lenient, lenientAnswer, same, comes]
    exact (stateless_lenientFresh (stateless_lenient m) slot).gives_map_iff.2 ⟨value, holds, rfl⟩

theorem exists_gives_type (part : unit.PartOf whole) {name : QName}
    {answer : TypeDefinition ElementDecl}
    (gives : (unit.plainAnswer (unit.plain n) (.type d e name)).Gives answer) :
    ∃ m, ((whole.lenient m).ask (.type d e name)).Gives answer := by
  by_cases builtIn : name.ns = schemaNamespace
  · exact part.exists_gives_of_origin answers (by simp [origin, builtIn]) gives
  · cases defined : unit.definition? .type name with
    | some definition =>
      have definedWhole := part.definition _ _ _ defined
      exact part.exists_gives_of_origin answers (by simp [origin, defined, definedWhole]) gives
    | none =>
      simp only [plainAnswer, origin, beq_iff_eq, builtIn, if_false, defined,
        Pool.type?_eq_find? _ _ builtIn] at gives
      split at gives
      · next found =>
        obtain rfl := gives_pure.1 gives
        exact ask_type_of_comesTo part.finds builtIn (part.earlier _ _ _ found)
      · exact absurd gives not_gives_throw

end

theorem exists_gives_lenient (part : unit.PartOf whole) (n : Nat) (q : Query) (answer : q.Answer)
    (gives : ((unit.plain n).ask q).Gives answer) :
    ∃ m, ((whole.lenient m).ask q).Gives answer := by
  induction n generalizing q with
  | zero =>
    cases q with
    | isElement d e name => exact part.exists_gives_isElement gives
    | isType d e name => exact part.exists_gives_isType gives
    | _ => exact absurd gives not_gives_throw
  | succ n ih =>
    cases q with
    | isElement d e name => exact part.exists_gives_isElement gives
    | isType d e name => exact part.exists_gives_isType gives
    | type d e name =>
      rw [ask_plain] at gives
      exact part.exists_gives_type ih gives
    -- Where the other questions are answered from does not depend on the unit.
    | _ =>
      rw [ask_plain] at gives
      exact part.exists_gives_of_origin ih rfl gives

end PartOf

structure CompletedBy (whole unit : CompilationUnit) : Prop where
  part : unit.PartOf whole
  nothing : ∀ kind name, whole.pool.find? kind name = none
  comes : ∀ kind name, (whole.definition? kind name).isSome → ∃ value, whole.ComesTo kind name value
  found : ∀ kind name, (whole.definition? kind name).isSome → unit.definition? kind name = none →
    (unit.pool.find? kind name).isSome

namespace CompletedBy

theorem find? (completed : whole.CompletedBy unit) {kind : ComponentKind} {name : QName}
    {value : Global kind} (undefined : unit.definition? kind name = none)
    (comes : whole.ComesTo kind name value) : unit.pool.find? kind name = some value := by
  obtain ⟨definition, defined, _⟩ := id comes
  obtain ⟨other, isOther⟩ := Option.isSome_iff_exists.1
    (completed.found kind name (by rw [defined]; rfl) undefined)
  rw [isOther, (completed.part.earlier kind name other isOther).unique comes]

theorem isElement (completed : whole.CompletedBy unit) {name : QName}
    (isElement : whole.isElement name = true) : unit.isElement name = true := by
  have nothing : whole.pool.element? name = none := completed.nothing .element name
  simp only [CompilationUnit.isElement, nothing, Option.isSome_none, Bool.or_false] at isElement
  cases defined : unit.definition? .element name with
  | some definition => simp [CompilationUnit.isElement, defined]
  | none =>
    have found : (unit.pool.element? name).isSome := completed.found .element name isElement defined
    simp [CompilationUnit.isElement, found]

theorem isType (completed : whole.CompletedBy unit) {name : QName}
    (isType : whole.isType name = true) : unit.isType name = true := by
  simp only [CompilationUnit.isType, Bool.or_eq_true] at isType ⊢
  by_cases builtIn : name.ns = schemaNamespace
  · refine .inr ?_
    simp only [Pool.type?, builtIn, beq_self_eq_true, if_true] at isType ⊢
    rcases isType with defined | isBuiltIn
    · obtain ⟨value, comes⟩ := completed.comes .type name defined
      exact comes.builtin completed.part.finds builtIn
    · exact isBuiltIn
  · rw [Pool.type?_eq_find? _ _ builtIn, completed.nothing] at isType
    rw [Pool.type?_eq_find? _ _ builtIn]
    cases defined : unit.definition? .type name with
    | some definition => exact .inl rfl
    | none => exact .inr (completed.found .type name (by simpa using isType) defined)

theorem means_of_fresh (completed : whole.CompletedBy unit) {slot : Slot} {value : slot.Value}
    (isForeign : slot.IsForeign) (gives : (whole.fresh (whole.plain n) d e slot).Gives value) :
    whole.MeansWithin n slot value := by
  unfold fresh at gives
  cases found : whole.definitionOf? slot with
  | some definition =>
    rw [found] at gives
    exact ⟨definition, found, gives⟩
  | none =>
    rw [found] at gives
    exfalso
    have offers := offers_of_elsewhere isForeign gives
    cases slot <;> simp [Offers, completed.nothing] at offers

theorem comesTo (completed : whole.CompletedBy unit) {slot : Slot} {value : slot.Value}
    (isForeign : slot.IsForeign) (means : whole.MeansWithin n slot value) :
    whole.ComesTo slot.key.kind slot.key.name (slot.global value) :=
  (comesTo_iff_means completed.part.finds isForeign).2 ⟨n, means.leniently⟩

section

variable (answers : ∀ q answer, ((whole.plain n).ask q).Gives answer →
  ((unit.plain n).ask q).Gives answer)

include answers

theorem fresh_of_means (completed : whole.CompletedBy unit) {slot : Slot} {value : slot.Value}
    (isForeign : slot.IsForeign) (means : whole.MeansWithin n slot value) :
    (unit.fresh (unit.plain n) d e slot).Gives value := by
  have comes := completed.comesTo isForeign means
  obtain ⟨definition, found, gives⟩ := means
  unfold fresh
  cases defined : unit.definition? slot.key.kind slot.key.name with
  | none =>
    rw [definitionOf?_eq_none defined]
    exact elsewhere_of_find? isForeign defined (completed.find? defined comes)
  | some other =>
    obtain ⟨definedWhole, admits⟩ := Option.filter_eq_some_iff.1 found
    obtain rfl : other = definition :=
      Option.some.inj ((completed.part.definition _ _ _ defined).symm.trans definedWhole)
    rw [definitionOf?_eq_some defined, if_pos admits]
    exact (slot.uniform_body other).gives_mono (stateless_plain n) answers gives

theorem gives_of_origin (completed : whole.CompletedBy unit) {q : Query} {answer : q.Answer}
    (same : unit.origin q = whole.origin q)
    (gives : (whole.plainAnswer (whole.plain n) q).Gives answer) :
    (unit.plainAnswer (unit.plain n) q).Gives answer := by
  unfold plainAnswer at gives ⊢
  rw [same]
  cases comes : whole.origin q with
  | settled answer' =>
    rw [comes] at gives
    exact gives
  | slot d e slot view =>
    rw [comes] at gives
    obtain ⟨value, givesValue, rfl⟩ :=
      (stateless_fresh (stateless_plain n) slot).gives_map_iff.1 gives
    have isForeign := isForeign_of_origin comes
    have means := completed.means_of_fresh isForeign givesValue
    exact (stateless_fresh (stateless_plain n) slot).gives_map_iff.2
      ⟨value, completed.fresh_of_means answers isForeign means, rfl⟩

theorem gives_type (completed : whole.CompletedBy unit) {name : QName}
    {answer : TypeDefinition ElementDecl}
    (gives : (whole.plainAnswer (whole.plain n) (.type d e name)).Gives answer) :
    (unit.plainAnswer (unit.plain n) (.type d e name)).Gives answer := by
  by_cases builtIn : name.ns = schemaNamespace
  · exact completed.gives_of_origin answers (by simp [origin, builtIn]) gives
  · cases defined : unit.definition? .type name with
    | some definition =>
      have definedWhole := completed.part.definition _ _ _ defined
      exact completed.gives_of_origin answers (by simp [origin, defined, definedWhole]) gives
    | none =>
      -- In the part the type is found in the pool, whatever its kind.
      suffices comes : whole.ComesTo .type name answer by
        have found := completed.find? defined comes
        simp only [plainAnswer, origin, beq_iff_eq, builtIn, if_false, defined,
          Pool.type?_eq_find? _ _ builtIn, found]
        exact fun _ => rfl
      cases definedWhole : whole.definition? .type name with
      | none =>
        simp only [plainAnswer, origin, beq_iff_eq, builtIn, if_false, definedWhole,
          Pool.type?_eq_find? _ _ builtIn, completed.nothing] at gives
        exact absurd gives not_gives_throw
      | some definition =>
        obtain ⟨value, comes⟩ := completed.comes .type name (by rw [definedWhole]; rfl)
        obtain ⟨m, holds⟩ :=
          ask_type_of_comesTo (d := d) (e := e) completed.part.finds builtIn comes
        have strict : ((whole.plain (n + 1)).ask (.type d e name)).Gives answer := by
          rwa [ask_plain]
        have lenient := gives_lenient_of_plain _ _ _ strict
        obtain rfl := (gives_lenient_mono (Nat.le_max_left _ _) _ _ lenient).unique
          (gives_lenient_mono (Nat.le_max_right _ _) _ _ holds)
        exact comes

end

theorem gives_plain (completed : whole.CompletedBy unit) (n : Nat) (q : Query) (answer : q.Answer)
    (gives : ((whole.plain n).ask q).Gives answer) : ((unit.plain n).ask q).Gives answer := by
  induction n generalizing q with
  | zero =>
    cases q with
    | isElement d e name =>
      rw [gives_isElement, isElement_plain] at gives ⊢
      exact completed.isElement gives
    | isType d e name =>
      rw [gives_isType, isType_plain] at gives ⊢
      exact completed.isType gives
    | _ => exact absurd gives not_gives_throw
  | succ n ih =>
    cases q with
    | isElement d e name =>
      rw [gives_isElement, isElement_plain] at gives ⊢
      exact completed.isElement gives
    | isType d e name =>
      rw [gives_isType, isType_plain] at gives ⊢
      exact completed.isType gives
    | type d e name =>
      rw [ask_plain] at gives ⊢
      exact completed.gives_type ih gives
    | _ =>
      rw [ask_plain] at gives ⊢
      exact completed.gives_of_origin ih rfl gives

end CompletedBy

variable {docs all : List Document} {pool : Pool} {grammars : List Grammar}

theorem partOf_ofDocuments (undisputed : Undisputed all) (among : ∀ d ∈ docs, d ∈ all)
    (earlier : ∀ kind name value, pool.find? kind name = some value →
      (ofDocuments all {}).ComesTo kind name value) :
    (ofDocuments docs pool).PartOf (ofDocuments all {}) where
  finds := findsByName_ofDocuments all {}
  definition kind name definition found := by
    obtain ⟨member, target, isChild, declares⟩ := mem_of_definition? found
    exact (lookup_eq_some_iff_mem undisputed).2 (List.mem_flatMap.2 ⟨definition.document,
      among _ member, mem_definitionsOf.2 ⟨rfl, isChild, target.symm, declares⟩⟩)
  earlier := earlier

theorem definition?_of_declares (undisputed : Undisputed all) (member : d ∈ all)
    (among : e ∈ schemaChildren d.root) {kind : ComponentKind} {name : QName}
    (target : d.target = name.ns) (declares : Declares e kind name.localName) (pool : Pool) :
    (ofDocuments all pool).definition? kind name = some ⟨d, e⟩ :=
  (lookup_eq_some_iff_mem undisputed).2 (List.mem_flatMap.2
    ⟨d, member, mem_definitionsOf.2 ⟨rfl, among, target.symm, declares⟩⟩)

theorem PartOf.comesTo (part : (ofDocuments docs pool).PartOf (ofDocuments all {}))
    (undisputed : Undisputed all) (among : ∀ d ∈ docs, d ∈ all)
    (describes : Describes ((ofDocuments docs pool).plain n) docs grammars) {kind : ComponentKind}
    {name : QName} {value : Global kind} (provided : Provides grammars kind name value) :
    (ofDocuments all {}).ComesTo kind name value := by
  obtain ⟨d, member, target, e, isChild, declares, canGive⟩ :=
    describes.sound kind name value (describes.provides_iff.1 provided)
  have stateless : ((ofDocuments docs pool).plain n).Stateless := stateless_plain n
  have uniform := uniform_globalOf d e name.localName kind
  have gives := (uniform.stateless stateless).gives_of_canGive canGive
  have defined := definition?_of_declares undisputed (among d member) isChild target declares {}
  refine ⟨⟨d, e⟩, defined, ?_⟩
  exact exists_gives_of_uniform uniform stateless (part.exists_gives_lenient n) gives

theorem CompletedBy.run_compile
    (completed : (ofDocuments all {}).CompletedBy (ofDocuments docs pool))
    (among : ∀ d ∈ docs, d ∈ all) (evaluates : Evaluates ((ofDocuments all {}).plain n) all)
    (symbols : SymbolTable) :
    ∃ grammars st, (ofDocuments docs pool).compile.run { symbols } = (.ok grammars, st) := by
  have evaluatesPart : Evaluates ((ofDocuments docs pool).plain n) docs := by
    intro d member e isChild kind name declares
    obtain ⟨value, gives⟩ := evaluates d (among d member) e isChild kind name declares
    exact ⟨value, (uniform_globalOf d e name kind).gives_mono (stateless_plain n)
      (completed.gives_plain n) gives⟩
  obtain ⟨grammars, gives⟩ := gives_addDocuments evaluatesPart []
  obtain ⟨st, ran⟩ := @run_compile_of_plain (ofDocuments docs pool) n grammars gives symbols
  exact ⟨grammars, st, ran⟩

end CompilationUnit

end XmlSchema.Schema
