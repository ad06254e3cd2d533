import XmlSchema.Proofs.Validation.Judgement

/-!
# What an open element has taken

A frame that has not complained of anything is as far as the demands on the content of its element
let it get (`Fits`): the content model has read the names of the children so far, and the text so
far is kept or is blank. Every piece of text and every child keeps this or is complained of, and
what is complained of is never admitted. The end of an element is not complained of exactly when its
children and its text are admitted as a whole (`Fits.close_eq_nil`).
-/

namespace XmlSchema.Validation

open Component ContentModel Datatype
open Instance (StartTag Attribute)
open Instance.Progress (isBlankText)
open Report (Cause)

/-! ## What is complained of at a start tag

Each check of a start tag gives the causes of complaint that it finds. Here it is said when there
are none, in the terms in which an element is judged, such as its governing type
(`chooseType_eq_nil`) and whether it is nil (`checkNil_eq_iff`).
-/

/-! ## Values and attributes -/

theorem checkElementValue_eq_nil {type : SimpleType} {decl : ElementDecl} {text element : String} :
    checkElementValue type decl text element = [] ↔
      isValueOf type decl.fixed? (if text.isEmpty then emptyValue decl else text) = true := by
  unfold checkElementValue isValueOf
  generalize (if text.isEmpty then emptyValue decl else text) = raw
  cases valid : type.validate raw with
  | error fault => simp [valid]
  | ok value => cases decl.fixed? with
    | none => simp [valid]
    | some fixed => by_cases equal : value = type.whiteSpace.apply fixed <;> simp [valid, equal]

theorem checkAttributeValue_eq_nil {decl : AttributeDecl} {given : Attribute} {element : String} :
    checkAttributeValue decl given element = [] ↔
      isValueOf decl.type decl.fixed? given.value = true := by
  unfold checkAttributeValue isValueOf
  cases decl.type.validate given.value with
  | error fault => simp
  | ok value => cases decl.fixed? with
    | none => simp
    | some fixed => by_cases equal : value = decl.type.whiteSpace.apply fixed <;> simp [equal]

theorem checkAttribute_eq_nil {pool : Pool} {type : ComplexType ElementDecl} {element : String}
    {given : Attribute} :
    checkAttribute pool type element given = [] ↔ allowsAttribute pool type given = true := by
  unfold checkAttribute allowsAttribute
  by_cases reserved : given.name.ns = instanceNamespace
  · simp [reserved]
  · cases type.attribute? given.name with
    | some use => simp [reserved, checkAttributeValue_eq_nil]
    | none =>
      cases type.attributeWildcard with
      | none => simp [reserved]
      | some w =>
        cases allowed : w.allows given.name.ns with
        | false => simp [reserved, allowed]
        | true =>
          cases process : w.process <;> cases pool.attribute? given.name <;>
            simp [reserved, allowed, process, checkAttributeValue_eq_nil]

theorem missingAttributes_eq_nil {type : ComplexType ElementDecl} {tag : StartTag}
    {element : String} :
    missingAttributes type tag element = [] ↔
      (type.attributes.all fun use =>
        !use.required || tag.attributes.any fun a => a.name == use.decl.name) = true := by
  simp only [missingAttributes, List.map_eq_nil_iff, List.filter_eq_nil_iff, List.all_eq_true]
  refine forall₂_congr fun use _ => ?_
  cases use.required <;> simp

theorem checkAttributes_eq_nil {pool : Pool} {type : ComplexType ElementDecl} {tag : StartTag}
    {element : String} :
    checkAttributes pool type tag element = [] ↔
      acceptsAttributes.ofComplex pool tag type = true := by
  simp only [checkAttributes, List.append_eq_nil_iff, List.flatMap_eq_nil_iff,
    missingAttributes_eq_nil, checkAttribute_eq_nil, acceptsAttributes.ofComplex, Bool.and_eq_true,
    List.all_eq_true]

theorem checkSimpleTypeAttributes_eq_nil {tag : StartTag} {element : String} :
    checkSimpleTypeAttributes tag element = [] ↔
      (tag.attributes.all fun a => a.name.ns == instanceNamespace) = true := by
  simp [checkSimpleTypeAttributes, List.filter_eq_nil_iff]

/-! ## The type and the nil attribute -/

theorem checkNil_eq_iff {decl : ElementDecl} {tag : StartTag} {nil : Bool} :
    checkNil decl tag = (nil, []) ↔ nil? decl tag = some nil := by
  unfold checkNil nil?
  cases tag.value? nilAttribute with
  | none => simp
  | some value =>
    simp only
    generalize Text.trim value = said
    split <;> cases decl.nillable <;> cases decl.fixed? <;> simp

theorem nil?_eq_none {decl : ElementDecl} {tag : StartTag} (objected : (checkNil decl tag).2 ≠ []) :
    nil? decl tag = none := by
  cases given : nil? decl tag with
  | none => rfl
  | some nil => exact absurd (congrArg Prod.snd (checkNil_eq_iff.2 given)) objected

theorem chooseType_eq_nil {pool : Pool} {decl : ElementDecl} {tag : StartTag} {element : String}
    {identity : TypeIdentity} {declared type : TypeDefinition ElementDecl}
    (known : pool.typeOf? decl.type = some declared) :
    (chooseType pool tag element identity declared).2 = (type, []) ↔
      governingType? pool decl tag = some type := by
  unfold chooseType governingType?
  cases tag.typeRequest? with
  | none => simp [known]
  | some request => cases named : request.name? with
    | none => simp [known, named]
    | some name => cases found : pool.type? name with
      | none => simp [known, named, found]
      | some asked => by_cases derived : pool.isDerivedFrom asked declared = true <;>
          simp [known, named, found, derived]

theorem governingType?_eq_none {pool : Pool} {decl : ElementDecl} {tag : StartTag}
    {element : String} {identity : TypeIdentity} {declared : TypeDefinition ElementDecl}
    (known : pool.typeOf? decl.type = some declared)
    (objected : (chooseType pool tag element identity declared).2.2 ≠ []) :
    governingType? pool decl tag = none := by
  cases given : governingType? pool decl tag with
  | none => rfl
  | some type =>
    exact absurd (congrArg Prod.snd ((chooseType_eq_nil known).2 given)) objected

theorem isBlankText_append (text more : String) :
    isBlankText (text ++ more) = (isBlankText text && isBlankText more) := by
  simp [isBlankText, String.toList_append]

/-- The frame of an element meets demands on the content, after children of some names and some
text. -/
inductive Fits : Frame → ChildDemand → TextDemand → List QName → String → Prop
  | skipped {frame : Frame} {before : List QName} {text : String} (notNil : frame.nil = false)
      (kind : frame.kind = .skip) : Fits frame .unchecked .anything before text
  | lax {frame : Frame} {before : List QName} {text : String} (notNil : frame.nil = false)
      (kind : frame.kind = .lax) : Fits frame .lax .anything before text
  | nil {frame : Frame} {text : String} (isNil : frame.nil = true)
      (quiet : frame.textReported = false) (blank : isBlankText text = true) :
      Fits frame .none .blank [] text
  | empty {frame : Frame} {text : String} {type : ComplexType ElementDecl} {state : State}
      {decl : ElementDecl} (notNil : frame.nil = false)
      (kind : frame.kind = .complex type state decl) (content : type.content = .empty)
      (quiet : frame.textReported = false) (blank : isBlankText text = true) :
      Fits frame .none .blank [] text
  | simple {frame : Frame} {type : SimpleType} {decl : ElementDecl} (notNil : frame.nil = false)
      (kind : frame.kind = .simple type decl) : Fits frame .none (.value type decl) [] frame.text
  | simpleContent {frame : Frame} {type : ComplexType ElementDecl} {state : State}
      {decl : ElementDecl} {value : SimpleType} (notNil : frame.nil = false)
      (kind : frame.kind = .complex type state decl) (content : type.content = .simple value) :
      Fits frame .none (.value value decl) [] frame.text
  | elementOnly {frame : Frame} {before : List QName} {text : String}
      {type : ComplexType ElementDecl} {state : State} {decl : ElementDecl}
      {model : ContentModel ElementDecl} (notNil : frame.nil = false)
      (kind : frame.kind = .complex type state decl) (content : type.content = .elementOnly model)
      (reached : model.run model.start before = some state) (quiet : frame.textReported = false)
      (blank : isBlankText text = true) : Fits frame (.model model) .blank before text
  | mixed {frame : Frame} {before : List QName} {text : String}
      {type : ComplexType ElementDecl} {state : State} {decl : ElementDecl}
      {model : ContentModel ElementDecl} (notNil : frame.nil = false)
      (kind : frame.kind = .complex type state decl) (content : type.content = .mixed model)
      (reached : model.run model.start before = some state) :
      Fits frame (.model model) .anything before text

variable {pool : Pool} {frame : Frame} {children : ChildDemand} {content : TextDemand}
  {before : List QName} {text : String}

/-! ## The start -/

def demandsUnlessNil (nil : Bool) (demands : ChildDemand × TextDemand) : ChildDemand × TextDemand :=
  if nil then (.none, .blank) else demands

theorem fits_complex {type : ComplexType ElementDecl} {decl : ElementDecl} {element : String}
    {nil : Bool} :
    Fits { localName := element, kind := .complex type (startState type) decl, nil }
      (demandsUnlessNil nil (complexDemands decl type)).1
      (demandsUnlessNil nil (complexDemands decl type)).2 [] "" := by
  cases nil with
  | true => exact .nil rfl rfl (by simp [isBlankText])
  | false =>
    simp only [demandsUnlessNil, Bool.false_eq_true, if_false, complexDemands]
    cases taken : type.content with
    | empty => exact .empty rfl rfl taken rfl (by simp [isBlankText])
    | simple value => exact .simpleContent rfl rfl taken
    | elementOnly model =>
      exact .elementOnly rfl rfl taken (by simp [startState, taken, run]) rfl (by simp [isBlankText])
    | mixed model => exact .mixed rfl rfl taken (by simp [startState, taken, run])

variable {checks : SchemaChecks} {tag : StartTag}

theorem report_disabled (disabled : checks.enabled = false) (identity : TypeIdentity)
    (type : ComplexType ElementDecl) : checks.report identity type = (checks, []) := by
  simp [SchemaChecks.report, disabled]

theorem openComplex_eq_nil {identity : TypeIdentity} {type : ComplexType ElementDecl}
    {decl : ElementDecl} {nil : Bool} (disabled : checks.enabled = false) :
    (openComplex pool checks identity type decl nil tag).2.2 = [] ↔
      type.isAbstract = false ∧ acceptsAttributes.ofComplex pool tag type = true := by
  simp [openComplex, report_disabled disabled, checkAttributes_eq_nil]

theorem openDeclared_known {decl : ElementDecl} {declared type : TypeDefinition ElementDecl}
    {identity : TypeIdentity} {nil : Bool} {typeCauses nilCauses : List Cause}
    (disabled : checks.enabled = false) (known : pool.typeOf? decl.type = some declared)
    (chosen : chooseType pool tag tag.name.localName decl.type.identity declared =
      (identity, type, typeCauses))
    (said : checkNil decl tag = (nil, nilCauses)) :
    (openDeclared pool checks decl tag).2.1 = checks ∧
      ((openDeclared pool checks decl tag).2.2 = [] ↔
        (decl.isAbstract = false ∧ typeCauses = [] ∧ nilCauses = []) ∧
          isAbstractType type = false ∧ acceptsAttributes pool tag type = true) ∧
      Fits (openDeclared pool checks decl tag).1
        (demandsUnlessNil nil (contentDemands decl type)).1
        (demandsUnlessNil nil (contentDemands decl type)).2 [] "" := by
  simp only [openDeclared, known, chosen, said]
  have notAbstract : (if decl.isAbstract = true then
      [violated (.abstractElement tag.name.localName)] else []) = [] ↔ decl.isAbstract = false := by
    simp
  cases type with
  | simple type =>
    refine ⟨rfl, ?_, ?_⟩
    · simp only [List.append_eq_nil_iff, notAbstract, checkSimpleTypeAttributes_eq_nil,
        isAbstractType, acceptsAttributes, true_and, and_assoc]
    · cases nil with
      | true => exact .nil rfl rfl (by simp [isBlankText])
      | false => exact .simple rfl rfl
  | anyType =>
    refine ⟨by simp [openComplex, report_disabled disabled], ?_, fits_complex⟩
    simp only [List.append_eq_nil_iff, notAbstract, openComplex_eq_nil disabled, isAbstractType,
      acceptsAttributes, and_assoc, ComplexType.anyType]
  | complex type =>
    refine ⟨by simp [openComplex, report_disabled disabled], ?_, fits_complex⟩
    simp only [List.append_eq_nil_iff, notAbstract, openComplex_eq_nil disabled, isAbstractType,
      acceptsAttributes, and_assoc]

theorem fits_openFrame {resolution : Resolution} (disabled : checks.enabled = false)
    (silent : (openFrame pool checks resolution tag).2.2 = []) :
    ∃ children content, demands? pool resolution tag = some (children, content) ∧
      Fits (openFrame pool checks resolution tag).1 children content [] "" := by
  cases resolution with
  | skip => exact ⟨_, _, rfl, .skipped rfl rfl⟩
  | lax => exact ⟨_, _, rfl, .lax rfl rfl⟩
  | declared decl =>
    cases known : pool.typeOf? decl.type with
    | none => simp [openFrame, openDeclared, known] at silent
    | some declared =>
      rcases chosen : chooseType pool tag tag.name.localName decl.type.identity declared with
        ⟨identity, type, typeCauses⟩
      rcases said : checkNil decl tag with ⟨nil, nilCauses⟩
      obtain ⟨_, accepted, fits⟩ := openDeclared_known disabled known chosen said
      obtain ⟨⟨notAbstract, rfl, rfl⟩, concrete, attributes⟩ := accepted.1 silent
      refine ⟨_, _, ?_, fits⟩
      have governing := (chooseType_eq_nil known).1 (congrArg Prod.snd chosen)
      have nil := checkNil_eq_iff.1 said
      simp [demands?, governing, nil, notAbstract, concrete, attributes, demandsUnlessNil]

theorem demands?_eq_none {resolution : Resolution} (disabled : checks.enabled = false)
    (objected : (openFrame pool checks resolution tag).2.2 ≠ []) :
    demands? pool resolution tag = none := by
  cases resolution with
  | skip | lax => exact absurd rfl objected
  | declared decl =>
    cases known : pool.typeOf? decl.type with
    | none => simp [demands?, governingType?, known]
    | some declared =>
      rcases chosen : chooseType pool tag tag.name.localName decl.type.identity declared with
        ⟨identity, type, typeCauses⟩
      rcases said : checkNil decl tag with ⟨nil, nilCauses⟩
      obtain ⟨_, accepted, _⟩ := openDeclared_known disabled known chosen said
      by_cases ofType : typeCauses = []
      · by_cases ofNil : nilCauses = []
        · subst ofType ofNil
          have governing := (chooseType_eq_nil known).1 (congrArg Prod.snd chosen)
          have nil := checkNil_eq_iff.1 said
          simp only [demands?, governing, nil]
          refine if_neg fun passed => objected (accepted.2 ?_)
          simpa [and_assoc] using passed
        · have nil := nil?_eq_none (by rw [said]; exact ofNil)
          simp [demands?, nil]
      · have governing := governingType?_eq_none known (by rw [chosen]; exact ofType)
        simp [demands?, governing]

theorem openFrame_checks {resolution : Resolution} (disabled : checks.enabled = false) :
    (openFrame pool checks resolution tag).2.1 = checks := by
  cases resolution with
  | skip | lax => rfl
  | declared decl =>
    cases known : pool.typeOf? decl.type with
    | none => simp [openFrame, openDeclared, known]
    | some declared => exact (openDeclared_known disabled known rfl rfl).1

/-! ## Text -/

theorem characters_ignored (use : frame.textUse = .ignored) (piece : String) :
    frame.characters piece = (frame, []) := by
  simp [Frame.characters, use]

theorem characters_collected (use : frame.textUse = .collected) (piece : String) :
    frame.characters piece = ({ frame with text := frame.text ++ piece }, []) := by
  simp [Frame.characters, use]

theorem characters_forbidden {violation : Violation} (use : frame.textUse = .forbidden violation)
    (quiet : frame.textReported = false) {piece : String}
    (silent : (frame.characters piece).2 = []) :
    frame.characters piece = (frame, []) ∧ isBlankText piece = true := by
  unfold Frame.characters at silent ⊢
  cases blank : isBlankText piece <;> simp_all

theorem Fits.characters (fits : Fits frame children content before text) {piece : String}
    (silent : (frame.characters piece).2 = []) :
    Fits (frame.characters piece).1 children content before (text ++ piece) := by
  cases fits with
  | skipped notNil kind =>
    rw [characters_ignored (by simp [Frame.textUse, notNil, kind])]
    exact .skipped notNil kind
  | lax notNil kind =>
    rw [characters_ignored (by simp [Frame.textUse, notNil, kind])]
    exact .lax notNil kind
  | nil isNil quiet blank =>
    -- Where text is forbidden, silence tells that the piece is blank.
    have use : frame.textUse = .forbidden (.contentOfNil frame.localName) := by
      simp [Frame.textUse, isNil]
    obtain ⟨same, blankPiece⟩ := characters_forbidden use quiet silent
    rw [same]
    exact .nil isNil quiet (by simp [isBlankText_append, blank, blankPiece])
  | empty notNil kind taken quiet blank =>
    have use : frame.textUse = .forbidden (.contentOfEmpty frame.localName) := by
      simp [Frame.textUse, notNil, kind, taken]
    obtain ⟨same, blankPiece⟩ := characters_forbidden use quiet silent
    rw [same]
    exact .empty notNil kind taken quiet (by simp [isBlankText_append, blank, blankPiece])
  | simple notNil kind =>
    rw [characters_collected (by simp [Frame.textUse, notNil, kind])]
    exact .simple notNil kind
  | simpleContent notNil kind taken =>
    rw [characters_collected (by simp [Frame.textUse, notNil, kind, taken])]
    exact .simpleContent notNil kind taken
  | elementOnly notNil kind taken reached quiet blank =>
    have use : frame.textUse = .forbidden (.textInElementOnly frame.localName) := by
      simp [Frame.textUse, notNil, kind, taken]
    obtain ⟨same, blankPiece⟩ := characters_forbidden use quiet silent
    rw [same]
    exact .elementOnly notNil kind taken reached quiet
      (by simp [isBlankText_append, blank, blankPiece])
  | mixed notNil kind taken reached =>
    rw [characters_ignored (by simp [Frame.textUse, notNil, kind, taken])]
    exact .mixed notNil kind taken reached

theorem Fits.characters_refused (fits : Fits frame children content before text) {piece : String}
    (objected : (frame.characters piece).2 ≠ []) (more : String) :
    content.admits (text ++ piece ++ more) = false := by
  have notBlank : isBlankText piece = false := by
    unfold Frame.characters at objected
    cases blank : isBlankText piece with
    | false => rfl
    | true => cases use : frame.textUse <;> simp [use, blank] at objected
  have refused : TextDemand.blank.admits (text ++ piece ++ more) = false := by
    simp [TextDemand.admits, isBlankText_append, notBlank]
  cases fits with
  | skipped notNil kind | lax notNil kind | simple notNil kind =>
    simp [Frame.characters, Frame.textUse, notNil, kind] at objected
  | simpleContent notNil kind taken | mixed notNil kind taken =>
    simp [Frame.characters, Frame.textUse, notNil, kind, taken] at objected
  | nil | empty | elementOnly => exact refused

/-! ## Children -/

theorem resolveLabel_eq_iff {name : QName} {label : Label ElementDecl} {resolution : Resolution} :
    resolveLabel pool name label = (resolution, []) ↔
      labelResolution? pool name label = some resolution := by
  unfold resolveLabel labelResolution? strictLookup
  rcases label with ⟨term, _ | decl⟩ | w
  · cases known : pool.element? term <;> simp [known]
  · simp
  · cases process : w.process with
    | skip | lax => simp [process]
    | strict => cases pool.element? name <;> simp [process]

theorem labelResolution?_eq_none {name : QName} {label : Label ElementDecl}
    (objected : (resolveLabel pool name label).2 ≠ []) : labelResolution? pool name label = none := by
  cases given : labelResolution? pool name label with
  | none => rfl
  | some resolution => exact absurd (congrArg Prod.snd (resolveLabel_eq_iff.2 given)) objected

theorem resolution?_model {model : ContentModel ElementDecl} {state : State} {name : QName}
    (reached : model.run model.start before = some state) :
    (ChildDemand.model model).resolution? pool before name =
      (model.step state name).bind fun (label, _) => labelResolution? pool name label := by
  simp [ChildDemand.resolution?, reached]

theorem resolveInModel_eq {model : ContentModel ElementDecl} {state : State} {name : QName}
    (reached : model.run model.start before = some state)
    (silent : (resolveInModel pool model state name).2.2 = []) :
    (ChildDemand.model model).resolution? pool before name =
        some (resolveInModel pool model state name).1 ∧
      model.run model.start (before ++ [name]) =
        some (resolveInModel pool model state name).2.1 := by
  rw [resolution?_model reached, run_append, reached]
  unfold resolveInModel at silent ⊢
  cases stepped : model.step state name with
  | none => simp [stepped] at silent
  | some result =>
    obtain ⟨label, next⟩ := result
    simp only [stepped] at silent
    refine ⟨?_, by simp [run, stepped]⟩
    exact resolveLabel_eq_iff.1 (Prod.ext rfl silent)

theorem resolution?_model_eq_none {model : ContentModel ElementDecl} {state : State} {name : QName}
    (reached : model.run model.start before = some state)
    (objected : (resolveInModel pool model state name).2.2 ≠ []) :
    (ChildDemand.model model).resolution? pool before name = none := by
  rw [resolution?_model reached]
  unfold resolveInModel at objected
  cases stepped : model.step state name with
  | none => rfl
  | some result =>
    simp only [stepped] at objected
    exact labelResolution?_eq_none objected

theorem Fits.child (fits : Fits frame children content before text) {name : QName}
    (silent : (frame.child pool name).2.2 = []) :
    children.resolution? pool before name = some (frame.child pool name).1 ∧
      Fits (frame.child pool name).2.1 children content (before ++ [name]) text := by
  cases fits with
  | skipped notNil kind =>
    simpa [Frame.child, notNil, kind, ChildDemand.resolution?] using .skipped notNil kind
  | lax notNil kind =>
    simpa [Frame.child, notNil, kind, ChildDemand.resolution?] using .lax notNil kind
  | nil isNil => simp [Frame.child, isNil] at silent
  | empty notNil kind taken => simp [Frame.child, notNil, kind, taken] at silent
  | simple notNil kind => simp [Frame.child, notNil, kind] at silent
  | simpleContent notNil kind taken => simp [Frame.child, notNil, kind, taken] at silent
  | elementOnly notNil kind taken reached quiet blank =>
    simp only [Frame.child, notNil, kind, taken, Bool.false_eq_true, if_false] at silent ⊢
    obtain ⟨resolved, read⟩ := resolveInModel_eq reached silent
    exact ⟨resolved, .elementOnly rfl rfl taken read quiet blank⟩
  | mixed notNil kind taken reached =>
    simp only [Frame.child, notNil, kind, taken, Bool.false_eq_true, if_false] at silent ⊢
    obtain ⟨resolved, read⟩ := resolveInModel_eq reached silent
    exact ⟨resolved, .mixed rfl rfl taken read⟩

theorem Fits.child_refused (fits : Fits frame children content before text) {name : QName}
    (objected : (frame.child pool name).2.2 ≠ []) :
    children.resolution? pool before name = none := by
  cases fits with
  | skipped notNil kind => simp [Frame.child, notNil, kind] at objected
  | lax notNil kind => simp [Frame.child, notNil, kind] at objected
  | nil | empty | simple | simpleContent => rfl
  | elementOnly notNil kind taken reached | mixed notNil kind taken reached =>
    simp only [Frame.child, notNil, kind, taken, Bool.false_eq_true, if_false] at objected
    exact resolution?_model_eq_none reached objected

/-! ## The end -/

theorem Fits.close_eq_nil (fits : Fits frame children content before text) :
    frame.close = [] ↔ children.admits before = true ∧ content.admits text = true := by
  cases fits with
  | skipped notNil kind | lax notNil kind =>
    simp [Frame.close, notNil, kind, ChildDemand.admits, TextDemand.admits]
  | nil isNil quiet blank =>
    simp [Frame.close, isNil, ChildDemand.admits, TextDemand.admits, blank]
  | empty notNil kind taken quiet blank =>
    simp [Frame.close, notNil, kind, taken, ChildDemand.admits, TextDemand.admits, blank]
  | simple notNil kind =>
    simp [Frame.close, notNil, kind, ChildDemand.admits, TextDemand.admits,
      checkElementValue_eq_nil, emptyValue]
  | simpleContent notNil kind taken =>
    simp [Frame.close, notNil, kind, taken, ChildDemand.admits, TextDemand.admits,
      checkElementValue_eq_nil, emptyValue]
  | elementOnly notNil kind taken reached quiet blank =>
    simp [Frame.close, notNil, kind, taken, ChildDemand.admits, TextDemand.admits, accepts, reached,
      blank]
  | mixed notNil kind taken reached =>
    simp [Frame.close, notNil, kind, taken, ChildDemand.admits, TextDemand.admits, accepts, reached]

end XmlSchema.Validation
