import XmlSchema.Schema.Definition

namespace XmlSchema.Xml.Element

theorem height_eq (e : Element) : e.height = heightOfAll e.children + 1 := by
  cases e
  rfl

theorem height_le_heightOfAll {e : Element} {es : List Element} (member : e ∈ es) :
    e.height ≤ heightOfAll es := by
  induction es with
  | nil => cases member
  | cons first rest ih =>
    rw [heightOfAll]
    rcases List.mem_cons.1 member with rfl | later
    · exact Nat.le_max_left _ _
    · exact Nat.le_trans (ih later) (Nat.le_max_right _ _)

end XmlSchema.Xml.Element

namespace XmlSchema.Schema

open Xml (Element)

theorem height_lt_of_mem_schemaChildren {e child : Element} (member : child ∈ schemaChildren e) :
    child.height < e.height := by
  have bound := Element.height_le_heightOfAll ((List.mem_filter.1 member).1)
  rw [e.height_eq]
  omega

theorem height_lt_of_schemaChild? {e child : Element} {name : String}
    (found : schemaChild? e name = some child) : child.height < e.height :=
  height_lt_of_mem_schemaChildren (List.mem_of_find?_eq_some found)

theorem Compile.mapM_congr {α β : Type} {f g : α → Compile β} {items : List α}
    (same : ∀ a ∈ items, f a = g a) : items.mapM f = items.mapM g := by
  induction items with
  | nil => rfl
  | cons a items ih =>
    obtain ⟨first, rest⟩ := List.forall_mem_cons.1 same
    rw [List.mapM_cons, List.mapM_cons, first, ih rest]

namespace Definition

theorem height_lt_of_derivation? {content step : Element} {derivation : Component.Derivation}
    (derives : derivation? content = some (step, derivation)) : step.height < content.height := by
  unfold derivation? at derives
  split at derives
  · next found =>
    cases derives
    exact height_lt_of_schemaChild? found
  · next found =>
    cases derives
    exact height_lt_of_schemaChild? found
  · cases derives

theorem height_lt_of_contentChild? {e child : Element} (found : contentChild? e = some child) :
    child.height < e.height :=
  height_lt_of_mem_schemaChildren (List.mem_of_find?_eq_some found)

variable (names : Names) (d : Document)

theorem simpleType_eq_of_deep (depth depth' : Nat) (e : Element) (name : Option String)
    (deep : e.height ≤ depth) (deep' : e.height ≤ depth') :
    simpleType names d depth e name = simpleType names d depth' e name := by
  induction depth generalizing depth' e name with
  | zero => exact absurd e.height_eq (by omega)
  | succ depth ih =>
    obtain ⟨depth', rfl⟩ : ∃ less, depth' = less + 1 := ⟨depth' - 1, by have := e.height_eq; omega⟩
    have inline (parent child : Element) (below : parent.height < e.height)
        (member : child ∈ schemaChildren parent) :
        simpleType names d depth child none = simpleType names d depth' child none := by
      have less := height_lt_of_mem_schemaChildren member
      exact ih depth' child none (by omega) (by omega)
    simp only [simpleType]
    split
    · next restriction found =>
      split
      · rfl
      · next child _ foundChild =>
        rw [inline restriction child (height_lt_of_schemaChild? found)
          (List.mem_of_find?_eq_some foundChild)]
      · rfl
    · next list _ found =>
      split
      · rfl
      · next child _ foundChild =>
        rw [inline list child (height_lt_of_schemaChild? found)
          (List.mem_of_find?_eq_some foundChild)]
      · rfl
    · next union _ _ found =>
      have members : ((schemaChildren union).filter (·.name.localName == "simpleType")).mapM
            (fun child => simpleType names d depth child none) =
          ((schemaChildren union).filter (·.name.localName == "simpleType")).mapM
            fun child => simpleType names d depth' child none :=
        Compile.mapM_congr fun child member => inline union child (height_lt_of_schemaChild? found)
          (List.mem_filter.1 member).1
      rw [members]
    · rfl

-- A particle may be a declaration of the same height, and only then a type of a smaller one, so each
-- height takes two steps.
mutual

theorem elementDecl_eq_of_deep : (depth depth' : Nat) → (e : Element) → (isGlobal : Bool) →
    2 * e.height ≤ depth + 1 → 2 * e.height ≤ depth' + 1 →
      elementDecl names d depth e isGlobal = elementDecl names d depth' e isGlobal
  | 0, _, e, _, deep, _ | _ + 1, 0, e, _, _, deep => absurd e.height_eq (by omega)
  | depth + 1, depth' + 1, e, isGlobal, deep, deep' => by
      have inline (child : Element) (found : schemaChild? e "complexType" = some child) :
          complexType names d depth child none = complexType names d depth' child none := by
        have less := height_lt_of_schemaChild? found
        exact complexType_eq_of_deep depth depth' child none (by omega) (by omega)
      simp only [elementDecl]
      split
      · rfl
      · split
        · rfl
        · next found => rw [inline _ found]
        · rfl
        · rfl

theorem particle_eq_of_deep : (depth depth' : Nat) → (e : Element) → 2 * e.height ≤ depth →
    2 * e.height ≤ depth' → particle names d depth e = particle names d depth' e
  | 0, _, e, deep, _ | _ + 1, 0, e, _, deep => absurd e.height_eq (by omega)
  | depth + 1, depth' + 1, e, deep, deep' => by
      have children : (schemaChildren e).mapM (particle names d depth) =
          (schemaChildren e).mapM (particle names d depth') := by
        refine Compile.mapM_congr fun child member => ?_
        have less := height_lt_of_mem_schemaChildren member
        exact particle_eq_of_deep depth depth' child (by omega) (by omega)
      have decl := elementDecl_eq_of_deep depth depth' e false deep deep'
      simp only [particle, children, decl]

theorem complexType_eq_of_deep : (depth depth' : Nat) → (e : Element) →
    (name : Option Component.QName) → 2 * e.height ≤ depth → 2 * e.height ≤ depth' →
      complexType names d depth e name = complexType names d depth' e name
  | 0, _, e, _, deep, _ | _ + 1, 0, e, _, _, deep => absurd e.height_eq (by omega)
  | depth + 1, depth' + 1, e, name, deep, deep' => by
      have own (parent child : Element) (below : parent.height ≤ e.height)
          (found : contentChild? parent = some child) :
          particle names d depth child = particle names d depth' child := by
        have less := height_lt_of_contentChild? found
        exact particle_eq_of_deep depth depth' child (by omega) (by omega)
      simp only [complexType]
      split
      · rfl
      · next content found =>
        split
        · rfl
        · next step derivation derives =>
          have lessContent := height_lt_of_schemaChild? found
          have lessStep := height_lt_of_derivation? derives
          split
          · next child foundChild => rw [own step child (by omega) foundChild]
          · rfl
      · split
        · next child foundChild => rw [own e child (by omega) foundChild]
        · rfl

end

theorem deep_depthBelow (e : Element) : 2 * e.height ≤ depthBelow e := Nat.le_succ _

/-- A depth suffices for the definitions in an element: to follow them further down makes no
difference. -/
structure IsDeepEnough (depth : Nat) (e : Element) : Prop where
  elementDecl : ∀ names d more isGlobal,
    elementDecl names d (depth + more) e isGlobal = elementDecl names d depth e isGlobal
  particle : ∀ names d more, particle names d (depth + more) e = particle names d depth e
  complexType : ∀ names d more name,
    complexType names d (depth + more) e name = complexType names d depth e name
  simpleType : ∀ names d more name,
    simpleType names d (depth + more) e name = simpleTypeOf names d e name

theorem isDeepEnough_depthBelow (e : Element) : IsDeepEnough (depthBelow e) e where
  elementDecl names d more isGlobal := by
    have deep := deep_depthBelow e
    exact elementDecl_eq_of_deep names d _ _ e isGlobal (by omega) (by omega)
  particle names d more := by
    have deep := deep_depthBelow e
    exact particle_eq_of_deep names d _ _ e (by omega) deep
  complexType names d more name := by
    have deep := deep_depthBelow e
    exact complexType_eq_of_deep names d _ _ e name (by omega) deep
  simpleType names d more name := by
    have deep := deep_depthBelow e
    exact simpleType_eq_of_deep names d _ _ e name (by omega) (Nat.le_refl _)

end Definition

end XmlSchema.Schema
