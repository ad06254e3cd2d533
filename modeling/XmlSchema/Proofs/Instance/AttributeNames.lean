import Mathlib.Data.List.Nodup
import XmlSchema.Proofs.Instance.Attributes
import XmlSchema.Proofs.Text.Pieces
import XmlSchema.Xml.Name

namespace XmlSchema.Instance

open Component (QName)

structure RawAttribute.StandsFor (scope : Scope) (raw : RawAttribute) (a : Attribute) : Prop where
  name : resolveName scope [] raw.key = .ok a.name
  value : readContent raw.value = .ok a.value
  legal : LegalText a.value

theorem readOneAttribute_eq_ok {scope : Scope} {element : String} {raw : RawAttribute}
    {read : Option Attribute} (accepted : readOneAttribute scope element raw = .ok read) :
    isDeclaration raw.key = true ∧ read = none ∨
      isDeclaration raw.key = false ∧ ∃ a, read = some a ∧ raw.StandsFor scope a := by
  have named := (legal_of_readOneAttribute accepted).1
  cases declares : isDeclaration raw.key with
  | true =>
    simp only [readOneAttribute, named, declares, Bool.not_true, Bool.false_eq_true, if_false,
      if_true, pure, Except.pure, bind, Except.bind, Except.ok.injEq] at accepted
    exact .inl ⟨rfl, accepted.symm⟩
  | false =>
    simp only [readOneAttribute, named, declares, Bool.not_true, Bool.false_eq_true, if_false,
      bind_eq_ok, mapError_eq_ok] at accepted
    obtain ⟨name, resolved, value, ofContent, checked⟩ := accepted
    cases illegal : Xml.firstIllegalChar? value.toList with
    | some c =>
      simp only [illegal] at checked
      cases checked
    | none =>
      simp only [illegal, pure, Except.pure, Except.ok.injEq] at checked
      exact .inr ⟨rfl, ⟨name, value⟩, checked.symm, resolved, ofContent, legalText_iff.2 illegal⟩

theorem forall₂_of_mapM_eq_ok {ε α β : Type} {f : α → Except ε β} {as : List α} {bs : List β}
    (ran : as.mapM f = .ok bs) : List.Forall₂ (fun a b => f a = .ok b) as bs := by
  induction as generalizing bs with
  | nil =>
    obtain rfl : [] = bs := by simpa [pure, Except.pure] using ran
    exact .nil
  | cons first rest ih =>
    simp only [List.mapM_cons, bind_eq_ok] at ran
    obtain ⟨b, here, others, later, given⟩ := ran
    obtain rfl : b :: others = bs := by simpa [pure, Except.pure] using given
    exact .cons here (ih later)

def namedAttributes (content : Bytes) : List RawAttribute :=
  (attributesOf true content).attributes.filter fun raw => !isDeclaration raw.key

theorem standsFor_of_reads {scope : Scope} {element : String} {raws : List RawAttribute}
    {reads : List (Option Attribute)} (each : List.Forall₂
      (fun raw read => readOneAttribute scope element raw = .ok read) raws reads) :
    List.Forall₂ (RawAttribute.StandsFor scope) (raws.filter fun raw => !isDeclaration raw.key)
      (reads.filterMap id) := by
  induction each with
  | nil => exact .nil
  | cons here _ ih =>
    rcases readOneAttribute_eq_ok here with ⟨declares, rfl⟩ | ⟨names, a, rfl, standsFor⟩
    · simpa [declares] using ih
    · simpa [names] using ⟨standsFor, ih⟩

theorem standsFor_of_readAllAttributes {scope : Scope} {element : String} {list : AttributeList}
    {attributes : List Attribute}
    (accepted : readAllAttributes scope element list = .ok attributes) :
    List.Forall₂ (RawAttribute.StandsFor scope)
      (list.attributes.filter fun raw => !isDeclaration raw.key) attributes := by
  have faultless := (legal_of_readAllAttributes accepted).1
  simp only [readAllAttributes, faultless, bind_eq_ok] at accepted
  obtain ⟨reads, each, given⟩ := accepted
  obtain rfl : reads.filterMap id = attributes := by simpa [pure, Except.pure] using given
  exact standsFor_of_reads (forall₂_of_mapM_eq_ok each)

theorem standsFor_of_readTag {scope : Scope} {content : Bytes} {tag : StartTag}
    (read : StartTag.read scope content = .ok tag) :
    List.Forall₂ (RawAttribute.StandsFor scope) (namedAttributes content) tag.attributes := by
  have named := (legal_of_readTag read).1
  simp only [StartTag.read, named, Bool.not_true, Bool.false_eq_true, if_false, bind_eq_ok] at read
  obtain ⟨name, -, attributes, accepted, given⟩ := read
  obtain rfl := Except.ok.inj given
  exact standsFor_of_readAllAttributes accepted

theorem splitName_of_not_mem {name : Bytes} (plain : ':'.toUInt8 ∉ name) :
    splitName name = (none, name) := by
  have all : ∀ b ∈ name, (b != ':'.toUInt8) = true := fun b member =>
    bne_iff_ne.2 fun same => plain (same ▸ member)
  have none : name.dropWhile (fun b => b != ':'.toUInt8) = [] := by
    rw [← List.append_nil name, List.dropWhile_append_of_pos all, List.dropWhile_nil]
  simp only [splitName, none]

theorem splitName_append {label : Bytes} (plain : ':'.toUInt8 ∉ label) (localPart : Bytes) :
    splitName (label ++ ':'.toUInt8 :: localPart) = (some label, localPart) := by
  have all : ∀ b ∈ label, (b != ':'.toUInt8) = true := fun b member =>
    bne_iff_ne.2 fun same => plain (same ▸ member)
  simp [splitName, List.dropWhile_append_of_pos all, List.takeWhile_append_of_pos all]

theorem splitName_cases (name : Bytes) :
    splitName name = (none, name) ∨ ∃ label localPart,
      splitName name = (some label, localPart) ∧ name = label ++ ':'.toUInt8 :: localPart := by
  obtain ⟨label, rest, rfl, plain, ends⟩ := exists_span (· != ':'.toUInt8) name
  have absent : ':'.toUInt8 ∉ label := fun member => by simpa using plain _ member
  cases rest with
  | nil =>
    rw [List.append_nil]
    exact .inl (splitName_of_not_mem absent)
  | cons colon localPart =>
    obtain rfl : colon = ':'.toUInt8 := by simpa using ends colon rfl
    exact .inr ⟨label, localPart, splitName_append absent localPart, rfl⟩

theorem splitName_none {name localPart : Bytes} (split : splitName name = (none, localPart)) :
    localPart = name := by
  rcases splitName_cases name with same | ⟨label, other, same, -⟩ <;> rw [same] at split
  · exact (Prod.mk.inj split).2.symm
  · cases split

theorem splitName_some {name label localPart : Bytes}
    (split : splitName name = (some label, localPart)) :
    name = label ++ ':'.toUInt8 :: localPart := by
  rcases splitName_cases name with same | ⟨label', other, same, whole⟩ <;> rw [same] at split
  · cases split
  · obtain ⟨sameLabel, rfl⟩ := Prod.mk.inj split
    rwa [Option.some.inj sameLabel] at whole

theorem splitName_injective : Function.Injective splitName := by
  intro name name' same
  obtain ⟨label?, localPart, split⟩ : ∃ label? localPart, splitName name = (label?, localPart) :=
    ⟨_, _, rfl⟩
  have split' := same ▸ split
  cases label? with
  | none => rw [← splitName_none split, ← splitName_none split']
  | some label => rw [splitName_some split, splitName_some split']

/-- Two keys name the same attribute although they are not the same. -/
inductive Clash (scope : Scope) : Bytes → Bytes → Prop where
  | prefixes {key key' label label' localPart localPart' uri uri' : Bytes}
      (split : splitName key = (some label, localPart))
      (split' : splitName key' = (some label', localPart')) (other : label ≠ label')
      (bound : scope.uri? label = some uri) (bound' : scope.uri? label' = some uri')
      (sameUri : Utf8.decodeLossy uri = Utf8.decodeLossy uri')
      (sameLocal : Utf8.decodeLossy localPart = Utf8.decodeLossy localPart') : Clash scope key key'
  | encoding {key key' localPart localPart' : Bytes} {label? : Option Bytes}
      (split : splitName key = (label?, localPart)) (split' : splitName key' = (label?, localPart'))
      (other : localPart ≠ localPart')
      (sameLocal : Utf8.decodeLossy localPart = Utf8.decodeLossy localPart') : Clash scope key key'

section Clash

variable {scope : Scope} {key key' : Bytes} {name : QName}

theorem Clash.resolveName_eq (clash : Clash scope key key') :
    resolveName scope [] key = resolveName scope [] key' := by
  cases clash with
  | prefixes split split' _ bound bound' sameUri sameLocal =>
    simp only [resolveName, split, split', bound, bound', sameUri, sameLocal]
  | @encoding _ _ label? split split' _ sameLocal =>
    cases label? <;> simp only [resolveName, split, split', sameLocal]

theorem uri?_ne_nil {label uri : Bytes} (bound : scope.uri? label = some uri) : uri ≠ [] := by
  unfold Scope.uri? at bound
  split at bound
  · split at bound
    · cases bound
    · next d _ nonempty =>
      obtain rfl := Option.some.inj bound
      simpa using nonempty
  · cases bound

theorem resolveName_none {localPart : Bytes} (split : splitName key = (none, localPart)) :
    resolveName scope [] key = .ok ⟨"", Utf8.decodeLossy localPart⟩ := by
  simp only [resolveName, split, Utf8.decodeLossy_nil]

theorem resolveName_some {label localPart : Bytes}
    (split : splitName key = (some label, localPart))
    (resolved : resolveName scope [] key = .ok name) :
    ∃ uri, scope.uri? label = some uri ∧
      name = ⟨Utf8.decodeLossy uri, Utf8.decodeLossy localPart⟩ := by
  simp only [resolveName, split] at resolved
  cases bound : scope.uri? label with
  | none => simp [bound] at resolved
  | some uri =>
    simp only [bound, Except.ok.injEq] at resolved
    exact ⟨uri, rfl, resolved.symm⟩

theorem clash_of_resolveName_eq (other : key ≠ key')
    (resolved : resolveName scope [] key = .ok name)
    (resolved' : resolveName scope [] key' = .ok name) : Clash scope key key' := by
  obtain ⟨label?, localPart, split⟩ : ∃ label? localPart, splitName key = (label?, localPart) :=
    ⟨_, _, rfl⟩
  obtain ⟨label?', localPart', split'⟩ : ∃ label? localPart, splitName key' = (label?, localPart) :=
    ⟨_, _, rfl⟩
  have differs (same : label? = label?') : localPart ≠ localPart' := by
    rintro rfl
    exact other (splitName_injective (by rw [split, split', same]))
  cases label? with
  | none =>
    obtain rfl := Except.ok.inj ((resolveName_none split).symm.trans resolved)
    cases label?' with
    | none =>
      have same := Except.ok.inj ((resolveName_none split').symm.trans resolved')
      exact .encoding split split' (differs rfl) (QName.mk.inj same).2.symm
    | some label' =>
      -- A prefix does not stand for the empty namespace.
      obtain ⟨uri, bound, same⟩ := resolveName_some split' resolved'
      exact absurd (Utf8.decodeLossy_eq_empty.1 (QName.mk.inj same).1.symm) (uri?_ne_nil bound)
  | some label =>
    obtain ⟨uri, bound, rfl⟩ := resolveName_some split resolved
    cases label?' with
    | none =>
      have same := Except.ok.inj ((resolveName_none split').symm.trans resolved')
      exact absurd (Utf8.decodeLossy_eq_empty.1 (QName.mk.inj same).1.symm) (uri?_ne_nil bound)
    | some label' =>
      obtain ⟨uri', bound', same⟩ := resolveName_some split' resolved'
      obtain ⟨sameUri, sameLocal⟩ := QName.mk.inj same
      by_cases sameLabel : label = label'
      · subst sameLabel
        exact .encoding split split' (differs rfl) sameLocal
      · exact .prefixes split split' sameLabel bound bound' sameUri sameLocal

end Clash

theorem nodup_keys_namedAttributes (content : Bytes) :
    ((namedAttributes content).map (·.key)).Nodup :=
  (nodup_keys_attributesOf content).sublist (List.filter_sublist.map _)

theorem value?_eq_some_iff {tag : StartTag} (distinct : (tag.attributes.map (·.name)).Nodup)
    {name : QName} {value : String} :
    tag.value? name = some value ↔ ⟨name, value⟩ ∈ tag.attributes := by
  rw [StartTag.value?, Option.map_eq_some_iff]
  constructor
  · rintro ⟨a, found, rfl⟩
    have same := List.find?_some found
    rw [beq_iff_eq] at same
    exact same ▸ List.mem_of_find?_eq_some found
  · intro member
    cases found : tag.attributes.find? (·.name == name) with
    | none => exact absurd (beq_self_eq_true name) (List.find?_eq_none.1 found _ member)
    | some a =>
      have same := List.find?_some found
      rw [beq_iff_eq] at same
      have only : a = ⟨name, value⟩ :=
        List.inj_on_of_nodup_map distinct (List.mem_of_find?_eq_some found) member same
      exact ⟨a, rfl, by rw [only]⟩

theorem map_resolveName {scope : Scope} {raws : List RawAttribute} {attributes : List Attribute}
    (standsFor : List.Forall₂ (RawAttribute.StandsFor scope) raws attributes) :
    (raws.map (·.key)).map (resolveName scope []) = (attributes.map (·.name)).map .ok := by
  induction standsFor with
  | nil => rfl
  | cons here _ ih => simp only [List.map_cons, here.name, ih]

theorem nodup_names_of_standsFor {scope : Scope} {raws : List RawAttribute}
    {attributes : List Attribute} (keys : (raws.map (·.key)).Nodup)
    (standsFor : List.Forall₂ (RawAttribute.StandsFor scope) raws attributes) :
    (attributes.map (·.name)).Nodup ↔
      (raws.map (·.key)).Pairwise fun key key' => ¬ Clash scope key key' := by
  have resolved := map_resolveName standsFor
  have injective : Function.Injective (Except.ok : QName → Except Bytes QName) := fun _ _ =>
    Except.ok.inj
  rw [← List.nodup_map_iff injective, ← resolved, List.Nodup, List.pairwise_map]
  constructor
  · exact List.Pairwise.imp fun other clash => other clash.resolveName_eq
  · intro free
    refine (keys.and free).imp_of_mem fun member _ apart same => ?_
    obtain ⟨name, -, names⟩ := List.mem_map.1 (resolved ▸ List.mem_map_of_mem member)
    exact apart.2 (clash_of_resolveName_eq apart.1 names.symm (same ▸ names.symm))

/-- The names of the attributes of a tag are distinct if and only if none of its keys clash, and
then what is found by a name is the value of the only attribute with it. -/
theorem nodup_names_iff {scope : Scope} {content : Bytes} {tag : StartTag}
    (read : StartTag.read scope content = .ok tag) :
    ((tag.attributes.map (·.name)).Nodup ↔
      ((namedAttributes content).map (·.key)).Pairwise fun key key' => ¬ Clash scope key key') ∧
    ((tag.attributes.map (·.name)).Nodup → ∀ name value,
      tag.value? name = some value ↔ ⟨name, value⟩ ∈ tag.attributes) :=
  ⟨nodup_names_of_standsFor (nodup_keys_namedAttributes content) (standsFor_of_readTag read),
    fun distinct _ _ => value?_eq_some_iff distinct⟩

def innerScope (content : Bytes) : Scope := (Scope.initial.enter content).toOption.getD []

theorem nodup_names_iff_two :
    let content := ascii "a xmlns:p=\"u\" xmlns:q=\"v\" p:k=\"1\" q:k=\"2\""
    let tag : StartTag := ⟨⟨"", "a"⟩, [⟨⟨"u", "k"⟩, "1"⟩, ⟨⟨"v", "k"⟩, "2"⟩], none⟩
    StartTag.read (innerScope content) content = .ok tag ∧
      ((namedAttributes content).map (·.key)).Pairwise fun key key' =>
        ¬ Clash (innerScope content) key key' := by
  intro content tag
  have read : StartTag.read (innerScope content) content = .ok tag := by decide
  exact ⟨read, (nodup_names_iff read).1.1 (by decide)⟩

/-- Two prefixes for one namespace give one name twice, and what is found by it is the value of the
first attribute. -/
theorem names_not_nodup :
    let content := ascii "a xmlns:p=\"u\" xmlns:q=\"u\" p:k=\"1\" q:k=\"2\""
    ∃ tag : StartTag, StartTag.read (innerScope content) content = .ok tag ∧
      tag.attributes = [⟨⟨"u", "k"⟩, "1"⟩, ⟨⟨"u", "k"⟩, "2"⟩] ∧
      ¬ (tag.attributes.map (·.name)).Nodup ∧ tag.value? ⟨"u", "k"⟩ = some "1" := by
  refine ⟨⟨⟨"", "a"⟩, [⟨⟨"u", "k"⟩, "1"⟩, ⟨⟨"u", "k"⟩, "2"⟩], none⟩, ?_, rfl, ?_, ?_⟩
  · decide
  · decide
  · decide

end XmlSchema.Instance
