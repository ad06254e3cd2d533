import XmlSchema.Proofs.Instance.Writing
import XmlSchema.Proofs.Provider.HintValues
import XmlSchema.Proofs.Provider.RootTag

namespace XmlSchema.Provider

open Component (QName)
open Instance

section Bytes

variable {first rest : Bytes}

theorem toNat_of_isBlankByte {b : UInt8} (blank : isBlankByte b = true) :
    b.toNat < 0x80 ∧ Unicode.isWhiteSpace (Char.ofNat b.toNat) = true := by
  simp only [isBlankByte, Bool.or_eq_true, beq_iff_eq, or_assoc] at blank
  rcases blank with rfl | rfl | rfl | rfl <;> decide

theorem white_of_blank {blanks : Bytes} (blank : Blank blanks) :
    White (Utf8.asciiChars blanks) := by
  intro c member
  obtain ⟨b, among, rfl⟩ := List.mem_map.1 member
  exact (toNat_of_isBlankByte (blank b among)).2

theorem decodeLossy_front (ends : ∀ b ∈ rest.head?, b.toNat < 0x80) (first : Bytes) :
    (Utf8.decodeLossy (first ++ rest)).toList =
      (Utf8.decodeLossy first).toList ++ (Utf8.decodeLossy rest).toList := by
  cases rest with
  | nil => simp [Utf8.decodeLossy_nil]
  | cons b rest =>
    have isAscii := ends b rfl
    have behind := Utf8.decodeLossy_cut [] isAscii rest
    rw [List.nil_append, Utf8.decodeLossy_nil, String.toList_empty, List.nil_append] at behind
    rw [Utf8.decodeLossy_cut first isAscii, behind]

theorem decodeLossy_spelling {s : Spelling} (valid : s.Valid) (rest : Bytes) :
    (Utf8.decodeLossy (s.bytes ++ rest)).toList =
      Utf8.asciiChars s.indent ++ ((Utf8.decodeLossy s.key).toList ++
        (Utf8.asciiChars s.beforeSign ++ '=' :: (Utf8.asciiChars s.afterSign ++
          Char.ofNat s.quote.toNat :: ((Utf8.decodeLossy s.value).toList ++
            Char.ofNat s.quote.toNat :: (Utf8.decodeLossy rest).toList)))) := by
  have isQuote : s.quote.toNat < 0x80 := by
    rcases valid.quote with same | same <;> rw [same] <;> decide
  have blanks {bytes : Bytes} (blank : Blank bytes) : ∀ b ∈ bytes, b.toNat < 0x80 :=
    fun b member => (toNat_of_isBlankByte (blank b member)).1
  have between : ∀ b ∈ s.beforeSign ++ '='.toUInt8 :: (s.afterSign ++ [s.quote]),
      b.toNat < 0x80 := by
    simp only [List.forall_mem_append, List.forall_mem_cons]
    exact ⟨blanks valid.beforeSign, by decide, blanks valid.afterSign, isQuote, nofun⟩
  have shape : s.bytes ++ rest = s.indent ++ (s.key ++
      ((s.beforeSign ++ '='.toUInt8 :: (s.afterSign ++ [s.quote])) ++
        (s.value ++ s.quote :: rest))) := by
    simp [Spelling.bytes]
  rw [shape, Utf8.decodeLossy_ascii (blanks valid.indent),
    Utf8.decodeLossy_append (by simp) between, Utf8.decodeLossy_cut s.value isQuote]
  simp only [Utf8.asciiChars, List.map_append, List.map_cons, List.map_nil, List.append_assoc,
    List.cons_append, List.nil_append]
  rfl

end Bytes

def writtenValues (localName : String) (raws : List RawAttribute) : List String :=
  (raws.filter fun raw => isWrittenAs localName.toList (Utf8.decodeLossy raw.key).toList).map
    fun raw => Utf8.decodeLossy raw.value

structure IsClear (localName : String) (raw : RawAttribute) : Prop where
  visible : ∀ c ∈ (Utf8.decodeLossy raw.key).toList, Unicode.isWhiteSpace c = false
  free : isWrittenAs localName.toList (Utf8.decodeLossy raw.key).toList = false →
    ¬ Resembles localName.toList (Utf8.decodeLossy raw.value).toList

section Spelled

variable {localName : String} {spellings : List Spelling} {tail : Bytes}

theorem finds_spelled (plain : Plain localName.toList) (valid : ∀ s ∈ spellings, s.Valid)
    (named : ∀ s ∈ spellings, Xml.isQName (Utf8.decodeLossy s.key).toList = true)
    (clear : ∀ s ∈ spellings, IsClear localName s.raw)
    (nothing : Finds localName.toList (Utf8.decodeLossy tail).toList []) :
    Finds localName.toList (Utf8.decodeLossy (spelled spellings ++ tail)).toList
      ((writtenValues localName (spellings.map Spelling.raw)).map String.toList) := by
  induction spellings with
  | nil => exact nothing
  | cons s spellings ih =>
    obtain ⟨valid, others⟩ := List.forall_mem_cons.1 valid
    obtain ⟨named, otherNames⟩ := List.forall_mem_cons.1 named
    obtain ⟨clear, otherClear⟩ := List.forall_mem_cons.1 clear
    have later := ih others otherNames otherClear
    have quoted : Char.ofNat s.quote.toNat = '"' ∨ Char.ofNat s.quote.toNat = '\'' := by
      rcases valid.quote with same | same <;> rw [same]
      · exact .inl rfl
      · exact .inr rfl
    have isQuote : s.quote.toNat < 0x80 := by
      rcases valid.quote with same | same <;> rw [same] <;> decide
    have inside : Char.ofNat s.quote.toNat ∉ (Utf8.decodeLossy s.value).toList := fun member =>
      valid.value (Utf8.mem_of_ofNat_mem_decodeLossy isQuote member)
    have noColon : ':' ∉ Utf8.asciiChars s.indent := fun member =>
      absurd (white_of_blank valid.indent _ member) (by decide)
    have here := (later.attribute plain named clear.visible (white_of_blank valid.beforeSign)
      (white_of_blank valid.afterSign) quoted inside clear.free).append noColon
    have values : (writtenValues localName ((s :: spellings).map Spelling.raw)).map String.toList =
        if isWrittenAs localName.toList (Utf8.decodeLossy s.key).toList then
          (Utf8.decodeLossy s.value).toList ::
            (writtenValues localName (spellings.map Spelling.raw)).map String.toList
        else (writtenValues localName (spellings.map Spelling.raw)).map String.toList := by
      simp only [writtenValues, List.map_cons, List.filter_cons, Spelling.raw]
      split <;> rfl
    rw [values, spelled, List.flatMap_cons, List.append_assoc, decodeLossy_spelling valid]
    exact here

end Spelled

section Content

variable {content tail : Bytes} {scope : Scope} {tag : StartTag} {localName : String}

theorem named_of_readTag (read : StartTag.read scope content = .ok tag) :
    (attributesOf true content).fault? = none ∧ ∀ raw ∈ (attributesOf true content).attributes,
      Xml.isQName (Utf8.decodeLossy raw.key).toList = true := by
  obtain ⟨-, element, attributes, accepted⟩ := legal_of_readTag read
  obtain ⟨faultless, legal⟩ := legal_of_readAllAttributes accepted
  exact ⟨faultless, fun raw member => (legal raw member).1⟩

theorem blank_of_afterName : ∀ b ∈ (afterName content).rest.head?, isBlankByte b = true := by
  intro b member
  have stops := List.head?_dropWhile_not (fun b => !isBlankByte b) content
  have same : (content.dropWhile fun b => !isBlankByte b).head? = some b := member
  simpa [same] using stops

theorem decodeLossy_content (isAscii : ∀ b ∈ tail, b.toNat < 0x80) :
    (Utf8.decodeLossy (content ++ tail)).toList = (Utf8.decodeLossy (elementName content)).toList ++
      (Utf8.decodeLossy ((afterName content).rest ++ tail)).toList := by
  rw [← decodeLossy_front, ← List.append_assoc, afterName_rest]
  intro b member
  cases behind : (afterName content).rest with
  | nil =>
    rw [behind, List.nil_append] at member
    exact isAscii b (List.mem_of_mem_head? member)
  | cons first rest =>
    have started : (afterName content).rest.head? = some b := by
      rw [behind] at member ⊢
      exact member
    exact (toNat_of_isBlankByte (blank_of_afterName b started)).1

theorem apart_of_spelled {spellings : List Spelling} {blanks : Bytes}
    (behind : (afterName content).rest = spelled spellings ++ blanks) (blank : Blank blanks)
    (valid : ∀ s ∈ spellings, s.Valid)
    (named : ∀ s ∈ spellings, Xml.isQName (Utf8.decodeLossy s.key).toList = true)
    (clear : ∀ s ∈ spellings, IsClear localName s.raw) (noSign : '='.toUInt8 ∉ tail) :
    let text := (Utf8.decodeLossy ((afterName content).rest ++ tail)).toList
    '=' ∉ text ∨ ∃ blanks more, text = blanks ++ more ∧ White blanks ∧ blanks ≠ [] ∧
      ∀ c ∈ more.head?, Unicode.isWhiteSpace c = false ∧ c ≠ '=' := by
  cases spellings with
  | nil =>
    refine .inl fun member => ?_
    have among := Utf8.mem_of_ofNat_mem_decodeLossy (b := '='.toUInt8) (by decide) member
    simp only [behind, spelled, List.flatMap_nil, List.nil_append, List.mem_append] at among
    rcases among with inBlanks | inTail
    · exact absurd (blank _ inBlanks) (by decide)
    · exact noSign inTail
  | cons s spellings =>
    have validHere := valid s List.mem_cons_self
    obtain ⟨first, more, key, visible, -⟩ := validHere.key
    -- Without an indent the name of the element would go on with the key.
    have apart : s.indent ≠ [] := by
      intro none
      have started : (afterName content).rest.head? = some first := by
        simp [behind, spelled, Spelling.bytes, none, key]
      simp [blank_of_afterName first started] at visible
    have nonempty : (Utf8.decodeLossy s.key).toList ≠ [] := fun none => by
      have empty := Utf8.decodeLossy_eq_empty.1 (String.toList_inj.1 none)
      rw [key] at empty
      cases empty
    obtain ⟨c, rest, keyText⟩ := List.exists_cons_of_ne_nil nonempty
    have member : c ∈ (Utf8.decodeLossy s.key).toList := keyText ▸ List.mem_cons_self
    have notSign : c ≠ '=' := by
      rintro rfl
      exact absurd (Xml.isNameChar_of_isQName (named s List.mem_cons_self) _ member) (by decide)
    have text := decodeLossy_spelling validHere (spelled spellings ++ (blanks ++ tail))
    rw [keyText] at text
    rw [behind, spelled, List.flatMap_cons, List.append_assoc, List.append_assoc]
    refine .inr ⟨_, _, text, white_of_blank validHere.indent,
      by simpa [Utf8.asciiChars] using apart, ?_⟩
    rintro _ ⟨⟩
    exact ⟨(clear s List.mem_cons_self).visible c member, notSign⟩

theorem valuesOf_content (read : StartTag.read scope content = .ok tag)
    (plain : Plain localName.toList)
    (clear : ∀ raw ∈ (attributesOf true content).attributes, IsClear localName raw)
    (isAscii : ∀ b ∈ tail, b.toNat < 0x80) (noSign : '='.toUInt8 ∉ tail)
    (noColon : ':'.toUInt8 ∉ tail) :
    valuesOf localName ('<' :: (Utf8.decodeLossy (content ++ tail)).toList) =
      writtenValues localName (attributesOf true content).attributes := by
  obtain ⟨faultless, named⟩ := named_of_readTag read
  obtain ⟨spellings, blanks, whole, blank, valid, same⟩ := exists_spellings faultless
  have behind : (afterName content).rest = spelled spellings ++ blanks :=
    List.append_cancel_left ((afterName_rest content).trans whole)
  rw [same, List.forall_mem_map] at named clear
  have isAscii' : ∀ b ∈ blanks ++ tail, b.toNat < 0x80 := List.forall_mem_append.2
    ⟨fun b member => (toNat_of_isBlankByte (blank b member)).1, isAscii⟩
  have noColon' : ':' ∉ (Utf8.decodeLossy (blanks ++ tail)).toList := by
    intro member
    have among := Utf8.mem_of_ofNat_mem_decodeLossy (b := ':'.toUInt8) (by decide) member
    rcases List.mem_append.1 among with inBlanks | inTail
    · exact absurd (blank _ inBlanks) (by decide)
    · exact noColon inTail
  have nothing : Finds localName.toList (Utf8.decodeLossy (blanks ++ tail)).toList [] := by
    simpa using Finds.nil.append noColon'
  have later := finds_spelled plain valid named clear nothing
  rw [← List.append_assoc, ← behind] at later
  have all := (later.element plain (legal_of_readTag read).1
    (apart_of_spelled behind blank valid named clear noSign)).cons (by decide : '<' ≠ ':')
  rw [← decodeLossy_content isAscii] at all
  rw [valuesOf, all _ _ (Nat.le_refl _), same, List.map_map]
  simp [Function.comp_def]

theorem head?_content (read : StartTag.read scope content = .ok tag)
    (isAscii : ∀ b ∈ tail, b.toNat < 0x80) :
    ∃ c, (Utf8.decodeLossy (content ++ tail)).toList.head? = some c ∧ Xml.isNameChar c = true := by
  have named := (legal_of_readTag read).1
  have nonempty : (Utf8.decodeLossy (elementName content)).toList ≠ [] := by
    intro none
    rw [none] at named
    cases named
  obtain ⟨c, rest, text⟩ := List.exists_cons_of_ne_nil nonempty
  refine ⟨c, by rw [decodeLossy_content isAscii, text]; rfl, ?_⟩
  exact Xml.isNameChar_of_isQName named c (text ▸ List.mem_cons_self)

end Content

def hintNames : List String := ["schemaLocation", "noNamespaceSchemaLocation"]

def hintsOfValues (forNamespaces forNone : List String) : List Hint :=
  forNamespaces.flatMap (fun value => pairs (Text.words value)) ++
    (forNone.map Text.trim).filterMap fun location =>
      if location.isEmpty then none else some ⟨"", location⟩

def writtenHints (content : Bytes) : List Hint :=
  let raws := (attributesOf true content).attributes
  hintsOfValues (writtenValues "schemaLocation" raws)
    (writtenValues "noNamespaceSchemaLocation" raws)

/-- Nothing in front of a root and in its tag looks like something else. -/
structure IsClearRoot (root : Root) : Prop where
  prolog : ∀ piece ∈ root.prolog, IsPlain piece
  noEnd : '>'.toUInt8 ∉ root.inside
  attributes : ∀ localName ∈ hintNames, ∀ raw ∈ (attributesOf true root.content).attributes,
    IsClear localName raw

theorem plain_hintNames : ∀ localName ∈ hintNames, Plain localName.toList := by
  decide

theorem not_resembles {localName value : List Char} (noSign : '=' ∉ value) :
    ¬ Resembles localName value := by
  rintro ⟨before, blanks, after, -, rfl⟩
  exact noSign (by simp)

theorem IsClearRoot.of_noSign {root : Root} (prolog : ∀ piece ∈ root.prolog, IsPlain piece)
    (noEnd : '>'.toUInt8 ∉ root.inside)
    (each : ∀ raw ∈ (attributesOf true root.content).attributes,
      (∀ c ∈ (Utf8.decodeLossy raw.key).toList, Unicode.isWhiteSpace c = false) ∧
        '=' ∉ (Utf8.decodeLossy raw.value).toList) : IsClearRoot root where
  prolog
  noEnd
  attributes := fun _ _ raw member =>
    ⟨(each raw member).1, fun _ => not_resembles (each raw member).2⟩

section Root

variable {document : Bytes} {root : Root} {scope : Scope} {tag : StartTag}

theorem hintsOf_of_isClearRoot (found : root? document = some root)
    (isProlog : ∀ piece ∈ root.prolog, piece.1.isProlog = true)
    (isRoot : IsRootTag root.content scope tag) (clear : IsClearRoot root)
    (near : document.length ≤ scanLimit + root.rest.length) :
    hintsOf document = writtenHints root.content := by
  obtain ⟨slash, isSlash, inside⟩ : ∃ slash : Bytes,
      (slash = [] ∨ slash = ['/'.toUInt8]) ∧ root.inside = root.content ++ slash := by
    unfold Root.inside
    split
    · exact ⟨_, .inr rfl, rfl⟩
    · exact ⟨_, .inl rfl, (List.append_nil _).symm⟩
  have isAscii : ∀ b ∈ slash, b.toNat < 0x80 := by
    rcases isSlash with rfl | rfl
    · exact fun _ member => nomatch member
    · exact List.forall_mem_singleton.2 (by decide)
  obtain ⟨c, first, isName⟩ := head?_content isRoot.2 isAscii
  have isTag : (Utf8.decodeLossy root.inside).toList.head? ≠ some '?' ∧
      (Utf8.decodeLossy root.inside).toList.head? ≠ some '!' := by
    rw [inside, first]
    constructor <;> rintro ⟨⟩ <;> revert isName <;> decide
  have whole : (Utf8.decodeLossy root.inside).toList ++ ['>'] =
      (Utf8.decodeLossy (root.content ++ (slash ++ ['>'.toUInt8]))).toList := by
    rw [← List.append_assoc, ← inside]
    exact (Utf8.decodeLossy_cut root.inside (by decide : ('>'.toUInt8).toNat < 0x80) []).symm
  have tailAscii : ∀ b ∈ slash ++ ['>'.toUInt8], b.toNat < 0x80 :=
    List.forall_mem_append.2 ⟨isAscii, List.forall_mem_singleton.2 (by decide)⟩
  have values (localName : String) (member : localName ∈ hintNames) :
      valuesOf localName ('<' :: (Utf8.decodeLossy
          (root.content ++ (slash ++ ['>'.toUInt8]))).toList) =
        writtenValues localName (attributesOf true root.content).attributes := by
    apply valuesOf_content isRoot.2 (plain_hintNames localName member)
      (clear.attributes localName member) tailAscii
    all_goals rcases isSlash with rfl | rfl <;> decide
  rw [hintsOf, rootTag_of_root found isProlog clear.prolog isTag clear.noEnd near, whole,
    hintsOfTag, values _ (by decide), values _ (by decide)]
  rfl

end Root

def hintName (localName : String) : QName := ⟨Component.instanceNamespace, localName⟩

def namedHints (tag : StartTag) : List Hint :=
  hintsOfValues (tag.value? (hintName "schemaLocation")).toList
    (tag.value? (hintName "noNamespaceSchemaLocation")).toList

/-- An attribute is written as the one with the hints just if it is that one, and its value is
written as it is. -/
structure IsFaithful (scope : Scope) (localName : String) (raw : RawAttribute) : Prop where
  names : isWrittenAs localName.toList (Utf8.decodeLossy raw.key).toList = true ↔
    isDeclaration raw.key = false ∧ resolveName scope [] raw.key = .ok (hintName localName)
  noReference : isWrittenAs localName.toList (Utf8.decodeLossy raw.key).toList = true →
    '&'.toUInt8 ∉ raw.value

section Names

variable {content : Bytes} {scope : Scope} {tag : StartTag} {localName : String}
variable {raws : List RawAttribute} {attributes : List Attribute}

theorem eq_decodeLossy_of_readContent {bytes : Bytes} {value : String}
    (read : readContent bytes = .ok value) (noReference : '&'.toUInt8 ∉ bytes) :
    value = Utf8.decodeLossy bytes := by
  obtain ⟨text, rfl, replaced⟩ := readContent_eq_ok.1 read
  rw [Utf8.decodeLossy_encode]
  have absent : '&' ∉ text.toList := fun member => noReference <| by
    rw [← Utf8.decodeLossy_encode text] at member
    exact Utf8.mem_of_ofNat_mem_decodeLossy (by decide) member
  rw [replaceReferences, replaceFrom_of_not_mem absent] at replaced
  simpa [Except.map] using (Except.ok.inj replaced).symm

theorem writtenValues_of_standsFor
    (standsFor : List.Forall₂ (RawAttribute.StandsFor scope) raws attributes)
    (named : ∀ raw ∈ raws, isDeclaration raw.key = false)
    (faithful : ∀ raw ∈ raws, IsFaithful scope localName raw) :
    writtenValues localName raws =
      (attributes.filter (·.name == hintName localName)).map (·.value) := by
  induction standsFor with
  | nil => rfl
  | @cons raw a raws attributes here _ ih =>
    obtain ⟨namedHere, named⟩ := List.forall_mem_cons.1 named
    obtain ⟨faithfulHere, faithful⟩ := List.forall_mem_cons.1 faithful
    have later := ih named faithful
    have written : isWrittenAs localName.toList (Utf8.decodeLossy raw.key).toList =
        (a.name == hintName localName) := by
      rw [Bool.eq_iff_iff, faithfulHere.names, here.name, beq_iff_eq, Except.ok.injEq]
      exact and_iff_right namedHere
    have value (isHint : (a.name == hintName localName) = true) :
        Utf8.decodeLossy raw.value = a.value :=
      (eq_decodeLossy_of_readContent here.value
        (faithfulHere.noReference (written.trans isHint))).symm
    simp only [writtenValues] at later
    simp only [writtenValues, List.filter_cons, written]
    split
    · next isHint => rw [List.map_cons, List.map_cons, later, value isHint]
    · exact later

theorem filter_name_eq (distinct : (attributes.map (·.name)).Nodup) (name : QName) :
    attributes.filter (·.name == name) = (attributes.find? (·.name == name)).toList := by
  induction attributes with
  | nil => rfl
  | cons a attributes ih =>
    rw [List.map_cons, List.nodup_cons] at distinct
    rw [List.filter_cons, List.find?_cons]
    cases isName : a.name == name with
    | false => simpa using ih distinct.2
    | true =>
      have none : attributes.filter (·.name == name) = [] := by
        refine List.filter_eq_nil_iff.2 fun other member same => distinct.1 ?_
        rw [beq_iff_eq.1 isName, ← beq_iff_eq.1 same]
        exact List.mem_map_of_mem member
      simp [none]

theorem writtenValues_eq (read : StartTag.read scope content = .ok tag)
    (distinct : (tag.attributes.map (·.name)).Nodup)
    (faithful : ∀ raw ∈ (attributesOf true content).attributes, IsFaithful scope localName raw) :
    writtenValues localName (attributesOf true content).attributes =
      (tag.value? (hintName localName)).toList := by
  have declared : writtenValues localName (attributesOf true content).attributes =
      writtenValues localName (namedAttributes content) := by
    rw [writtenValues, writtenValues, namedAttributes, List.filter_filter]
    refine congrArg _ (List.filter_congr fun raw member => ?_)
    cases written : isWrittenAs localName.toList (Utf8.decodeLossy raw.key).toList with
    | false => rfl
    | true => simp [((faithful raw member).names.1 written).1]
  have named : ∀ raw ∈ namedAttributes content, isDeclaration raw.key = false ∧
      IsFaithful scope localName raw := by
    intro raw member
    obtain ⟨among, names⟩ := List.mem_filter.1 member
    exact ⟨by simpa using names, faithful raw among⟩
  rw [declared, writtenValues_of_standsFor (standsFor_of_readTag read)
    (fun raw member => (named raw member).1) (fun raw member => (named raw member).2),
    filter_name_eq distinct, StartTag.value?, Option.toList_map]

end Names

/-- A document that is well formed has a root, the start of which is its first event. If nothing
looks like something else there, and the tag ends early enough, then the hints are those that are
written in the tag. They are the ones by name if exactly these are written so. -/
theorem exists_root_hints {document : Bytes}
    (wellFormed : (Document.ofBytes document).fault? = none) :
    ∃ root scope tag location later, root? document = some root ∧
      IsRootTag root.content scope tag ∧
      (Document.ofBytes document).events = (.start tag, location) :: later ∧
      (IsClearRoot root → document.length ≤ scanLimit + root.rest.length →
        hintsOf document = writtenHints root.content ∧
        ((tag.attributes.map (·.name)).Nodup →
          (∀ localName ∈ hintNames, ∀ raw ∈ (attributesOf true root.content).attributes,
            IsFaithful scope localName raw) →
          hintsOf document = namedHints tag)) := by
  obtain ⟨root, scope, tag, location, later, found, isProlog, isRoot, events⟩ :=
    exists_root wellFormed
  refine ⟨root, scope, tag, location, later, found, isRoot, events, fun clear near => ?_⟩
  have written := hintsOf_of_isClearRoot found isProlog isRoot clear near
  refine ⟨written, fun distinct faithful => ?_⟩
  have values (localName : String) (member : localName ∈ hintNames) :=
    writtenValues_eq isRoot.2 distinct (faithful localName member)
  rw [written, writtenHints, values _ (by decide), values _ (by decide), namedHints]

def hintedRoot : Root where
  prolog := [(.declaration, ascii "<?xml version=\"1.0\"?>"),
    (.comment (ascii " > "), ascii "<!-- > -->")]
  content := ascii "a xmlns:x-=\"http://www.w3.org/" ++ ascii "2001/XMLSchema-instance\" " ++
    ascii "x-:schemaLocation=\"u v w\" b='c' " ++ ascii "x-:noNamespaceSchemaLocation=' d '"
  isEmpty := true
  rest := []

theorem exists_root_hints_two :
    (Document.ofBytes hintedRoot.bytes).fault? = none ∧
      hintsOf hintedRoot.bytes = [⟨"u", "v"⟩, ⟨"", "d"⟩] := by
  have wellFormed : (Document.ofBytes hintedRoot.bytes).fault? = none := by decide +kernel
  have isThis : root? hintedRoot.bytes = some hintedRoot := by decide +kernel
  have bindings : Scope.initial.enter hintedRoot.content = .ok (innerScope hintedRoot.content) := by
    decide +kernel
  have read : StartTag.read (innerScope hintedRoot.content) hintedRoot.content =
      .ok ⟨⟨"", "a"⟩, [⟨hintName "schemaLocation", "u v w"⟩, ⟨⟨"", "b"⟩, "c"⟩,
        ⟨hintName "noNamespaceSchemaLocation", " d "⟩], none⟩ := by decide +kernel
  obtain ⟨root, scope, tag, location, later, found, ⟨entered, isTag⟩, -, hints⟩ :=
    exists_root_hints wellFormed
  obtain rfl := Option.some.inj (isThis.symm.trans found)
  obtain rfl := Except.ok.inj (bindings.symm.trans entered)
  obtain rfl := Except.ok.inj (read.symm.trans isTag)
  have prolog : ∀ piece ∈ hintedRoot.prolog, IsPlain piece := by
    intro piece member
    rcases List.mem_pair.1 member with rfl | rfl
    · trivial
    · exact ⟨by decide +kernel, by decide +kernel⟩
  have clear : IsClearRoot hintedRoot := .of_noSign prolog (by decide +kernel) (by decide +kernel)
  have faithful : ∀ localName ∈ hintNames,
      ∀ raw ∈ (attributesOf true hintedRoot.content).attributes,
        (isWrittenAs localName.toList (Utf8.decodeLossy raw.key).toList = true ↔
          isDeclaration raw.key = false ∧
            resolveName (innerScope hintedRoot.content) [] raw.key = .ok (hintName localName)) ∧
        (isWrittenAs localName.toList (Utf8.decodeLossy raw.key).toList = true →
          '&'.toUInt8 ∉ raw.value) := by decide +kernel
  have named := (hints clear (by decide +kernel)).2 (by decide +kernel)
    fun localName member raw among =>
      ⟨(faithful localName member raw among).1, (faithful localName member raw among).2⟩
  exact ⟨wellFormed, named.trans (by decide +kernel)⟩

def misleadingRoot : Root where
  prolog := []
  content := ascii "a xmlns:x-=\"u\" xmlns:y-=\"http://www.w3.org/" ++
    ascii "2001/XMLSchema-instance\" " ++ ascii "x-:schemaLocation=\"v w\" " ++
    ascii "y-:schemaLocation=\"p&amp;q r\""
  isEmpty := true
  rest := []

/-- An attribute of another namespace passes for a hint, and a reference is not replaced. -/
theorem hintsOf_ne_namedHints :
    ∃ tag location later, (Document.ofBytes misleadingRoot.bytes).fault? = none ∧
      misleadingRoot.bytes.length ≤ scanLimit ∧
      (Document.ofBytes misleadingRoot.bytes).events = (.start tag, location) :: later ∧
      namedHints tag = [⟨"p&q", "r"⟩] ∧
      hintsOf misleadingRoot.bytes = [⟨"v", "w"⟩, ⟨"p&amp;q", "r"⟩] := by
  have wellFormed : (Document.ofBytes misleadingRoot.bytes).fault? = none := by decide +kernel
  have isThis : root? misleadingRoot.bytes = some misleadingRoot := by decide +kernel
  have bindings : Scope.initial.enter misleadingRoot.content =
      .ok (innerScope misleadingRoot.content) := by decide +kernel
  have read : StartTag.read (innerScope misleadingRoot.content) misleadingRoot.content =
      .ok ⟨⟨"", "a"⟩, [⟨⟨"u", "schemaLocation"⟩, "v w"⟩, ⟨hintName "schemaLocation", "p&q r"⟩],
        none⟩ := by decide +kernel
  obtain ⟨root, scope, tag, location, later, found, isProlog, ⟨entered, isTag⟩, events⟩ :=
    exists_root wellFormed
  obtain rfl := Option.some.inj (isThis.symm.trans found)
  obtain rfl := Except.ok.inj (bindings.symm.trans entered)
  obtain rfl := Except.ok.inj (read.symm.trans isTag)
  have clear : IsClearRoot misleadingRoot :=
    .of_noSign nofun (by decide +kernel) (by decide +kernel)
  have hints := hintsOf_of_isClearRoot found isProlog ⟨bindings, read⟩ clear (by decide +kernel)
  exact ⟨_, _, _, wellFormed, by decide +kernel, events, by decide +kernel,
    hints.trans (by decide +kernel)⟩

end XmlSchema.Provider
