import XmlSchema.Proofs.Text.Decoding
import XmlSchema.Proofs.Validation.Streaming

/-!
# Legal characters and names

A document that is read to its end is a row of tokens (`Tokens`), and in each of them texts, the
values of attributes and names are legal, with two exceptions (`legal_or_excepted_of_verdict`): the
values that declare namespaces are not looked at, and what is not UTF-8 is let through in names,
comments and character data. That each exception occurs is shown too (`not_legal_of_verdict`).
-/

namespace XmlSchema

namespace Instance

/-! ## Rows of tokens -/

/-- Bytes are read as some tokens, up to their end. -/
inductive Tokens : Bytes → List Token → Prop where
  | nil : Tokens [] []
  | cons {bytes : Bytes} {s : Scan} {token : Token} {tokens : List Token}
      (scanned : scan? bytes = some s) (read : s.result = .ok token) (rest : Tokens s.rest tokens) :
      Tokens bytes (token :: tokens)

section Ends

variable {passed bytes content rest : Bytes}

theorem tagEnd?_append {quote : Option UInt8}
    (found : tagEnd? quote passed bytes = some (content, rest)) :
    content ++ '>'.toUInt8 :: rest = passed.reverse ++ bytes := by
  induction bytes generalizing quote passed with
  | nil => cases found
  | cons b bytes ih =>
    unfold tagEnd? at found
    split at found
    · simpa using ih found
    · split at found
      · next ends =>
        obtain ⟨rfl, rfl⟩ := Prod.mk.inj (Option.some.inj found)
        rw [beq_iff_eq.1 ends]
      · simpa using ih found

theorem endAfter?_append {ending : Bytes} {least : Nat}
    (found : endAfter? ending least passed bytes = some (content, rest)) :
    content ++ '>'.toUInt8 :: rest = passed.reverse ++ bytes := by
  induction bytes generalizing passed with
  | nil => cases found
  | cons b bytes ih =>
    unfold endAfter? at found
    split at found
    · next ends =>
      simp only [Bool.and_eq_true, beq_iff_eq] at ends
      obtain ⟨rfl, rfl⟩ := Prod.mk.inj (Option.some.inj found)
      rw [ends.1.1]
    · simpa using ih found

theorem balancedEnd?_append {depth : Nat}
    (found : balancedEnd? depth passed bytes = some (content, rest)) :
    content ++ '>'.toUInt8 :: rest = passed.reverse ++ bytes := by
  induction bytes generalizing depth passed with
  | nil => cases found
  | cons b bytes ih =>
    unfold balancedEnd? at found
    split at found
    · next ends =>
      split at found
      · obtain ⟨rfl, rfl⟩ := Prod.mk.inj (Option.some.inj found)
        rw [beq_iff_eq.1 ends]
      · simpa using ih found
    · simpa using ih found

end Ends

theorem Scan.upTo_append {finish : Option (Bytes × Bytes)} {bytes : Bytes}
    (inside : ∀ content rest, finish = some (content, rest) → content ++ '>'.toUInt8 :: rest = bytes)
    (meaning : Bytes → Except TokenFault Token) (fault : TokenFault) :
    (Scan.upTo finish meaning fault bytes).read ++ (Scan.upTo finish meaning fault bytes).rest =
      '<'.toUInt8 :: bytes := by
  cases found : finish with
  | none => simp [Scan.upTo, Scan.unclosed]
  | some parts =>
    obtain ⟨content, rest⟩ := parts
    simp [Scan.upTo, Scan.markup, ← inside content rest found]

theorem scanMarkup_append (bytes : Bytes) :
    (scanMarkup bytes).read ++ (scanMarkup bytes).rest = '<'.toUInt8 :: bytes := by
  unfold scanMarkup
  split
  · split
    · exact Scan.upTo_append (fun _ _ found => endAfter?_append found) _ _
    · exact Scan.upTo_append (fun _ _ found => endAfter?_append found) _ _
    · exact Scan.upTo_append (fun _ _ found => balancedEnd?_append found) _ _
    · rfl
  · split
    · exact Scan.upTo_append (fun _ _ found => endAfter?_append found) _ _
    · exact Scan.upTo_append (fun _ _ found => tagEnd?_append found) _ _

theorem scanMarkup_read_ne_nil (bytes : Bytes) : (scanMarkup bytes).read ≠ [] := by
  have upTo (finish meaning fault) : (Scan.upTo finish meaning fault bytes).read ≠ [] := by
    unfold Scan.upTo
    split <;> exact List.cons_ne_nil _ _
  unfold scanMarkup
  repeat' split
  all_goals first | exact upTo _ _ _ | exact List.cons_ne_nil _ _

theorem scan?_cons (b : UInt8) (rest : Bytes) :
    scan? (b :: rest) =
      if b == '<'.toUInt8 then some (scanMarkup rest)
      else
        let content := (b :: rest).takeWhile (· != '<'.toUInt8)
        some {
          result := .ok (.text content), read := content
          rest := (b :: rest).dropWhile (· != '<'.toUInt8) } := rfl

theorem scan?_append {bytes : Bytes} {s : Scan} (scanned : scan? bytes = some s) :
    s.read ++ s.rest = bytes ∧ s.read ≠ [] := by
  cases bytes with
  | nil => cases scanned
  | cons b rest =>
    rw [scan?_cons] at scanned
    split at scanned
    · next markup =>
      obtain rfl := Option.some.inj scanned
      rw [beq_iff_eq.1 markup]
      exact ⟨scanMarkup_append rest, scanMarkup_read_ne_nil rest⟩
    · next text =>
      obtain rfl := Option.some.inj scanned
      refine ⟨List.takeWhile_append_dropWhile, ?_⟩
      have kept : (b != '<'.toUInt8) = true := by simpa using text
      rw [List.takeWhile_cons, if_pos kept]
      exact List.cons_ne_nil _ _

theorem scan?_eq_none {bytes : Bytes} (scanned : scan? bytes = none) : bytes = [] := by
  cases bytes with
  | nil => rfl
  | cons b rest =>
    rw [scan?_cons] at scanned
    split at scanned <;> cases scanned

theorem length_rest_lt {bytes : Bytes} {s : Scan} (scanned : scan? bytes = some s) :
    s.rest.length < bytes.length := by
  obtain ⟨rfl, nonempty⟩ := scan?_append scanned
  have := List.length_pos_of_ne_nil nonempty
  rw [List.length_append]
  omega

theorem length_ofBytes_le (bytes : Bytes) : (Reader.ofBytes bytes).rest.length ≤ bytes.length := by
  unfold Reader.ofBytes
  split <;> simp

/-! ## Reading to the end -/

/-- How a document is read, with no bound on its tokens: to its end, to a fault, or on behind a token
that is accepted. -/
inductive Reading : Reader → Progress → List (Event × Location) → Document → Prop
  | ended {r : Reader} {p : Progress} {earlier : List (Event × Location)}
      (ended : scan? r.rest = none) :
      Reading r p earlier ⟨earlier.reverse, p.endFault?.map (·, r.location)⟩
  | broken {r : Reader} {p : Progress} {earlier : List (Event × Location)} {s : Scan}
      {fault : TokenFault} (scanned : scan? r.rest = some s) (result : s.result = .error fault) :
      Reading r p earlier ⟨earlier.reverse, some (.token fault, (r.after s).location)⟩
  | refused {r : Reader} {p : Progress} {earlier : List (Event × Location)} {s : Scan}
      {token : Token} {fault : Fault} (scanned : scan? r.rest = some s)
      (result : s.result = .ok token) (read : p.read token = .error fault) :
      Reading r p earlier ⟨earlier.reverse, some (fault, (r.after s).location)⟩
  | goesOn {r : Reader} {p q : Progress} {earlier : List (Event × Location)} {s : Scan}
      {token : Token} {more : List Event} {document : Document} (scanned : scan? r.rest = some s)
      (result : s.result = .ok token) (read : p.read token = .ok (more, q))
      (later : Reading (r.after s) q
        ((more.map (·, (r.after s).location)).reverse ++ earlier) document) :
      Reading r p earlier document

namespace Reading

variable {r : Reader} {p : Progress} {earlier : List (Event × Location)} {document : Document}

/-- The bound on the tokens is not reached, since every token has a byte. -/
theorem readFrom {fuel : Nat} (enough : r.rest.length < fuel) :
    Reading r p earlier (Reader.readFrom fuel r p earlier) := by
  induction fuel generalizing r p earlier with
  | zero => exact absurd enough (Nat.not_lt_zero _)
  | succ fuel ih =>
    rw [Reader.readFrom]
    split
    · next ended => exact .ended ended
    · next s scanned =>
      dsimp only
      split
      · next broken => exact .broken scanned broken
      · next token result =>
        split
        · next refused => exact .refused scanned result refused
        · next read =>
          refine .goesOn scanned result read (ih ?_)
          exact Nat.lt_of_lt_of_le (length_rest_lt scanned) (Nat.le_of_lt_succ enough)

theorem readFrom_eq (reading : Reading r p earlier document) {fuel : Nat}
    (enough : r.rest.length < fuel) : Reader.readFrom fuel r p earlier = document := by
  induction reading generalizing fuel with
  | ended ended =>
    obtain ⟨fuel, rfl⟩ := Nat.exists_eq_add_of_lt enough
    simp only [Reader.readFrom, ended]
  | broken scanned result =>
    obtain ⟨fuel, rfl⟩ := Nat.exists_eq_add_of_lt enough
    simp only [Reader.readFrom, scanned, result]
  | refused scanned result read =>
    obtain ⟨fuel, rfl⟩ := Nat.exists_eq_add_of_lt enough
    simp only [Reader.readFrom, scanned, result, read]
  | goesOn scanned result read _ ih =>
    cases fuel with
    | zero => exact absurd enough (Nat.not_lt_zero _)
    | succ fuel =>
      simp only [Reader.readFrom, scanned, result, read]
      exact ih (Nat.lt_of_lt_of_le (length_rest_lt scanned) (Nat.le_of_lt_succ enough))

theorem ofBytes (bytes : Bytes) : Reading (.ofBytes bytes) {} [] (Document.ofBytes bytes) :=
  readFrom (Nat.lt_succ_of_le (length_ofBytes_le bytes))

theorem ofBytes_eq {bytes : Bytes} (reading : Reading (.ofBytes bytes) {} [] document) :
    Document.ofBytes bytes = document :=
  reading.readFrom_eq (Nat.lt_succ_of_le (length_ofBytes_le bytes))

theorem tokens (reading : Reading r p earlier document) (faultless : document.fault? = none) :
    ∃ tokens, Tokens r.rest tokens ∧
      ∀ token ∈ tokens, ∃ (before : Progress) (after : List Event × Progress),
        before.read token = .ok after := by
  induction reading with
  | ended ended =>
    rw [scan?_eq_none ended]
    exact ⟨[], .nil, by simp⟩
  | broken | refused => cases faultless
  | goesOn scanned result read _ ih =>
    obtain ⟨tokens, rest, accepted⟩ := ih faultless
    exact ⟨_, .cons scanned result rest, List.forall_mem_cons.2 ⟨⟨_, _, read⟩, accepted⟩⟩

end Reading

theorem tokens_of_document {bytes : Bytes} (faultless : (Document.ofBytes bytes).fault? = none) :
    ∃ tokens, Tokens (Reader.ofBytes bytes).rest tokens ∧
      ∀ token ∈ tokens, ∃ (before : Progress) (after : List Event × Progress),
        before.read token = .ok after :=
  (Reading.ofBytes bytes).tokens faultless

/-! ## Parts of tokens -/

/-- The parts of tokens that hold names and characters. -/
inductive Part where
  | name (bytes : Bytes)
  | declared (bytes : Bytes)
  | value (bytes : Bytes)
  | text (bytes : Bytes)
  | verbatim (bytes : Bytes)
  deriving DecidableEq

def Token.parts : Token → List Part
  | .text content => [.text content]
  | .cdata content | .comment content => [.verbatim content]
  | .startTag content _ =>
    .name (elementName content) :: (attributesOf true content).attributes.flatMap fun raw =>
      [.name raw.key, if isDeclaration raw.key then .declared raw.value else .value raw.value]
  | _ => []

def LegalText (text : String) : Prop := ∀ c ∈ text.toList, Xml.isXmlChar c = true

def Readable (bytes : Bytes) : Prop :=
  ∃ text value, Utf8.encode text = bytes ∧ replaceReferences text = .ok value ∧ LegalText value

def Part.Legal : Part → Prop
  | .name bytes => ∃ text, Utf8.encode text = bytes ∧ Xml.isQName text.toList = true
  | .declared bytes | .value bytes | .text bytes => Readable bytes
  | .verbatim bytes => ∃ text, Utf8.encode text = bytes ∧ LegalText text

def Part.Excepted : Part → Prop
  | .name bytes | .verbatim bytes => ∀ text, Utf8.encode text ≠ bytes
  | .declared _ => True
  | .value _ | .text _ => False

theorem legalText_iff {text : String} :
    LegalText text ↔ Xml.firstIllegalChar? text.toList = none := by
  simp [LegalText, Xml.firstIllegalChar?]

theorem mapError_eq_ok {ε ε' α : Type} {x : Except ε α} {f : ε → ε'} {a : α} :
    x.mapError f = .ok a ↔ x = .ok a := by
  cases x <;> simp [Except.mapError]

theorem bind_eq_ok {ε α β : Type} {x : Except ε α} {f : α → Except ε β} {b : β} :
    (x >>= f) = .ok b ↔ ∃ a, x = .ok a ∧ f a = .ok b := by
  cases x <;> simp [bind, Except.bind]

theorem readContent_eq_ok {bytes : Bytes} {value : String} :
    readContent bytes = .ok value ↔
      ∃ text, Utf8.encode text = bytes ∧ replaceReferences text = .ok value := by
  simp only [readContent, bind_eq_ok, mapError_eq_ok, Utf8.decode_eq_ok_iff]

theorem checkChars_eq_ok {text : String} {place : Section} {u : Unit} :
    Progress.checkChars text place = .ok u ↔ LegalText text := by
  rw [legalText_iff, Progress.checkChars]
  cases Xml.firstIllegalChar? text.toList <;> simp

theorem legal_or_excepted_of_lossy {P : String → Prop} {bytes : Bytes}
    (lossy : P (Utf8.decodeLossy bytes)) :
    (∃ text, Utf8.encode text = bytes ∧ P text) ∨ ∀ text, Utf8.encode text ≠ bytes := by
  by_cases isText : ∃ text, Utf8.encode text = bytes
  · obtain ⟨text, rfl⟩ := isText
    rw [Utf8.decodeLossy_encode] at lossy
    exact .inl ⟨text, rfl, lossy⟩
  · exact .inr fun text same => isText ⟨text, same⟩

/-! ## Reading a token -/

theorem readText_eq_ok {p : Progress} {content : Bytes} {events : List Event} :
    p.readText content = .ok events ↔ Progress.holdsSectionEnd content = false ∧
      ∃ text, readContent content = .ok text ∧ LegalText text ∧
        (p.isInside = true ∧ events = [.text text] ∨
          p.isInside = false ∧ Progress.isBlankText text = true ∧ events = []) := by
  cases ends : Progress.holdsSectionEnd content with
  | true =>
    refine ⟨fun read => ?_, fun legal => absurd legal.1 (by decide)⟩
    simp only [Progress.readText, ends, if_true, bind_eq_ok] at read
    obtain ⟨_, thrown, _⟩ := read
    cases thrown
  | false =>
    simp only [Progress.readText, ends, Bool.false_eq_true, if_false, bind_eq_ok, mapError_eq_ok,
      checkChars_eq_ok, true_and]
    refine exists_congr fun text => and_congr_right fun _ => ⟨?_, ?_⟩
    · rintro ⟨_, legal, given⟩
      cases inside : p.isInside with
      | true =>
        rw [if_pos inside] at given
        exact ⟨legal, .inl ⟨rfl, (Except.ok.inj given).symm⟩⟩
      | false =>
        rw [inside, if_neg Bool.false_ne_true] at given
        split at given
        · next blank => exact ⟨legal, .inr ⟨rfl, blank, (Except.ok.inj given).symm⟩⟩
        · cases given
    · rintro ⟨legal, ⟨inside, rfl⟩ | ⟨outside, blank, rfl⟩⟩
      · exact ⟨(), legal, by rw [if_pos inside]; rfl⟩
      · exact ⟨(), legal, by rw [outside, if_neg Bool.false_ne_true, if_pos blank]; rfl⟩

theorem readCData_eq_ok {p : Progress} {content : Bytes} {events : List Event} :
    p.readCData content = .ok events ↔ p.isInside = true ∧ LegalText (Utf8.decodeLossy content) ∧
      events = [.text (Utf8.decodeLossy content)] := by
  cases inside : p.isInside with
  | false =>
    refine ⟨fun read => ?_, fun legal => absurd legal.1 (by decide)⟩
    simp only [Progress.readCData, inside, Bool.not_false, if_true, bind_eq_ok] at read
    obtain ⟨_, thrown, _⟩ := read
    cases thrown
  | true =>
    simp only [Progress.readCData, inside, Bool.not_true, Bool.false_eq_true, if_false, bind_eq_ok,
      checkChars_eq_ok, true_and]
    simp [pure, Except.pure, @eq_comm _ events]

theorem readable_of_readText {p : Progress} {content : Bytes} {events : List Event}
    (read : p.readText content = .ok events) : Readable content := by
  obtain ⟨-, value, ofContent, legal, -⟩ := readText_eq_ok.1 read
  obtain ⟨text, code, replaced⟩ := readContent_eq_ok.1 ofContent
  exact ⟨text, value, code, replaced, legal⟩

theorem legal_of_readOneAttribute {scope : Scope} {element : String} {raw : RawAttribute}
    {read : Option Attribute} (accepted : readOneAttribute scope element raw = .ok read) :
    Xml.isQName (Utf8.decodeLossy raw.key).toList = true ∧
      (isDeclaration raw.key = false → Readable raw.value) := by
  cases named : Xml.isQName (Utf8.decodeLossy raw.key).toList with
  | false =>
    simp only [readOneAttribute, named, Bool.not_false, if_true, bind_eq_ok] at accepted
    obtain ⟨_, thrown, _⟩ := accepted
    cases thrown
  | true =>
    refine ⟨rfl, fun plain => ?_⟩
    simp only [readOneAttribute, named, plain, Bool.not_true, Bool.false_eq_true, if_false,
      bind_eq_ok, mapError_eq_ok, readContent_eq_ok] at accepted
    obtain ⟨_, -, value, ⟨text, code, replaced⟩, checked⟩ := accepted
    refine ⟨text, value, code, replaced, legalText_iff.2 ?_⟩
    cases illegal : Xml.firstIllegalChar? value.toList with
    | none => rfl
    | some c =>
      simp only [illegal] at checked
      cases checked

theorem exists_of_mapM_eq_ok {ε α β : Type} {f : α → Except ε β} {as : List α} {bs : List β}
    (ran : as.mapM f = .ok bs) : ∀ a ∈ as, ∃ b, f a = .ok b := by
  induction as generalizing bs with
  | nil => simp
  | cons first rest ih =>
    simp only [List.mapM_cons, bind_eq_ok] at ran
    obtain ⟨b, here, others, later, -⟩ := ran
    exact List.forall_mem_cons.2 ⟨⟨b, here⟩, ih later⟩

theorem legal_of_readAllAttributes {scope : Scope} {element : String} {list : AttributeList}
    {read : List Attribute} (accepted : readAllAttributes scope element list = .ok read) :
    list.fault? = none ∧ ∀ raw ∈ list.attributes,
      Xml.isQName (Utf8.decodeLossy raw.key).toList = true ∧
        (isDeclaration raw.key = false → Readable raw.value) := by
  simp only [readAllAttributes, bind_eq_ok] at accepted
  obtain ⟨_, each, ended⟩ := accepted
  constructor
  · cases fault : list.fault? with
    | none => rfl
    | some fault' =>
      simp only [fault] at ended
      cases ended
  · intro raw member
    obtain ⟨_, one⟩ := exists_of_mapM_eq_ok each raw member
    exact legal_of_readOneAttribute one

theorem legal_of_readTag {scope : Scope} {content : Bytes} {tag : StartTag}
    (read : StartTag.read scope content = .ok tag) :
    Xml.isQName (Utf8.decodeLossy (elementName content)).toList = true ∧
      ∃ element attributes,
        readAllAttributes scope element (attributesOf true content) = .ok attributes := by
  cases named : Xml.isQName (Utf8.decodeLossy (elementName content)).toList with
  | false =>
    simp only [StartTag.read, named, Bool.not_false, if_true, bind_eq_ok] at read
    obtain ⟨_, thrown, _⟩ := read
    cases thrown
  | true =>
    simp only [StartTag.read, named, Bool.not_true, Bool.false_eq_true, if_false, bind_eq_ok] at read
    obtain ⟨_, -, attributes, accepted, -⟩ := read
    exact ⟨rfl, _, attributes, accepted⟩

theorem legal_of_readStart {p : Progress} {content : Bytes} {after : StartTag × Progress}
    (read : p.readStart content = .ok after) (isEmpty : Bool) :
    (attributesOf true content).fault? = none ∧
      ∀ part ∈ (Token.startTag content isEmpty).parts, part.Legal ∨ part.Excepted := by
  obtain ⟨inner, tag, tagRead⟩ : ∃ inner tag, StartTag.read inner content = .ok tag := by
    simp only [Progress.readStart, bind_eq_ok, mapError_eq_ok] at read
    obtain ⟨inner, -, read⟩ := read
    split at read
    · obtain ⟨_, thrown, _⟩ := bind_eq_ok.1 read
      cases thrown
    · simp only [bind_eq_ok, mapError_eq_ok] at read
      obtain ⟨tag, tagRead, -⟩ := read
      exact ⟨inner, tag, tagRead⟩
  obtain ⟨named, element, attributes, accepted⟩ := legal_of_readTag tagRead
  obtain ⟨faultless, each⟩ := legal_of_readAllAttributes accepted
  refine ⟨faultless, List.forall_mem_cons.2 ⟨legal_or_excepted_of_lossy named, fun part member => ?_⟩⟩
  obtain ⟨raw, among, ofRaw⟩ := List.mem_flatMap.1 member
  obtain ⟨key, value⟩ := each raw among
  simp only [List.mem_cons, List.not_mem_nil, or_false] at ofRaw
  rcases ofRaw with rfl | rfl
  · exact legal_or_excepted_of_lossy key
  · cases declares : isDeclaration raw.key with
    | true => exact .inr trivial
    | false => exact .inl (value declares)

/-! ## Tokens that are accepted -/

inductive Progress.Accepts (p : Progress) : Token → List Event → Progress → Prop
  | text {content : Bytes} {events : List Event} (read : p.readText content = .ok events) :
      p.Accepts (.text content) events { p with atStart := false }
  | cdata {content : Bytes} {events : List Event} (read : p.readCData content = .ok events) :
      p.Accepts (.cdata content) events { p with atStart := false }
  | comment {content : Bytes} (legal : LegalText (Utf8.decodeLossy content)) :
      p.Accepts (.comment content) [] { p with atStart := false }
  | doctype : p.Accepts .doctype [] { p with atStart := false }
  | declaration (first : p.atStart = true) : p.Accepts .declaration [] { p with atStart := false }
  | instruction {target : Bytes} (free : (target.map upperByte == ascii "XML") = false) :
      p.Accepts (.instruction target) [] { p with atStart := false }
  | empty {content : Bytes} {tag : StartTag} {inner : Progress}
      (started : { p with atStart := false }.readStart content = .ok (tag, inner)) :
      p.Accepts (.startTag content true) [.start tag, .finish] inner.close
  | start {content : Bytes} {tag : StartTag} {inner : Progress}
      (started : { p with atStart := false }.readStart content = .ok (tag, inner)) :
      p.Accepts (.startTag content false) [.start tag] inner
  | finish {name : Bytes} {after : Progress}
      (ended : { p with atStart := false }.readEnd name = .ok after) :
      p.Accepts (.endTag name) [.finish] after

theorem Progress.read_eq_ok_iff {p q : Progress} {token : Token} {events : List Event} :
    p.read token = .ok (events, q) ↔ p.Accepts token events q := by
  constructor
  · intro read
    cases token with
    | text content =>
      obtain ⟨_, ofText, made⟩ := bind_eq_ok.1 read
      cases made
      exact .text ofText
    | cdata content =>
      obtain ⟨_, ofData, made⟩ := bind_eq_ok.1 read
      cases made
      exact .cdata ofData
    | comment content =>
      obtain ⟨_, legal, made⟩ := bind_eq_ok.1 read
      cases made
      exact .comment (checkChars_eq_ok.1 legal)
    | doctype =>
      cases read
      exact .doctype
    | declaration =>
      rw [Progress.read] at read
      split at read
      · next first =>
        cases read
        exact .declaration first
      · cases read
    | instruction target =>
      rw [Progress.read] at read
      split at read
      · cases read
      · next free =>
        cases read
        exact .instruction (Bool.eq_false_iff.2 free)
    | startTag content isEmpty =>
      obtain ⟨⟨tag, inner⟩, started, made⟩ := bind_eq_ok.1 read
      cases isEmpty <;> cases made
      · exact .start started
      · exact .empty started
    | endTag name =>
      obtain ⟨_, ended, made⟩ := bind_eq_ok.1 read
      cases made
      exact .finish ended
  · intro accepts
    cases accepts with
    | text read | cdata read => exact bind_eq_ok.2 ⟨_, read, rfl⟩
    | comment legal => exact bind_eq_ok.2 ⟨(), checkChars_eq_ok.2 legal, rfl⟩
    | doctype => rfl
    | declaration first =>
      rw [Progress.read, if_pos first]
      rfl
    | instruction free =>
      rw [Progress.read, free]
      rfl
    | empty started | start started => exact bind_eq_ok.2 ⟨_, started, rfl⟩
    | finish ended => exact bind_eq_ok.2 ⟨_, ended, rfl⟩

theorem legal_of_read {p : Progress} {token : Token} {after : List Event × Progress}
    (read : p.read token = .ok after) : ∀ part ∈ token.parts, part.Legal ∨ part.Excepted := by
  obtain ⟨events, q⟩ := after
  cases Progress.read_eq_ok_iff.1 read with
  | text ofText => exact List.forall_mem_singleton.2 (.inl (readable_of_readText ofText))
  | comment legal => exact List.forall_mem_singleton.2 (legal_or_excepted_of_lossy legal)
  | cdata ofData =>
    have legal := (readCData_eq_ok.1 ofData).2.1
    exact List.forall_mem_singleton.2 (legal_or_excepted_of_lossy legal)
  | empty started => exact (legal_of_readStart started true).2
  | start started => exact (legal_of_readStart started false).2
  | doctype | declaration | instruction | finish => simp [Token.parts]

end Instance

namespace Validation

open Instance

/-- A document that is read to its end is a row of tokens. The attributes of each start tag are all
read, and texts, the values of attributes and names are legal, but for values that declare
namespaces and for names, comments and character data that are not UTF-8. -/
theorem legal_or_excepted_of_verdict (bundle : Bundle) (options : Options) (bytes : Bytes)
    (wellFormed : (validate bundle options bytes).verdict ≠ .parserError) :
    ∃ tokens, Tokens (Reader.ofBytes bytes).rest tokens ∧
      (∀ content isEmpty, .startTag content isEmpty ∈ tokens →
        (attributesOf true content).fault? = none) ∧
      ∀ token ∈ tokens, ∀ part ∈ token.parts, part.Legal ∨ part.Excepted := by
  have faultless : (Document.ofBytes bytes).fault? = none := by
    unfold validate validateDocument at wellFormed
    cases fault : (Document.ofBytes bytes).fault? with
    | none => rfl
    | some fault' =>
      rw [fault] at wellFormed
      exact absurd rfl wellFormed
  obtain ⟨tokens, row, accepted⟩ := tokens_of_document faultless
  refine ⟨tokens, row, fun content isEmpty member => ?_, fun token member => ?_⟩
  · obtain ⟨before, ⟨events, after⟩, read⟩ := accepted _ member
    cases Progress.read_eq_ok_iff.1 read with
    | empty started | start started => exact (legal_of_readStart started true).1
  · obtain ⟨before, after, read⟩ := accepted _ member
    exact legal_of_read read

theorem legal_or_excepted_of_list :
    let bytes := Utf8.encode "<list lang='fi'><!--ä-->&#228; &amp;</list>"
    (validate itemsBundle {} bytes).verdict ≠ .parserError ∧
      ∃ tokens, Tokens (Reader.ofBytes bytes).rest tokens ∧
        ∀ token ∈ tokens, ∀ part ∈ token.parts, part.Legal ∨ part.Excepted := by
  intro bytes
  have wellFormed : (validate itemsBundle {} bytes).verdict ≠ .parserError := by decide +kernel
  obtain ⟨tokens, row, -, parts⟩ := legal_or_excepted_of_verdict itemsBundle {} bytes wellFormed
  exact ⟨wellFormed, tokens, row, parts⟩

theorem not_readable_of_control : ¬ Readable [1] := by
  rintro ⟨text, value, code, replaced, legal⟩
  have decoded : Utf8.decode [1] = .ok "\x01" := by decide
  have same := (Utf8.decode_eq_ok_iff.2 code).symm.trans decoded
  obtain rfl : text = "\x01" := by simpa using same
  have kept : replaceReferences "\x01" = .ok "\x01" := by decide
  obtain rfl : value = "\x01" := by simpa [kept] using replaced.symm
  have illegal : ¬ ∀ c ∈ "\x01".toList, Xml.isXmlChar c = true := by decide
  exact illegal legal

theorem encode_ne_of_decode_eq_error {bytes : Bytes} {fault : Utf8.Fault}
    (refused : Utf8.decode bytes = .error fault) (text : String) : Utf8.encode text ≠ bytes := by
  intro code
  rw [Utf8.decode_eq_ok_iff.2 code] at refused
  cases refused

theorem not_all_legal_of_first {bytes : Bytes} {token : Token} {part : Part}
    (scanned : (scan? bytes).map (·.result.toOption) = some (some token))
    (member : part ∈ token.parts) (illegal : ¬ part.Legal) :
    ¬ ∃ tokens, Tokens bytes tokens ∧
      ∀ token ∈ tokens, ∀ part ∈ token.parts, part.Legal := by
  rintro ⟨tokens, row, legal⟩
  cases row with
  | nil => simp [scan?] at scanned
  | @cons _ s first _ found read _ =>
    obtain rfl : first = token := by simpa [found, read, Except.toOption] using scanned
    exact illegal (legal first List.mem_cons_self part member)

/-- Documents are found valid in which a part is not legal: the value of a declaration that is a
control character, and a comment and a name that are not UTF-8. -/
theorem not_legal_of_verdict :
    let options : Options := { ignoreUnknownNamespaces := true }
    let allLegal (bytes : Bytes) := ∃ tokens, Tokens (Reader.ofBytes bytes).rest tokens ∧
      ∀ token ∈ tokens, ∀ part ∈ token.parts, part.Legal
    let declaration := Utf8.encode "<list xmlns:p='\x01'/>"
    let comment := ascii "<!--" ++ [0xFF] ++ ascii "--><list/>"
    let name := ascii "<list xmlns:" ++ [0xFF] ++ ascii "='p'/>"
    ((validate itemsBundle options declaration).verdict = .valid ∧ ¬ allLegal declaration) ∧
      ((validate itemsBundle options comment).verdict = .valid ∧ ¬ allLegal comment) ∧
      (validate itemsBundle options name).verdict = .valid ∧ ¬ allLegal name := by
  have refused : Utf8.decode [0xFF] = .error (.malformed 1 0) := by decide
  have refusedName : Utf8.decode (ascii "xmlns:" ++ [0xFF]) = .error (.malformed 1 6) := by
    decide
  intro options allLegal declaration comment name
  refine ⟨⟨by decide +kernel, ?_⟩, ⟨by decide +kernel, ?_⟩, by decide +kernel, ?_⟩
  · exact @not_all_legal_of_first _ (.startTag (Utf8.encode "list xmlns:p='\x01'") true)
      (.declared [1]) (by decide +kernel) (by decide +kernel) not_readable_of_control
  · refine @not_all_legal_of_first _ (.comment [0xFF]) (.verbatim [0xFF]) (by decide +kernel)
      (by decide +kernel) ?_
    rintro ⟨text, code, -⟩
    exact encode_ne_of_decode_eq_error refused text code
  · refine @not_all_legal_of_first _ (.startTag (ascii "list xmlns:" ++ [0xFF] ++ ascii "='p'") true)
      (.name (ascii "xmlns:" ++ [0xFF])) (by decide +kernel) (by decide +kernel) ?_
    rintro ⟨text, code, -⟩
    exact encode_ne_of_decode_eq_error refusedName text code

end Validation

end XmlSchema
