import Mathlib.Tactic.MkIffOfInductiveProp
import XmlSchema.Proofs.Instance.AttributeNames
import XmlSchema.Proofs.Instance.Locality

namespace XmlSchema.Instance

def NoText (bytes : Bytes) : Prop := ∀ b ∈ bytes.head?, b = '<'.toUInt8

def Ends (bytes rest : Bytes) : Prop := bytes.head? = some '<'.toUInt8 ∨ NoText rest

/-- Bytes are read as a token where it ends behind them. -/
def Spells (bytes : Bytes) (token : Token) : Prop :=
  ∀ rest, Ends bytes rest → scan? (bytes ++ rest) = some ⟨.ok token, bytes, rest⟩

inductive Reads : Progress → Bytes → List Event → Progress → Prop
  | nothing (p : Progress) : Reads p [] [] p
  | token {p q after : Progress} {bytes rest : Bytes} {token : Token} {events more : List Event}
      (spells : Spells bytes token) (read : p.read token = .ok (events, q)) (ends : Ends bytes rest)
      (later : Reads q rest more after) : Reads p (bytes ++ rest) (events ++ more) after

variable {p q after : Progress} {bytes more content : Bytes} {events later : List Event}
  {token : Token}

theorem noText_nil : NoText [] := fun _ none => nomatch none

theorem noText_markup (rest : Bytes) : NoText ('<'.toUInt8 :: rest) := fun _ first =>
  (Option.some.inj first).symm

theorem NoText.append (first : NoText bytes) (second : NoText more) : NoText (bytes ++ more) := by
  cases bytes with
  | nil => exact second
  | cons b bytes => exact first

namespace Reads

theorem single (spells : Spells bytes token) (read : p.read token = .ok (events, q)) :
    Reads p bytes events q := by
  have alone := Reads.token spells read (.inr noText_nil) (.nothing q)
  rwa [List.append_nil, List.append_nil] at alone

theorem append (first : Reads p bytes events q) (noText : NoText more)
    (second : Reads q more later after) : Reads p (bytes ++ more) (events ++ later) after := by
  induction first with
  | nothing p => exact second
  | token spells read ends _ ih =>
    rw [List.append_assoc, List.append_assoc]
    exact .token spells read (ends.imp_right fun first => first.append noText) (ih second)

theorem reading (reads : Reads p bytes events q) {r : Reader} (start : r.rest = bytes)
    (earlier : List (Event × Location)) :
    ∃ document, Reading r p earlier document ∧
      document.events.map Prod.fst = earlier.reverse.map Prod.fst ++ events ∧
      document.fault?.map Prod.fst = q.endFault? := by
  induction reads generalizing r earlier with
  | nothing p =>
    refine ⟨_, .ended (by rw [start]; rfl), (List.append_nil _).symm, ?_⟩
    cases p.endFault? <;> rfl
  | @token p q after bytes rest token events more spells read ends _ ih =>
    have scanned := spells rest ends
    rw [← start] at scanned
    obtain ⟨document, later, delivered, fault⟩ := ih (r := r.after ⟨.ok token, bytes, rest⟩) rfl _
    refine ⟨document, .goesOn scanned rfl read later, ?_, fault⟩
    rw [delivered]
    simp [Function.comp_def]

end Reads

/-- A document is read as what its bytes are read as. -/
theorem document_of_reads (reads : Reads {} bytes events q) (noFault : q.endFault? = none)
    (noMark : Reader.byteOrderMark.isPrefixOf bytes = false) :
    (Document.ofBytes bytes).fault? = none ∧
      (Document.ofBytes bytes).events.map Prod.fst = events := by
  have start : Reader.ofBytes bytes = { rest := bytes } := by
    rw [Reader.ofBytes, noMark]
    rfl
  obtain ⟨document, reading, delivered, fault⟩ := reads.reading (r := { rest := bytes }) rfl []
  rw [noFault, Option.map_eq_none_iff] at fault
  rw [← start] at reading
  rw [reading.ofBytes_eq]
  exact ⟨fault, delivered⟩

theorem spells_text (nonempty : content ≠ []) (isText : '<'.toUInt8 ∉ content) :
    Spells content (.text content) := by
  rintro rest (markup | noText)
  · exact absurd (List.mem_of_mem_head? markup) isText
  · apply scan?_text nonempty _ noText
    intro b member
    exact bne_iff_ne.2 fun same => isText (same ▸ member)

theorem spells_markup (scanned : scan? bytes = some ⟨.ok token, bytes, []⟩)
    (markup : bytes.head? = some '<'.toUInt8) : Spells bytes token :=
  fun rest _ => scan?_local scanned rfl markup rest

theorem holdsSectionEnd_eq_false (noEnd : '>'.toUInt8 ∉ content) :
    Progress.holdsSectionEnd content = false := by
  induction content with
  | nil => rfl
  | cons b content ih =>
    rw [Progress.holdsSectionEnd, ih fun member => noEnd (List.mem_cons_of_mem b member),
      Bool.or_false, Bool.eq_false_iff]
    intro isPrefix
    have within := (List.isPrefixOf_iff_prefix.1 isPrefix).subset
    exact noEnd (within (by decide))

theorem read_text {text : String} (inside : p.isInside = true) (noEnd : '>'.toUInt8 ∉ content)
    (given : readContent content = .ok text) (legal : LegalText text) :
    p.read (.text content) = .ok ([.text text], { p with atStart := false }) := by
  exact Progress.read_eq_ok_iff.2 (.text (readText_eq_ok.2
    ⟨holdsSectionEnd_eq_false noEnd, text, given, legal, .inl ⟨inside, rfl⟩⟩))

structure Opens (content : Bytes) (tag : StartTag) : Prop where
  enters : Scope.initial.enter content = .ok .initial
  read : StartTag.read .initial content = .ok tag

def Progress.inside (p : Progress) (content : Bytes) : Progress :=
  ⟨⟨elementName content, p.scope⟩ :: p.opened, p.scope, true, false, p.depth + 1⟩

def Progress.past (p : Progress) : Progress := { p with rootSeen := true, atStart := false }

section Tags

variable {tag : StartTag} (scope : p.scope = .initial)
  (allowed : p.rootSeen = true → p.isInside = true) (opens : Opens content tag)

include scope allowed opens

theorem readStart_of_opens :
    { p with atStart := false }.readStart content = .ok (tag, p.inside content) := by
  obtain ⟨opened, _, rootSeen, atStart, depth⟩ := p
  obtain rfl : _ = Scope.initial := scope
  obtain ⟨entered, tagRead⟩ := opens
  have first : (rootSeen && !(Progress.mk opened .initial rootSeen false depth).isInside) =
      false := by
    cases rootSeen with
    | false => rfl
    | true => simpa [Progress.isInside] using allowed rfl
  simp only [Progress.readStart, entered, Except.mapError, bind, Except.bind, first, tagRead]
  rfl

theorem read_startTag :
    p.read (.startTag content false) = .ok ([.start tag], p.inside content) :=
  Progress.read_eq_ok_iff.2 (.start (readStart_of_opens scope allowed opens))

theorem read_emptyTag : p.read (.startTag content true) = .ok ([.start tag, .finish], p.past) :=
  Progress.read_eq_ok_iff.2 (.empty (readStart_of_opens scope allowed opens))

theorem Reads.element {start finish : Bytes} (spellsStart : Spells start (.startTag content false))
    (spellsEnd : Spells finish (.endTag (elementName content)))
    (markup : start.head? = some '<'.toUInt8) (noText : NoText finish)
    (inside : Reads (p.inside content) bytes events (p.inside content)) :
    Reads p (start ++ (bytes ++ finish)) (.start tag :: (events ++ [.finish])) p.past := by
  have readEnd :
      (p.inside content).read (.endTag (elementName content)) = .ok ([.finish], p.past) := by
    have same : (elementName content == elementName content) = true := beq_self_eq_true _
    refine Progress.read_eq_ok_iff.2 (.finish ?_)
    simp only [Progress.readEnd, Progress.inside, same, if_true]
    rfl
  exact .token spellsStart (read_startTag scope allowed opens) (.inl markup)
    (inside.append noText (.single spellsEnd readEnd))

end Tags

@[mk_iff]
structure PlainName (name : String) : Prop where
  isName : Xml.isQName name.toList = true
  noColon : ':'.toUInt8 ∉ Utf8.encode name
  inside : ∀ b ∈ Utf8.encode name, isBlankByte b = false ∧ b ≠ '='.toUInt8 ∧ b ≠ '>'.toUInt8 ∧
    b ≠ '"'.toUInt8 ∧ b ≠ '\''.toUInt8 ∧ b ≠ '/'.toUInt8 ∧ b ≠ '!'.toUInt8 ∧ b ≠ '?'.toUInt8
  notDeclaration : isDeclaration (Utf8.encode name) = false

instance (name : String) : Decidable (PlainName name) :=
  letI (bytes : Bytes) (p : UInt8 → Prop) [DecidablePred p] : Decidable (∀ b ∈ bytes, p b) :=
    List.decidableBAll p bytes
  decidable_of_iff' _ (plainName_iff name)

structure PlainValue (value : String) : Prop where
  legal : LegalText value
  noReference : '&' ∉ value.toList
  inside : '"'.toUInt8 ∉ Utf8.encode value

theorem plainValue_of_isAlphanum {value : String}
    (letters : ∀ c ∈ value.toList, c.isAlphanum = true) : PlainValue value where
  legal := by
    intro c member
    have letter := letters c member
    unfold Char.isAlphanum Char.isAlpha Char.isUpper Char.isLower Char.isDigit at letter
    simp only [Bool.or_eq_true, Bool.and_eq_true, decide_eq_true_eq, UInt32.le_iff_toNat_le,
      ge_iff_le, Char.toNat_val] at letter
    have small : 0x20 ≤ c.toNat ∧ c.toNat ≤ 0xD7FF := by
      rcases letter with (upper | lower) | digit
      · exact ⟨Nat.le_trans (by decide) upper.1, Nat.le_trans upper.2 (by decide)⟩
      · exact ⟨Nat.le_trans (by decide) lower.1, Nat.le_trans lower.2 (by decide)⟩
      · exact ⟨Nat.le_trans (by decide) digit.1, Nat.le_trans digit.2 (by decide)⟩
    simp [Xml.isXmlChar, small]
  noReference member := absurd (letters _ member) (by decide)
  inside member := absurd (letters _ (Utf8.ofNat_mem_of_mem_encode member (by decide))) (by decide)

structure PlainTag (name : String) (items : List (String × String)) : Prop where
  name : PlainName name
  distinct : (items.map (·.1)).Nodup
  items : ∀ item ∈ items, PlainName item.1 ∧ PlainValue item.2

theorem plainTag_nil {name : String} (plain : PlainName name) : PlainTag name [] :=
  ⟨plain, List.nodup_nil, nofun⟩

def plainSpelling (item : String × String) : Spelling where
  indent := [' '.toUInt8]
  key := Utf8.encode item.1
  beforeSign := []
  afterSign := []
  quote := '"'.toUInt8
  value := Utf8.encode item.2

def plainContent (name : String) (items : List (String × String)) : Bytes :=
  Utf8.encode name ++ spelled (items.map plainSpelling)

def startBytes (name : String) (items : List (String × String)) : Bytes :=
  '<'.toUInt8 :: (plainContent name items ++ ['>'.toUInt8])

def emptyBytes (name : String) (items : List (String × String)) : Bytes :=
  '<'.toUInt8 :: (plainContent name items ++ ['/'.toUInt8] ++ ['>'.toUInt8])

def endBytes (name : String) : Bytes :=
  '<'.toUInt8 :: ('/'.toUInt8 :: Utf8.encode name ++ ['>'.toUInt8])

def plainTag (name : String) (items : List (String × String)) : StartTag :=
  ⟨⟨"", name⟩, items.map fun item => ⟨⟨"", item.1⟩, item.2⟩, none⟩

variable {name : String} {items : List (String × String)}

theorem PlainName.ne_nil (plain : PlainName name) : Utf8.encode name ≠ [] := by
  intro none
  have read := Utf8.decodeLossy_encode name
  rw [none, Utf8.decodeLossy] at read
  have isName := plain.isName
  rw [← read] at isName
  cases isName

theorem valid_plainSpelling {item : String × String} (name : PlainName item.1)
    (value : PlainValue item.2) : (plainSpelling item).Valid where
  indent := List.forall_mem_singleton.2 (by decide)
  key := by
    obtain ⟨first, more, key⟩ := List.exists_cons_of_ne_nil name.ne_nil
    have inside := name.inside
    rw [key, List.forall_mem_cons] at inside
    exact ⟨first, more, key, inside.1.1, fun b member =>
      ⟨(inside.2 b member).1, (inside.2 b member).2.1⟩⟩
  beforeSign := fun _ member => nomatch member
  afterSign := fun _ member => nomatch member
  quote := .inl rfl
  value := value.inside

theorem resolveName_plain (plain : PlainName name) (scope : Scope) (unprefixed : Bytes) :
    resolveName scope unprefixed (Utf8.encode name) =
      .ok ⟨Utf8.decodeLossy unprefixed, name⟩ := by
  simp only [resolveName, splitName_of_not_mem plain.noColon, Utf8.decodeLossy_encode]

theorem replaceFrom_of_not_mem {text : List Char} (absent : '&' ∉ text) (position : Nat)
    (acc : List Char) : replaceFrom position none acc text = .ok (acc.reverse ++ text) := by
  induction text generalizing position acc with
  | nil => simp [replaceFrom]
  | cons c text ih =>
    simp only [List.mem_cons, not_or] at absent
    have plain : ¬(c == '&') = true := by simpa using Ne.symm absent.1
    rw [replaceFrom, if_neg plain, ih absent.2, List.reverse_cons, List.append_assoc,
      List.singleton_append]

theorem readContent_plain {value : String} (plain : PlainValue value) :
    readContent (Utf8.encode value) = .ok value := by
  rw [readContent_eq_ok]
  refine ⟨value, rfl, ?_⟩
  rw [replaceReferences, replaceFrom_of_not_mem plain.noReference]
  simp [Except.map]

theorem readOneAttribute_of_standsFor {scope : Scope} {element : String} {raw : RawAttribute}
    {a : Attribute} (isName : Xml.isQName (Utf8.decodeLossy raw.key).toList = true)
    (notDeclaration : isDeclaration raw.key = false) (standsFor : raw.StandsFor scope a) :
    readOneAttribute scope element raw = .ok (some a) := by
  have noFault := legalText_iff.1 standsFor.legal
  simp only [readOneAttribute, isName, notDeclaration, standsFor.name, standsFor.value, noFault,
    Bool.not_true, Bool.false_eq_true, if_false, Except.mapError, bind, Except.bind, pure,
    Except.pure]

theorem readOneAttribute_plain {item : String × String} (name : PlainName item.1)
    (value : PlainValue item.2) (scope : Scope) (element : String) :
    readOneAttribute scope element (plainSpelling item).raw =
      .ok (some ⟨⟨"", item.1⟩, item.2⟩) := by
  apply readOneAttribute_of_standsFor
  · have key := Utf8.decodeLossy_encode item.1
    exact key.symm ▸ name.isName
  · exact name.notDeclaration
  · exact ⟨resolveName_plain name scope [], readContent_plain value, value.legal⟩

theorem mapM_readOneAttribute_plain
    (plain : ∀ item ∈ items, PlainName item.1 ∧ PlainValue item.2) (scope : Scope)
    (element : String) :
    ((items.map plainSpelling).map Spelling.raw).mapM (readOneAttribute scope element) =
      .ok (items.map fun item => some ⟨⟨"", item.1⟩, item.2⟩) := by
  induction items with
  | nil => rfl
  | cons item items ih =>
    obtain ⟨⟨key, value⟩, rest⟩ := List.forall_mem_cons.1 plain
    simp only [List.map_cons, List.mapM_cons, readOneAttribute_plain key value, bind, Except.bind]
    rw [ih rest]
    rfl

theorem attributesOf_plain (plain : PlainTag name items) (distinct : Bool) :
    elementName (plainContent name items) = Utf8.encode name ∧
      attributesOf distinct (plainContent name items) =
        ⟨(items.map plainSpelling).map Spelling.raw, none⟩ := by
  have visible : ∀ b ∈ Utf8.encode name, isBlankByte b = false := fun b member =>
    (plain.name.inside b member).1
  have apart : ∀ b ∈ (spelled (items.map plainSpelling) ++ []).head?, isBlankByte b = true := by
    cases items with
    | nil => exact fun _ none => nomatch none
    | cons item items =>
      rintro b ⟨⟩
      rfl
  have valid : ∀ s ∈ items.map plainSpelling, s.Valid := by
    intro s member
    obtain ⟨item, among, rfl⟩ := List.mem_map.1 member
    exact valid_plainSpelling (plain.items item among).1 (plain.items item among).2
  have keys : ((items.map plainSpelling).map (·.key)).Nodup := by
    have injective : Function.Injective Utf8.encode := fun text text' same => by
      rw [← Utf8.decodeLossy_encode text, same, Utf8.decodeLossy_encode]
    simpa [plainSpelling, Function.comp_def] using plain.distinct.map injective
  rw [plainContent, ← List.append_nil (spelled _)]
  exact attributesOf_spelled visible apart valid (fun _ member => nomatch member) keys

theorem opens_plain (plain : PlainTag name items) :
    Opens (plainContent name items) (plainTag name items) := by
  have attributes := attributesOf_plain plain
  constructor
  -- No attribute declares a namespace, so the scope stays as it is.
  · have declares (raws : List RawAttribute) (none : ∀ raw ∈ raws, isDeclaration raw.key = false) :
        raws.foldlM Scope.declare .initial = .ok .initial := by
      induction raws with
      | nil => rfl
      | cons raw raws ih =>
        obtain ⟨first, rest⟩ := List.forall_mem_cons.1 none
        have noLabel : declaredLabel? raw.key = .none := by simpa [isDeclaration] using first
        simp only [List.foldlM_cons, Scope.declare, noLabel, bind, Except.bind]
        exact ih rest
    rw [Scope.enter, (attributes false).2]
    apply declares
    simp only [List.map_map, List.forall_mem_map]
    exact fun item member => (plain.items item member).1.notDeclaration
  · have named : Utf8.decodeLossy (elementName (plainContent name items)) = name := by
      rw [(attributes true).1, Utf8.decodeLossy_encode]
    have resolved : resolveName .initial Scope.initial.defaultUri
        (elementName (plainContent name items)) = .ok ⟨"", name⟩ := by
      rw [(attributes true).1]
      exact resolveName_plain plain.name .initial []
    have all : readAllAttributes .initial name (attributesOf true (plainContent name items)) =
        .ok (plainTag name items).attributes := by
      rw [(attributes true).2]
      simp only [readAllAttributes, mapM_readOneAttribute_plain plain.items, bind, Except.bind,
        pure, Except.pure]
      simp [plainTag, List.filterMap_map]
    have noRequest : (plainTag name items).attributes.find? (fun a => a.name == typeAttribute) =
        none := by
      simp [plainTag, typeAttribute, Component.instanceNamespace]
    simp only [StartTag.read, named, plain.name.isName, resolved, all, noRequest, Bool.not_true,
      Bool.false_eq_true, if_false, Except.mapError, bind, Except.bind, pure, Except.pure]
    rfl

def Inner (bytes : Bytes) : Prop :=
  ∀ passed rest, tagEnd? none passed (bytes ++ rest) = tagEnd? none (bytes.reverse ++ passed) rest

theorem inner_nil : Inner [] := fun _ _ => rfl

theorem Inner.append (first : Inner bytes) (second : Inner more) : Inner (bytes ++ more) := by
  intro passed rest
  rw [List.append_assoc, first, second, List.reverse_append, List.append_assoc]

theorem inner_flatMap {α : Type} {f : α → Bytes} {as : List α} (inner : ∀ a ∈ as, Inner (f a)) :
    Inner (as.flatMap f) := by
  induction as with
  | nil => exact inner_nil
  | cons a as ih =>
    obtain ⟨first, others⟩ := List.forall_mem_cons.1 inner
    exact first.append (ih others)

theorem inner_plain
    (plain : ∀ b ∈ bytes, b ≠ '>'.toUInt8 ∧ b ≠ '"'.toUInt8 ∧ b ≠ '\''.toUInt8) : Inner bytes := by
  intro passed rest
  induction bytes generalizing passed with
  | nil => rfl
  | cons b bytes ih =>
    obtain ⟨⟨noEnd, noQuote, noApostrophe⟩, others⟩ := List.forall_mem_cons.1 plain
    have quotes : (b == '"'.toUInt8 || b == '\''.toUInt8) = false := by
      rw [beq_false_of_ne noQuote, beq_false_of_ne noApostrophe, Bool.or_false]
    rw [List.cons_append, tagEnd?]
    simp only [beq_false_of_ne noEnd, quotes, Bool.false_eq_true, if_false, ih others]
    simp

theorem tagEnd?_quoted {quote : UInt8} {value : Bytes} (inside : quote ∉ value)
    (passed rest : Bytes) :
    tagEnd? (some quote) passed (value ++ quote :: rest) =
      tagEnd? none (quote :: (value.reverse ++ passed)) rest := by
  induction value generalizing passed with
  | nil => simp [tagEnd?]
  | cons b value ih =>
    simp only [List.mem_cons, not_or] at inside
    rw [List.cons_append, tagEnd?]
    simp only [beq_false_of_ne (Ne.symm inside.1), Bool.false_eq_true, if_false, ih inside.2]
    simp

theorem inner_quoted {quote : UInt8} {value : Bytes}
    (isQuote : quote = '"'.toUInt8 ∨ quote = '\''.toUInt8) (inside : quote ∉ value) :
    Inner (quote :: (value ++ [quote])) := by
  intro passed rest
  have opens : ¬(quote == '>'.toUInt8) = true ∧
      (quote == '"'.toUInt8 || quote == '\''.toUInt8) = true := by
    rcases isQuote with rfl | rfl <;> decide
  rw [List.cons_append, List.append_assoc, List.singleton_append, tagEnd?]
  simp only [opens.1, opens.2, if_true, tagEnd?_quoted inside]
  simp

theorem inner_name (plain : PlainName name) : Inner (Utf8.encode name) := by
  apply inner_plain
  intro b member
  obtain ⟨_, _, noEnd, noQuote, noApostrophe, _⟩ := plain.inside b member
  exact ⟨noEnd, noQuote, noApostrophe⟩

theorem inner_plainContent (plain : PlainTag name items) : Inner (plainContent name items) := by
  have sign : Inner ['='.toUInt8] := inner_plain (List.forall_mem_singleton.2 (by decide))
  have blank : Inner [' '.toUInt8] := inner_plain (List.forall_mem_singleton.2 (by decide))
  apply (inner_name plain.name).append
  apply inner_flatMap
  intro s member
  obtain ⟨item, among, rfl⟩ := List.mem_map.1 member
  obtain ⟨key, value⟩ := plain.items item among
  exact blank.append ((inner_name key).append (sign.append (inner_quoted (.inl rfl) value.inside)))

theorem spells_tag (inner : Inner content) {b : UInt8} (first : content.head? = some b)
    (noOther : b ≠ '!'.toUInt8 ∧ b ≠ '?'.toUInt8) :
    Spells ('<'.toUInt8 :: (content ++ ['>'.toUInt8])) (tag content) := by
  have head : (content ++ ['>'.toUInt8]).head? = some b := by
    rw [List.head?_append, first, Option.some_or]
  have finish : tagEnd? none [] (content ++ ['>'.toUInt8]) = some (content, []) := by
    rw [inner]
    simp [tagEnd?]
  apply spells_markup _ rfl
  simp [scan?, scanMarkup, head, noOther, finish, Scan.upTo, Scan.markup]

theorem PlainName.head? (plainName : PlainName name) (rest : Bytes) :
    ∃ b, (Utf8.encode name ++ rest).head? = some b ∧ b ≠ '/'.toUInt8 ∧ b ≠ '!'.toUInt8 ∧
      b ≠ '?'.toUInt8 := by
  obtain ⟨b, more, bytes⟩ := List.exists_cons_of_ne_nil plainName.ne_nil
  obtain ⟨_, _, _, _, _, noSlash, others⟩ := plainName.inside b (by simp [bytes])
  exact ⟨b, by simp [bytes], noSlash, others⟩

theorem getLast?_plainContent (plainName : PlainName name) :
    (plainContent name items).getLast? ≠ some '/'.toUInt8 := by
  rw [plainContent, List.getLast?_append]
  rcases items.eq_nil_or_concat with rfl | ⟨items, item, rfl⟩
  · intro last
    have member := List.mem_of_getLast? (by simpa [spelled] using last)
    exact (plainName.inside _ member).2.2.2.2.2.1 rfl
  · have quoted : (plainSpelling item).bytes.getLast? = some '"'.toUInt8 := by
      simp [Spelling.bytes, plainSpelling, List.getLast?_append, List.getLast?_cons]
    simp only [spelled, List.concat_eq_append, List.map_append, List.flatMap_append, List.map_cons,
      List.map_nil, List.flatMap_singleton, List.getLast?_append, quoted, Option.some_or]
    decide

theorem tag_of_head? {b : UInt8} (first : content.head? = some b) (noSlash : b ≠ '/'.toUInt8) :
    tag content = if content.getLast? == some '/'.toUInt8 then .startTag content.dropLast true
      else .startTag content false := by
  cases content with
  | nil => cases first
  | cons c rest =>
    obtain rfl := Option.some.inj first
    rw [tag, beq_false_of_ne noSlash]
    rfl

theorem trimBlankEnd_of_not_blank (visible : ∀ b ∈ bytes, isBlankByte b = false) :
    trimBlankEnd bytes = bytes := by
  have kept : bytes.reverse.dropWhile isBlankByte = bytes.reverse := by
    cases reversed : bytes.reverse with
    | nil => rfl
    | cons b rest =>
      have member : b ∈ bytes.reverse := by simp [reversed]
      rw [List.dropWhile_cons_of_neg]
      simp [visible b (List.mem_reverse.1 member)]
  rw [trimBlankEnd, kept, List.reverse_reverse, ite_self]

theorem spells_startBytes (plain : PlainTag name items) :
    Spells (startBytes name items) (.startTag (plainContent name items) false) := by
  obtain ⟨b, first, noSlash, noOther⟩ := plain.name.head? (spelled (items.map plainSpelling))
  rw [← plainContent] at first
  have token : tag (plainContent name items) = .startTag (plainContent name items) false := by
    rw [tag_of_head? first noSlash, beq_false_of_ne (getLast?_plainContent plain.name)]
    rfl
  rw [← token]
  exact spells_tag (inner_plainContent plain) first noOther

theorem spells_emptyBytes (plain : PlainTag name items) :
    Spells (emptyBytes name items) (.startTag (plainContent name items) true) := by
  have first := plain.name.head? (spelled (items.map plainSpelling) ++ ['/'.toUInt8])
  rw [← List.append_assoc, ← plainContent] at first
  obtain ⟨b, first, noSlash, noOther⟩ := first
  have token : tag (plainContent name items ++ ['/'.toUInt8]) =
      .startTag (plainContent name items) true := by
    rw [tag_of_head? first noSlash]
    simp
  have slash : Inner ['/'.toUInt8] := inner_plain (List.forall_mem_singleton.2 (by decide))
  rw [← token]
  exact spells_tag ((inner_plainContent plain).append slash) first noOther

theorem spells_endBytes (plain : PlainName name) :
    Spells (endBytes name) (.endTag (Utf8.encode name)) := by
  have slash : Inner ['/'.toUInt8] := inner_plain (List.forall_mem_singleton.2 (by decide))
  have token : tag ('/'.toUInt8 :: Utf8.encode name) = .endTag (Utf8.encode name) := by
    rw [tag, if_pos (beq_self_eq_true _),
      trimBlankEnd_of_not_blank fun b member => (plain.inside b member).1]
  rw [← token]
  exact spells_tag (slash.append (inner_name plain)) rfl (by decide)

section Elements

variable (plain : PlainTag name items) (scope : p.scope = .initial)
  (allowed : p.rootSeen = true → p.isInside = true)

include plain scope allowed

theorem reads_element
    (inside : Reads (p.inside (plainContent name items)) bytes events
      (p.inside (plainContent name items))) :
    Reads p (startBytes name items ++ (bytes ++ endBytes name))
      (.start (plainTag name items) :: (events ++ [.finish])) p.past := by
  apply Reads.element scope allowed (opens_plain plain) (spells_startBytes plain) _ rfl
    (noText_markup _) inside
  rw [(attributesOf_plain plain true).1]
  exact spells_endBytes plain.name

theorem reads_emptyElement :
    Reads p (emptyBytes name items) [.start (plainTag name items), .finish] p.past :=
  .single (spells_emptyBytes plain) (read_emptyTag scope allowed (opens_plain plain))

end Elements

end XmlSchema.Instance
