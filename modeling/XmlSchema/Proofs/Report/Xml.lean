import XmlSchema.Proofs.Instance.Legality
import XmlSchema.Proofs.Instance.Writing
import XmlSchema.Proofs.Text.Pieces
import XmlSchema.Report.Basic

namespace XmlSchema.Report

open Instance

def isMarkup (c : Char) : Bool := c == '<' || c == '>' || c == '&' || c == '\'' || c == '"'

theorem xmlChar_eq_singleton {c : Char} (plain : isMarkup c = false) :
    xmlChar c = String.singleton c := by
  simp only [isMarkup, Bool.or_eq_false_iff, beq_eq_false_iff_ne] at plain
  unfold xmlChar
  split <;> simp_all

theorem toList_xmlText (text : String) :
    (xmlText text).toList = text.toList.flatMap fun c => (xmlChar c).toList := by
  rw [xmlText, String.toList_join, List.flatMap_map]

theorem isMarkup_cases {c : Char} (special : isMarkup c = true) :
    c = '<' ∨ c = '>' ∨ c = '&' ∨ c = '\'' ∨ c = '"' := by
  simpa [isMarkup, or_assoc] using special

theorem replaceFrom_xmlChar (c : Char) (position : Nat) (acc rest : List Char) :
    ∃ position', replaceFrom position none acc ((xmlChar c).toList ++ rest) =
      replaceFrom position' none (c :: acc) rest := by
  cases special : isMarkup c with
  | true => rcases isMarkup_cases special with rfl | rfl | rfl | rfl | rfl <;> exact ⟨_, rfl⟩
  | false =>
    refine ⟨position + c.utf8Size, ?_⟩
    have plain : ¬(c == '&') = true := by
      simp only [isMarkup, Bool.or_eq_false_iff] at special
      simp [special]
    rw [xmlChar_eq_singleton special, String.toList_singleton, List.singleton_append, replaceFrom,
      if_neg plain]

theorem replaceFrom_xmlText (chars acc : List Char) (position : Nat) :
    replaceFrom position none acc (chars.flatMap fun c => (xmlChar c).toList) =
      .ok (acc.reverse ++ chars) := by
  induction chars generalizing acc position with
  | nil => simp [replaceFrom]
  | cons c chars ih =>
    rw [List.flatMap_cons]
    obtain ⟨position', read⟩ := replaceFrom_xmlChar c position acc
      (chars.flatMap fun c => (xmlChar c).toList)
    rw [read, ih, List.reverse_cons, List.append_assoc, List.singleton_append]

theorem readContent_xmlText (text : String) :
    readContent (Utf8.encode (xmlText text)) = .ok text := by
  rw [Instance.readContent_eq_ok]
  refine ⟨xmlText text, rfl, ?_⟩
  rw [replaceReferences, toList_xmlText, replaceFrom_xmlText]
  simp [Except.map]

theorem not_mem_xmlText {c : Char} (special : isMarkup c = true) (other : c ≠ '&') (text : String) :
    c ∉ (xmlText text).toList := by
  rw [toList_xmlText]
  intro member
  obtain ⟨d, _, inside⟩ := List.mem_flatMap.1 member
  cases isSpecial : isMarkup d with
  | true =>
    rcases isMarkup_cases special with rfl | rfl | rfl | rfl | rfl <;>
      rcases isMarkup_cases isSpecial with rfl | rfl | rfl | rfl | rfl <;>
        simp [xmlChar] at inside other
  | false =>
    rw [xmlChar_eq_singleton isSpecial, String.toList_singleton, List.mem_singleton] at inside
    rw [inside, isSpecial] at special
    cases special

theorem not_mem_encode_xmlText {b : UInt8} (ascii : b.toNat < 128)
    (special : isMarkup (Char.ofNat b.toNat) = true) (other : Char.ofNat b.toNat ≠ '&')
    (text : String) : b ∉ Utf8.encode (xmlText text) := fun member =>
  not_mem_xmlText special other text (Utf8.ofNat_mem_of_mem_encode member ascii)

theorem legal_xmlChar_iff (c : Char) :
    (∀ d ∈ (xmlChar c).toList, Xml.isXmlChar d = true) ↔ Xml.isXmlChar c = true := by
  cases special : isMarkup c with
  | true => rcases isMarkup_cases special with rfl | rfl | rfl | rfl | rfl <;> decide
  | false => simp [xmlChar_eq_singleton special]

theorem legalText_xmlText_iff {text : String} : LegalText (xmlText text) ↔ LegalText text := by
  simp only [LegalText, toList_xmlText, List.mem_flatMap, forall_exists_index, and_imp]
  rw [forall_comm]
  refine forall_congr' fun c => ?_
  rw [← legal_xmlChar_iff c]
  exact ⟨fun all member d inside => all d member inside,
    fun all d member inside => all member d inside⟩

theorem xmlText_empty : xmlText "" = "" := rfl

theorem xmlText_eq_empty_iff {text : String} : xmlText text = "" ↔ text = "" := by
  constructor
  · intro none
    have read := readContent_xmlText text
    rw [none, ← xmlText_empty, readContent_xmlText] at read
    exact (Except.ok.inj read).symm
  · rintro rfl
    rfl

def Reason.stated (r : Reason) : Reason := { r with cause := .stated r.message }

def textEvents (name text : String) : List Event :=
  .start (plainTag name []) :: ((if text = "" then [] else [.text text]) ++ [.finish])

def locationEvents (l : Location) : List Event :=
  [.start (plainTag "location" [("line", l.line.repr), ("column", l.column.repr)]), .finish]

def Reason.events (r : Reason) : List Event :=
  .start (plainTag "reason" [("severity", r.severity.word)]) ::
    (r.xpath?.elim [] (textEvents "xpath") ++ (r.location?.elim [] locationEvents ++
      textEvents "message" r.message) ++ [.finish])

def events (r : Report) : List Event :=
  .start (plainTag "reasons" []) :: (r.reasons.flatMap Reason.events ++ [.finish])

variable {name text : String} {l : Location} {rest : List Event}

def Severity.ofWord? (word : String) : Option Severity :=
  [.warning, .error, .fatal].find? (·.word == word)

theorem Severity.ofWord?_word (severity : Severity) : ofWord? severity.word = some severity := by
  cases severity <;> decide

def number? (text : String) : Option Nat :=
  if text ≠ "" ∧ text.toList.all Char.isDigit then some (Nat.ofDigitChars 10 text.toList 0)
  else none

theorem isDigit_of_mem_repr {n : Nat} : ∀ c ∈ n.repr.toList, c.isDigit = true := by
  rw [Nat.toList_repr]
  exact fun c member => Nat.isDigit_of_mem_toDigits (by decide) (by decide) member

theorem number?_repr (n : Nat) : number? n.repr = some n := by
  have digits : n.repr.toList.all Char.isDigit = true := List.all_eq_true.2 isDigit_of_mem_repr
  rw [number?, if_pos ⟨Nat.repr_ne_empty, digits⟩, Nat.toList_repr,
    Nat.ofDigitChars_toDigits (by decide) (by decide)]

def textElement? (name : String) : List Event → Option (String × List Event)
  | .start tag :: .text text :: .finish :: rest =>
    if tag = plainTag name [] then some (text, rest) else none
  | .start tag :: .finish :: rest => if tag = plainTag name [] then some ("", rest) else none
  | _ => none

theorem textElement?_textEvents :
    textElement? name (textEvents name text ++ rest) = some (text, rest) := by
  by_cases empty : text = ""
  · simp [textEvents, textElement?, empty]
  · simp [textEvents, textElement?, empty]

def location? : List Event → Option (Location × List Event)
  | .start ⟨⟨"", "location"⟩, [⟨⟨"", "line"⟩, line⟩, ⟨⟨"", "column"⟩, column⟩], none⟩ ::
      .finish :: rest => do
    let line ← number? line
    let column ← number? column
    some (⟨line, column⟩, rest)
  | _ => none

theorem textElement?_other {other : String} (different : other ≠ name) :
    textElement? name (textEvents other text ++ rest) = none := by
  by_cases empty : text = ""
  · simp [textEvents, textElement?, empty, plainTag, different]
  · simp [textEvents, textElement?, empty, plainTag, different]

theorem textElement?_locationEvents : textElement? name (locationEvents l ++ rest) = none := by
  simp [locationEvents, textElement?, plainTag]

def optional {α : Type} (read : List Event → Option (α × List Event)) (events : List Event) :
    Option α × List Event :=
  match read events with
  | some (a, rest) => (some a, rest)
  | none => (none, events)

theorem location?_locationEvents : location? (locationEvents l ++ rest) = some (l, rest) := by
  simp [locationEvents, location?, plainTag, number?_repr]

theorem location?_textEvents : location? (textEvents name text ++ rest) = none := by
  simp [textEvents, location?, plainTag]

def reason? : List Event → Option (Reason × List Event)
  | .start ⟨⟨"", "reason"⟩, [⟨⟨"", "severity"⟩, word⟩], none⟩ :: rest => do
    let severity ← Severity.ofWord? word
    let (xpath?, rest) := optional (textElement? "xpath") rest
    let (location?, rest) := optional location? rest
    let (message, rest) ← textElement? "message" rest
    match rest with
    | .finish :: rest => some ({ severity, cause := .stated message, location?, xpath? }, rest)
    | _ => none
  | _ => none

def reasonsFrom? : Nat → List Event → Option (List Reason)
  | _, [.finish] => some []
  | 0, _ => none
  | fuel + 1, events => do
    let (reason, rest) ← reason? events
    let reasons ← reasonsFrom? fuel rest
    some (reason :: reasons)

def reasonsOf? : List Event → Option (List Reason)
  | .start tag :: rest =>
    if tag = plainTag "reasons" [] then reasonsFrom? rest.length rest else none
  | _ => none

theorem reason?_events (r : Reason) (rest : List Event) :
    reason? (r.events ++ rest) = some (r.stated, rest) := by
  obtain ⟨severity, cause, location?, xpath?⟩ := r
  have path (after : List Event) (none : textElement? "xpath" after = none) :
      optional (textElement? "xpath") (xpath?.elim [] (textEvents "xpath") ++ after) =
        (xpath?, after) := by
    cases xpath? with
    | none => simp [optional, none]
    | some path => simp [optional, textElement?_textEvents]
  have place (text : String) (after : List Event) :
      optional Report.location?
        (location?.elim [] locationEvents ++ (textEvents "message" text ++ after)) =
          (location?, textEvents "message" text ++ after) := by
    cases location? with
    | none => simp [optional, location?_textEvents]
    | some l => simp [optional, location?_locationEvents]
  have noPath (text : String) (after : List Event) : textElement? "xpath"
      (location?.elim [] locationEvents ++ (textEvents "message" text ++ after)) = none := by
    cases location? with
    | none => exact textElement?_other (by decide)
    | some l => exact textElement?_locationEvents
  simp only [Reason.events, plainTag, List.map_cons, List.map_nil, List.cons_append,
    List.append_assoc, reason?, Severity.ofWord?_word, path _ (noPath _ _), place,
    textElement?_textEvents, bind, Option.bind]
  rfl

theorem reasonsFrom?_events {reasons : List Reason} {fuel : Nat} (enough : reasons.length ≤ fuel) :
    reasonsFrom? fuel (reasons.flatMap Reason.events ++ [.finish]) =
      some (reasons.map Reason.stated) := by
  induction reasons generalizing fuel with
  | nil => cases fuel <;> rfl
  | cons r reasons ih =>
    cases fuel with
    | zero => cases enough
    | succ fuel =>
      have others := ih (Nat.le_of_succ_le_succ enough)
      have first := reason?_events r (reasons.flatMap Reason.events ++ [.finish])
      rw [List.flatMap_cons, List.append_assoc, reasonsFrom?, first]
      · simp [others]
      · simp [Reason.events]

theorem length_le_events (reasons : List Reason) :
    reasons.length ≤ (reasons.flatMap Reason.events).length := by
  induction reasons with
  | nil => exact Nat.le_refl _
  | cons r reasons ih =>
    simp only [Reason.events, List.flatMap_cons, List.length_append, List.length_cons] at ih ⊢
    omega

theorem reasonsOf?_events (r : Report) :
    reasonsOf? r.events = some (r.reasons.map Reason.stated) := by
  have enough := length_le_events r.reasons
  simp only [reasonsOf?, events, if_true]
  apply reasonsFrom?_events
  rw [List.length_append]
  omega

def textBytes (name text : String) : Bytes :=
  startBytes name [] ++ (Utf8.encode (xmlText text) ++ endBytes name)

def locationBytes (l : Location) : Bytes :=
  emptyBytes "location" [("line", l.line.repr), ("column", l.column.repr)]

def Reason.bytes (r : Reason) : Bytes :=
  startBytes "reason" [("severity", r.severity.word)] ++
    (r.xpath?.elim [] (textBytes "xpath") ++ (r.location?.elim [] locationBytes ++
      textBytes "message" r.message) ++ endBytes "reason")

theorem encode_tags :
    (Utf8.encode "<location line=\"" = '<'.toUInt8 :: (Utf8.encode "location" ++
        ' '.toUInt8 :: (Utf8.encode "line" ++ ['='.toUInt8, '"'.toUInt8])) ∧
      Utf8.encode "\" column=\"" = '"'.toUInt8 :: ' '.toUInt8 ::
        (Utf8.encode "column" ++ ['='.toUInt8, '"'.toUInt8]) ∧
      Utf8.encode "\"/>" = ['"'.toUInt8, '/'.toUInt8, '>'.toUInt8]) ∧
    (Utf8.encode "<reason severity=\"" = '<'.toUInt8 :: (Utf8.encode "reason" ++
        ' '.toUInt8 :: (Utf8.encode "severity" ++ ['='.toUInt8, '"'.toUInt8])) ∧
      Utf8.encode "\">" = ['"'.toUInt8, '>'.toUInt8]) ∧
    (Utf8.encode "<xpath>" = startBytes "xpath" [] ∧ Utf8.encode "</xpath>" = endBytes "xpath") ∧
    (Utf8.encode "<message>" = startBytes "message" [] ∧
      Utf8.encode "</message></reason>" = endBytes "message" ++ endBytes "reason") ∧
    Utf8.encode "<reasons>" = startBytes "reasons" [] ∧
      Utf8.encode "</reasons>" = endBytes "reasons" := by
  decide +kernel

theorem encode_location (l : Location) :
    Utf8.encode s!"<location line=\"{l.line}\" column=\"{l.column}\"/>" = locationBytes l := by
  have pieces := encode_tags.1
  have shown (text : String) : toString text = text := rfl
  simp [locationBytes, emptyBytes, plainContent, spelled, Spelling.bytes, plainSpelling, pieces,
    shown]

theorem encode_reasonStart (severity : Severity) :
    Utf8.encode "<reason severity=\"" ++ (Utf8.encode severity.word ++ Utf8.encode "\">") =
      startBytes "reason" [("severity", severity.word)] := by
  have pieces := encode_tags.2.1
  simp [startBytes, plainContent, spelled, Spelling.bytes, plainSpelling, pieces]

theorem encode_reason (r : Reason) : Utf8.encode r.xml = r.bytes := by
  obtain ⟨_, _, path, message, _⟩ := encode_tags
  obtain ⟨severity, cause, location?, xpath?⟩ := r
  unfold Reason.xml
  rw [Reason.bytes, ← encode_reasonStart]
  cases xpath? <;> cases location? <;>
    simp only [Utf8.encode_append, Utf8.encode_empty, ← encode_location, textBytes, path, message,
      Option.elim, List.append_assoc, List.nil_append]

theorem encode_xml (r : Report) : Utf8.encode r.xml =
    startBytes "reasons" [] ++ (r.reasons.flatMap Reason.bytes ++ endBytes "reasons") := by
  obtain ⟨_, _, _, _, tags⟩ := encode_tags
  have inside (reasons : List Reason) :
      Utf8.encode (String.join (reasons.map (·.xml))) = reasons.flatMap Reason.bytes := by
    induction reasons with
    | nil => exact Utf8.encode_empty
    | cons r reasons ih =>
      rw [List.map_cons, String.join_cons, Utf8.encode_append, encode_reason, ih, List.flatMap_cons]
  rw [xml, Utf8.encode_append, Utf8.encode_append, tags.1, tags.2, inside, List.append_assoc]

theorem plainName_tags : ∀ name ∈ ["reason", "severity", "location", "line", "column", "message",
    "xpath", "reasons"], PlainName name := by
  decide +kernel

theorem plainTag_reason (severity : Severity) :
    PlainTag "reason" [("severity", severity.word)] where
  name := plainName_tags _ (by simp)
  distinct := List.nodup_singleton _
  items := by
    have named : PlainName "severity" := plainName_tags _ (by simp)
    refine List.forall_mem_singleton.2 ⟨named, plainValue_of_isAlphanum ?_⟩
    cases severity <;> decide

theorem plainValue_repr (n : Nat) : PlainValue n.repr := by
  apply plainValue_of_isAlphanum
  intro c member
  rw [Char.isAlphanum, isDigit_of_mem_repr c member, Bool.or_true]

theorem plainTag_location (l : Location) :
    PlainTag "location" [("line", l.line.repr), ("column", l.column.repr)] where
  name := plainName_tags _ (by simp)
  distinct := (by decide : ["line", "column"].Nodup)
  items := by
    have named : PlainName "line" ∧ PlainName "column" :=
      ⟨plainName_tags _ (by simp), plainName_tags _ (by simp)⟩
    rw [List.forall_mem_cons, List.forall_mem_singleton]
    exact ⟨⟨named.1, plainValue_repr _⟩, ⟨named.2, plainValue_repr _⟩⟩

theorem noText_message (r : Reason) : NoText (textBytes "message" r.message) := noText_markup _

theorem noText_location (r : Reason) :
    NoText (r.location?.elim [] locationBytes ++ textBytes "message" r.message) := by
  cases r.location? <;> exact noText_markup _

theorem noText_reasons (reasons : List Reason) : NoText (reasons.flatMap Reason.bytes) := by
  cases reasons with
  | nil => exact noText_nil
  | cons r reasons => exact noText_markup _

section Reads

variable {p : Progress} (scope : p.scope = .initial)
  (allowed : p.rootSeen = true → p.isInside = true)

include scope allowed

theorem reads_textBytes (plain : PlainTag name []) (legal : LegalText text) :
    Reads p (textBytes name text) (textEvents name text) p.past := by
  apply reads_element plain scope allowed
  split
  · next empty =>
    rw [empty, xmlText_empty, Utf8.encode_eq_nil_iff.2 rfl]
    exact .nothing _
  · next nonempty =>
    have noMarkup (b : UInt8) (ascii : b.toNat < 128)
        (special : isMarkup (Char.ofNat b.toNat) = true) (other : Char.ofNat b.toNat ≠ '&') :
        b ∉ Utf8.encode (xmlText text) := not_mem_encode_xmlText ascii special other text
    apply Reads.single (spells_text _ (noMarkup _ (by decide) (by decide) (by decide)))
    · exact read_text rfl (noMarkup _ (by decide) (by decide) (by decide))
        (readContent_xmlText text) legal
    · rw [Ne, Utf8.encode_eq_nil_iff, xmlText_eq_empty_iff]
      exact nonempty

end Reads

section Inside

-- Inside an element, the reader knows the same before and behind each piece.
variable {p : Progress} (scope : p.scope = .initial) (inside : p.isInside = true)
  (same : p.past = p)

include scope inside same

theorem reads_partsOfReason (r : Reason) (message : LegalText r.message)
    (path : ∀ path ∈ r.xpath?, LegalText path) :
    Reads p (r.xpath?.elim [] (textBytes "xpath") ++ (r.location?.elim [] locationBytes ++
        textBytes "message" r.message))
      (r.xpath?.elim [] (textEvents "xpath") ++ (r.location?.elim [] locationEvents ++
        textEvents "message" r.message)) p := by
  have named : PlainName "message" ∧ PlainName "xpath" :=
    ⟨plainName_tags _ (by simp), plainName_tags _ (by simp)⟩
  have ofText {name text : String} (plain : PlainName name) (legal : LegalText text) :
      Reads p (textBytes name text) (textEvents name text) p := by
    have read := reads_textBytes scope (fun _ => inside) (plainTag_nil plain) legal
    rwa [same] at read
  have ofPath : Reads p (r.xpath?.elim [] (textBytes "xpath"))
      (r.xpath?.elim [] (textEvents "xpath")) p := by
    cases given : r.xpath? with
    | none => exact .nothing p
    | some text => exact ofText named.2 (path text given)
  have ofLocation : Reads p (r.location?.elim [] locationBytes)
      (r.location?.elim [] locationEvents) p := by
    cases r.location? with
    | none => exact .nothing p
    | some l =>
      have read := reads_emptyElement (plainTag_location l) scope fun _ => inside
      rwa [same] at read
  exact ofPath.append (noText_location r)
    (ofLocation.append (noText_message r) (ofText named.1 message))

theorem reads_reasons (reasons : List Reason)
    (legal : ∀ r ∈ reasons, LegalText r.message ∧ ∀ path ∈ r.xpath?, LegalText path) :
    Reads p (reasons.flatMap Reason.bytes) (reasons.flatMap Reason.events) p := by
  induction reasons with
  | nil => exact .nothing p
  | cons r reasons ih =>
    obtain ⟨⟨message, path⟩, others⟩ := List.forall_mem_cons.1 legal
    have parts := reads_partsOfReason (p := p.inside (plainContent "reason"
      [("severity", r.severity.word)])) scope rfl rfl r message path
    have first := reads_element (plainTag_reason r.severity) scope (fun _ => inside) parts
    rw [same] at first
    exact first.append (noText_reasons reasons) (ih others)

end Inside

/-- All texts of a report may occur in a document. -/
def Legal (r : Report) : Prop :=
  ∀ reason ∈ r.reasons, LegalText reason.message ∧ ∀ path ∈ reason.xpath?, LegalText path

theorem document_xml (r : Report) (legal : r.Legal) :
    (Document.ofBytes (Utf8.encode r.xml)).fault? = none ∧
      (Document.ofBytes (Utf8.encode r.xml)).events.map Prod.fst = r.events := by
  have named : PlainName "reasons" := plainName_tags _ (by simp)
  have reads := reads_element (p := {}) (plainTag_nil named) rfl nofun
    (reads_reasons rfl rfl rfl r.reasons legal)
  rw [encode_xml]
  exact document_of_reads reads rfl rfl

end XmlSchema.Report
