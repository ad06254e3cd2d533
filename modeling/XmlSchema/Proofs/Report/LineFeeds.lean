import XmlSchema.Proofs.Report.Xml

namespace XmlSchema.Report

open Instance (Document LegalText)

def fedChars : List Char → List Char
  | '\r' :: '\n' :: rest => '\n' :: fedChars rest
  | '\r' :: rest => '\n' :: fedChars rest
  | c :: rest => c :: fedChars rest
  | [] => []

def lineFed (text : String) : String := String.ofList (fedChars text.toList)

variable {first second : List Char} {text : String}

theorem not_mem_fedChars (chars : List Char) : '\r' ∉ fedChars chars := by
  fun_induction fedChars chars with
  | case1 rest ih => simpa using ih
  | case2 rest _ ih => simpa using ih
  | case3 c rest _ other ih => simpa [Ne.symm other] using ih
  | case4 => exact List.not_mem_nil

theorem legalText_append {text' : String} :
    LegalText (text ++ text') ↔ LegalText text ∧ LegalText text' := by
  simp only [LegalText, String.toList_append, List.forall_mem_append]

theorem legalText_join {texts : List String} :
    LegalText (String.join texts) ↔ ∀ text ∈ texts, LegalText text := by
  simp only [LegalText, String.toList_join, List.mem_flatMap, forall_exists_index, and_imp]
  rw [forall_comm]
  exact forall_congr' fun text =>
    ⟨fun all member c inside => all c member inside, fun all c member inside => all member c inside⟩

theorem legalText_reason {r : Reason} :
    LegalText r.xml ↔ LegalText r.message ∧ ∀ path ∈ r.xpath?, LegalText path := by
  have tags : ∀ text ∈ ["<reason severity=\"", "\">", "<xpath>", "</xpath>", "<location line=\"",
      "\" column=\"", "\"/>", "<message>", "</message></reason>", ""], LegalText text := by
    unfold LegalText
    decide
  simp only [List.forall_mem_cons] at tags
  have word : LegalText r.severity.word := by
    unfold LegalText
    cases r.severity <;> decide
  have number (n : Nat) : LegalText (toString n) := (plainValue_repr n).legal
  have shown (text : String) : toString text = text := rfl
  unfold Reason.xml
  cases r.xpath? <;> cases r.location? <;>
    simp only [legalText_append, legalText_xmlText_iff, tags, word, number, shown, Option.mem_def,
      Option.some.injEq, forall_eq', reduceCtorEq, false_implies, implies_true, true_and, and_true,
      and_comm]

theorem legalText_xml {r : Report} :
    LegalText r.xml ↔ ∀ reason ∈ r.reasons, LegalText reason.xml := by
  have tags : LegalText "<reasons>" ∧ LegalText "</reasons>" := by
    unfold LegalText
    decide
  rw [xml, legalText_append, legalText_append, and_iff_left tags.2, and_iff_right tags.1,
    legalText_join, List.forall_mem_map]

/-- A text is the same in every document that it is written into. -/
def Lasting (text : String) : Prop := LegalText text ∧ '\r' ∉ text.toList

theorem Lasting.append {text' : String} (first : Lasting text) (second : Lasting text') :
    Lasting (text ++ text') := by
  rw [Lasting, legalText_append, String.toList_append, List.mem_append]
  exact ⟨⟨first.1, second.1⟩, not_or.2 ⟨first.2, second.2⟩⟩

theorem not_mem_xmlChar {c : Char} (other : c ≠ '\r') : '\r' ∉ (xmlChar c).toList := by
  cases special : isMarkup c with
  | true => rcases isMarkup_cases special with rfl | rfl | rfl | rfl | rfl <;> decide
  | false => simpa [xmlChar_eq_singleton special] using Ne.symm other

theorem head?_xmlChar {c : Char} (other : c ≠ '\n') (rest : List Char) :
    ((xmlChar c).toList ++ rest).head? ≠ some '\n' := by
  cases special : isMarkup c with
  | true => rcases isMarkup_cases special with rfl | rfl | rfl | rfl | rfl <;> simp [xmlChar]
  | false => simpa [xmlChar_eq_singleton special] using other

theorem mem_fedChars {chars : List Char} {c : Char} (member : c ∈ fedChars chars) :
    c = '\n' ∨ c ∈ chars := by
  fun_induction fedChars chars with
  | case1 rest ih | case2 rest _ ih =>
    rcases List.mem_cons.1 member with feed | later
    · exact .inl feed
    · exact (ih later).imp_right fun inside => by simp [inside]
  | case3 d rest _ _ ih =>
    rcases List.mem_cons.1 member with here | later
    · exact .inr (List.mem_cons.2 (.inl here))
    · exact (ih later).imp_right (List.mem_cons_of_mem d)
  | case4 => exact nomatch member

theorem fedChars_cons {c : Char} (other : c ≠ '\r') (rest : List Char) :
    fedChars (c :: rest) = c :: fedChars rest := by
  rw [fedChars]
  · rintro _ rfl
    exact absurd rfl other
  · exact other

theorem fedChars_return (noFeed : first.head? ≠ some '\n') :
    fedChars ('\r' :: first) = '\n' :: fedChars first := by
  rw [fedChars]
  rintro rest rfl
  exact noFeed rfl

theorem fedChars_append (noFeed : second.head? ≠ some '\n') :
    fedChars (first ++ second) = fedChars first ++ fedChars second := by
  fun_induction fedChars first with
  | case1 rest ih => simp [fedChars, ih]
  | case2 rest alone ih =>
    rw [List.cons_append, fedChars_return, ih, List.cons_append]
    cases rest with
    | nil => exact noFeed
    | cons c rest => exact fun feed => alone rest (by rw [Option.some.inj feed])
  | case3 c rest _ other ih => rw [List.cons_append, fedChars_cons other, ih, List.cons_append]
  | case4 => rfl

theorem fedChars_append_of_not_mem (plain : '\r' ∉ first) :
    fedChars (first ++ second) = first ++ fedChars second := by
  induction first with
  | nil => rfl
  | cons c first ih =>
    simp only [List.mem_cons, not_or] at plain
    rw [List.cons_append, fedChars_cons (Ne.symm plain.1), ih plain.2, List.cons_append]

theorem fedChars_eq_self_iff : fedChars first = first ↔ '\r' ∉ first := by
  constructor
  · intro same
    rw [← same]
    exact not_mem_fedChars first
  · intro plain
    have alone : fedChars (first ++ []) = first ++ fedChars [] := fedChars_append_of_not_mem plain
    rwa [List.append_nil, fedChars, List.append_nil] at alone

theorem fedChars_escaped (chars : List Char) :
    fedChars (chars.flatMap fun c => (xmlChar c).toList) =
      (fedChars chars).flatMap fun c => (xmlChar c).toList := by
  have ofEnds : (xmlChar '\r').toList = ['\r'] ∧ (xmlChar '\n').toList = ['\n'] := by decide
  fun_induction fedChars chars with
  | case1 rest ih =>
    simp only [List.flatMap_cons, ofEnds, List.singleton_append, fedChars, ih]
  | case2 rest alone ih =>
    simp only [List.flatMap_cons, ofEnds, List.singleton_append]
    rw [fedChars_return, ih]
    cases rest with
    | nil => exact nofun
    | cons c rest => exact head?_xmlChar (fun feed => alone rest (by rw [feed])) _
  | case3 c rest _ other ih =>
    rw [List.flatMap_cons, fedChars_append_of_not_mem (not_mem_xmlChar other), ih,
      List.flatMap_cons]
  | case4 => rfl

theorem lineFed_eq_self_iff : lineFed text = text ↔ '\r' ∉ text.toList := by
  rw [← fedChars_eq_self_iff, lineFed, ← String.toList_inj, String.toList_ofList]

theorem lineFed_xmlText : lineFed (xmlText text) = xmlText (lineFed text) := by
  rw [← String.toList_inj, lineFed, String.toList_ofList, toList_xmlText, toList_xmlText, lineFed,
    String.toList_ofList, fedChars_escaped]

theorem lineFed_append {text' : String} (noFeed : text'.toList.head? ≠ some '\n') :
    lineFed (text ++ text') = lineFed text ++ lineFed text' := by
  rw [lineFed, String.toList_append, fedChars_append noFeed, String.ofList_append, lineFed, lineFed]

theorem lineFed_append_of_not_mem {text' : String} (plain : '\r' ∉ text.toList) :
    lineFed (text ++ text') = text ++ lineFed text' := by
  rw [lineFed, String.toList_append, fedChars_append_of_not_mem plain, String.ofList_append,
    String.ofList_toList, lineFed]

def Reason.lineFed (r : Reason) : Reason :=
  { r with cause := .stated (Report.lineFed r.message), xpath? := r.xpath?.map Report.lineFed }

def fed (r : Report) : Report := { r with reasons := r.reasons.map Reason.lineFed }

theorem lineFed_textElement (opening text closing : String) (plain : '\r' ∉ opening.toList)
    (markup : ∀ rest, (closing ++ rest).toList.head? ≠ some '\n')
    (plain' : '\r' ∉ closing.toList) (rest : String) :
    lineFed (opening ++ (xmlText text ++ (closing ++ rest))) =
      opening ++ (xmlText (lineFed text) ++ (closing ++ lineFed rest)) := by
  rw [lineFed_append_of_not_mem plain, lineFed_append (markup rest), lineFed_xmlText,
    lineFed_append_of_not_mem plain']

theorem lineFed_location (l : Location) (rest : String) :
    lineFed (toString "<location line=\"" ++ (toString l.line ++ (toString "\" column=\"" ++
      (toString l.column ++ (toString "\"/>" ++ rest))))) =
    toString "<location line=\"" ++ (toString l.line ++ (toString "\" column=\"" ++
      (toString l.column ++ (toString "\"/>" ++ lineFed rest)))) := by
  have digits (n : Nat) : '\r' ∉ (toString n).toList := fun member =>
    absurd (isDigit_of_mem_repr _ member) (by decide)
  rw [lineFed_append_of_not_mem (by decide), lineFed_append_of_not_mem (digits _),
    lineFed_append_of_not_mem (by decide), lineFed_append_of_not_mem (digits _),
    lineFed_append_of_not_mem (by decide)]

theorem lineFed_reason (r : Reason) (rest : String) :
    lineFed (r.xml ++ rest) = r.lineFed.xml ++ lineFed rest := by
  have start (rest : String) :
      lineFed ("<reason severity=\"" ++ (r.severity.word ++ ("\">" ++ rest))) =
        "<reason severity=\"" ++ (r.severity.word ++ ("\">" ++ lineFed rest)) := by
    have word : '\r' ∉ r.severity.word.toList := by cases r.severity <;> decide
    rw [lineFed_append_of_not_mem (by decide), lineFed_append_of_not_mem word,
      lineFed_append_of_not_mem (by decide)]
  have path (text : String) := lineFed_textElement "<xpath>" text "</xpath>" (by decide) (by simp)
    (by decide)
  have message := lineFed_textElement "<message>" r.message "</message></reason>" (by decide)
    (by simp) (by decide)
  have given : r.lineFed.severity = r.severity ∧ r.lineFed.message = lineFed r.message ∧
      r.lineFed.location? = r.location? ∧ r.lineFed.xpath? = r.xpath?.map lineFed :=
    ⟨rfl, rfl, rfl, rfl⟩
  unfold Reason.xml
  rw [given.1, given.2.1, given.2.2.1, given.2.2.2]
  cases r.xpath? <;> cases r.location? <;>
    simp only [Option.map, String.append_assoc, String.empty_append, start, path, message,
      lineFed_location]

theorem lineFed_xml (r : Report) : lineFed r.xml = r.fed.xml := by
  have inside (reasons : List Reason) (rest : String) :
      lineFed (String.join (reasons.map (·.xml)) ++ rest) =
        String.join ((reasons.map Reason.lineFed).map (·.xml)) ++ lineFed rest := by
    induction reasons with
    | nil => rfl
    | cons r reasons ih =>
      simp only [List.map_cons, String.join_cons, String.append_assoc, lineFed_reason, ih]
  rw [xml, String.append_assoc, lineFed_append_of_not_mem (by decide), inside,
    ← String.append_assoc]
  rfl

/-- A report is written as a document in which its reasons are found. -/
structure ReadsBack (r : Report) : Prop where
  legal : LegalText r.xml
  wellFormed : (Document.ofBytes (Utf8.encode (lineFed r.xml))).fault? = none
  reasons : reasonsOf? ((Document.ofBytes (Utf8.encode (lineFed r.xml))).events.map Prod.fst) =
    some (r.reasons.map Reason.stated)

theorem legalText_lineFed (legal : LegalText text) : LegalText (lineFed text) := by
  intro c member
  rw [lineFed, String.toList_ofList] at member
  rcases mem_fedChars member with rfl | inside
  · decide
  · exact legal c inside

section Paths

variable {r : Report} (paths : ∀ reason ∈ r.reasons, ∀ path ∈ reason.xpath?, Lasting path)

include paths

theorem legalText_xml_iff_messages :
    LegalText r.xml ↔ ∀ reason ∈ r.reasons, LegalText reason.message := by
  rw [legalText_xml]
  refine forall₂_congr fun reason member => ?_
  rw [legalText_reason, and_iff_left]
  exact fun path given => (paths reason member path given).1

theorem legal_fed (legal : ∀ reason ∈ r.reasons, LegalText reason.message) : r.fed.Legal := by
  refine List.forall_mem_map.2 fun reason member => ⟨legalText_lineFed (legal reason member), ?_⟩
  intro path given
  obtain ⟨path, written, rfl⟩ := Option.map_eq_some_iff.1 given
  exact legalText_lineFed (paths reason member path written).1

theorem reasonsOf?_lineFed (legal : ∀ reason ∈ r.reasons, LegalText reason.message) :
    (Document.ofBytes (Utf8.encode (lineFed r.xml))).fault? = none ∧
      reasonsOf? ((Document.ofBytes (Utf8.encode (lineFed r.xml))).events.map Prod.fst) =
        some (r.reasons.map fun reason => reason.lineFed.stated) := by
  obtain ⟨wellFormed, events⟩ := document_xml r.fed (legal_fed paths legal)
  rw [lineFed_xml, events, reasonsOf?_events, Report.fed, List.map_map]
  exact ⟨wellFormed, rfl⟩

theorem stated_lineFed_iff {reason : Reason} (member : reason ∈ r.reasons) :
    reason.lineFed.stated = reason.stated ↔ '\r' ∉ reason.message.toList := by
  have path : reason.xpath?.map lineFed = reason.xpath? := by
    cases given : reason.xpath? with
    | none => rfl
    | some path => exact congrArg some (lineFed_eq_self_iff.2 (paths reason member path given).2)
  rw [← lineFed_eq_self_iff]
  constructor
  · exact fun same => congrArg Reason.message same
  · intro same
    simp only [Reason.stated, Reason.lineFed, Reason.message, Cause.message, path] at same ⊢
    rw [same]

theorem readsBack_iff_lasting : ReadsBack r ↔ ∀ reason ∈ r.reasons, Lasting reason.message := by
  constructor
  · rintro ⟨legal, -, reasons⟩ reason member
    have messages := (legalText_xml_iff_messages paths).1 legal
    rw [(reasonsOf?_lineFed paths messages).2, Option.some.injEq, List.map_inj_left] at reasons
    exact ⟨messages reason member, (stated_lineFed_iff paths member).1 (reasons reason member)⟩
  · intro lasting
    have messages := fun reason member => (lasting reason member).1
    obtain ⟨wellFormed, reasons⟩ := reasonsOf?_lineFed paths messages
    refine ⟨(legalText_xml_iff_messages paths).2 messages, wellFormed,
      reasons.trans (congrArg some ?_)⟩
    exact List.map_inj_left.2 fun reason member =>
      (stated_lineFed_iff paths member).2 (lasting reason member).2

end Paths

end XmlSchema.Report
