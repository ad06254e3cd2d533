import XmlSchema.Proofs.Instance.AttributeNames
import XmlSchema.Proofs.Report.LineFeeds
import XmlSchema.Proofs.Validation.Stacks

namespace XmlSchema.Validation

open Instance (Delivers Document Event LegalText Progress StartTag openNames)
open Report (Lasting ReadsBack Reason)
open Structure (Monitor)

def NameText (text : String) : Prop := ∀ c ∈ text.toList, Xml.isNameChar c = true

theorem isXmlChar_of_isNameChar {c : Char} (named : Xml.isNameChar c = true) :
    Xml.isXmlChar c = true := by
  have within : ∀ r ∈ Xml.nameStartRanges ++ Xml.nameExtraRanges,
      0x20 ≤ r.first ∧ r.last ≤ 0xD7FF ∨ 0xE000 ≤ r.first ∧ r.last ≤ 0xFFFD ∨
        0x10000 ≤ r.first := by decide
  have colonOrRange : c = ':' ∨
      ∃ r ∈ Xml.nameStartRanges ++ Xml.nameExtraRanges, r.contains c = true := by
    simp only [Xml.isNameChar, Xml.isNameStartChar, Bool.or_eq_true, beq_iff_eq, or_assoc] at named
    rwa [← Bool.or_eq_true, ← List.any_append, List.any_eq_true] at named
  rcases colonOrRange with rfl | ⟨r, member, inside⟩
  · decide
  · simp only [Xml.CodeRange.contains, Bool.and_eq_true, decide_eq_true_eq] at inside
    have bounds := within r member
    simp only [Xml.isXmlChar, Bool.or_eq_true, Bool.and_eq_true, decide_eq_true_eq]
    omega

theorem NameText.lasting {text : String} (named : NameText text) : Lasting text :=
  ⟨fun c member => isXmlChar_of_isNameChar (named c member),
    fun member => absurd (named _ member) (by decide)⟩

theorem nameText_of_read {scope : Instance.Scope} {content : Bytes} {tag : StartTag}
    (read : StartTag.read scope content = .ok tag) : NameText tag.name.localName := by
  have named := Xml.isNameChar_of_isQName (Instance.legal_of_readTag read).1
  rw [Instance.localName_of_read read]
  rcases Instance.splitName_cases (Instance.elementName content) with
    same | ⟨label, localPart, same, whole⟩
  · rw [same]
    exact named
  · rw [whole, Utf8.decodeLossy_cut _ (by decide), List.forall_mem_append, List.forall_mem_cons]
      at named
    rw [same]
    exact named.2.2

theorem nameText_of_readStart {p q : Progress} {content : Bytes} {tag : StartTag}
    (read : p.readStart content = .ok (tag, q)) : NameText tag.name.localName := by
  simp only [Progress.readStart, Instance.bind_eq_ok, Instance.mapError_eq_ok] at read
  obtain ⟨inner, -, read⟩ := read
  split at read
  · obtain ⟨_, thrown, _⟩ := Instance.bind_eq_ok.1 read
    cases thrown
  · simp only [Instance.bind_eq_ok, Instance.mapError_eq_ok] at read
    obtain ⟨_, tagRead, made⟩ := read
    obtain ⟨rfl, rfl⟩ := Prod.mk.inj (Except.ok.inj made)
    exact nameText_of_read tagRead

theorem nameText_of_mem_openNames {events : List Event} {p : Progress}
    (delivers : Delivers events p) : ∀ name ∈ openNames events, NameText name := by
  induction delivers with
  | nothing => exact nofun
  | markup _ ih => exact ih
  | text _ _ _ ih => simpa using ih
  | start _ read ih =>
    rw [Instance.openNames_start]
    exact List.forall_mem_cons.2 ⟨nameText_of_readStart read, ih⟩
  | finish _ _ ih =>
    rw [Instance.openNames_finish]
    exact fun name member => ih name (List.mem_of_mem_tail member)

theorem lasting_path {names : List String} (named : ∀ name ∈ names, NameText name) :
    Lasting ("/" ++ "/".intercalate names) := by
  have slash : Lasting "/" := by
    constructor
    · exact List.forall_mem_singleton.2 (by decide)
    · decide
  apply slash.append
  induction names with
  | nil => exact ⟨nofun, nofun⟩
  | cons first names ih =>
    obtain ⟨here, others⟩ := List.forall_mem_cons.1 named
    cases names with
    | nil => simpa [String.intercalate_singleton] using here.lasting
    | cons second names =>
      rw [String.intercalate_cons_cons]
      exact (here.lasting.append slash).append (ih others)

open Session in
theorem lasting_of_placedAt {events more : List Event} {p : Progress} {event : Event}
    {location : Location} {r : Reason} (delivers : Delivers (events ++ event :: more) p)
    (placed : PlacedAt events event location r) : ∀ path ∈ r.xpath?, Lasting path := by
  have named : ∀ name ∈ namesAt events event, NameText name := by
    cases event with
    | start tag =>
      have early : events ++ [.start tag] <+: events ++ .start tag :: more := ⟨more, by simp⟩
      obtain ⟨q, before⟩ := delivers.of_prefix early
      have named := nameText_of_mem_openNames before
      rwa [Instance.openNames_start] at named
    | text | finish =>
      obtain ⟨q, before⟩ := delivers.of_prefix (List.prefix_append _ _)
      exact nameText_of_mem_openNames before
  rw [placed.xpath]
  rintro path ⟨⟩
  exact lasting_path fun name member => named name (List.mem_reverse.1 member)

theorem lasting_xpath (bundle : Bundle) (options : Options) (bytes : Bytes) :
    ∀ r ∈ (validate bundle options bytes).report.reasons, ∀ path ∈ r.xpath?, Lasting path := by
  have inStep := (Session.inStep_start bundle options).follow bundle.pool
    (Document.ofBytes bytes).events
  obtain ⟨p, delivers⟩ : ∃ p, Delivers ((Document.ofBytes bytes).events.map Prod.fst) p :=
    Instance.delivers_of_document (List.append_nil _).symm
  have ofFound (r : Reason) (found : r ∈ ((Session.start bundle options).follow bundle.pool
      (Document.ofBytes bytes).events).found) : ∀ path ∈ r.xpath?, Lasting path := by
    rcases (Session.inStep_start bundle options).exists_placedAt found with
      none | ⟨earlier, event, location, later, whole, placed⟩
    · cases none
    · rw [whole, List.map_append, List.map_cons] at delivers
      exact lasting_of_placedAt delivers placed
  -- Other reasons have no path, or that of the elements that are open where reading breaks off.
  rw [validate, validateDocument]
  cases (Document.ofBytes bytes).fault? with
  | none =>
    intro r member
    rcases List.mem_append.1 (List.mem_reverse.1 member) with ofRoot | found
    · obtain ⟨fault, -, rfl⟩ := List.mem_map.1 (List.mem_reverse.1 ofRoot)
      exact nofun
    · exact ofFound r found
  | some fault =>
    intro r member
    rcases List.mem_append.1 (List.mem_reverse.1 member) with aborted | found
    · obtain rfl := List.mem_singleton.1 aborted
      intro path given
      dsimp only at given
      split at given
      · cases given
      · obtain rfl := Option.some.inj given
        apply lasting_path
        intro name member
        rw [List.mem_reverse, inStep.path] at member
        exact nameText_of_mem_openNames delivers name member
    · exact ofFound r found

/-- What is written of a session is a document in which its reasons are found, if and only if the
messages are the same in every document. -/
theorem readsBack_iff (bundle : Bundle) (options : Options) (bytes : Bytes) :
    ReadsBack (validate bundle options bytes).report ↔
      ∀ r ∈ (validate bundle options bytes).report.reasons, Lasting r.message :=
  Report.readsBack_iff_lasting (lasting_xpath bundle options bytes)

/-- The report on a document that is not well formed quotes a character of it that may not occur in
any document. -/
theorem not_readsBack_of_control : ¬ ∀ (bundle : Bundle) (options : Options) (bytes : Bytes),
    ReadsBack (validate bundle options bytes).report := by
  intro all
  have legal := (all itemsBundle {} (Utf8.encode "<a\x01/>")).legal
  revert legal
  unfold LegalText
  decide +kernel

end XmlSchema.Validation
