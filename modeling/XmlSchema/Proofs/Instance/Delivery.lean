import XmlSchema.Proofs.Instance.Legality

namespace XmlSchema.Instance

def Opened.localName (o : Opened) : String := Utf8.decodeLossy (splitName o.name).2

inductive Delivers : List Event → Progress → Prop
  | nothing : Delivers [] {}
  | markup {events : List Event} {p : Progress} (before : Delivers events p) :
      Delivers events { p with atStart := false }
  | text {events : List Event} {p : Progress} (before : Delivers events p)
      (inside : p.isInside = true) (content : String) : Delivers (events ++ [.text content]) p
  | start {events : List Event} {p inner : Progress} {content : Bytes} {tag : StartTag}
      (before : Delivers events p) (read : p.readStart content = .ok (tag, inner)) :
      Delivers (events ++ [.start tag]) inner
  | finish {events : List Event} {p : Progress} (before : Delivers events p)
      (isOpen : p.opened ≠ []) : Delivers (events ++ [.finish]) p.close

def openNames (events : List Event) : List String :=
  events.foldl (fun names event => match event with
    | .start tag => tag.name.localName :: names
    | .text _ => names
    | .finish => names.tail) []

variable {events more : List Event} {p q : Progress} {tag : StartTag}

@[simp] theorem openNames_start :
    openNames (events ++ [.start tag]) = tag.name.localName :: openNames events := by
  simp [openNames]

@[simp] theorem openNames_text {content : String} :
    openNames (events ++ [.text content]) = openNames events := by
  simp [openNames]

@[simp] theorem openNames_finish :
    openNames (events ++ [.finish]) = (openNames events).tail := by
  simp [openNames]

theorem localName_of_resolveName {scope : Scope} {unprefixed raw : Bytes} {name : Component.QName}
    (resolved : resolveName scope unprefixed raw = .ok name) :
    name.localName = Utf8.decodeLossy (splitName raw).2 := by
  unfold resolveName at resolved
  split at resolved
  · next split =>
    obtain rfl := Except.ok.inj resolved
    rw [split]
  · next split =>
    split at resolved
    · obtain rfl := Except.ok.inj resolved
      rw [split]
    · cases resolved

theorem localName_of_read {scope : Scope} {content : Bytes}
    (read : StartTag.read scope content = .ok tag) :
    tag.name.localName = Utf8.decodeLossy (splitName (elementName content)).2 := by
  unfold StartTag.read at read
  dsimp only at read
  split at read
  · obtain ⟨_, thrown, _⟩ := bind_eq_ok.1 read
    cases thrown
  · simp only [bind_eq_ok, mapError_eq_ok] at read
    obtain ⟨name, resolved, _, _, made⟩ := read
    obtain rfl := Except.ok.inj made
    exact localName_of_resolveName resolved

theorem opened_of_readStart {content : Bytes} (read : p.readStart content = .ok (tag, q)) :
    q.depth = p.depth + 1 ∧
      ∃ o, q.opened = o :: p.opened ∧ o.localName = tag.name.localName := by
  simp only [Progress.readStart, bind_eq_ok, mapError_eq_ok] at read
  obtain ⟨inner, -, read⟩ := read
  split at read
  · obtain ⟨_, thrown, _⟩ := bind_eq_ok.1 read
    cases thrown
  · simp only [bind_eq_ok, mapError_eq_ok] at read
    obtain ⟨_, tagRead, made⟩ := read
    obtain ⟨rfl, rfl⟩ := Prod.mk.inj (Except.ok.inj made)
    exact ⟨rfl, _, rfl, (localName_of_read tagRead).symm⟩

@[simp] theorem Progress.depth_close (p : Progress) : p.close.depth = p.depth - 1 := by
  unfold Progress.close
  dsimp only
  split <;> rfl

@[simp] theorem Progress.opened_close (p : Progress) : p.close.opened = p.opened.tail := by
  unfold Progress.close
  dsimp only
  split
  · next none => simp [none]
  · next some => simp [some]

theorem Delivers.opened_eq (delivers : Delivers events p) :
    p.depth = p.opened.length ∧ p.opened.map Opened.localName = openNames events := by
  induction delivers with
  | nothing => exact ⟨rfl, rfl⟩
  | markup _ ih => exact ih
  | text _ _ _ ih => simpa using ih
  | start _ read ih =>
    obtain ⟨deeper, o, opened, named⟩ := opened_of_readStart read
    simp [deeper, opened, named, ih.1, ih.2]
  | finish _ _ ih => simp [ih.1, ← ih.2, List.map_tail]

theorem Delivers.of_prefix (delivers : Delivers more p) (early : events <+: more) :
    ∃ q, Delivers events q := by
  induction delivers with
  | nothing =>
    obtain rfl := List.prefix_nil.1 early
    exact ⟨_, .nothing⟩
  | markup _ ih => exact ih early
  | text before inside content ih =>
    rcases List.prefix_concat_iff.1 early with rfl | earlier
    · exact ⟨_, before.text inside content⟩
    · exact ih earlier
  | start before read ih =>
    rcases List.prefix_concat_iff.1 early with rfl | earlier
    · exact ⟨_, before.start read⟩
    · exact ih earlier
  | finish before isOpen ih =>
    rcases List.prefix_concat_iff.1 early with rfl | earlier
    · exact ⟨_, before.finish isOpen⟩
    · exact ih earlier

theorem Delivers.readText (delivers : Delivers events p) {content : Bytes} {read : List Event}
    (accepted : p.readText content = .ok read) : Delivers (events ++ read) p := by
  obtain ⟨-, text, -, -, ⟨inside, rfl⟩ | ⟨-, -, rfl⟩⟩ := readText_eq_ok.1 accepted
  · exact delivers.text inside text
  · simpa using delivers

theorem Delivers.readCData (delivers : Delivers events p) {content : Bytes} {read : List Event}
    (accepted : p.readCData content = .ok read) : Delivers (events ++ read) p := by
  obtain ⟨inside, -, rfl⟩ := readCData_eq_ok.1 accepted
  exact delivers.text inside _

theorem Delivers.readEnd (delivers : Delivers events p) {name : Bytes}
    (accepted : p.readEnd name = .ok q) : Delivers (events ++ [.finish]) q := by
  unfold Progress.readEnd at accepted
  split at accepted
  · cases accepted
  · next opened =>
    split at accepted
    · obtain rfl := Except.ok.inj accepted
      exact delivers.finish (by simp [opened])
    · cases accepted

theorem Delivers.read (delivers : Delivers events p) {token : Token} {read : List Event}
    (accepted : p.read token = .ok (read, q)) : Delivers (events ++ read) q := by
  cases Progress.read_eq_ok_iff.1 accepted with
  | text ofText => exact (delivers.readText ofText).markup
  | cdata ofData => exact (delivers.readCData ofData).markup
  | comment | doctype | declaration | instruction => simpa using delivers.markup
  | empty started =>
    have opens := delivers.markup.start started
    obtain ⟨-, o, opened, -⟩ := opened_of_readStart started
    simpa using opens.finish (by simp [opened])
  | start started => exact delivers.markup.start started
  | finish ended => exact delivers.markup.readEnd ended

theorem Reading.delivers {r : Reader} {earlier : List (Event × Location)} {document : Document}
    (reading : Reading r p earlier document)
    (delivers : Delivers (earlier.reverse.map Prod.fst) p) :
    ∃ q, Delivers (document.events.map Prod.fst) q := by
  induction reading with
  | ended | broken | refused => exact ⟨_, delivers⟩
  | goesOn _ _ read _ ih =>
    apply ih
    simpa [Function.comp_def] using delivers.read read

theorem delivers_of_document {bytes : Bytes} {earlier later : List (Event × Location)}
    (read : (Document.ofBytes bytes).events = earlier ++ later) :
    ∃ p, Delivers (earlier.map Prod.fst) p := by
  obtain ⟨q, delivers⟩ := (Reading.ofBytes bytes).delivers .nothing
  rw [read, List.map_append] at delivers
  exact delivers.of_prefix (List.prefix_append _ _)

end XmlSchema.Instance
