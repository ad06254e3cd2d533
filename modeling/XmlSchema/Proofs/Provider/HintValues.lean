import XmlSchema.Proofs.Instance.AttributeNames
import XmlSchema.Provider.Hint

namespace XmlSchema.Provider

open Unicode (isWhiteSpace)

def Plain (localName : List Char) : Prop :=
  ∀ c ∈ localName, isWhiteSpace c = false ∧ c ∉ ['=', ':', '"', '\'']

instance (localName : List Char) : Decidable (Plain localName) :=
  List.decidableBAll _ localName

def White (text : List Char) : Prop := ∀ c ∈ text, isWhiteSpace c = true

variable {localName text first rest value after : List Char} {prefixed : Bool} {c quote : Char}

section Attribute

variable {before behind : List Char}

theorem dropWhile_white (white : White before) (ends : ∀ c ∈ rest.head?, isWhiteSpace c = false) :
    (before ++ rest).dropWhile isWhiteSpace = rest := by
  rw [List.dropWhile_append_of_pos white]
  cases rest with
  | nil => rfl
  | cons c rest => simp [ends c rfl]

theorem attributeValue?_append (white : White before) (white' : White behind)
    (quoted : quote = '"' ∨ quote = '\'') (inside : quote ∉ value) :
    attributeValue? localName
        (localName ++ (before ++ '=' :: (behind ++ quote :: (value ++ quote :: rest)))) =
      some (value, rest) := by
  have named : localName.isPrefixOf (localName ++
      (before ++ '=' :: (behind ++ quote :: (value ++ quote :: rest)))) = true :=
    List.isPrefixOf_iff_prefix.2 (List.prefix_append _ _)
  have sign : isWhiteSpace '=' = false := by decide
  have notWhite : isWhiteSpace quote = false := by rcases quoted with rfl | rfl <;> decide
  have isQuote : (quote == '"' || quote == '\'') = true := by simpa using quoted
  have inside' : ∀ c ∈ value, (c != quote) = true := fun c member =>
    bne_iff_ne.2 fun same => inside (same ▸ member)
  have signed : (before ++ '=' :: (behind ++ quote :: (value ++ quote :: rest))).dropWhile
      isWhiteSpace = '=' :: (behind ++ quote :: (value ++ quote :: rest)) :=
    dropWhile_white white (by simpa using sign)
  have opened : (behind ++ quote :: (value ++ quote :: rest)).dropWhile isWhiteSpace =
      quote :: (value ++ quote :: rest) :=
    dropWhile_white white' (by simpa using notWhite)
  simp [attributeValue?, guard, named, signed, opened, quotedValue?, isQuote,
    List.dropWhile_append_of_pos inside', List.takeWhile_append_of_pos inside']

theorem length_of_quotedValue? (found : quotedValue? text = some (value, after)) :
    after.length ≤ text.length := by
  unfold quotedValue? at found
  split at found
  · cases found
  · next quote rest =>
    split at found
    · split at found
      · cases found
      · next closed =>
        obtain ⟨-, rfl⟩ := Prod.mk.inj (Option.some.inj found)
        have shorter := (List.dropWhile_suffix (· != quote) (l := rest)).length_le
        rw [closed, List.length_cons] at shorter
        rw [List.length_cons]
        omega
    · cases found

theorem exists_of_attributeValue? (found : attributeValue? localName text = some (value, after)) :
    ∃ before behind, White before ∧ text = localName ++ (before ++ '=' :: behind) ∧
      after.length ≤ behind.length := by
  rw [attributeValue?] at found
  obtain ⟨_, named, read⟩ := Option.bind_eq_some_iff.1 found
  clear found
  split at read
  · next behind signed =>
    have begins : localName.isPrefixOf text = true := by simpa [guard] using named
    obtain ⟨more, rfl⟩ := List.isPrefixOf_iff_prefix.1 begins
    rw [List.drop_left] at signed
    refine ⟨more.takeWhile isWhiteSpace, behind, List.all_eq_true.1 List.all_takeWhile, ?_, ?_⟩
    · rw [← signed, List.takeWhile_append_dropWhile]
    · exact Nat.le_trans (length_of_quotedValue? read) (List.dropWhile_suffix _).length_le
  · cases read

theorem attributeValue?_eq_none {name : List Char} (plain : Plain localName)
    (other : name ≠ localName) (visible : ∀ c ∈ name, isWhiteSpace c = false) (noSign : '=' ∉ name)
    (white : White before) :
    attributeValue? localName (name ++ (before ++ '=' :: behind)) = none := by
  cases found : attributeValue? localName (name ++ (before ++ '=' :: behind)) with
  | none => rfl
  | some read =>
    obtain ⟨before', behind', white', whole, -⟩ := exists_of_attributeValue? found
    -- Both are what stands in front of the first sign or white space.
    have upTo {word blanks more : List Char} (visible : ∀ c ∈ word, isWhiteSpace c = false)
        (noSign : '=' ∉ word) (white : White blanks) :
        (word ++ (blanks ++ '=' :: more)).takeWhile (fun c => !isWhiteSpace c && c != '=') =
          word := by
      have all : ∀ c ∈ word, (!isWhiteSpace c && c != '=') = true := fun c member => by
        simpa [visible c member] using fun same : c = '=' => noSign (same ▸ member)
      rw [List.takeWhile_append_of_pos all]
      cases blanks with
      | nil => simp
      | cons c blanks => simp [white c List.mem_cons_self]
    have noSign' : '=' ∉ localName := fun member => (plain _ member).2 List.mem_cons_self
    refine absurd ?_ other
    rw [← @upTo name before behind visible noSign white, whole,
      upTo (fun c member => (plain c member).1) noSign' white']

theorem attributeValue?_eq_none_of_white {name more : List Char} (plain : Plain localName)
    (noSign : '=' ∉ name) (white : White before) (apart : before ≠ [])
    (visible : ∀ c ∈ more.head?, isWhiteSpace c = false ∧ c ≠ '=') :
    attributeValue? localName (name ++ (before ++ more)) = none := by
  cases found : attributeValue? localName (name ++ (before ++ more)) with
  | none => rfl
  | some read =>
    exfalso
    obtain ⟨before', behind, white', whole, -⟩ := exists_of_attributeValue? found
    have noSign' : '=' ∉ before := fun member =>
      absurd (white _ member) (by decide : ¬ isWhiteSpace '=' = true)
    cases more with
    | nil =>
      have member : '=' ∈ name ++ (before ++ []) := whole ▸ by simp
      simp [noSign, noSign'] at member
    | cons c more =>
      obtain ⟨notWhite, other⟩ := visible c rfl
      have front : (name ++ before ++ [c]) ++ more = (localName ++ before') ++ '=' :: behind := by
        simpa using whole
      -- The sign comes behind the visible character, so all before it stands in front of the sign.
      have passed : ∃ later, localName ++ before' = (name ++ before) ++ c :: later := by
        rcases List.append_eq_append_iff.1 front with ⟨later, same, -⟩ | ⟨later, same, signed⟩
        · exact ⟨later, by simpa using same⟩
        · cases later with
          | nil => exact ⟨[], by simpa using same.symm⟩
          | cons d later =>
            obtain ⟨rfl, -⟩ := List.cons.inj signed
            have member : '=' ∈ name ++ before ++ [c] := by simp [same]
            simp [noSign, noSign', Ne.symm other] at member
      obtain ⟨later, same⟩ := passed
      rcases List.append_eq_append_iff.1 same with ⟨more, -, rfl⟩ | ⟨more, rfl, -⟩
      · have := white' c (by simp)
        simp [notWhite] at this
      · obtain ⟨d, member⟩ := List.exists_mem_of_ne_nil _ apart
        have := (plain d (by simp [member])).1
        simp [white d member] at this

end Attribute

def Finds (localName text : List Char) (values : List (List Char)) : Prop :=
  ∀ fuel prefixed, text.length ≤ fuel → valuesFrom localName fuel prefixed text = values

namespace Finds

variable {values : List (List Char)}

theorem nil : Finds localName [] [] := by
  intro fuel prefixed _
  cases fuel <;> rfl

theorem cons (later : Finds localName rest values) (other : c ≠ ':') :
    Finds localName (c :: rest) values := by
  intro fuel prefixed enough
  cases fuel with
  | zero => cases enough
  | succ fuel =>
    rw [valuesFrom, if_neg (by simp [other])]
    exact later _ _ (Nat.le_of_succ_le_succ enough)

theorem append (later : Finds localName rest values) (noColon : ':' ∉ first) :
    Finds localName (first ++ rest) values := by
  induction first with
  | nil => exact later
  | cons c first ih =>
    rw [List.mem_cons, not_or] at noColon
    exact (ih noColon.2).cons (Ne.symm noColon.1)

theorem colon (later : Finds localName rest values)
    (none : attributeValue? localName rest = none) : Finds localName (':' :: rest) values := by
  intro fuel prefixed enough
  cases fuel with
  | zero => cases enough
  | succ fuel =>
    have behind {prefixed : Bool} := later fuel prefixed (Nat.le_of_succ_le_succ enough)
    rw [valuesFrom, none]
    split <;> exact behind

theorem colon_of_unsigned (later : Finds localName rest values) (other : c ≠ ':')
    (noPrefix : isPrefixChar c = false) : Finds localName (c :: ':' :: rest) values := by
  intro fuel prefixed enough
  match fuel with
  | 0 | 1 => simp at enough
  | fuel + 2 =>
    simp only [List.length_cons] at enough
    rw [valuesFrom, if_neg (by simp [other]), valuesFrom, noPrefix, if_neg (by simp)]
    exact later _ _ (by omega)

theorem found (later : Finds localName after values) (other : c ≠ ':')
    (isPrefix : isPrefixChar c = true)
    (found : attributeValue? localName rest = some (value, after)) :
    Finds localName (c :: ':' :: rest) (value :: values) := by
  intro fuel prefixed enough
  match fuel with
  | 0 | 1 => simp at enough
  | fuel + 2 =>
    have shorter : after.length ≤ fuel := by
      obtain ⟨before, behind, -, rfl, shorter⟩ := exists_of_attributeValue? found
      simp only [List.length_append, List.length_cons] at enough
      omega
    rw [valuesFrom, if_neg (by simp [other]), valuesFrom, isPrefix, if_pos (by simp), found]
    exact congrArg (value :: ·) (later _ _ shorter)

end Finds

def Resembles (localName value : List Char) : Prop :=
  ∃ before blanks after, White blanks ∧
    value = before ++ ':' :: (localName ++ (blanks ++ '=' :: after))

theorem Resembles.cons (resembles : Resembles localName value) (c : Char) :
    Resembles localName (c :: value) := by
  obtain ⟨before, blanks, after, white, rfl⟩ := resembles
  exact ⟨c :: before, blanks, after, white, rfl⟩

theorem resembles_of_attributeValue? (plain : Plain localName)
    (quoted : quote = '"' ∨ quote = '\'') {read : List Char × List Char}
    (found : attributeValue? localName (value ++ quote :: rest) = some read) :
    Resembles localName (':' :: value) := by
  obtain ⟨before, behind, white, whole, -⟩ := exists_of_attributeValue? found
  have visible : isWhiteSpace quote = false ∧ quote ≠ '=' := by
    rcases quoted with rfl | rfl <;> decide
  have absent : quote ∉ localName ++ (before ++ ['=']) := by
    simp only [List.mem_append, List.mem_singleton, not_or]
    refine ⟨fun member => ?_, fun member => ?_, visible.2⟩
    · exact (plain _ member).2 (by rcases quoted with rfl | rfl <;> decide)
    · exact absurd (white _ member) (by simp [visible.1])
  have front : value ++ quote :: rest = (localName ++ (before ++ ['='])) ++ behind := by
    simpa using whole
  rcases List.append_eq_append_iff.1 front with ⟨more, same, signed⟩ | ⟨more, rfl, -⟩
  · cases more with
    | nil => exact ⟨[], before, [], white, by simpa using same.symm⟩
    | cons d more =>
      obtain ⟨rfl, -⟩ := List.cons.inj signed
      exact absurd (same ▸ by simp) absent
  · exact ⟨[], before, more, white, by simp⟩

theorem Finds.quoted {values : List (List Char)} (later : Finds localName rest values)
    (plain : Plain localName) (quoted : quote = '"' ∨ quote = '\'')
    (free : ¬ Resembles localName value) : Finds localName (value ++ quote :: rest) values := by
  induction value with
  | nil => exact later.cons (by rcases quoted with rfl | rfl <;> decide)
  | cons d value ih =>
    have behind := ih fun resembles => free (resembles.cons d)
    by_cases isColon : d = ':'
    · subst isColon
      refine behind.colon ?_
      cases found : attributeValue? localName (value ++ quote :: rest) with
      | none => rfl
      | some read => exact absurd (resembles_of_attributeValue? plain quoted found) free
    · exact behind.cons isColon

def isWrittenAs (localName key : List Char) : Bool :=
  match Xml.splitAtChar ':' key with
  | some (label, localPart) => localPart == localName && label.getLast?.any isPrefixChar
  | none => false

theorem not_mem_of_isNCName {name : List Char} (named : Xml.isNCName name = true) :
    ':' ∉ name ∧ '=' ∉ name := by
  have chars := (Xml.isNameChar_of_isNCName named).2
  exact ⟨fun member => (chars _ member).1 rfl, fun member =>
    absurd (chars _ member).2 (by decide)⟩

theorem key_cases {key : List Char} (named : Xml.isQName key = true) (localName : List Char) :
    ':' ∉ key ∧ isWrittenAs localName key = false ∨
      ∃ front c localPart, key = front ++ c :: ':' :: localPart ∧ ':' ∉ front ∧ c ≠ ':' ∧
        (':' ∉ localPart ∧ '=' ∉ localPart) ∧
        isWrittenAs localName key = (localPart == localName && isPrefixChar c) := by
  rcases Xml.isQName_cases named with ⟨split, isName⟩ | ⟨label, localPart, split, same, isName, isName'⟩
  · exact .inl ⟨(not_mem_of_isNCName isName).1, by rw [isWrittenAs, split]⟩
  · rcases List.eq_nil_or_concat label with rfl | ⟨front, c, whole⟩
    · cases isName
    · rw [List.concat_eq_append] at whole
      subst whole
      obtain ⟨noColon, -⟩ := not_mem_of_isNCName isName
      rw [List.mem_append, List.mem_singleton, not_or] at noColon
      refine .inr ⟨front, c, localPart, by simpa using same, noColon.1, Ne.symm noColon.2,
        not_mem_of_isNCName isName', ?_⟩
      rw [isWrittenAs, split]
      simp

section Tag

variable {values : List (List Char)} {key before behind : List Char}

theorem Finds.attribute (later : Finds localName rest values) (plain : Plain localName)
    (named : Xml.isQName key = true) (visible : ∀ c ∈ key, isWhiteSpace c = false)
    (white : White before) (white' : White behind) (quoted : quote = '"' ∨ quote = '\'')
    (inside : quote ∉ value)
    (free : isWrittenAs localName key = false → ¬ Resembles localName value) :
    Finds localName (key ++ (before ++ '=' :: (behind ++ quote :: (value ++ quote :: rest))))
      (if isWrittenAs localName key then value :: values else values) := by
  have noColon {blanks : List Char} (white : White blanks) : ':' ∉ blanks := fun member =>
    absurd (white _ member) (by decide)
  have isQuote : quote ≠ ':' := by rcases quoted with rfl | rfl <;> decide
  -- An attribute of another name is passed over, because its value does not resemble the name.
  have passed (other : isWrittenAs localName key = false) {name : List Char}
      (noColon' : ':' ∉ name) :
      Finds localName (name ++ (before ++ '=' :: (behind ++ quote :: (value ++ quote :: rest))))
        values :=
    (((((later.quoted plain quoted (free other)).cons isQuote).append (noColon white')).cons
      (by decide)).append (noColon white)).append noColon'
  rcases key_cases named localName with
    ⟨without, other⟩ | ⟨front, c, localPart, rfl, inFront, notColon, ⟨noColon', noSign⟩, same⟩
  · rw [other]
    exact passed other without
  · rw [List.append_assoc, List.cons_append, List.cons_append]
    refine Finds.append ?_ inFront
    by_cases sameName : localPart = localName
    · subst sameName
      rw [beq_self_eq_true, Bool.true_and] at same
      rw [same]
      cases isPrefix : isPrefixChar c with
      | true =>
        exact later.found notColon isPrefix (attributeValue?_append white white' quoted inside)
      | false =>
        exact (passed (same.trans isPrefix) noColon').colon_of_unsigned notColon isPrefix
    · have other : isWrittenAs localName (front ++ c :: ':' :: localPart) = false := by
        simp [same, sameName]
      have visible' : ∀ d ∈ localPart, isWhiteSpace d = false := fun d member =>
        visible d (by simp [member])
      rw [other]
      exact ((passed other noColon').colon
        (attributeValue?_eq_none plain sameName visible' noSign white)).cons notColon

theorem Finds.element (later : Finds localName rest values) (plain : Plain localName)
    (named : Xml.isQName key = true)
    (apart : '=' ∉ rest ∨ ∃ blanks more, rest = blanks ++ more ∧ White blanks ∧ blanks ≠ [] ∧
      ∀ c ∈ more.head?, isWhiteSpace c = false ∧ c ≠ '=') :
    Finds localName (key ++ rest) values := by
  rcases key_cases named localName with
    ⟨without, -⟩ | ⟨front, c, localPart, rfl, inFront, notColon, ⟨noColon, noSign⟩, -⟩
  · exact later.append without
  · rw [List.append_assoc, List.cons_append, List.cons_append]
    refine Finds.append (((later.append noColon).colon ?_).cons notColon) inFront
    rcases apart with absent | ⟨blanks, more, rfl, white, nonempty, visible⟩
    · cases found : attributeValue? localName (localPart ++ rest) with
      | none => rfl
      | some read =>
        obtain ⟨before, behind, -, whole, -⟩ := exists_of_attributeValue? found
        have member : '=' ∈ localPart ++ rest := whole ▸ by simp
        simp [noSign, absent] at member
    · exact attributeValue?_eq_none_of_white plain noSign white nonempty visible

end Tag

end XmlSchema.Provider
