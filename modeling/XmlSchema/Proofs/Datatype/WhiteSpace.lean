import XmlSchema.Datatype.Builtin

namespace XmlSchema.Datatype

attribute [local simp] words WhiteSpace.apply

def IsWord (word : List Char) : Prop := word ≠ [] ∧ ∀ c ∈ word, isBlank c = false

theorem words_cons_of_blank {c : Char} (blank : isBlank c = true) (rest : List Char) :
    words (c :: rest) = words rest := by
  cases rest with
  | nil => simp [blank]
  | cons d rest => simp [blank]

theorem words_singleton_append {c : Char} (letter : isBlank c = false) {rest : List Char}
    (gap : ∀ d ∈ rest.head?, isBlank d = true) : words (c :: rest) = [c] :: words rest := by
  cases rest with
  | nil => simp [letter]
  | cons d rest =>
    have blank : isBlank d = true := gap d rfl
    simp [letter, blank]

theorem words_append_of_isWord {word rest : List Char} (isWord : IsWord word)
    (gap : ∀ d ∈ rest.head?, isBlank d = true) : words (word ++ rest) = word :: words rest := by
  obtain ⟨nonempty, letters⟩ := isWord
  induction word with
  | nil => exact absurd rfl nonempty
  | cons c word ih =>
    have letter : isBlank c = false := letters c List.mem_cons_self
    cases word with
    | nil => exact words_singleton_append letter gap
    | cons d word =>
      have others : ∀ c ∈ d :: word, isBlank c = false :=
        fun c member => letters c (List.mem_cons_of_mem _ member)
      have next : isBlank d = false := others d List.mem_cons_self
      have further := ih (List.cons_ne_nil _ _) others
      simp only [List.cons_append] at further ⊢
      simp [letter, next, further]

theorem isWord_of_mem_words {word text : List Char} (member : word ∈ words text) : IsWord word := by
  induction text using words.induct generalizing word with
  | case1 => cases member
  | case2 c blank => simp [blank] at member
  | case3 c letter =>
    simp only [words, letter, Bool.false_eq_true, if_false, List.mem_singleton] at member
    subst member
    exact ⟨List.cons_ne_nil _ _, by simpa using letter⟩
  | case4 c d rest blank ih =>
    rw [words_cons_of_blank blank] at member
    exact ih member
  | case5 c d rest letter blank ih =>
    simp only [words, letter, blank, Bool.false_eq_true, if_true, if_false,
      List.mem_cons] at member
    rcases member with rfl | member
    · exact ⟨List.cons_ne_nil _ _, by simpa using letter⟩
    · exact ih member
  | case6 c d rest letter next none _ =>
    simp only [words, letter, next, none, Bool.false_eq_true, if_false,
      List.mem_singleton] at member
    subst member
    exact ⟨List.cons_ne_nil _ _, by simpa using letter⟩
  | case7 c d rest letter next first more split ih =>
    simp only [words, letter, next, split, Bool.false_eq_true, if_false, List.mem_cons] at member
    rcases member with rfl | member
    · have isWord : IsWord first := ih (split ▸ List.mem_cons_self)
      refine ⟨List.cons_ne_nil _ _, List.forall_mem_cons.2 ⟨by simpa using letter, isWord.2⟩⟩
    · exact ih (split ▸ List.mem_cons_of_mem _ member)

theorem words_intercalate {ws : List (List Char)} (areWords : ∀ word ∈ ws, IsWord word) :
    words ([' '].intercalate ws) = ws := by
  induction ws with
  | nil => rfl
  | cons word ws ih =>
    have isWord := areWords word List.mem_cons_self
    have further := ih fun word member => areWords word (List.mem_cons_of_mem _ member)
    cases ws with
    | nil =>
      have single : words (word ++ []) = word :: words [] := words_append_of_isWord isWord (by simp)
      simpa using single
    | cons next ws =>
      rw [List.intercalate_cons_cons, List.append_assoc,
        words_append_of_isWord isWord (by simp [isBlank]), List.singleton_append,
        words_cons_of_blank (by rfl), further]

theorem words_map {f : Char → Char} (blank : ∀ c, isBlank (f c) = isBlank c)
    (letter : ∀ c, isBlank c = false → f c = c) (text : List Char) :
    words (text.map f) = words text := by
  induction text using words.induct with
  | case1 => rfl
  | case2 c isBlank => simp [blank, isBlank]
  | case3 c isLetter =>
    rw [Bool.not_eq_true] at isLetter
    simp [letter c isLetter, isLetter]
  | case4 c d rest isBlank ih =>
    rw [List.map_cons, words_cons_of_blank (by rw [blank, isBlank]), ih, words_cons_of_blank isBlank]
  | case5 c d rest isLetter isBlank ih =>
    rw [Bool.not_eq_true] at isLetter
    rw [List.map_cons] at ih ⊢
    simp [letter c isLetter, isLetter, blank, isBlank, ih]
  | case6 c d rest isLetter next none ih | case7 c d rest isLetter next first more split ih =>
    rw [Bool.not_eq_true] at isLetter
    rw [List.map_cons] at ih ⊢
    simp [letter c isLetter, isLetter, blank, next, ih]

theorem mem_intercalate {c : Char} {ws : List (List Char)} (member : c ∈ [' '].intercalate ws) :
    c = ' ' ∨ ∃ word ∈ ws, c ∈ word := by
  induction ws with
  | nil => cases member
  | cons word ws ih =>
    cases ws with
    | nil => exact .inr ⟨word, List.mem_cons_self, by simpa using member⟩
    | cons next ws =>
      rw [List.intercalate_cons_cons, List.append_assoc, List.mem_append, List.mem_append,
        List.mem_singleton] at member
      rcases member with inWord | rfl | later
      · exact .inr ⟨word, List.mem_cons_self, inWord⟩
      · exact .inl rfl
      · rcases ih later with blank | ⟨other, among, inOther⟩
        · exact .inl blank
        · exact .inr ⟨other, List.mem_cons_of_mem _ among, inOther⟩

theorem toList_collapse (value : String) :
    (WhiteSpace.collapse.apply value).toList = [' '].intercalate (words value.toList) := by
  simp [tokens, String.toList_intercalate, Function.comp_def]

theorem tokens_collapse (value : String) :
    tokens (WhiteSpace.collapse.apply value) = tokens value := by
  unfold tokens
  rw [toList_collapse, words_intercalate fun word => isWord_of_mem_words]

theorem tokens_replace (value : String) :
    tokens (WhiteSpace.replace.apply value) = tokens value := by
  unfold tokens
  rw [WhiteSpace.apply, String.toList_ofList, words_map]
  · intro c
    split
    · next line =>
      simp only [Bool.or_eq_true, beq_iff_eq] at line
      rcases line with (rfl | rfl) | rfl <;> rfl
    · rfl
  · intro c isLetter
    simp only [isBlank, Bool.or_eq_false_iff] at isLetter
    simp [isLetter]

namespace WhiteSpace

/-- How much a mode does to white space. -/
def strength : WhiteSpace → Nat
  | .preserve => 0
  | .replace => 1
  | .collapse => 2

def isLineBlank (c : Char) : Bool := c == '\t' || c == '\n' || c == '\r'

theorem replace_eq_self {value : String} (none : ∀ c ∈ value.toList, isLineBlank c = false) :
    WhiteSpace.replace.apply value = value := by
  have same : value.toList.map (fun c => if c == '\t' || c == '\n' || c == '\r' then ' ' else c) =
      value.toList := by
    refine (List.map_congr_left fun c member => ?_).trans (List.map_id _)
    have keeps : (c == '\t' || c == '\n' || c == '\r') = false := none c member
    simp [keeps]
  rw [apply, same, String.ofList_toList]

theorem isLineBlank_replace {value : String} {c : Char}
    (member : c ∈ (WhiteSpace.replace.apply value).toList) : isLineBlank c = false := by
  simp only [apply, String.toList_ofList, List.mem_map] at member
  obtain ⟨d, _, rfl⟩ := member
  split
  · rfl
  · next other => simpa [isLineBlank] using other

theorem isLineBlank_collapse {value : String} {c : Char}
    (member : c ∈ (WhiteSpace.collapse.apply value).toList) : isLineBlank c = false := by
  rw [toList_collapse] at member
  rcases mem_intercalate member with rfl | ⟨word, among, inWord⟩
  · rfl
  · have letter : isBlank c = false := (isWord_of_mem_words among).2 c inWord
    simp only [isBlank, isLineBlank, Bool.or_eq_false_iff] at letter ⊢
    exact ⟨⟨letter.1.1.1.2, letter.1.1.2⟩, letter.2⟩

theorem apply_apply {weak strong : WhiteSpace} (noMore : weak.strength ≤ strong.strength)
    (value : String) : weak.apply (strong.apply value) = strong.apply value := by
  cases weak with
  | preserve => rfl
  | replace =>
    apply replace_eq_self
    intro c member
    cases strong with
    | preserve => cases noMore
    | replace => exact isLineBlank_replace member
    | collapse => exact isLineBlank_collapse member
  | collapse =>
    cases strong with
    | preserve => cases noMore
    | replace => simp [strength] at noMore
    | collapse => rw [apply, tokens_collapse, ← apply]

theorem apply_absorbs {weak strong : WhiteSpace} (noMore : weak.strength ≤ strong.strength)
    (value : String) : strong.apply (weak.apply value) = strong.apply value := by
  by_cases same : weak = strong
  · rw [same, apply_apply (Nat.le_refl _)]
  · cases weak with
    | preserve => rfl
    | replace =>
      obtain rfl : strong = .collapse := by cases strong <;> simp_all [strength]
      exact congrArg (" ".intercalate ·) (tokens_replace value)
    | collapse => cases strong <;> simp_all [strength]

end WhiteSpace

end XmlSchema.Datatype
