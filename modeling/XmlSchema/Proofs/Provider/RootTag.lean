import XmlSchema.Proofs.Instance.Prolog
import XmlSchema.Proofs.Text.Pieces
import XmlSchema.Provider.Hint

/-!
# The start tag of the root, by its looks

The provider looks for the first start tag of a document without reading the document. It passes
texts and other markup (`Passes.firstTag`), if each piece of markup ends where it looks as if it
ends. Instructions do, and comments if they do not begin like their own end. So the tag of the root
is found behind a prolog in which the rest is plain (`rootTag_of_root`), if no `>` stands inside of
the tag.
-/

namespace XmlSchema.Provider

open Instance

/-! ## Looking for markup -/

section EndsOnce

variable {α : Type} {ending text : List α}

def EndsOnce (ending text : List α) : Prop :=
  ending <:+ text ∧ ∀ earlier later, text = earlier ++ (ending ++ later) → later = []

theorem EndsOnce.tail {a : α} (once : EndsOnce ending (a :: text)) (more : ending ≠ a :: text) :
    EndsOnce ending text := by
  obtain ⟨⟨before, whole⟩, alone⟩ := once
  constructor
  · cases before with
    | nil => exact absurd whole more
    | cons b before => exact ⟨before, (List.cons.inj whole).2⟩
  · rintro earlier later rfl
    exact alone (a :: earlier) later rfl

theorem EndsOnce.eq_of_prefix (once : EndsOnce ending text) (start : ending <+: text) :
    text = ending := by
  obtain ⟨later, rfl⟩ := start
  rw [once.2 [] later rfl, List.append_nil]

end EndsOnce

variable {ending text tail : List Char}

theorem afterText?_of_endsOnce (nonempty : ending ≠ []) (once : EndsOnce ending text)
    (rest : List Char) : afterText? ending (text ++ rest) = some rest := by
  induction text with
  | nil => exact absurd (List.suffix_nil.1 once.1) nonempty
  | cons c text ih =>
    by_cases start : ending <+: c :: text
    · obtain rfl := once.eq_of_prefix start
      rw [List.cons_append, afterText?, ← List.cons_append,
        if_pos (List.isPrefixOf_iff_prefix.2 (List.prefix_append _ _)), List.drop_left]
    · have notHere : ¬ ending.isPrefixOf (c :: text ++ rest) = true := fun here =>
        start (List.prefix_of_prefix_length_le (List.isPrefixOf_iff_prefix.1 here)
          (List.prefix_append _ _) once.1.length_le)
      have more : ending ≠ c :: text := fun same => start (same ▸ List.prefix_rfl)
      rw [List.cons_append] at notHere ⊢
      rw [afterText?, if_neg notHere, ih (once.tail more)]

/-- Markup which is no tag is over where it looks over. -/
inductive Closed (piece : List Char) : Prop
  | instruction (begins : "<?".toList <+: piece) (ends : EndsOnce "?>".toList piece)
  | comment (begins : "<!--".toList <+: piece) (ends : EndsOnce "-->".toList piece)
  | declaration (begins : "<!".toList <+: piece) (other : ¬ "<!--".toList <+: piece)
      (ends : EndsOnce ">".toList piece)

theorem isPrefixOf_append {start piece : List Char} (begins : start <+: piece) (rest : List Char) :
    start.isPrefixOf (piece ++ rest) = true :=
  List.isPrefixOf_iff_prefix.2 (begins.trans (List.prefix_append _ _))

theorem isPrefixOf_append_eq_false {start piece : List Char} {c : Char} (other : ¬ start <+: piece)
    (ends : [c] <:+ piece) (absent : c ∉ start) (rest : List Char) :
    start.isPrefixOf (piece ++ rest) = false := by
  rw [Bool.eq_false_iff]
  intro here
  rcases List.prefix_or_prefix_of_prefix (List.isPrefixOf_iff_prefix.1 here)
    (List.prefix_append _ _) with inside | outside
  · exact other inside
  · exact absent (outside.subset (ends.subset List.mem_cons_self))

theorem not_instruction {text : List Char} (declares : "<!".toList.isPrefixOf text = true) :
    ¬ "<?".toList.isPrefixOf text = true := by
  obtain ⟨more, rfl⟩ := List.isPrefixOf_iff_prefix.1 declares
  simp

theorem Closed.passed {piece : List Char} (closed : Closed piece) (rest : List Char) :
    (piece ++ rest).head? = some '<' ∧ startsWithTag (piece ++ rest) = false ∧
      afterMarkup? (piece ++ rest) = some rest := by
  have first {start : List Char} (begins : '<' :: start <+: piece) :
      (piece ++ rest).head? = some '<' := by
    obtain ⟨more, rfl⟩ := begins
    rfl
  cases closed with
  | instruction begins ends =>
    have begun := isPrefixOf_append begins rest
    refine ⟨first begins, by rw [startsWithTag, begun]; rfl, ?_⟩
    rw [afterMarkup?, if_pos begun, afterText?_of_endsOnce (by decide) ends]
  | comment begins ends =>
    have begun := isPrefixOf_append begins rest
    have declares : "<!".toList.isPrefixOf (piece ++ rest) = true :=
      isPrefixOf_append ((by decide : "<!".toList <+: "<!--".toList).trans begins) rest
    refine ⟨first begins, by rw [startsWithTag, declares, Bool.not_true, Bool.and_false], ?_⟩
    rw [afterMarkup?, if_neg (not_instruction declares), if_pos begun,
      afterText?_of_endsOnce (by decide) ends]
  | declaration begins other ends =>
    have declares := isPrefixOf_append begins rest
    have noComment := isPrefixOf_append_eq_false other ends.1 (by decide) rest
    refine ⟨first begins, by rw [startsWithTag, declares, Bool.not_true, Bool.and_false], ?_⟩
    rw [afterMarkup?, if_neg (not_instruction declares), noComment, if_neg Bool.false_ne_true,
      afterText?_of_endsOnce (by decide) ends]

/-- A text is a row of characters and markup, and each piece of markup is over where it looks
over. -/
inductive Passes : List Char → Prop
  | nothing : Passes []
  | text {c : Char} {rest : List Char} (isText : c ≠ '<') (later : Passes rest) : Passes (c :: rest)
  | markup {piece rest : List Char} (closed : Closed piece) (later : Passes rest) :
      Passes (piece ++ rest)

namespace Passes

theorem append (first : Passes text) (second : Passes tail) : Passes (text ++ tail) := by
  induction first with
  | nothing => exact second
  | text isText _ ih => exact .text isText ih
  | markup closed _ ih =>
    rw [List.append_assoc]
    exact .markup closed ih

theorem of_not_mem (isText : '<' ∉ text) : Passes text := by
  induction text with
  | nil => exact .nothing
  | cons c text ih =>
    rw [List.mem_cons, not_or] at isText
    exact .text (Ne.symm isText.1) (ih isText.2)

theorem firstTag (passes : Passes text) {fuel : Nat} (enough : (text ++ tail).length < fuel) :
    ∃ fuel', tail.length < fuel' ∧
      Provider.firstTag fuel (text ++ tail) = Provider.firstTag fuel' tail := by
  induction passes generalizing fuel with
  | nothing => exact ⟨fuel, enough, rfl⟩
  | @text c rest isText _ ih =>
    obtain ⟨fuel', enough', same⟩ := ih (Nat.lt_of_succ_lt enough)
    refine ⟨fuel', enough', same ▸ ?_⟩
    cases fuel with
    | zero => rfl
    | succ fuel =>
      have dropped : (c :: (rest ++ tail)).dropWhile (· != '<') =
          (rest ++ tail).dropWhile (· != '<') := by
        simp [isText]
      rw [List.cons_append, Provider.firstTag, Provider.firstTag, dropped]
  | @markup piece rest closed _ ih =>
    rw [List.append_assoc] at enough ⊢
    obtain ⟨first, noTag, after⟩ := closed.passed (rest ++ tail)
    cases fuel with
    | zero => cases enough
    | succ fuel =>
      have shorter : (rest ++ tail).length < fuel := by
        have nonempty : piece ≠ [] := by
          rintro rfl
          cases closed <;> simp_all
        have := List.length_pos_of_ne_nil nonempty
        rw [List.length_append] at enough
        omega
      obtain ⟨fuel', enough', same⟩ := ih shorter
      refine ⟨fuel', enough', same ▸ ?_⟩
      obtain ⟨more, whole⟩ : ∃ more, piece ++ (rest ++ tail) = '<' :: more :=
        List.head?_eq_some_iff.1 first
      rw [whole] at noTag after ⊢
      simp [Provider.firstTag, noTag, after]

end Passes

theorem firstTag_tag {inside rest : List Char} {fuel : Nat} (enough : 0 < fuel)
    (isTag : inside.head? ≠ some '?' ∧ inside.head? ≠ some '!') (noEnd : '>' ∉ inside) :
    firstTag fuel ('<' :: (inside ++ '>' :: rest)) = '<' :: (inside ++ ['>']) := by
  have whole : ∀ inside : List Char, '>' ∉ inside →
      wholeTag (inside ++ '>' :: rest) = inside ++ ['>'] := by
    intro inside noEnd
    induction inside with
    | nil => rfl
    | cons c inside ih =>
      rw [List.mem_cons, not_or] at noEnd
      simp [wholeTag, Ne.symm noEnd.1, ih noEnd.2]
  have starts : startsWithTag ('<' :: (inside ++ '>' :: rest)) = true := by
    cases inside with
    | nil => rfl
    | cons c inside =>
      have other : c ≠ '?' ∧ c ≠ '!' := by simpa using isTag
      simp [startsWithTag, List.isPrefixOf, Ne.symm other.1, Ne.symm other.2]
  obtain ⟨fuel, rfl⟩ := Nat.exists_eq_add_one.2 enough
  simp [firstTag, starts, wholeTag, whole inside noEnd]

theorem rootTag_of_passes (passes : Passes text) {inside : List Char}
    (isTag : inside.head? ≠ some '?' ∧ inside.head? ≠ some '!') (noEnd : '>' ∉ inside)
    (rest : List Char) :
    rootTag (text ++ '<' :: (inside ++ '>' :: rest)) = '<' :: (inside ++ ['>']) := by
  obtain ⟨fuel, enough, same⟩ :=
    @Passes.firstTag text ('<' :: (inside ++ '>' :: rest)) passes _ (Nat.lt_succ_self _)
  rw [rootTag, same]
  exact firstTag_tag (Nat.zero_lt_of_lt enough) isTag noEnd

/-! ## Markup in front of the root -/

theorem prefix_decodeLossy {start piece : Bytes} (isAscii : start.all (·.toNat < 0x80))
    (begins : start <+: piece) : Utf8.asciiChars start <+: (Utf8.decodeLossy piece).toList := by
  obtain ⟨more, rfl⟩ := begins
  exact ⟨_, (Utf8.decodeLossy_ascii (by simpa using isAscii) more).symm⟩

theorem EndsOnce.decodeLossy {word piece : Bytes} (nonempty : word ≠ [])
    (isAscii : word.all (·.toNat < 0x80)) (once : EndsOnce word piece) :
    EndsOnce (Utf8.asciiChars word) (Utf8.decodeLossy piece).toList := by
  replace isAscii : ∀ b ∈ word, b.toNat < 0x80 := by simpa using isAscii
  obtain ⟨⟨before, rfl⟩, alone⟩ := once
  constructor
  · have whole := @Utf8.decodeLossy_append before word nonempty isAscii []
    rw [List.append_nil] at whole
    exact ⟨_, by rw [whole, Utf8.decodeLossy_nil, String.toList_empty, List.append_nil]⟩
  · intro earlier later same
    obtain ⟨first, rest, whole, -, ofRest⟩ :=
      Utf8.exists_of_decodeLossy_append nonempty isAscii same
    rw [← ofRest, alone first rest whole]
    rfl

theorem endsOnce_of_endAfter? (ending : Bytes) {content rest : Bytes} {least : Nat}
    (found : endAfter? ending.reverse least [] (content ++ '>'.toUInt8 :: rest) =
      some (content, rest))
    (nonempty : ending ≠ []) (noStart : '<'.toUInt8 ∉ ending)
    (late : ∀ before, ending <:+ before → before ++ ['>'.toUInt8] <+: content →
      least ≤ before.length) :
    EndsOnce (ending ++ ['>'.toUInt8]) ('<'.toUInt8 :: (content ++ ['>'.toUInt8])) := by
  have last : ending <:+ content :=
    List.reverse_prefix.1 (List.isPrefixOf_iff_prefix.1 (endAfter?_ends found))
  constructor
  · obtain ⟨before, rfl⟩ := last
    exact ⟨'<'.toUInt8 :: before, by simp⟩
  · intro earlier later whole
    rcases List.eq_nil_or_concat later with none | ⟨later, b, rfl⟩
    · exact none
    · exfalso
      cases earlier with
      | nil =>
        cases ending with
        | nil => exact nonempty rfl
        | cons first ending =>
          obtain ⟨rfl, -⟩ := List.cons.inj whole
          exact noStart List.mem_cons_self
      | cons first earlier =>
        have behind : content ++ ['>'.toUInt8] =
            (earlier ++ ending ++ '>'.toUInt8 :: later) ++ [b] := by
          simpa using (List.cons.inj whole).2
        obtain ⟨rfl, -⟩ := List.append_inj' behind rfl
        refine endAfter?_first found rfl (Nat.zero_le _) ⟨?_, late _ (List.suffix_append _ _) ?_⟩
        · rw [List.reverse_append, List.isPrefixOf_iff_prefix]
          exact List.prefix_append _ _
        · exact ⟨later, by simp⟩

def IsPlain (piece : Token × Bytes) : Prop :=
  match piece.1 with
  | .comment _ => ¬ ascii "<!-->" <+: piece.2 ∧ ¬ ascii "<!--->" <+: piece.2
  | .doctype => Passes (Utf8.decodeLossy piece.2).toList
  | _ => True

section Markup

variable {content rest : Bytes}

theorem closed_of_instruction (begins : ascii "?" <+: content)
    (ends : endAfter? (ascii "?") 0 [] (content ++ '>'.toUInt8 :: rest) = some (content, rest)) :
    Closed (Utf8.decodeLossy ('<'.toUInt8 :: (content ++ ['>'.toUInt8]))).toList := by
  have once : EndsOnce (ascii "?>") ('<'.toUInt8 :: (content ++ ['>'.toUInt8])) :=
    endsOnce_of_endAfter? (ascii "?") ends (by decide) (by decide) fun _ _ _ => Nat.zero_le _
  have starts : ascii "<?" <+: '<'.toUInt8 :: (content ++ ['>'.toUInt8]) :=
    (List.prefix_cons_inj _).2 (begins.trans (List.prefix_append _ _))
  exact .instruction (prefix_decodeLossy (by decide) starts)
    (once.decodeLossy (by decide) (by decide))

theorem closed_of_comment (begins : ascii "!--" <+: content)
    (ends : endAfter? (ascii "--") 5 [] (content ++ '>'.toUInt8 :: rest) = some (content, rest))
    (short : ¬ ascii "<!-->" <+: '<'.toUInt8 :: (content ++ ['>'.toUInt8]))
    (short' : ¬ ascii "<!--->" <+: '<'.toUInt8 :: (content ++ ['>'.toUInt8])) :
    Closed (Utf8.decodeLossy ('<'.toUInt8 :: (content ++ ['>'.toUInt8]))).toList := by
  have late : ∀ before, ascii "--" <:+ before → before ++ ['>'.toUInt8] <+: content →
      5 ≤ before.length := by
    rintro _ ⟨before, rfl⟩ early
    have begun : ascii "!--" <+: before ++ ascii "--" ++ ['>'.toUInt8] :=
      List.prefix_of_prefix_length_le begins early (by simp [ascii])
    have within : '<'.toUInt8 :: (before ++ ascii "--" ++ ['>'.toUInt8]) <+:
        '<'.toUInt8 :: (content ++ ['>'.toUInt8]) :=
      (List.prefix_cons_inj _).2 (early.trans (List.prefix_append _ _))
    match before with
    | [] => exact absurd begun (by decide)
    | [a] =>
      obtain rfl : '!'.toUInt8 = a := (List.cons_prefix_cons.1 begun).1
      exact absurd within short
    | [a, b] =>
      obtain ⟨rfl, second⟩ := List.cons_prefix_cons.1 begun
      obtain ⟨rfl, -⟩ := List.cons_prefix_cons.1 second
      exact absurd within short'
    | a :: b :: c :: before => simp [ascii]
  have once : EndsOnce (ascii "-->") ('<'.toUInt8 :: (content ++ ['>'.toUInt8])) :=
    endsOnce_of_endAfter? (ascii "--") ends (by decide) (by decide) late
  have starts : ascii "<!--" <+: '<'.toUInt8 :: (content ++ ['>'.toUInt8]) :=
    (List.prefix_cons_inj _).2 (begins.trans (List.prefix_append _ _))
  exact .comment (prefix_decodeLossy (by decide) starts)
    (once.decodeLossy (by decide) (by decide))

theorem isProlog_tag (content : Bytes) : (tag content).isProlog = false := by
  unfold tag
  repeat' split
  all_goals rfl

theorem passes_of_isMarkup {token : Token} (isMarkup : IsMarkup content rest token)
    (isProlog : token.isProlog = true)
    (plain : IsPlain (token, '<'.toUInt8 :: (content ++ ['>'.toUInt8]))) :
    Passes (Utf8.decodeLossy ('<'.toUInt8 :: (content ++ ['>'.toUInt8]))).toList := by
  have only {piece : List Char} (closed : Closed piece) : Passes piece :=
    List.append_nil piece ▸ .markup closed .nothing
  cases isMarkup with
  | comment begins ends => exact only (closed_of_comment begins ends plain.1 plain.2)
  | cdata => cases isProlog
  | doctype => exact plain
  | instruction begins ends => exact only (closed_of_instruction begins ends)
  | tag meant =>
    rw [← meant, isProlog_tag] at isProlog
    cases isProlog

theorem decodeLossy_markup (text content rest : Bytes) :
    (Utf8.decodeLossy (text ++ ('<'.toUInt8 :: (content ++ ['>'.toUInt8]) ++ rest))).toList =
      (Utf8.decodeLossy text).toList ++
        ((Utf8.decodeLossy ('<'.toUInt8 :: (content ++ ['>'.toUInt8]))).toList ++
          (Utf8.decodeLossy rest).toList) := by
  have opened (first rest : Bytes) : (Utf8.decodeLossy (first ++ '<'.toUInt8 :: rest)).toList =
      (Utf8.decodeLossy first).toList ++ '<' :: (Utf8.decodeLossy rest).toList :=
    Utf8.decodeLossy_cut first (by decide) rest
  have closed (rest : Bytes) : (Utf8.decodeLossy (content ++ '>'.toUInt8 :: rest)).toList =
      (Utf8.decodeLossy content).toList ++ '>' :: (Utf8.decodeLossy rest).toList :=
    Utf8.decodeLossy_cut content (by decide) rest
  have piece := opened [] (content ++ ['>'.toUInt8])
  rw [List.nil_append] at piece
  rw [piece, List.cons_append, opened, List.append_assoc, List.singleton_append, closed, closed]
  simp [Utf8.decodeLossy_nil]

end Markup

theorem passes_of_prolog {prolog : List (Token × Bytes)} (pieces : ∀ piece ∈ prolog, IsPiece piece)
    (isProlog : ∀ piece ∈ prolog, piece.1.isProlog = true)
    (plain : ∀ piece ∈ prolog, IsPlain piece) {text : Bytes} (isText : '<'.toUInt8 ∉ text) :
    Passes (Utf8.decodeLossy (text ++ prolog.flatMap Prod.snd)).toList := by
  have passes {text : Bytes} (isText : '<'.toUInt8 ∉ text) :
      Passes (Utf8.decodeLossy text).toList :=
    .of_not_mem fun member =>
      isText (Utf8.mem_of_ofNat_mem_decodeLossy (b := '<'.toUInt8) (by decide) member)
  induction prolog generalizing text with
  | nil => exact passes (by simpa using isText)
  | cons piece prolog ih =>
    have later {text : Bytes} (isText : '<'.toUInt8 ∉ text) :
        Passes (Utf8.decodeLossy (text ++ prolog.flatMap Prod.snd)).toList :=
      ih (fun other member => pieces other (List.mem_cons_of_mem _ member))
        (fun other member => isProlog other (List.mem_cons_of_mem _ member))
        (fun other member => plain other (List.mem_cons_of_mem _ member)) isText
    have here := pieces piece List.mem_cons_self
    have hereProlog := isProlog piece List.mem_cons_self
    have herePlain := plain piece List.mem_cons_self
    rw [List.flatMap_cons]
    cases here with
    | text isText' =>
      rw [← List.append_assoc]
      exact later (by simp [isText, isText'])
    | markup isMarkup =>
      have rest := later List.not_mem_nil
      rw [List.nil_append] at rest
      rw [decodeLossy_markup]
      exact (passes isText).append
        ((passes_of_isMarkup isMarkup hereProlog herePlain).append rest)

theorem rootTag_of_root {document : Bytes} {root : Root} (found : root? document = some root)
    (isProlog : ∀ piece ∈ root.prolog, piece.1.isProlog = true)
    (plain : ∀ piece ∈ root.prolog, IsPlain piece)
    (isTag : (Utf8.decodeLossy root.inside).toList.head? ≠ some '?' ∧
      (Utf8.decodeLossy root.inside).toList.head? ≠ some '!')
    (noEnd : '>'.toUInt8 ∉ root.inside) {limit : Nat}
    (near : document.length ≤ limit + root.rest.length) :
    rootTag (Utf8.decodeLossy (document.take limit)).toList =
      '<' :: ((Utf8.decodeLossy root.inside).toList ++ ['>']) := by
  obtain ⟨mark, rfl, isText, pieces⟩ := bytes_of_root? found
  obtain ⟨front, isFront⟩ : ∃ front, front = mark ++ root.prolog.flatMap Prod.snd ++
      '<'.toUInt8 :: (root.inside ++ ['>'.toUInt8]) := ⟨_, rfl⟩
  have whole : mark ++ root.bytes = front ++ root.rest := by
    simp only [isFront, Root.bytes, List.append_assoc, List.cons_append, List.nil_append]
  have enough : front.length ≤ limit := by
    rw [whole, List.length_append] at near
    omega
  have taken : (front ++ root.rest).take limit = mark ++ root.prolog.flatMap Prod.snd ++
      '<'.toUInt8 :: (root.inside ++ '>'.toUInt8 :: root.rest.take (limit - front.length)) := by
    rw [List.take_append, List.take_of_length_le enough]
    simp only [isFront, List.append_assoc, List.cons_append, List.nil_append]
  have noEnd' : '>' ∉ (Utf8.decodeLossy root.inside).toList := fun member =>
    noEnd (Utf8.mem_of_ofNat_mem_decodeLossy (b := '>'.toUInt8) (by decide) member)
  have opened := Utf8.decodeLossy_cut (mark ++ root.prolog.flatMap Prod.snd)
    (by decide : ('<'.toUInt8).toNat < 0x80)
  have closed := Utf8.decodeLossy_cut root.inside (by decide : ('>'.toUInt8).toNat < 0x80)
  rw [whole, taken, opened, closed]
  exact rootTag_of_passes (passes_of_prolog pieces isProlog plain isText) isTag noEnd' _

end XmlSchema.Provider
