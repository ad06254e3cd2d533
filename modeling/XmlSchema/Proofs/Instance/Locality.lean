import XmlSchema.Proofs.Instance.Legality

namespace XmlSchema.Instance

section Ends

variable {passed bytes content rest ending : Bytes}

theorem tagEnd?_local {quote : Option UInt8}
    (found : tagEnd? quote passed bytes = some (content, rest)) :
    ∃ inside, bytes = inside ++ '>'.toUInt8 :: rest ∧ ∀ rest',
      tagEnd? quote passed (inside ++ '>'.toUInt8 :: rest') = some (content, rest') := by
  induction bytes generalizing quote passed with
  | nil => cases found
  | cons b bytes ih =>
    unfold tagEnd? at found
    cases quote with
    | some q =>
      obtain ⟨inside, rfl, stays⟩ := ih found
      exact ⟨b :: inside, rfl, stays⟩
    | none =>
      dsimp only at found
      split at found
      · next ends =>
        obtain ⟨rfl, rfl⟩ := Prod.mk.inj (Option.some.inj found)
        exact ⟨[], by simp [beq_iff_eq.1 ends], fun rest' => by simp [tagEnd?]⟩
      · next goesOn =>
        obtain ⟨inside, rfl, stays⟩ := ih found
        refine ⟨b :: inside, rfl, fun rest' => ?_⟩
        rw [List.cons_append, tagEnd?]
        simpa only [if_neg goesOn] using stays rest'

theorem endAfter?_local {least : Nat}
    (found : endAfter? ending least passed bytes = some (content, rest)) :
    ∃ inside, bytes = inside ++ '>'.toUInt8 :: rest ∧ ∀ rest',
      endAfter? ending least passed (inside ++ '>'.toUInt8 :: rest') = some (content, rest') := by
  induction bytes generalizing passed with
  | nil => cases found
  | cons b bytes ih =>
    unfold endAfter? at found
    split at found
    · next ends =>
      obtain ⟨rfl, rfl⟩ := Prod.mk.inj (Option.some.inj found)
      simp only [Bool.and_eq_true, beq_iff_eq] at ends
      refine ⟨[], by simp [ends.1.1], fun rest' => ?_⟩
      rw [List.nil_append, endAfter?, ← ends.1.1]
      simp [ends]
    · next goesOn =>
      obtain ⟨inside, rfl, stays⟩ := ih found
      refine ⟨b :: inside, rfl, fun rest' => ?_⟩
      rw [List.cons_append, endAfter?, if_neg goesOn]
      exact stays rest'

theorem balancedEnd?_local {depth : Nat}
    (found : balancedEnd? depth passed bytes = some (content, rest)) :
    ∃ inside, bytes = inside ++ '>'.toUInt8 :: rest ∧ ∀ rest',
      balancedEnd? depth passed (inside ++ '>'.toUInt8 :: rest') = some (content, rest') := by
  induction bytes generalizing depth passed with
  | nil => cases found
  | cons b bytes ih =>
    unfold balancedEnd? at found
    split at found
    · next ends =>
      cases depth with
      | zero =>
        obtain ⟨rfl, rfl⟩ := Prod.mk.inj (Option.some.inj found)
        exact ⟨[], by simp [beq_iff_eq.1 ends], fun rest' => by simp [balancedEnd?]⟩
      | succ depth =>
        obtain ⟨inside, rfl, stays⟩ := ih found
        refine ⟨b :: inside, rfl, fun rest' => ?_⟩
        rw [List.cons_append, balancedEnd?.eq_def]
        simpa only [if_pos ends] using stays rest'
    · next goesOn =>
      obtain ⟨inside, rfl, stays⟩ := ih found
      refine ⟨b :: inside, rfl, fun rest' => ?_⟩
      rw [List.cons_append, balancedEnd?.eq_def]
      simpa only [if_neg goesOn] using stays rest'

theorem endAfter?_ends {least : Nat}
    (found : endAfter? ending least passed bytes = some (content, rest)) :
    ending.isPrefixOf content.reverse = true := by
  induction bytes generalizing passed with
  | nil => cases found
  | cons b bytes ih =>
    unfold endAfter? at found
    split at found
    · next ends =>
      obtain ⟨rfl, rfl⟩ := Prod.mk.inj (Option.some.inj found)
      simp only [Bool.and_eq_true] at ends
      rw [List.reverse_reverse]
      exact ends.1.2
    · exact ih found

end Ends

def IsLocal (finish : Bytes → Option (Bytes × Bytes)) : Prop :=
  ∀ bytes content rest, finish bytes = some (content, rest) →
    bytes = content ++ '>'.toUInt8 :: rest ∧
      ∀ rest', finish (content ++ '>'.toUInt8 :: rest') = some (content, rest')

theorem isLocal_tagEnd? : IsLocal (tagEnd? none []) := by
  intro bytes content rest found
  obtain ⟨inside, rfl, stays⟩ := tagEnd?_local found
  obtain rfl : content = inside := List.append_cancel_right (tagEnd?_append found)
  exact ⟨rfl, stays⟩

theorem isLocal_endAfter? (ending : Bytes) (least : Nat) : IsLocal (endAfter? ending least []) := by
  intro bytes content rest found
  obtain ⟨inside, rfl, stays⟩ := endAfter?_local found
  obtain rfl : content = inside := List.append_cancel_right (endAfter?_append found)
  exact ⟨rfl, stays⟩

theorem isLocal_balancedEnd? : IsLocal (balancedEnd? 0 []) := by
  intro bytes content rest found
  obtain ⟨inside, rfl, stays⟩ := balancedEnd?_local found
  obtain rfl : content = inside := List.append_cancel_right (balancedEnd?_append found)
  exact ⟨rfl, stays⟩

theorem head?_markup (content rest rest' : Bytes) :
    (content ++ '>'.toUInt8 :: rest).head? = (content ++ '>'.toUInt8 :: rest').head? := by
  cases content <;> rfl

theorem second?_markup {content rest : Bytes} {b : UInt8}
    (first : (content ++ '>'.toUInt8 :: rest).head? = some b) (other : b ≠ '>'.toUInt8)
    (rest' : Bytes) :
    (content ++ '>'.toUInt8 :: rest)[1]? = (content ++ '>'.toUInt8 :: rest')[1]? := by
  match content with
  | [] => exact absurd (Option.some.inj first).symm other
  | [_] => rfl
  | _ :: _ :: _ => rfl

theorem exists_scanMarkup_eq {bytes : Bytes} {token : Token}
    (read : (scanMarkup bytes).result = .ok token) :
    ∃ finish meaning fault, IsLocal finish ∧ ∀ bytes', bytes.head? = bytes'.head? →
      (bytes.head? = some '!'.toUInt8 → bytes[1]? = bytes'[1]?) →
        scanMarkup bytes' = Scan.upTo (finish bytes') meaning fault bytes' := by
  unfold scanMarkup at read
  split at read
  · next first =>
    have found := beq_iff_eq.1 first
    split at read
    · next second =>
      refine ⟨_, comment, .unclosedComment, isLocal_endAfter? (ascii "--") 5,
        fun bytes' same same' => ?_⟩
      rw [scanMarkup, ← same, if_pos first, ← same' found, second]
      rfl
    · next second =>
      refine ⟨_, cdata, .unclosedCData, isLocal_endAfter? (ascii "]]") 0,
        fun bytes' same same' => ?_⟩
      rw [scanMarkup, ← same, if_pos first, ← same' found, second]
      rfl
    · next second =>
      refine ⟨_, doctype, .unclosedDoctype, isLocal_balancedEnd?, fun bytes' same same' => ?_⟩
      rw [scanMarkup, ← same, if_pos first, ← same' found, second]
      rfl
    · cases read
  · next notFirst =>
    split at read
    · next first =>
      refine ⟨_, instruction, .unclosedInstruction, isLocal_endAfter? (ascii "?") 0,
        fun bytes' same _ => ?_⟩
      rw [scanMarkup, ← same, if_neg notFirst, if_pos first]
    · next notFirst' =>
      refine ⟨_, fun content => .ok (tag content), .unclosedTag, isLocal_tagEnd?,
        fun bytes' same _ => ?_⟩
      rw [scanMarkup, ← same, if_neg notFirst, if_neg notFirst']

theorem Scan.upTo_eq {finish : Option (Bytes × Bytes)}
    {meaning : Bytes → Except TokenFault Token} {fault : TokenFault} {bytes : Bytes} {token : Token}
    (read : (Scan.upTo finish meaning fault bytes).result = .ok token) :
    ∃ content rest, finish = some (content, rest) ∧ meaning content = .ok token ∧
      Scan.upTo finish meaning fault bytes = .markup (.ok token) content rest := by
  cases found : finish with
  | none => simp [found, Scan.upTo, Scan.unclosed] at read
  | some parts =>
    have meant : meaning parts.1 = .ok token := by
      simpa [found, Scan.upTo, Scan.markup] using read
    exact ⟨parts.1, parts.2, rfl, meant, by rw [Scan.upTo, meant]⟩

inductive Marks (content rest : Bytes) (token : Token) : Prop
  | comment (found : endAfter? (ascii "--") 5 [] (content ++ '>'.toUInt8 :: rest) =
      some (content, rest)) (meant : Instance.comment content = .ok token) : Marks content rest token
  | cdata (found : endAfter? (ascii "]]") 0 [] (content ++ '>'.toUInt8 :: rest) =
      some (content, rest)) (meant : Instance.cdata content = .ok token) : Marks content rest token
  | doctype (meant : Instance.doctype content = .ok token) : Marks content rest token
  | instruction (first : (content ++ '>'.toUInt8 :: rest).head? = some '?'.toUInt8)
      (found : endAfter? (ascii "?") 0 [] (content ++ '>'.toUInt8 :: rest) = some (content, rest))
      (meant : Instance.instruction content = .ok token) : Marks content rest token
  | tag (meant : Instance.tag content = token) : Marks content rest token

theorem marks_of_scanMarkup {bytes : Bytes} {token : Token}
    (read : (scanMarkup bytes).result = .ok token) :
    ∃ content rest, bytes = content ++ '>'.toUInt8 :: rest ∧
      scanMarkup bytes = .markup (.ok token) content rest ∧ Marks content rest token := by
  unfold scanMarkup at read ⊢
  split
  · next first =>
    rw [if_pos first] at read
    split at read
    · obtain ⟨content, rest, found, meant, same⟩ := Scan.upTo_eq read
      obtain ⟨rfl, -⟩ := isLocal_endAfter? _ _ _ _ _ found
      exact ⟨content, rest, rfl, same, .comment found meant⟩
    · obtain ⟨content, rest, found, meant, same⟩ := Scan.upTo_eq read
      obtain ⟨rfl, -⟩ := isLocal_endAfter? _ _ _ _ _ found
      exact ⟨content, rest, rfl, same, .cdata found meant⟩
    · obtain ⟨content, rest, found, meant, same⟩ := Scan.upTo_eq read
      obtain ⟨rfl, -⟩ := isLocal_balancedEnd? _ _ _ found
      exact ⟨content, rest, rfl, same, .doctype meant⟩
    · cases read
  · next notFirst =>
    rw [if_neg notFirst] at read
    split at read
    · next first =>
      rw [if_pos first]
      obtain ⟨content, rest, found, meant, same⟩ := Scan.upTo_eq read
      obtain ⟨rfl, -⟩ := isLocal_endAfter? _ _ _ _ _ found
      exact ⟨content, rest, rfl, same, .instruction (beq_iff_eq.1 first) found meant⟩
    · next notFirst' =>
      rw [if_neg notFirst']
      obtain ⟨content, rest, found, meant, same⟩ := Scan.upTo_eq read
      obtain ⟨rfl, -⟩ := isLocal_tagEnd? _ _ _ found
      exact ⟨content, rest, rfl, same, .tag (Except.ok.inj meant)⟩

theorem scanMarkup_local {bytes : Bytes} {token : Token}
    (read : (scanMarkup bytes).result = .ok token) :
    ∃ content rest, bytes = content ++ '>'.toUInt8 :: rest ∧ ∀ rest',
      scanMarkup (content ++ '>'.toUInt8 :: rest') = .markup (.ok token) content rest' := by
  obtain ⟨finish, meaning, fault, isLocal, chosen⟩ := exists_scanMarkup_eq read
  rw [chosen bytes rfl fun _ => rfl] at read
  obtain ⟨content, rest, found, meant, -⟩ := Scan.upTo_eq read
  obtain ⟨rfl, stays⟩ := isLocal _ _ _ found
  refine ⟨content, rest, rfl, fun rest' => ?_⟩
  have decided := chosen (content ++ '>'.toUInt8 :: rest') (head?_markup content rest rest')
    fun first => second?_markup first (by decide) rest'
  rw [decided, stays, Scan.upTo, meant]

variable {bytes : Bytes} {s : Scan} {token : Token}

theorem scan?_local (scanned : scan? bytes = some s) (read : s.result = .ok token)
    (markup : bytes.head? = some '<'.toUInt8) (rest' : Bytes) :
    scan? (s.read ++ rest') = some { s with rest := rest' } := by
  cases bytes with
  | nil => cases markup
  | cons b bytes =>
    obtain rfl := Option.some.inj markup
    obtain rfl := Option.some.inj scanned
    obtain ⟨content, rest, rfl, stays⟩ := scanMarkup_local read
    rw [stays rest]
    simp only [Scan.markup, List.cons_append, List.append_assoc, List.nil_append]
    exact congrArg some (stays rest')

theorem scan?_text {content rest : Bytes} (nonempty : content ≠ [])
    (isText : ∀ b ∈ content, (b != '<'.toUInt8) = true)
    (ends : ∀ b ∈ rest.head?, b = '<'.toUInt8) :
    scan? (content ++ rest) = some ⟨.ok (.text content), content, rest⟩ := by
  have noText : rest.takeWhile (· != '<'.toUInt8) = [] ∧
      rest.dropWhile (· != '<'.toUInt8) = rest := by
    cases rest with
    | nil => exact ⟨rfl, rfl⟩
    | cons b rest =>
      obtain rfl := ends b rfl
      exact ⟨rfl, rfl⟩
  cases content with
  | nil => exact absurd rfl nonempty
  | cons b content =>
    have first : ¬ (b == '<'.toUInt8) = true := by simpa using isText b List.mem_cons_self
    have taken := @List.takeWhile_append_of_pos _ _ _ rest isText
    have left := @List.dropWhile_append_of_pos _ _ _ rest isText
    rw [noText.1, List.append_nil] at taken
    rw [noText.2] at left
    rw [List.cons_append] at taken left ⊢
    rw [scan?_cons, if_neg first]
    simp only [taken, left]

end XmlSchema.Instance
