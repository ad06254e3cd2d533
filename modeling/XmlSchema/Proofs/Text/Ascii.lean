namespace XmlSchema.Text

theorem utf8EncodeChar_of_ascii {c : Char} (ascii : ∀ b ∈ String.utf8EncodeChar c, b < 128) :
    (String.utf8EncodeChar c).map (fun b => Char.ofNat b.toNat) = [c] := by
  by_cases small : c.val.toNat ≤ 127
  · have encoded : String.utf8EncodeChar c = [UInt8.ofNat c.val.toNat] := by
      unfold String.utf8EncodeChar
      exact if_pos small
    have value : (UInt8.ofNat c.val.toNat).toNat = c.toNat := by
      rw [UInt8.toNat_ofNat', Nat.mod_eq_of_lt (by omega)]
      rfl
    rw [encoded, List.map_singleton, value, Char.ofNat_toNat]
  · -- The first byte of a longer code is large.
    exfalso
    have large : ∃ n, 192 ≤ n ∧ n < 256 ∧ UInt8.ofNat n ∈ String.utf8EncodeChar c := by
      unfold String.utf8EncodeChar
      simp only [small, if_false]
      split
      · exact ⟨_, Nat.le_add_left _ _, by omega, List.mem_cons_self⟩
      · split
        · exact ⟨c.val.toNat / 4096 % 16 + 224, by omega, by omega, List.mem_cons_self⟩
        · exact ⟨c.val.toNat / 262144 % 8 + 240, by omega, by omega, List.mem_cons_self⟩
    obtain ⟨n, atLeast, below, member⟩ := large
    have := UInt8.lt_iff_toNat_lt.1 (ascii _ member)
    rw [UInt8.toNat_ofNat', Nat.mod_eq_of_lt below] at this
    have limit : (128 : UInt8).toNat = 128 := rfl
    omega

/-- As `String.toList`, read off the bytes where they are ASCII. -/
def letters (text : String) : List Char :=
  let bytes := text.toByteArray.data.toList
  if bytes.all (· < 128) then bytes.map fun b => Char.ofNat b.toNat else text.toList

theorem toList_eq_letters : String.toList = letters := by
  funext text
  obtain ⟨chars, rfl⟩ : ∃ chars, text = String.ofList chars := ⟨_, String.ofList_toList.symm⟩
  have bytes : (String.ofList chars).toByteArray.data.toList = chars.flatMap String.utf8EncodeChar := by
    simp [String.toByteArray_ofList, List.utf8Encode]
  unfold letters
  rw [bytes, String.toList_ofList]
  dsimp only
  split
  · next ascii =>
    simp only [List.all_eq_true, decide_eq_true_eq] at ascii
    clear bytes
    induction chars with
    | nil => rfl
    | cons c rest ih =>
      simp only [List.flatMap_cons, List.mem_append] at ascii
      rw [List.flatMap_cons, List.map_append,
        utf8EncodeChar_of_ascii fun b member => ascii b (.inl member), List.singleton_append,
        ← ih fun b member => ascii b (.inr member)]
  · rfl

/-- The letters of a text that is spelled out. A proof can look them up here, and need not decode the
text. -/
theorem toList_of_spelled {text : String} {letters : List Char}
    (spelled : text = String.ofList letters) : text.toList = letters := by
  rw [spelled, String.toList_ofList]

end XmlSchema.Text
