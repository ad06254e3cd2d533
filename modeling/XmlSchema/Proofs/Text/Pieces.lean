import XmlSchema.Proofs.Text.LineEnds

namespace XmlSchema.Utf8

def charsFrom (pending : Option Pending) (bytes : Bytes) : List Char :=
  (itemsFrom pending [] bytes).map Item.toChar

theorem toList_decodeLossy (bytes : Bytes) : (decodeLossy bytes).toList = charsFrom none bytes := by
  rw [decodeLossy, String.toList_ofList]
  rfl

theorem charsFrom_cons (pending : Option Pending) (b : UInt8) (rest : Bytes) :
    charsFrom pending (b :: rest) =
      (next pending b).1.map Item.toChar ++ charsFrom (next pending b).2 rest := by
  rw [charsFrom, itemsFrom_cons, List.map_append, charsFrom]

theorem charsFrom_ascii {pending : Option Pending} (above : AboveAscii pending) {b : UInt8}
    (ascii : b.toNat < 0x80) (rest : Bytes) :
    charsFrom pending (b :: rest) =
      charsFrom pending [] ++ Char.ofNat b.toNat :: charsFrom none rest := by
  rw [charsFrom_cons]
  cases pending with
  | none => simp [next, start_of_lt ascii, charsFrom, itemsFrom, Item.toChar]
  | some p =>
    have low : 0x80 ≤ p.low.toNat := above p rfl
    have refused : ¬ (p.low ≤ b ∧ b ≤ p.high) := by
      rw [UInt8.le_iff_toNat_le]
      omega
    simp [next, start_of_lt ascii, refused, charsFrom, itemsFrom, Item.toChar]

theorem charsFrom_cut {pending : Option Pending} (above : AboveAscii pending) {b : UInt8}
    (ascii : b.toNat < 0x80) (first rest : Bytes) :
    charsFrom pending (first ++ b :: rest) =
      charsFrom pending first ++ Char.ofNat b.toNat :: charsFrom none rest := by
  induction first generalizing pending with
  | nil => exact charsFrom_ascii above ascii rest
  | cons c first ih =>
    rw [List.cons_append, charsFrom_cons, charsFrom_cons, ih (aboveAscii_next pending c),
      List.append_assoc]

theorem decodeLossy_cut (first : Bytes) {b : UInt8} (ascii : b.toNat < 0x80) (rest : Bytes) :
    (decodeLossy (first ++ b :: rest)).toList =
      (decodeLossy first).toList ++ Char.ofNat b.toNat :: (decodeLossy rest).toList := by
  simp only [toList_decodeLossy, charsFrom_cut aboveAscii_none ascii]

theorem decodeLossy_nil : decodeLossy [] = "" := rfl

def asciiChars (bytes : Bytes) : List Char := bytes.map fun b => Char.ofNat b.toNat

theorem decodeLossy_ascii {bytes : Bytes} (ascii : ∀ b ∈ bytes, b.toNat < 0x80) (rest : Bytes) :
    (decodeLossy (bytes ++ rest)).toList = asciiChars bytes ++ (decodeLossy rest).toList := by
  induction bytes with
  | nil => rfl
  | cons b bytes ih =>
    obtain ⟨here, others⟩ := List.forall_mem_cons.1 ascii
    have cut := decodeLossy_cut [] here (bytes ++ rest)
    rw [List.cons_append]
    simpa [decodeLossy_nil, ih others, asciiChars] using cut

theorem decodeLossy_append {first ascii : Bytes} (nonempty : ascii ≠ [])
    (all : ∀ b ∈ ascii, b.toNat < 0x80) (rest : Bytes) :
    (decodeLossy (first ++ (ascii ++ rest))).toList =
      (decodeLossy first).toList ++ (asciiChars ascii ++ (decodeLossy rest).toList) := by
  cases ascii with
  | nil => exact absurd rfl nonempty
  | cons b more =>
    obtain ⟨here, others⟩ := List.forall_mem_cons.1 all
    rw [List.cons_append, decodeLossy_cut first here, decodeLossy_ascii others]
    rfl

theorem code_eq_of_next_none (b : UInt8) :
    (∀ c, .char c ∈ (next none b).1 → String.utf8EncodeChar c = [b]) ∧
      ∃ read, Pending.Reads (next none b).2 read ∧ read ⊆ [b] := by
  rcases start_cases b with ⟨d, begins, code⟩ | ⟨p, begins, holds⟩ | odd
  · refine ⟨fun c member => ?_, [], by simp [next, begins, Pending.Reads], List.nil_subset _⟩
    obtain rfl : c = d := by simpa [next, begins] using member
    exact code
  · refine ⟨fun c member => ?_, [b], ?_, fun _ => id⟩
    · simp [next, begins] at member
    · simpa [next, begins, Pending.Reads] using holds
  · refine ⟨fun c member => ?_, [], by simp [next, odd, Pending.Reads], List.nil_subset _⟩
    simp [next, odd] at member

theorem code_subset_of_next {pending : Option Pending} {read : Bytes}
    (reads : Pending.Reads pending read) (b : UInt8) :
    (∀ c, .char c ∈ (next pending b).1 → String.utf8EncodeChar c ⊆ read ++ [b]) ∧
      ∃ read', Pending.Reads (next pending b).2 read' ∧ read' ⊆ read ++ [b] := by
  obtain ⟨chars, fresh⟩ := code_eq_of_next_none b
  cases pending with
  | none =>
    obtain rfl : read = [] := reads
    exact ⟨fun c member => chars c member ▸ List.Subset.refl _, fresh⟩
  | some p =>
    have holds : p.Holds read := reads
    by_cases fits : p.low ≤ b ∧ b ≤ p.high
    · cases missing : p.missing with
      | zero =>
        rw [next_last fits missing]
        refine ⟨fun c member => ?_, [], rfl, List.nil_subset _⟩
        rw [Item.char.inj (List.mem_singleton.1 member)]
        exact holds.utf8EncodeChar missing fits ▸ List.Subset.refl _
      | succ n =>
        rw [next_more fits missing]
        exact ⟨nofun, read ++ [b], holds.more missing fits, fun _ => id⟩
    · have afresh : next (some p) b = (.malformed p.read :: (next none b).1, (next none b).2) := by
        simp [next, fits]
      obtain ⟨read', reads', within⟩ := fresh
      rw [afresh]
      refine ⟨fun c member => ?_, read', reads',
        List.Subset.trans within (List.subset_append_right _ _)⟩
      have later : .char c ∈ (next none b).1 := by simpa using member
      rw [chars c later]
      exact List.subset_append_right _ _

theorem code_subset_of_mem_charsFrom {pending : Option Pending} {read bytes : Bytes}
    (reads : Pending.Reads pending read) {c : Char} (member : c ∈ charsFrom pending bytes) :
    c = replacement ∨ String.utf8EncodeChar c ⊆ read ++ bytes := by
  induction bytes generalizing pending read with
  | nil =>
    cases pending with
    | none => exact nomatch member
    | some p => exact .inl (List.mem_singleton.1 member)
  | cons b bytes ih =>
    obtain ⟨here, read', reads', within⟩ := code_subset_of_next reads b
    have all : read ++ [b] ⊆ read ++ b :: bytes := by simp
    rw [charsFrom_cons] at member
    rcases List.mem_append.1 member with now | later
    · obtain ⟨item, among, rfl⟩ := List.mem_map.1 now
      cases item with
      | char c => exact .inr (List.Subset.trans (here c among) all)
      | malformed | truncated => exact .inl rfl
    · refine (ih reads' later).imp_right fun code => List.Subset.trans code ?_
      rw [List.append_cons]
      exact List.append_subset.2 ⟨List.Subset.trans within (List.subset_append_left _ _),
        List.subset_append_right _ _⟩

theorem mem_of_ofNat_mem_decodeLossy {bytes : Bytes} {b : UInt8} (ascii : b.toNat < 0x80)
    (member : Char.ofNat b.toNat ∈ (decodeLossy bytes).toList) : b ∈ bytes := by
  have code : String.utf8EncodeChar (Char.ofNat b.toNat) = [b] := by
    rw [utf8EncodeChar_ofNat (by simp only [Nat.isValidChar]; omega), if_pos (by omega),
      UInt8.ofNat_toNat]
  rw [toList_decodeLossy] at member
  have nothing : Pending.Reads none [] := rfl
  rcases code_subset_of_mem_charsFrom nothing member with odd | within
  · have long : (String.utf8EncodeChar replacement).length = 3 := by decide
    rw [← odd, code] at long
    cases long
  · rw [code] at within
    exact within List.mem_cons_self

theorem charsFrom_some_ne_nil (p : Pending) (bytes : Bytes) : charsFrom (some p) bytes ≠ [] := by
  induction bytes generalizing p with
  | nil => exact List.cons_ne_nil _ _
  | cons b rest ih =>
    rw [charsFrom_cons]
    by_cases fits : p.low ≤ b ∧ b ≤ p.high
    · cases missing : p.missing with
      | zero =>
        rw [next_last fits missing]
        exact List.cons_ne_nil _ _
      | succ n =>
        rw [next_more fits missing]
        exact ih _
    · simp [next, fits]

theorem decodeLossy_eq_empty {bytes : Bytes} : decodeLossy bytes = "" ↔ bytes = [] := by
  refine ⟨fun empty => ?_, fun none => none ▸ decodeLossy_nil⟩
  cases bytes with
  | nil => rfl
  | cons b rest =>
    have none : charsFrom none (b :: rest) = [] := by
      rw [← toList_decodeLossy, empty, String.toList_empty]
    rw [charsFrom_cons, List.append_eq_nil_iff] at none
    rcases start_cases b with ⟨c, begins, -⟩ | ⟨p, begins, -⟩ | odd
    · simp [next, begins] at none
    · have pending : (next Option.none b).2 = some p := by simp [next, begins]
      exact absurd (pending ▸ none.2) (charsFrom_some_ne_nil p rest)
    · simp [next, odd] at none

theorem exists_of_decodeLossy_cons {bytes : Bytes} {b : UInt8} (ascii : b.toNat < 0x80)
    {before after : List Char}
    (same : (decodeLossy bytes).toList = before ++ Char.ofNat b.toNat :: after) :
    ∃ first rest, bytes = first ++ b :: rest ∧ (decodeLossy first).toList = before ∧
      (decodeLossy rest).toList = after := by
  have member : b ∈ bytes := mem_of_ofNat_mem_decodeLossy ascii (by simp [same])
  obtain ⟨first, rest, rfl, absent⟩ := List.eq_append_cons_of_mem member
  rw [decodeLossy_cut first ascii] at same
  have notBefore : Char.ofNat b.toNat ∉ (decodeLossy first).toList := fun inside =>
    absent (mem_of_ofNat_mem_decodeLossy ascii inside)
  rcases List.append_eq_append_iff.1 same with ⟨between, rfl, more⟩ | ⟨between, more, others⟩
  · cases between with
    | nil => exact ⟨first, rest, rfl, (List.append_nil _).symm, (List.cons.inj more).2⟩
    | cons c between =>
      obtain ⟨rfl, inside⟩ := List.cons.inj more
      obtain ⟨first', rest', rfl, rfl, rfl⟩ := exists_of_decodeLossy_cons ascii inside
      exact ⟨first ++ b :: first', rest', by simp, by rw [decodeLossy_cut first ascii], rfl⟩
  · cases between with
    | nil => exact ⟨first, rest, rfl, by simpa using more, (List.cons.inj others).2.symm⟩
    | cons c between =>
      obtain ⟨rfl, -⟩ := List.cons.inj others
      exact absurd (by simp [more]) notBefore
termination_by bytes.length

theorem exists_of_decodeLossy_append {bytes word : Bytes} (nonempty : word ≠ [])
    (ascii : ∀ b ∈ word, b.toNat < 0x80) {before after : List Char}
    (same : (decodeLossy bytes).toList = before ++ (asciiChars word ++ after)) :
    ∃ first rest, bytes = first ++ (word ++ rest) ∧ (decodeLossy first).toList = before ∧
      (decodeLossy rest).toList = after := by
  induction word generalizing bytes before with
  | nil => exact absurd rfl nonempty
  | cons b more ih =>
    obtain ⟨here, others⟩ := List.forall_mem_cons.1 ascii
    obtain ⟨first, rest, rfl, ofFirst, ofRest⟩ := exists_of_decodeLossy_cons here same
    by_cases last : more = []
    · rw [last] at ofRest ⊢
      exact ⟨first, rest, rfl, ofFirst, ofRest⟩
    · have behind : (decodeLossy rest).toList = [] ++ (asciiChars more ++ after) := ofRest
      obtain ⟨none, rest', rfl, empty, ofRest'⟩ := ih last others behind
      obtain rfl : none = [] := decodeLossy_eq_empty.1 (String.toList_inj.1 empty)
      exact ⟨first, rest', rfl, ofFirst, ofRest'⟩

@[simp] theorem encode_append (first second : String) :
    encode (first ++ second) = encode first ++ encode second := by
  simp only [encode_eq, String.toList_append, List.flatMap_append]

@[simp] theorem encode_empty : encode "" = [] := by
  rw [encode_eq]
  rfl

theorem encode_eq_nil_iff {text : String} : encode text = [] ↔ text = "" := by
  constructor
  · intro none
    rw [← decodeLossy_encode text, none]
    rfl
  · rintro rfl
    exact encode_empty

theorem eq_ofNat_of_mem_utf8EncodeChar {c : Char} {b : UInt8} (member : b ∈ String.utf8EncodeChar c)
    (ascii : b.toNat < 128) : c = Char.ofNat b.toNat := by
  have code := @utf8EncodeChar_ofNat c.toNat c.valid
  rw [Char.ofNat_toNat] at code
  rw [code] at member
  by_cases small : c.toNat ≤ 127
  · rw [if_pos small, List.mem_singleton] at member
    have value : b.toNat = c.toNat := by
      rw [member, UInt8.toNat_ofNat', Nat.mod_eq_of_lt (by omega)]
    rw [value, Char.ofNat_toNat]
  · exfalso
    rw [if_neg small] at member
    have large : ∃ n, 128 ≤ n ∧ n < 256 ∧ b = UInt8.ofNat n := by
      split at member
      · simp only [List.mem_cons, List.not_mem_nil, or_false] at member
        rcases member with same | same <;> exact ⟨_, by omega, by omega, same⟩
      · split at member <;> simp only [List.mem_cons, List.not_mem_nil, or_false] at member
        · rcases member with same | same | same <;> exact ⟨_, by omega, by omega, same⟩
        · rcases member with same | same | same | same <;> exact ⟨_, by omega, by omega, same⟩
    obtain ⟨n, atLeast, below, rfl⟩ := large
    rw [UInt8.toNat_ofNat', Nat.mod_eq_of_lt below] at ascii
    omega

theorem ofNat_mem_of_mem_encode {text : String} {b : UInt8} (member : b ∈ encode text)
    (ascii : b.toNat < 128) : Char.ofNat b.toNat ∈ text.toList := by
  rw [encode_eq] at member
  obtain ⟨c, among, code⟩ := List.mem_flatMap.1 member
  rwa [← eq_ofNat_of_mem_utf8EncodeChar code ascii]

end XmlSchema.Utf8
