import Mathlib.Data.List.Basic
import XmlSchema.Text.Utf8

namespace XmlSchema.Utf8

theorem toList_loop (bytes : ByteArray) (i : Nat) (read : List UInt8) :
    ByteArray.toList.loop bytes i read = read.reverse ++ bytes.data.toList.drop i := by
  fun_induction ByteArray.toList.loop bytes i read with
  | case1 i read inside ih =>
    have bound : i < bytes.data.toList.length := inside
    rw [ih, List.drop_eq_getElem_cons bound]
    simp [ByteArray.get!, inside]
  | case2 i read outside =>
    rw [List.drop_eq_nil_of_le (Nat.le_of_not_lt outside), List.append_nil]

theorem encode_eq (text : String) : encode text = text.toList.flatMap String.utf8EncodeChar := by
  obtain ⟨chars, rfl⟩ : ∃ chars, text = String.ofList chars := ⟨_, String.ofList_toList.symm⟩
  rw [encode, ByteArray.toList, toList_loop]
  simp [List.utf8Encode]

theorem utf8EncodeChar_ofNat {n : Nat} (valid : n.isValidChar) :
    String.utf8EncodeChar (Char.ofNat n) =
      if n ≤ 127 then [UInt8.ofNat n]
      else if n ≤ 2047 then [UInt8.ofNat (n / 64 % 32 + 192), UInt8.ofNat (n % 64 + 128)]
      else if n ≤ 65535 then
        [UInt8.ofNat (n / 4096 % 16 + 224), UInt8.ofNat (n / 64 % 64 + 128),
          UInt8.ofNat (n % 64 + 128)]
      else
        [UInt8.ofNat (n / 262144 % 8 + 240), UInt8.ofNat (n / 4096 % 64 + 128),
          UInt8.ofNat (n / 64 % 64 + 128), UInt8.ofNat (n % 64 + 128)] := by
  have value : (Char.ofNat n).val.toNat = n := by
    rw [Char.ofNat, dif_pos valid]
    rfl
  simp only [String.utf8EncodeChar, value]

theorem start_of_lt {b : UInt8} (ascii : b.toNat < 128) :
    start b = .inl (.char (Char.ofNat b.toNat)) :=
  if_pos (UInt8.lt_iff_toNat_lt.2 ascii)

theorem start_two {b : UInt8} (least : 194 ≤ b.toNat) (below : b.toNat < 224) :
    start b = .inr ⟨1, 0, 0x80, 0xBF, b.toNat - 0xC0⟩ := by
  unfold start
  simp only [UInt8.lt_iff_toNat_lt, UInt8.reduceToNat]
  rw [if_neg (by omega), if_neg (by omega), if_pos (by omega)]

theorem start_three {b : UInt8} (least : 224 ≤ b.toNat) (below : b.toNat < 240) :
    start b = .inr ⟨1, 1, if b == 0xE0 then 0xA0 else 0x80, if b == 0xED then 0x9F else 0xBF,
      b.toNat - 0xE0⟩ := by
  unfold start
  simp only [UInt8.lt_iff_toNat_lt, UInt8.reduceToNat]
  rw [if_neg (by omega), if_neg (by omega), if_neg (by omega), if_pos (by omega)]

theorem start_four {b : UInt8} (least : 240 ≤ b.toNat) (below : b.toNat < 245) :
    start b = .inr ⟨1, 2, if b == 0xF0 then 0x90 else 0x80, if b == 0xF4 then 0x8F else 0xBF,
      b.toNat - 0xF0⟩ := by
  unfold start
  simp only [UInt8.lt_iff_toNat_lt, UInt8.reduceToNat]
  rw [if_neg (by omega), if_neg (by omega), if_neg (by omega), if_neg (by omega), if_pos (by omega)]

theorem start_malformed {b : UInt8}
    (none : 128 ≤ b.toNat ∧ b.toNat < 194 ∨ 245 ≤ b.toNat) : start b = .inl (.malformed 1) := by
  unfold start
  simp only [UInt8.lt_iff_toNat_lt, UInt8.reduceToNat]
  rcases none with ⟨least, below⟩ | least
  · rw [if_neg (by omega), if_pos (by omega)]
  · rw [if_neg (by omega), if_neg (by omega), if_neg (by omega), if_neg (by omega),
      if_neg (by omega)]

theorem second_of_three {b second : UInt8} :
    (if b == 0xE0 then 0xA0 else 0x80) ≤ second ∧ second ≤ (if b == 0xED then 0x9F else 0xBF) ↔
      128 ≤ second.toNat ∧ second.toNat < 192 ∧ (b.toNat = 224 → 160 ≤ second.toNat) ∧
        (b.toNat = 237 → second.toNat < 160) := by
  simp only [beq_iff_eq, ← UInt8.toNat_inj, UInt8.le_iff_toNat_le, UInt8.reduceToNat]
  split <;> split <;> simp only [UInt8.reduceToNat] <;> omega

theorem second_of_four {b second : UInt8} :
    (if b == 0xF0 then 0x90 else 0x80) ≤ second ∧ second ≤ (if b == 0xF4 then 0x8F else 0xBF) ↔
      128 ≤ second.toNat ∧ second.toNat < 192 ∧ (b.toNat = 240 → 144 ≤ second.toNat) ∧
        (b.toNat = 244 → second.toNat < 144) := by
  simp only [beq_iff_eq, ← UInt8.toNat_inj, UInt8.le_iff_toNat_le, UInt8.reduceToNat]
  split <;> split <;> simp only [UInt8.reduceToNat] <;> omega

theorem continues {second : UInt8} :
    0x80 ≤ second ∧ second ≤ 0xBF ↔ 128 ≤ second.toNat ∧ second.toNat < 192 := by
  simp only [UInt8.le_iff_toNat_le, UInt8.reduceToNat]
  omega

theorem next_last {p : Pending} {b : UInt8} (fits : p.low ≤ b ∧ b ≤ p.high) (last : p.missing = 0) :
    next (some p) b = ([.char (Char.ofNat (p.bits * 64 + (b.toNat - 0x80)))], none) := by
  simp [next, fits, last]

theorem next_more {p : Pending} {b : UInt8} {n : Nat} (fits : p.low ≤ b ∧ b ≤ p.high)
    (more : p.missing = n + 1) :
    next (some p) b =
      ([], some ⟨p.read + 1, n, 0x80, 0xBF, p.bits * 64 + (b.toNat - 0x80)⟩) := by
  simp [next, fits, more]

inductive Pending.Holds : Pending → Bytes → Prop where
  | two {a : UInt8} (least : 194 ≤ a.toNat) (below : a.toNat < 224) :
      Holds ⟨1, 0, 0x80, 0xBF, a.toNat - 0xC0⟩ [a]
  | three {a : UInt8} (least : 224 ≤ a.toNat) (below : a.toNat < 240) :
      Holds ⟨1, 1, if a == 0xE0 then 0xA0 else 0x80, if a == 0xED then 0x9F else 0xBF,
        a.toNat - 0xE0⟩ [a]
  | threeMore {a b : UInt8} (least : 224 ≤ a.toNat) (below : a.toNat < 240)
      (fits : 128 ≤ b.toNat ∧ b.toNat < 192 ∧ (a.toNat = 224 → 160 ≤ b.toNat) ∧
        (a.toNat = 237 → b.toNat < 160)) :
      Holds ⟨2, 0, 0x80, 0xBF, (a.toNat - 0xE0) * 64 + (b.toNat - 0x80)⟩ [a, b]
  | four {a : UInt8} (least : 240 ≤ a.toNat) (below : a.toNat < 245) :
      Holds ⟨1, 2, if a == 0xF0 then 0x90 else 0x80, if a == 0xF4 then 0x8F else 0xBF,
        a.toNat - 0xF0⟩ [a]
  | fourMore {a b : UInt8} (least : 240 ≤ a.toNat) (below : a.toNat < 245)
      (fits : 128 ≤ b.toNat ∧ b.toNat < 192 ∧ (a.toNat = 240 → 144 ≤ b.toNat) ∧
        (a.toNat = 244 → b.toNat < 144)) :
      Holds ⟨2, 1, 0x80, 0xBF, (a.toNat - 0xF0) * 64 + (b.toNat - 0x80)⟩ [a, b]
  | fourMost {a b c : UInt8} (least : 240 ≤ a.toNat) (below : a.toNat < 245)
      (fits : 128 ≤ b.toNat ∧ b.toNat < 192 ∧ (a.toNat = 240 → 144 ≤ b.toNat) ∧
        (a.toNat = 244 → b.toNat < 144)) (continued : 128 ≤ c.toNat ∧ c.toNat < 192) :
      Holds ⟨3, 0, 0x80, 0xBF,
        ((a.toNat - 0xF0) * 64 + (b.toNat - 0x80)) * 64 + (c.toNat - 0x80)⟩ [a, b, c]

namespace Pending.Holds

variable {p : Pending} {read : Bytes} {b : UInt8}

theorem more {n : Nat} (holds : p.Holds read) (missing : p.missing = n + 1)
    (fits : p.low ≤ b ∧ b ≤ p.high) :
    Holds ⟨p.read + 1, n, 0x80, 0xBF, p.bits * 64 + (b.toNat - 0x80)⟩ (read ++ [b]) := by
  cases holds with
  | two | threeMore | fourMost => cases missing
  | three least below =>
    cases missing
    exact .threeMore least below (second_of_three.1 fits)
  | four least below =>
    cases missing
    exact .fourMore least below (second_of_four.1 fits)
  | fourMore least below second =>
    cases missing
    exact .fourMost least below second (continues.1 fits)

theorem utf8EncodeChar (holds : p.Holds read) (last : p.missing = 0)
    (fits : p.low ≤ b ∧ b ≤ p.high) :
    String.utf8EncodeChar (Char.ofNat (p.bits * 64 + (b.toNat - 0x80))) = read ++ [b] := by
  cases holds with
  | three | four | fourMore => cases last
  | @two a least below =>
    rw [continues] at fits
    dsimp only
    rw [utf8EncodeChar_ofNat (by simp only [Nat.isValidChar]; omega), if_neg (by omega),
      if_pos (by omega)]
    simp only [List.cons_append, List.nil_append, List.cons.injEq, and_true, ← UInt8.toNat_inj,
      UInt8.toNat_ofNat']
    omega
  | @threeMore a second least below bounds =>
    rw [continues] at fits
    dsimp only
    rw [utf8EncodeChar_ofNat (by simp only [Nat.isValidChar]; omega), if_neg (by omega),
      if_neg (by omega), if_pos (by omega)]
    simp only [List.cons_append, List.nil_append, List.cons.injEq, and_true, ← UInt8.toNat_inj,
      UInt8.toNat_ofNat']
    omega
  | @fourMost a second third least below bounds continued =>
    rw [continues] at fits
    dsimp only
    rw [utf8EncodeChar_ofNat (by simp only [Nat.isValidChar]; omega), if_neg (by omega),
      if_neg (by omega), if_neg (by omega)]
    simp only [List.cons_append, List.nil_append, List.cons.injEq, and_true, ← UInt8.toNat_inj,
      UInt8.toNat_ofNat']
    omega

end Pending.Holds

theorem start_cases (b : UInt8) :
    (∃ c, start b = .inl (.char c) ∧ String.utf8EncodeChar c = [b]) ∨
      (∃ p : Pending, start b = .inr p ∧ p.Holds [b]) ∨ start b = .inl (.malformed 1) := by
  by_cases ascii : b.toNat < 128
  · refine .inl ⟨_, start_of_lt ascii, ?_⟩
    rw [utf8EncodeChar_ofNat (by simp only [Nat.isValidChar]; omega), if_pos (by omega),
      UInt8.ofNat_toNat]
  · have bound := b.toNat_lt
    rcases Nat.lt_or_ge b.toNat 194 with odd | least
    · exact .inr (.inr (start_malformed (.inl ⟨by omega, odd⟩)))
    · rcases Nat.lt_or_ge b.toNat 224 with below | least
      · exact .inr (.inl ⟨_, start_two least below, .two least below⟩)
      · rcases Nat.lt_or_ge b.toNat 240 with below | least
        · exact .inr (.inl ⟨_, start_three least below, .three least below⟩)
        · rcases Nat.lt_or_ge b.toNat 245 with below | least
          · exact .inr (.inl ⟨_, start_four least below, .four least below⟩)
          · exact .inr (.inr (start_malformed (.inr least)))

theorem itemsFrom_eq (pending : Option Pending) (acc : List Item) (bytes : Bytes) :
    itemsFrom pending acc bytes = acc.reverse ++ itemsFrom pending [] bytes := by
  induction bytes generalizing pending acc with
  | nil => cases pending <;> simp [itemsFrom]
  | cons b rest ih =>
    simp only [itemsFrom]
    rw [ih, ih _ ((next pending b).1.reverse ++ [])]
    simp

theorem itemsFrom_cons (pending : Option Pending) (b : UInt8) (rest : Bytes) :
    itemsFrom pending [] (b :: rest) =
      (next pending b).1 ++ itemsFrom (next pending b).2 [] rest := by
  simp only [itemsFrom, List.append_nil]
  rw [itemsFrom_eq _ (next pending b).1.reverse, List.reverse_reverse]

def Pending.Reads (pending : Option Pending) (read : Bytes) : Prop :=
  match pending with
  | none => read = []
  | some p => p.Holds read

theorem not_mem_map_char {item : Item} (odd : ∀ c, item ≠ .char c) (chars : List Char) :
    item ∉ chars.map Item.char := by
  intro member
  obtain ⟨c, -, same⟩ := List.mem_map.1 member
  exact odd c same.symm

theorem next_cases {pending : Option Pending} {read : Bytes} (reads : Pending.Reads pending read)
    (b : UInt8) :
    (∃ c, next pending b = ([.char c], none) ∧ String.utf8EncodeChar c = read ++ [b]) ∨
      (∃ p, next pending b = ([], some p) ∧ p.Holds (read ++ [b])) ∨
      ∃ size, .malformed size ∈ (next pending b).1 := by
  cases pending with
  | none =>
    obtain rfl : read = [] := reads
    rcases start_cases b with ⟨c, begins, code⟩ | ⟨p, begins, holds⟩ | odd
    · exact .inl ⟨c, by simp [next, begins], code⟩
    · exact .inr (.inl ⟨p, by simp [next, begins], holds⟩)
    · exact .inr (.inr ⟨1, by simp [next, odd]⟩)
  | some p =>
    have holds : p.Holds read := reads
    by_cases fits : p.low ≤ b ∧ b ≤ p.high
    · cases missing : p.missing with
      | zero => exact .inl ⟨_, next_last fits missing, holds.utf8EncodeChar missing fits⟩
      | succ n => exact .inr (.inl ⟨_, next_more fits missing, holds.more missing fits⟩)
    · refine .inr (.inr ⟨p.read, ?_⟩)
      simp [next, fits]

theorem flatMap_utf8EncodeChar_of_itemsFrom {pending : Option Pending} {read bytes : Bytes}
    (reads : Pending.Reads pending read) {chars : List Char}
    (all : itemsFrom pending [] bytes = chars.map .char) :
    chars.flatMap String.utf8EncodeChar = read ++ bytes := by
  induction bytes generalizing pending read chars with
  | nil =>
    cases pending with
    | none =>
      obtain rfl : chars = [] := by simpa [itemsFrom] using all.symm
      obtain rfl : read = [] := reads
      rfl
    | some p =>
      have truncated : Item.truncated ∈ itemsFrom (some p) [] [] := List.mem_singleton_self _
      rw [all] at truncated
      exact absurd truncated (not_mem_map_char (by simp) chars)
  | cons b rest ih =>
    rw [itemsFrom_cons] at all
    rcases next_cases reads b with ⟨c, step, code⟩ | ⟨p, step, holds⟩ | ⟨size, malformed⟩
    · rw [step] at all
      obtain ⟨d, others, rfl, same, all⟩ := List.map_eq_cons_iff.1 all.symm
      obtain rfl : d = c := by simpa using same
      have fresh : Pending.Reads none [] := rfl
      rw [List.flatMap_cons, code, ih fresh all.symm]
      simp
    · rw [step] at all
      have reads : Pending.Reads (some p) (read ++ [b]) := holds
      rw [ih reads all]
      simp
    · have member := all ▸ List.mem_append_left (itemsFrom (next pending b).2 [] rest) malformed
      exact absurd member (not_mem_map_char (by simp) chars)

section Steps

variable {p : Pending} {b : UInt8} {rest : Bytes}

theorem itemsFrom_start (begins : start b = .inr p) :
    itemsFrom none [] (b :: rest) = itemsFrom (some p) [] rest := by
  rw [itemsFrom_cons, next, begins]
  rfl

theorem itemsFrom_more {n : Nat} (fits : p.low ≤ b ∧ b ≤ p.high) (more : p.missing = n + 1) :
    itemsFrom (some p) [] (b :: rest) =
      itemsFrom (some ⟨p.read + 1, n, 0x80, 0xBF, p.bits * 64 + (b.toNat - 0x80)⟩) [] rest := by
  rw [itemsFrom_cons, next_more fits more]
  rfl

theorem itemsFrom_last {n : Nat} (fits : p.low ≤ b ∧ b ≤ p.high) (last : p.missing = 0)
    (value : p.bits * 64 + (b.toNat - 0x80) = n) :
    itemsFrom (some p) [] (b :: rest) = .char (Char.ofNat n) :: itemsFrom none [] rest := by
  rw [itemsFrom_cons, next_last fits last, value]
  rfl

end Steps

theorem itemsFrom_utf8EncodeChar (c : Char) (rest : Bytes) :
    itemsFrom none [] (String.utf8EncodeChar c ++ rest) = .char c :: itemsFrom none [] rest := by
  obtain ⟨n, valid, rfl⟩ : ∃ n : Nat, n.isValidChar ∧ c = Char.ofNat n :=
    ⟨c.toNat, c.valid, (Char.ofNat_toNat c).symm⟩
  simp only [Nat.isValidChar] at valid
  have byte {m : Nat} (small : m < 256) : (UInt8.ofNat m).toNat = m := by
    rw [UInt8.toNat_ofNat', Nat.mod_eq_of_lt small]
  -- One case for each length of a code. The bytes are told apart by their ranges.
  rw [utf8EncodeChar_ofNat valid]
  split
  · next ascii =>
    have first := byte (show n < 256 by omega)
    rw [List.singleton_append, itemsFrom_cons, next, start_of_lt (by omega), first]
    rfl
  have last := byte (show n % 64 + 128 < 256 by omega)
  split
  · have first := byte (show n / 64 % 32 + 192 < 256 by omega)
    simp only [List.cons_append, List.nil_append]
    rw [itemsFrom_start (start_two (by omega) (by omega)),
      itemsFrom_last (continues.2 (by omega)) rfl]
    dsimp only
    omega
  have before := byte (show n / 64 % 64 + 128 < 256 by omega)
  split
  · have first := byte (show n / 4096 % 16 + 224 < 256 by omega)
    simp only [List.cons_append, List.nil_append]
    rw [itemsFrom_start (start_three (by omega) (by omega)),
      itemsFrom_more (second_of_three.2 (by omega)) rfl,
      itemsFrom_last (continues.2 (by omega)) rfl]
    dsimp only
    omega
  · have first := byte (show n / 262144 % 8 + 240 < 256 by omega)
    have second := byte (show n / 4096 % 64 + 128 < 256 by omega)
    simp only [List.cons_append, List.nil_append]
    rw [itemsFrom_start (start_four (by omega) (by omega)),
      itemsFrom_more (second_of_four.2 (by omega)) rfl,
      itemsFrom_more (continues.2 (by omega)) rfl,
      itemsFrom_last (continues.2 (by omega)) rfl]
    dsimp only
    omega

theorem items_encode (text : String) : items (encode text) = text.toList.map .char := by
  rw [encode_eq, items]
  induction text.toList with
  | nil => rfl
  | cons c rest ih => rw [List.flatMap_cons, itemsFrom_utf8EncodeChar, ih, List.map_cons]

theorem items_eq_iff {bytes : Bytes} {text : String} :
    items bytes = text.toList.map .char ↔ encode text = bytes := by
  constructor
  · intro all
    have fresh : Pending.Reads none [] := rfl
    rw [encode_eq]
    exact flatMap_utf8EncodeChar_of_itemsFrom fresh all
  · rintro rfl
    exact items_encode text

theorem charsOf_eq_ok_iff {position : Nat} {acc chars : List Char} {items : List Item} :
    charsOf position acc items = .ok chars ↔
      ∃ more, items = more.map .char ∧ chars = acc.reverse ++ more := by
  induction items generalizing position acc with
  | nil => simp [charsOf, eq_comm]
  | cons item rest ih =>
    have refused (odd : ∀ c, item ≠ .char c) : ¬ ∃ more : List Char,
        item :: rest = more.map .char ∧ chars = acc.reverse ++ more := by
      rintro ⟨more, all, -⟩
      exact not_mem_map_char odd more (all ▸ List.mem_cons_self)
    cases item with
    | char c =>
      rw [charsOf, ih]
      constructor
      · rintro ⟨more, rfl, rfl⟩
        exact ⟨c :: more, rfl, by simp⟩
      · rintro ⟨more, all, rfl⟩
        obtain ⟨d, others, rfl, same, rfl⟩ := List.map_eq_cons_iff.1 all.symm
        obtain rfl : d = c := by simpa using same
        exact ⟨others, rfl, by simp⟩
    | malformed size => exact iff_of_false nofun (refused (by simp))
    | truncated => exact iff_of_false nofun (refused (by simp))

theorem decode_eq_ok_iff {bytes : Bytes} {text : String} :
    decode bytes = .ok text ↔ encode text = bytes := by
  rw [← items_eq_iff, decode]
  constructor
  · intro decoded
    cases chars : charsOf 0 [] (items bytes) with
    | error fault => simp [chars, Except.map] at decoded
    | ok found =>
      obtain ⟨found, all, rfl⟩ := charsOf_eq_ok_iff.1 chars
      obtain rfl : String.ofList found = text := by simpa [chars, Except.map] using decoded
      rw [all, String.toList_ofList]
  · intro all
    have chars : charsOf 0 [] (items bytes) = .ok text.toList :=
      charsOf_eq_ok_iff.2 ⟨text.toList, all, rfl⟩
    rw [chars, Except.map, String.ofList_toList]

theorem decodeLossy_encode (text : String) : decodeLossy (encode text) = text := by
  rw [decodeLossy, items_encode, List.map_map]
  have chars : (text.toList.map (Item.toChar ∘ Item.char)) = text.toList := List.map_id _
  rw [chars, String.ofList_toList]

end XmlSchema.Utf8
