import XmlSchema.Proofs.Datatype.WhiteSpace
import XmlSchema.Proofs.Text.Decoding
import XmlSchema.Text.Basic

namespace XmlSchema

inductive Replaced {α : Type} (a : α) (block : List α) : List α → List α → Prop
  | nil : Replaced a block [] []
  | keep (b : α) {xs ys : List α} (later : Replaced a block xs ys) :
      Replaced a block (b :: xs) (b :: ys)
  | replace {xs ys : List α} (later : Replaced a block xs ys) :
      Replaced a block (a :: xs) (block ++ ys)

namespace Replaced

variable {α β : Type} {a : α} {block xs ys xs' ys' : List α}

theorem refl (xs : List α) : Replaced a block xs xs := by
  induction xs with
  | nil => exact .nil
  | cons b xs ih => exact ih.keep b

theorem append (first : Replaced a block xs ys) (second : Replaced a block xs' ys') :
    Replaced a block (xs ++ xs') (ys ++ ys') := by
  induction first with
  | nil => exact second
  | keep b _ ih => exact ih.keep b
  | replace _ ih =>
    rw [List.append_assoc]
    exact ih.replace

theorem one : Replaced a block [a] block := by
  simpa using Replaced.replace (Replaced.nil : Replaced a block [] [])

theorem reverse (replaced : Replaced a block xs ys) :
    Replaced a block.reverse xs.reverse ys.reverse := by
  induction replaced with
  | nil => exact .nil
  | keep b _ ih =>
    rw [List.reverse_cons, List.reverse_cons]
    exact ih.append (.refl _)
  | replace _ ih =>
    rw [List.reverse_cons, List.reverse_append]
    exact ih.append .one

theorem map (f : α → β) (replaced : Replaced a block xs ys) :
    Replaced (f a) (block.map f) (xs.map f) (ys.map f) := by
  induction replaced with
  | nil => exact .nil
  | keep b _ ih => exact ih.keep (f b)
  | replace _ ih =>
    rw [List.map_cons, List.map_append]
    exact ih.replace

theorem cons_iff {b : α} {zs : List α} : Replaced a block (b :: xs) zs ↔
    ∃ ys, Replaced a block xs ys ∧ (zs = b :: ys ∨ b = a ∧ zs = block ++ ys) := by
  constructor
  · rintro (_ | ⟨_, later⟩ | later)
    · exact ⟨_, later, .inl rfl⟩
    · exact ⟨_, later, .inr ⟨rfl, rfl⟩⟩
  · rintro ⟨ys, later, rfl | ⟨rfl, rfl⟩⟩
    · exact later.keep b
    · exact later.replace

theorem nil_iff : Replaced a block [] ys ↔ ys = [] := by
  constructor
  · rintro ⟨⟩
    rfl
  · rintro rfl
    exact .nil

theorem eq_nil {b : α} (replaced : Replaced a (b :: block) xs []) : xs = [] := by
  cases replaced
  rfl

theorem of_append {zs : List α} (replaced : Replaced a block (xs ++ xs') zs) :
    ∃ ys ys', zs = ys ++ ys' ∧ Replaced a block xs ys ∧ Replaced a block xs' ys' := by
  induction xs generalizing zs with
  | nil => exact ⟨[], zs, rfl, .nil, replaced⟩
  | cons b xs ih =>
    obtain ⟨_, later, same⟩ := cons_iff.1 replaced
    obtain ⟨ys, ys', rfl, first, second⟩ := ih later
    rcases same with rfl | ⟨rfl, rfl⟩
    · exact ⟨b :: ys, ys', rfl, first.keep b, second⟩
    · exact ⟨block ++ ys, ys', (List.append_assoc ..).symm, first.replace, second⟩

theorem eq_of_not_mem (absent : a ∉ xs) (replaced : Replaced a block xs ys) : ys = xs := by
  induction replaced with
  | nil => rfl
  | keep b _ ih => rw [ih fun member => absent (List.mem_cons_of_mem b member)]
  | replace => exact absurd List.mem_cons_self absent

theorem of_map {f : α → β} (injective : Function.Injective f) {zs : List β}
    (replaced : Replaced (f a) (block.map f) (xs.map f) zs) :
    ∃ ys, zs = ys.map f ∧ Replaced a block xs ys := by
  induction xs generalizing zs with
  | nil => exact ⟨[], nil_iff.1 replaced, .nil⟩
  | cons b xs ih =>
    obtain ⟨zs, later, same⟩ := cons_iff.1 replaced
    obtain ⟨ys, rfl, last⟩ := ih later
    rcases same with rfl | ⟨same, rfl⟩
    · exact ⟨b :: ys, rfl, last.keep b⟩
    · obtain rfl := injective same
      exact ⟨block ++ ys, List.map_append.symm, last.replace⟩

theorem all_eq {p : α → Bool} (replaced : Replaced a block xs ys) (here : p a = true)
    (there : block.all p = true) : ys.all p = xs.all p := by
  induction replaced with
  | nil => rfl
  | keep b _ ih => rw [List.all_cons, List.all_cons, ih]
  | replace _ ih => rw [List.all_append, List.all_cons, there, here, ih]

theorem dropWhile {p : α → Bool} (replaced : Replaced a block xs ys) (here : p a = true)
    (there : block.all p = true) :
    Replaced a block (xs.dropWhile p) (ys.dropWhile p) := by
  induction replaced with
  | nil => exact .nil
  | keep b later ih =>
    cases holds : p b with
    | true => simpa [List.dropWhile_cons, holds] using ih
    | false => simpa [List.dropWhile_cons, holds] using later.keep b
  | replace _ ih =>
    rw [List.dropWhile_append_of_pos (List.all_eq_true.1 there), List.dropWhile_cons, if_pos here]
    exact ih

theorem isPrefixOf_eq [BEq α] [LawfulBEq α] {word : List α} {first : α}
    (replaced : Replaced a (first :: block) xs ys) (absent : a ∉ word) (absent' : first ∉ word) :
    word.isPrefixOf ys = word.isPrefixOf xs := by
  induction word generalizing xs ys with
  | nil => rfl
  | cons c word ih =>
    rw [List.mem_cons, not_or] at absent absent'
    cases replaced with
    | nil => rfl
    | keep b later => rw [List.isPrefixOf, List.isPrefixOf, ih later absent.2 absent'.2]
    | replace later =>
      -- Neither of the two starts is the first letter of the word.
      have other : (c == a) = false := beq_false_of_ne (Ne.symm absent.1)
      have other' : (c == first) = false := beq_false_of_ne (Ne.symm absent'.1)
      simp [List.isPrefixOf, other, other']

end Replaced

namespace Text

/-- A text is another one with a carriage return in front of some of the line feeds. -/
def Rebroken (text text' : String) : Prop := Replaced '\n' ['\r', '\n'] text.toList text'.toList

variable {text text' more more' : String}

namespace Rebroken

theorem refl (text : String) : Rebroken text text := Replaced.refl _

theorem append (rebroken : Rebroken text text') (rebroken' : Rebroken more more') :
    Rebroken (text ++ more) (text' ++ more') := by
  unfold Rebroken
  rw [String.toList_append, String.toList_append]
  exact Replaced.append rebroken rebroken'

theorem eq_empty_iff (rebroken : Rebroken text text') : text' = "" ↔ text = "" := by
  unfold Rebroken at rebroken
  rw [← String.toList_inj, ← String.toList_inj]
  cases first : text.toList with
  | nil =>
    rw [first, Replaced.nil_iff] at rebroken
    simp [rebroken]
  | cons c rest =>
    rw [first] at rebroken
    obtain ⟨ys, -, same | ⟨-, same⟩⟩ := Replaced.cons_iff.1 rebroken <;> simp [same]

theorem trim (rebroken : Rebroken text text') : Rebroken (trim text) (Text.trim text') := by
  have here : Unicode.isWhiteSpace '\n' = true := by decide
  have there : ['\r', '\n'].all Unicode.isWhiteSpace = true := by decide
  have there' : ['\r', '\n'].reverse.all Unicode.isWhiteSpace = true := by decide
  have trimmed := ((Replaced.dropWhile rebroken here there).reverse.dropWhile here there').reverse
  simpa [Rebroken, Text.trim, trimChars] using trimmed

end Rebroken

theorem words_eq {xs ys : List Char} (replaced : Replaced '\n' ['\r', '\n'] xs ys) :
    Datatype.words ys = Datatype.words xs := by
  induction replaced with
  | nil => rfl
  | replace _ ih =>
    simp only [List.cons_append, List.nil_append]
    rw [Datatype.words_cons_of_blank (by rfl), Datatype.words_cons_of_blank (by rfl),
      Datatype.words_cons_of_blank (by rfl), ih]
  | @keep c xs ys later ih =>
    cases blank : Datatype.isBlank c with
    | true => rw [Datatype.words_cons_of_blank blank, Datatype.words_cons_of_blank blank, ih]
    | false =>
      cases xs with
      | nil => rw [Replaced.nil_iff.1 later]
      | cons d xs =>
        -- What follows the letter is blank in both texts or in neither.
        obtain ⟨e, rest, rfl, same⟩ : ∃ e rest, ys = e :: rest ∧
            Datatype.isBlank e = Datatype.isBlank d := by
          obtain ⟨rest, -, rfl | ⟨rfl, rfl⟩⟩ := Replaced.cons_iff.1 later
          · exact ⟨_, _, rfl, rfl⟩
          · exact ⟨_, _, rfl, rfl⟩
        simp only [Datatype.words, blank, same, ih]

namespace Rebroken

theorem collapse_eq (rebroken : Rebroken text text') :
    Datatype.WhiteSpace.collapse.apply text' = Datatype.WhiteSpace.collapse.apply text := by
  simp only [Datatype.WhiteSpace.apply, Datatype.tokens, words_eq rebroken]

end Rebroken

end Text

namespace Utf8

/-- Bytes are other ones with a carriage return in front of some of the line feeds. -/
def Rebroken (bytes bytes' : Bytes) : Prop := Replaced 0x0A [0x0D, 0x0A] bytes bytes'

def AboveAscii (pending : Option Pending) : Prop := ∀ p ∈ pending, 0x80 ≤ p.low.toNat

theorem aboveAscii_none : AboveAscii none := fun _ none => nomatch none

theorem low_of_start {b : UInt8} {p : Pending} (begins : start b = .inr p) :
    0x80 ≤ p.low.toNat := by
  unfold start at begins
  repeat' split at begins
  all_goals cases begins
  all_goals
    dsimp only
    decide

theorem aboveAscii_next (pending : Option Pending) (b : UInt8) :
    AboveAscii (next pending b).2 := by
  have fresh : AboveAscii (next none b).2 := by
    unfold next
    cases begins : start b with
    | inl item => exact aboveAscii_none
    | inr p =>
      rintro _ ⟨⟩
      exact low_of_start begins
  unfold next
  cases pending with
  | none => exact fresh
  | some p =>
    dsimp only
    split
    · split
      · exact aboveAscii_none
      · rintro _ ⟨⟩
        exact Nat.le_refl 128
    · exact fresh

theorem next_ascii {pending : Option Pending} (above : AboveAscii pending) :
    ∃ items, ∀ b : UInt8, b.toNat < 0x80 →
      next pending b = (items ++ [.char (Char.ofNat b.toNat)], none) := by
  cases pending with
  | none =>
    refine ⟨[], fun b ascii => ?_⟩
    simp [next, start_of_lt ascii]
  | some p =>
    refine ⟨[.malformed p.read], fun b ascii => ?_⟩
    have low : 0x80 ≤ p.low.toNat := above p rfl
    have refused : ¬ (p.low ≤ b ∧ b ≤ p.high) := by
      rw [UInt8.le_iff_toNat_le]
      omega
    simp [next, start_of_lt ascii, refused]

theorem itemsFrom_rebroken {bytes bytes' : Bytes} (rebroken : Rebroken bytes bytes')
    {pending : Option Pending} (above : AboveAscii pending) :
    Replaced (.char '\n') [.char '\r', .char '\n'] (itemsFrom pending [] bytes)
      (itemsFrom pending [] bytes') := by
  induction rebroken generalizing pending with
  | nil => exact .refl _
  | keep b _ ih =>
    rw [itemsFrom_cons, itemsFrom_cons]
    exact (Replaced.refl _).append (ih (aboveAscii_next pending b))
  | replace _ ih =>
    obtain ⟨items, ended⟩ := next_ascii above
    simp only [List.cons_append, List.nil_append, itemsFrom_cons, ended 0x0A (by decide),
      ended 0x0D (by decide)]
    have fed : next none 0x0A = ([.char '\n'], none) := rfl
    rw [fed, List.append_assoc, List.append_assoc]
    exact (Replaced.refl items).append (ih aboveAscii_none).replace

theorem items_rebroken {bytes bytes' : Bytes} (rebroken : Rebroken bytes bytes') :
    Replaced (.char '\n') [.char '\r', .char '\n'] (items bytes) (items bytes') :=
  itemsFrom_rebroken rebroken aboveAscii_none

theorem decodeLossy_rebroken {bytes bytes' : Bytes} (rebroken : Rebroken bytes bytes') :
    Text.Rebroken (decodeLossy bytes) (decodeLossy bytes') := by
  unfold Text.Rebroken decodeLossy
  rw [String.toList_ofList, String.toList_ofList]
  exact (items_rebroken rebroken).map Item.toChar

theorem decode_rebroken {bytes bytes' : Bytes} (rebroken : Rebroken bytes bytes') {text : String}
    (decoded : decode bytes = .ok text) :
    ∃ text', decode bytes' = .ok text' ∧ Text.Rebroken text text' := by
  have injective : Function.Injective Item.char := fun _ _ => Item.char.inj
  have ofChars : Replaced (.char '\n') (['\r', '\n'].map .char) (text.toList.map .char)
      (items bytes') := by
    rw [← items_eq_iff.2 (decode_eq_ok_iff.1 decoded)]
    exact items_rebroken rebroken
  obtain ⟨chars, all, replaced⟩ := Replaced.of_map injective ofChars
  refine ⟨String.ofList chars, decode_eq_ok_iff.2 (items_eq_iff.1 ?_), ?_⟩
  · rw [all, String.toList_ofList]
  · unfold Text.Rebroken
    rwa [String.toList_ofList]

end Utf8

end XmlSchema
