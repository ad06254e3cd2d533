import Mathlib.Computability.Language
import XmlSchema.Proofs.Regex.Language

namespace XmlSchema.Regex.Expr

def isPlain : Expr → Bool
  | .empty | .chars _ => true
  | .anchor _ => false
  | .seq a b | .alt a b => a.isPlain && b.isPlain
  | .repeated a min max => a.isPlain && max.all (min ≤ ·)

def texts : Expr → Language Char
  | .empty | .anchor _ => 1
  | .chars s => {text | ∃ c, text = [c] ∧ s.mem c = true}
  | .seq a b => a.texts * b.texts
  | .alt a b => a.texts + b.texts
  | .repeated a min max => {text | ∃ k, min ≤ k ∧ (∀ m ∈ max, k ≤ m) ∧ text ∈ a.texts ^ k}

variable {e a b : Expr} {before after : Option Char} {text : List Char} {s t : CharSet}

theorem wellFormed_of_isPlain (plain : e.isPlain = true) : e.WellFormed := by
  induction e with
  | empty | chars | anchor => trivial
  | seq a b iha ihb | alt a b iha ihb =>
    obtain ⟨plain, plain'⟩ := (Bool.and_eq_true _ _).mp plain
    exact ⟨iha plain, ihb plain'⟩
  | repeated a min max ih =>
    obtain ⟨plain, few⟩ := (Bool.and_eq_true _ _).mp plain
    exact ⟨ih plain, fun m most => by simpa using (Option.all_eq_true _ _).1 few m most⟩

theorem rounds_iff_mem_pow {spans : Option Char → List Char → Option Char → Prop}
    {language : Language Char} (same : ∀ before text after, spans before text after ↔ text ∈ language)
    {k : Nat} : rounds spans k before text after ↔ text ∈ language ^ k := by
  induction k generalizing before text with
  | zero => rw [pow_zero, Language.mem_one, rounds]
  | succ k ih =>
    rw [pow_succ', Language.mem_mul]
    constructor
    · rintro ⟨first, rest, rfl, spanned, others⟩
      exact ⟨first, (same _ _ _).1 spanned, rest, ih.1 others, rfl⟩
    · rintro ⟨first, spanned, rest, others, rfl⟩
      exact ⟨first, rest, rfl, (same _ _ _).2 spanned, ih.2 others⟩

theorem spans_iff_mem_texts (plain : e.isPlain = true) :
    e.Spans before text after ↔ text ∈ e.texts := by
  induction e generalizing before text after with
  | empty => rfl
  | chars => rfl
  | anchor => cases plain
  | seq a b iha ihb =>
    obtain ⟨plain, plain'⟩ := (Bool.and_eq_true _ _).mp plain
    rw [texts, Language.mem_mul]
    constructor
    · rintro ⟨first, rest, rfl, left, right⟩
      exact ⟨first, (iha plain).1 left, rest, (ihb plain').1 right, rfl⟩
    · rintro ⟨first, left, rest, right, rfl⟩
      exact ⟨first, rest, rfl, (iha plain).2 left, (ihb plain').2 right⟩
  | alt a b iha ihb =>
    obtain ⟨plain, plain'⟩ := (Bool.and_eq_true _ _).mp plain
    rw [texts, Language.mem_add, Spans, iha plain, ihb plain']
  | repeated a min max ih =>
    obtain ⟨plain, -⟩ := (Bool.and_eq_true _ _).mp plain
    have same (before : Option Char) (text : List Char) (after : Option Char) :
        a.Spans before text after ↔ text ∈ a.texts := ih plain
    simp only [Spans, rounds_iff_mem_pow same]
    rfl

theorem matchesWhole_iff_mem_texts (plain : e.isPlain = true) :
    e.matchesWhole text = true ↔ text ∈ e.texts := by
  rw [matchesWhole_iff (wellFormed_of_isPlain plain), spans_iff_mem_texts plain]

theorem mem_texts_chars : text ∈ (chars s).texts ↔ ∃ c, text = [c] ∧ s.mem c = true := Iff.rfl

theorem mem_texts_seq :
    text ∈ (seq a b).texts ↔ ∃ first ∈ a.texts, ∃ rest ∈ b.texts, first ++ rest = text :=
  Language.mem_mul

theorem mem_texts_alt : text ∈ (alt a b).texts ↔ text ∈ a.texts ∨ text ∈ b.texts :=
  Language.mem_add _ _ _

theorem mem_texts_pair : text ∈ (seq (.chars s) (.chars t)).texts ↔
    ∃ c d, text = [c, d] ∧ s.mem c = true ∧ t.mem d = true := by
  rw [mem_texts_seq]
  constructor
  · rintro ⟨_, ⟨c, rfl, first⟩, _, ⟨d, rfl, second⟩, rfl⟩
    exact ⟨c, d, rfl, first, second⟩
  · rintro ⟨c, d, rfl, first, second⟩
    exact ⟨[c], ⟨c, rfl, first⟩, [d], ⟨d, rfl, second⟩, rfl⟩

theorem mem_texts_optional (plain : e.isPlain = true) :
    text ∈ e.optional.texts ↔ text = [] ∨ text ∈ e.texts := by
  have whole : e.optional.isPlain = true := by simp [optional, isPlain, plain]
  rw [← @spans_iff_mem_texts _ none none _ whole, spans_optional, spans_iff_mem_texts plain]

theorem texts_sequence (es : List Expr) : (sequence es).texts = (es.map texts).prod := by
  induction es with
  | nil => rfl
  | cons e es ih =>
    cases es with
    | nil => simp [sequence]
    | cons e' es =>
      rw [List.map_cons, List.prod_cons, ← ih]
      rfl

theorem texts_literal (text : String) : (literal text).texts = {text.toList} := by
  rw [literal, texts_sequence, List.map_map]
  induction text.toList with
  | nil => rfl
  | cons c letters ih =>
    rw [List.map_cons, List.prod_cons, ih]
    ext other
    rw [Language.mem_mul]
    constructor
    · rintro ⟨_, ⟨d, rfl, same⟩, _, rfl, rfl⟩
      rw [CharSet.mem_singleton_iff.1 same]
      rfl
    · rintro rfl
      exact ⟨[c], ⟨c, rfl, CharSet.mem_singleton_iff.2 rfl⟩, letters, rfl, rfl⟩

theorem mem_texts_literal {word : String} : text ∈ (literal word).texts ↔ text = word.toList := by
  rw [texts_literal]
  rfl

theorem mem_pow_texts_chars {k : Nat} :
    text ∈ (chars s).texts ^ k ↔ text.length = k ∧ ∀ c ∈ text, s.mem c = true := by
  have same (before : Option Char) (text : List Char) (after : Option Char) :
      (chars s).Spans before text after ↔ text ∈ (chars s).texts := Iff.rfl
  rw [← @rounds_iff_mem_pow none none _ _ _ same, rounds_chars]

theorem mem_texts_times_chars {n : Nat} :
    text ∈ (times (.chars s) n).texts ↔ text.length = n ∧ ∀ c ∈ text, s.mem c = true := by
  rw [← mem_pow_texts_chars]
  constructor
  · rintro ⟨k, enough, few, member⟩
    rwa [Nat.le_antisymm enough (few n rfl)]
  · intro member
    exact ⟨n, Nat.le_refl n, fun m most => Nat.le_of_eq (Option.some.inj most), member⟩

theorem mem_texts_repeated_chars {min : Nat} :
    text ∈ (repeated (.chars s) min none).texts ↔
      min ≤ text.length ∧ ∀ c ∈ text, s.mem c = true := by
  have plain : (repeated (.chars s) min none).isPlain = true := rfl
  rw [← @spans_iff_mem_texts _ none none _ plain, spans_repeated_chars]

theorem mem_texts_chars_star : text ∈ (seq (.chars s) (star (.chars t))).texts ↔
    ∃ c rest, text = c :: rest ∧ s.mem c = true ∧ ∀ d ∈ rest, t.mem d = true := by
  rw [mem_texts_seq]
  constructor
  · rintro ⟨_, ⟨c, rfl, first⟩, rest, others, rfl⟩
    exact ⟨c, rest, rfl, first, (mem_texts_repeated_chars.1 others).2⟩
  · rintro ⟨c, rest, rfl, first, others⟩
    exact ⟨[c], ⟨c, rfl, first⟩, rest, mem_texts_repeated_chars.2 ⟨Nat.zero_le _, others⟩, rfl⟩

theorem mem_texts_star_times {n : Nat} :
    text ∈ (star (times (.chars s) n)).texts ↔ n ∣ text.length ∧ ∀ c ∈ text, s.mem c = true := by
  have groups (k : Nat) (text : List Char) : text ∈ (times (.chars s) n).texts ^ k ↔
      text.length = n * k ∧ ∀ c ∈ text, s.mem c = true := by
    have power : (times (.chars s) n).texts = (chars s).texts ^ n := by
      ext text
      rw [mem_texts_times_chars, mem_pow_texts_chars]
    rw [power, ← pow_mul, mem_pow_texts_chars]
  constructor
  · rintro ⟨k, -, -, member⟩
    obtain ⟨size, members⟩ := (groups k text).1 member
    exact ⟨⟨k, size⟩, members⟩
  · rintro ⟨⟨k, size⟩, members⟩
    exact ⟨k, k.zero_le, fun m most => absurd most (Option.not_mem_none m),
      (groups k text).2 ⟨size, members⟩⟩

end XmlSchema.Regex.Expr
