import XmlSchema.Regex.Basic

/-!
# What regular expressions match

An expression spans a text between two characters: an anchor looks at these, and each of two
expressions in a row sees the first or the last character of the text of the other one. Matching by
derivatives decides this relation (`spans_nil`, `spans_cons`), so that `finds` tells whether there is
a part of a text that an expression spans (`finds_iff`).

Rounds of a repetition that match the empty text are not counted one by one, which is right only if
no repetition asks for more rounds than it allows.
-/

namespace XmlSchema.Regex

/-! ## The characters around a text -/

def nextOf (text : List Char) (after : Option Char) : Option Char := text.head?.or after

def lastOf (before : Option Char) : List Char → Option Char
  | [] => before
  | c :: rest => lastOf (some c) rest

@[simp] theorem nextOf_nil (after : Option Char) : nextOf [] after = after := rfl

@[simp] theorem nextOf_cons (c : Char) (rest : List Char) (after : Option Char) :
    nextOf (c :: rest) after = some c := rfl

@[simp] theorem nextOf_none (text : List Char) : nextOf text none = text.head? := by
  cases text <;> rfl

@[simp] theorem lastOf_nil (before : Option Char) : lastOf before [] = before := rfl

@[simp] theorem lastOf_cons (before : Option Char) (c : Char) (rest : List Char) :
    lastOf before (c :: rest) = lastOf (some c) rest := rfl

theorem isSome_lastOf (c : Char) (rest : List Char) : (lastOf (some c) rest).isSome = true := by
  induction rest generalizing c with
  | nil => rfl
  | cons d rest ih => exact ih d

theorem lastOf_eq_none {text : List Char} : lastOf none text = none ↔ text = [] := by
  cases text with
  | nil => simp
  | cons c rest =>
    have known := isSome_lastOf c rest
    constructor
    · intro missing
      rw [lastOf_cons] at missing
      rw [missing] at known
      cases known
    · intro nothing
      cases nothing

theorem CharSet.mem_singleton_iff {c d : Char} : (CharSet.singleton c).mem d = true ↔ d = c := by
  rw [CharSet.singleton, CharSet.mem, Bool.and_eq_true, decide_eq_true_eq, decide_eq_true_eq,
    ← Char.toNat_inj]
  omega

namespace Expr

/-! ## The texts that an expression spans -/

def rounds (spans : Option Char → List Char → Option Char → Prop) :
    Nat → Option Char → List Char → Option Char → Prop
  | 0, _, text, _ => text = []
  | k + 1, before, text, after => ∃ first rest, text = first ++ rest ∧
      spans before first (nextOf rest after) ∧ rounds spans k (lastOf before first) rest after

def Spans : Expr → Option Char → List Char → Option Char → Prop
  | .empty, _, text, _ => text = []
  | .chars s, _, text, _ => ∃ c, text = [c] ∧ s.mem c = true
  | .anchor a, before, text, after => text = [] ∧ a.holds before after = true
  | .seq a b, before, text, after => ∃ first rest, text = first ++ rest ∧
      a.Spans before first (nextOf rest after) ∧ b.Spans (lastOf before first) rest after
  | .alt a b, before, text, after => a.Spans before text after ∨ b.Spans before text after
  | .repeated a min max, before, text, after =>
    ∃ k, min ≤ k ∧ (∀ m ∈ max, k ≤ m) ∧ rounds a.Spans k before text after

def WellFormed : Expr → Prop
  | .empty | .chars _ | .anchor _ => True
  | .seq a b | .alt a b => a.WellFormed ∧ b.WellFormed
  | .repeated a min max => a.WellFormed ∧ ∀ m ∈ max, min ≤ m

attribute [local simp] Spans WellFormed matchesEmpty derivatives

section Rounds

variable {spans : Option Char → List Char → Option Char → Prop} {before after : Option Char}
  {c : Char} {k : Nat} {text : List Char}

theorem nil_of_rounds (some : rounds spans (k + 1) before [] after) : spans before [] after := by
  obtain ⟨first, rest, split, spanned, _⟩ := some
  obtain ⟨rfl, rfl⟩ := List.append_eq_nil_iff.1 split.symm
  exact spanned

theorem rounds_of_nil (empty : spans before [] after) : rounds spans k before [] after := by
  induction k with
  | zero => rfl
  | succ k ih => exact ⟨[], [], rfl, empty, ih⟩

theorem rounds_pad (empty : spans before [] (nextOf text after))
    (others : rounds spans k before text after) (more : Nat) :
    rounds spans (k + more) before text after := by
  induction more with
  | zero => exact others
  | succ more ih => exact ⟨[], text, rfl, empty, ih⟩

theorem rounds_cons (reads : rounds spans k before (c :: text) after) :
    ∃ skipped first rest, skipped < k ∧ (0 < skipped → spans before [] (some c)) ∧
      text = first ++ rest ∧ spans before (c :: first) (nextOf rest after) ∧
      rounds spans (k - skipped - 1) (lastOf (some c) first) rest after := by
  induction k with
  | zero => cases reads
  | succ k ih =>
    obtain ⟨first, rest, split, spanned, others⟩ := reads
    cases first with
    | nil =>
      rw [List.nil_append] at split
      subst split
      obtain ⟨skipped, first, rest, few, empty, split, spanned, others⟩ := ih others
      have fewer : k + 1 - (skipped + 1) - 1 = k - skipped - 1 := by omega
      exact ⟨skipped + 1, first, rest, Nat.succ_lt_succ few, fun _ => by assumption, split, spanned,
        fewer ▸ others⟩
    | cons d first =>
      obtain ⟨rfl, rfl⟩ := List.cons.inj split
      exact ⟨0, first, rest, Nat.succ_pos _, fun none => absurd none (Nat.lt_irrefl _), rfl, spanned,
        others⟩

end Rounds

/-! ## Derivatives -/

variable {before after : Option Char} {c : Char} {text : List Char} {a b e : Expr}

theorem spans_followedBy :
    (a.followedBy b).Spans before text after ↔ (seq a b).Spans before text after := by
  cases a with
  | empty =>
    constructor
    · intro spanned
      exact ⟨[], text, rfl, rfl, spanned⟩
    · rintro ⟨first, rest, rfl, rfl, spanned⟩
      exact spanned
  | chars | anchor | seq | alt | repeated => exact Iff.rfl

theorem wellFormed_followedBy (wfa : a.WellFormed) (wfb : b.WellFormed) :
    (a.followedBy b).WellFormed := by
  cases a with
  | empty => exact wfb
  | chars | anchor | seq | alt | repeated => exact ⟨wfa, wfb⟩

theorem spans_nil (wf : e.WellFormed) :
    e.Spans before [] after ↔ e.matchesEmpty before after = true := by
  induction e generalizing before after with
  | empty => simp
  | chars s => simp
  | anchor a => simp
  | seq a b iha ihb =>
    rw [matchesEmpty, Bool.and_eq_true, ← iha wf.1, ← ihb wf.2]
    constructor
    · rintro ⟨first, rest, split, left, right⟩
      obtain ⟨rfl, rfl⟩ := List.append_eq_nil_iff.1 split.symm
      exact ⟨left, right⟩
    · rintro ⟨left, right⟩
      exact ⟨[], [], rfl, left, right⟩
  | alt a b iha ihb => rw [matchesEmpty, Bool.or_eq_true, ← iha wf.1, ← ihb wf.2, Spans]
  | repeated a min max ih =>
    rw [matchesEmpty, Bool.or_eq_true, beq_iff_eq, ← ih wf.1]
    constructor
    · rintro ⟨k, enough, _, reads⟩
      cases k with
      | zero => exact .inl (Nat.le_zero.1 enough)
      | succ k => exact .inr (nil_of_rounds reads)
    · rintro (rfl | empty)
      · exact ⟨0, Nat.le_refl 0, fun _ _ => Nat.zero_le _, rfl⟩
      · exact ⟨min, Nat.le_refl min, wf.2, rounds_of_nil empty⟩

theorem wellFormed_of_mem_derivatives (wf : e.WellFormed) {d : Expr}
    (member : d ∈ e.derivatives before c) : d.WellFormed := by
  induction e generalizing d with
  | empty | anchor => cases member
  | chars s =>
    simp only [derivatives] at member
    split at member
    · cases List.mem_singleton.1 member
      trivial
    · cases member
  | seq a b iha ihb =>
    rw [derivatives, List.mem_append, List.mem_map] at member
    rcases member with ⟨remains, among, rfl⟩ | skipped
    · exact wellFormed_followedBy (iha wf.1 among) wf.2
    · split at skipped
      · exact ihb wf.2 skipped
      · cases skipped
  | alt a b iha ihb =>
    rw [derivatives, List.mem_append] at member
    exact member.elim (iha wf.1) (ihb wf.2)
  | repeated a min max ih =>
    rw [derivatives] at member
    split at member
    · cases member
    · simp only [List.mem_map] at member
      obtain ⟨remains, among, rfl⟩ := member
      refine wellFormed_followedBy (ih wf.1 among) ⟨wf.1, ?_⟩
      intro m bound
      obtain ⟨most, known, rfl⟩ := Option.map_eq_some_iff.1 bound
      have few : min ≤ most := wf.2 most known
      split <;> omega

/-- A character is read by an expression exactly if what follows it is spanned by a derivative. -/
def ReadsBy (e : Expr) (before : Option Char) (c : Char) : Prop :=
  ∀ text after, e.Spans before (c :: text) after ↔
    ∃ d ∈ e.derivatives before c, d.Spans (some c) text after

theorem readsBy_chars (s : CharSet) : (chars s).ReadsBy before c := by
  intro text after
  simp only [Spans, derivatives]
  constructor
  · rintro ⟨d, same, member⟩
    obtain ⟨rfl, rfl⟩ := List.cons.inj same
    exact ⟨.empty, by simp [member], rfl⟩
  · rintro ⟨d, among, spanned⟩
    split at among
    · next member =>
      cases List.mem_singleton.1 among
      cases spanned
      exact ⟨c, rfl, member⟩
    · cases among

theorem ReadsBy.alt (reads : a.ReadsBy before c) (other : b.ReadsBy before c) :
    (alt a b).ReadsBy before c := by
  intro text after
  rw [Spans, reads, other, derivatives]
  simp only [List.mem_append, or_and_right, exists_or]

theorem ReadsBy.seq (wf : a.WellFormed) (reads : a.ReadsBy before c) (other : b.ReadsBy before c) :
    (seq a b).ReadsBy before c := by
  intro text after
  rw [derivatives]
  simp only [List.mem_append, List.mem_map]
  constructor
  · rintro ⟨first, rest, split, left, right⟩
    cases first with
    | nil =>
      rw [List.nil_append] at split
      subst split
      have empty := (spans_nil wf).1 left
      obtain ⟨d, among, spanned⟩ := (other _ _).1 right
      exact ⟨d, .inr (by rw [nextOf_cons] at empty; simpa [empty] using among), spanned⟩
    | cons d first =>
      obtain ⟨rfl, rfl⟩ := List.cons.inj split
      obtain ⟨remains, among, spanned⟩ := (reads _ _).1 left
      exact ⟨_, .inl ⟨remains, among, rfl⟩, spans_followedBy.2 ⟨first, rest, rfl, spanned, right⟩⟩
  · rintro ⟨d, ⟨remains, among, rfl⟩ | skipped, spanned⟩
    · obtain ⟨first, rest, rfl, left, right⟩ := spans_followedBy.1 spanned
      exact ⟨c :: first, rest, rfl, (reads _ _).2 ⟨remains, among, left⟩, right⟩
    · split at skipped
      · next empty =>
        have left : a.Spans before [] (some c) := (spans_nil wf).2 empty
        exact ⟨[], c :: text, rfl, left, (other _ _).2 ⟨d, skipped, spanned⟩⟩
      · cases skipped

section Repeated

variable {min : Nat} {max : Option Nat} (wf : a.WellFormed) (reads : a.ReadsBy before c)

include wf reads

theorem exists_derivative_of_repeated {after : Option Char}
    (spanned : (repeated a min max).Spans before (c :: text) after) :
    ∃ d ∈ (repeated a min max).derivatives before c, d.Spans (some c) text after := by
  obtain ⟨k, enough, few, rounded⟩ := spanned
  obtain ⟨skipped, first, rest, fewer, empty, rfl, spanned, others⟩ := rounds_cons rounded
  obtain ⟨remains, among, left⟩ := (reads _ _).1 spanned
  have allowed : (max == some 0) = false := by
    rw [beq_eq_false_iff_ne]
    rintro rfl
    have := few 0 rfl
    omega
  rw [derivatives, allowed, if_neg (by decide)]
  refine ⟨_, List.mem_map.2 ⟨remains, among, rfl⟩,
    spans_followedBy.2 ⟨first, rest, rfl, left, k - skipped - 1, ?_, ?_, others⟩⟩
  · split
    · exact Nat.zero_le _
    · next reading =>
      -- An expression that does not match the empty text skips no round.
      have none : skipped = 0 := by
        refine Nat.eq_zero_of_not_pos fun some => reading ?_
        exact (spans_nil wf).1 (empty some)
      omega
  · intro m bound
    obtain ⟨most, known, rfl⟩ := Option.map_eq_some_iff.1 bound
    have := few most known
    omega

theorem repeated_of_derivative {after : Option Char} {d : Expr} (bounds : ∀ m ∈ max, min ≤ m)
    (among : d ∈ (repeated a min max).derivatives before c) (spanned : d.Spans (some c) text after) :
    (repeated a min max).Spans before (c :: text) after := by
  rw [derivatives] at among
  split at among
  · cases among
  · next allowed =>
    obtain ⟨remains, member, rfl⟩ := List.mem_map.1 among
    obtain ⟨first, rest, rfl, left, k, enough, few, others⟩ := spans_followedBy.1 spanned
    have round := (reads _ _).2 ⟨remains, member, left⟩
    have more : rounds a.Spans (k + 1) before (c :: (first ++ rest)) after :=
      ⟨c :: first, rest, rfl, round, others⟩
    have fewer : ∀ m ∈ max, k + 1 ≤ m := by
      intro m bound
      have positive : m ≠ 0 := by
        rintro rfl
        exact allowed (by rw [bound]; rfl)
      have := few (m - 1) (by rw [bound]; rfl)
      omega
    split at enough
    · next empty =>
      -- Rounds that match the empty text make up for those that are missing.
      have padded := rounds_pad ((spans_nil wf).2 empty) more (min - (k + 1))
      refine ⟨_, by omega, fun m bound => ?_, padded⟩
      have := fewer m bound
      have : min ≤ m := bounds m bound
      omega
    · exact ⟨k + 1, by omega, fewer, more⟩

end Repeated

theorem readsBy (wf : e.WellFormed) : e.ReadsBy before c := by
  induction e with
  | empty | anchor => exact fun _ _ => by simp
  | chars s => exact readsBy_chars s
  | seq a b iha ihb => exact (iha wf.1).seq wf.1 (ihb wf.2)
  | alt a b iha ihb => exact (iha wf.1).alt (ihb wf.2)
  | repeated a min max ih =>
    exact fun _ _ => ⟨exists_derivative_of_repeated wf.1 (ih wf.1),
      fun ⟨_, among, spanned⟩ => repeated_of_derivative wf.1 (ih wf.1) wf.2 among spanned⟩

theorem spans_cons (wf : e.WellFormed) : e.Spans before (c :: text) after ↔
    ∃ d ∈ e.derivatives before c, d.Spans (some c) text after :=
  readsBy wf text after

/-! ## Repetitions -/

theorem rounds_chars {s : CharSet} {k : Nat} :
    rounds (chars s).Spans k before text after ↔
      text.length = k ∧ ∀ c ∈ text, s.mem c = true := by
  induction k generalizing before text with
  | zero =>
    rw [rounds, List.length_eq_zero_iff]
    exact ⟨fun none => ⟨none, by simp [none]⟩, And.left⟩
  | succ k ih =>
    constructor
    · rintro ⟨_, rest, rfl, ⟨c, rfl, member⟩, others⟩
      obtain ⟨rfl, members⟩ := ih.1 others
      exact ⟨rfl, List.forall_mem_cons.2 ⟨member, members⟩⟩
    · rintro ⟨size, members⟩
      obtain ⟨c, rest, rfl⟩ := List.exists_cons_of_length_eq_add_one size
      obtain ⟨member, others⟩ := List.forall_mem_cons.1 members
      exact ⟨[c], rest, rfl, ⟨c, rfl, member⟩, ih.2 ⟨Nat.succ.inj size, others⟩⟩

theorem spans_repeated_chars {s : CharSet} {min : Nat} :
    (repeated (.chars s) min none).Spans before text after ↔
      min ≤ text.length ∧ ∀ c ∈ text, s.mem c = true := by
  constructor
  · rintro ⟨k, enough, -, reads⟩
    obtain ⟨rfl, members⟩ := rounds_chars.1 reads
    exact ⟨enough, members⟩
  · rintro ⟨enough, members⟩
    exact ⟨text.length, enough, fun m most => absurd most (Option.not_mem_none m),
      rounds_chars.2 ⟨rfl, members⟩⟩

theorem spans_optional :
    e.optional.Spans before text after ↔ text = [] ∨ e.Spans before text after := by
  constructor
  · rintro ⟨k, -, few, reads⟩
    have atMost := few 1 rfl
    obtain rfl | rfl : k = 0 ∨ k = 1 := by omega
    · exact .inl reads
    · obtain ⟨first, rest, rfl, spanned, none⟩ := reads
      obtain rfl : rest = [] := none
      rw [List.append_nil]
      exact .inr spanned
  · rintro (empty | spanned)
    · exact ⟨0, Nat.le_refl 0, fun _ _ => Nat.zero_le _, empty⟩
    · refine ⟨1, Nat.zero_le 1, fun m most => ?_, text, [], (List.append_nil _).symm, spanned, rfl⟩
      exact Nat.le_of_eq (Option.some.inj most)

/-! ## Matching -/

theorem any_matchesEmpty {active : List Expr} (wf : ∀ a ∈ active, a.WellFormed) :
    (active.any fun a => a.matchesEmpty before after) = true ↔
      ∃ a ∈ active, a.Spans before [] after := by
  rw [List.any_eq_true]
  exact exists_congr fun a => and_congr_right fun among => (spans_nil (wf a among)).symm

theorem wellFormed_derivatives {active : List Expr} (wf : ∀ a ∈ active, a.WellFormed) :
    ∀ d ∈ (active.flatMap fun a => a.derivatives before c).eraseDups, d.WellFormed := by
  intro d member
  obtain ⟨a, among, remains⟩ := List.mem_flatMap.1 (List.mem_eraseDups.1 member)
  exact wellFormed_of_mem_derivatives (wf a among) remains

theorem spans_derivatives {active : List Expr} (wf : ∀ a ∈ active, a.WellFormed) :
    (∃ d ∈ (active.flatMap fun a => a.derivatives before c).eraseDups, d.Spans (some c) text after) ↔
      ∃ a ∈ active, a.Spans before (c :: text) after := by
  simp only [List.mem_eraseDups, List.mem_flatMap]
  constructor
  · rintro ⟨d, ⟨a, among, remains⟩, spanned⟩
    exact ⟨a, among, (spans_cons (wf a among)).2 ⟨d, remains, spanned⟩⟩
  · rintro ⟨a, among, spanned⟩
    obtain ⟨d, remains, spanned⟩ := (spans_cons (wf a among)).1 spanned
    exact ⟨d, ⟨a, among, remains⟩, spanned⟩

theorem matchesFrom_iff {active : List Expr} (wf : ∀ a ∈ active, a.WellFormed) :
    matchesFrom before active text = true ↔ ∃ a ∈ active, a.Spans before text none := by
  induction text generalizing before active with
  | nil => exact any_matchesEmpty wf
  | cons c rest ih => rw [matchesFrom, ih (wellFormed_derivatives wf), spans_derivatives wf]

theorem matchesWhole_iff (wf : e.WellFormed) :
    e.matchesWhole text = true ↔ e.Spans none text none := by
  rw [matchesWhole, matchesFrom_iff (by simpa using wf)]
  simp

def SpansStart (e : Expr) (before : Option Char) (text : List Char) : Prop :=
  ∃ found rest, text = found ++ rest ∧ e.Spans before found rest.head?

def SpansPart (e : Expr) (before : Option Char) (text : List Char) : Prop :=
  ∃ skipped rest, text = skipped ++ rest ∧ e.SpansStart (lastOf before skipped) rest

theorem spansStart_nil : e.SpansStart before [] ↔ e.Spans before [] none := by
  constructor
  · rintro ⟨found, rest, split, spanned⟩
    obtain ⟨rfl, rfl⟩ := List.append_eq_nil_iff.1 split.symm
    exact spanned
  · intro spanned
    exact ⟨[], [], rfl, spanned⟩

theorem spansStart_cons {active : List Expr} (wf : ∀ a ∈ active, a.WellFormed) :
    (∃ a ∈ active, a.SpansStart before (c :: text)) ↔
      (∃ a ∈ active, a.Spans before [] (some c)) ∨
      ∃ d ∈ (active.flatMap fun a => a.derivatives before c).eraseDups, d.SpansStart (some c) text := by
  constructor
  · rintro ⟨a, among, found, rest, split, spanned⟩
    cases found with
    | nil =>
      rw [List.nil_append] at split
      subst split
      exact .inl ⟨a, among, spanned⟩
    | cons d found =>
      obtain ⟨rfl, rfl⟩ := List.cons.inj split
      obtain ⟨d, member, spanned⟩ := (spans_derivatives wf).2 ⟨a, among, spanned⟩
      exact .inr ⟨d, member, found, rest, rfl, spanned⟩
  · rintro (⟨a, among, spanned⟩ | ⟨d, member, found, rest, rfl, spanned⟩)
    · exact ⟨a, among, [], c :: text, rfl, spanned⟩
    · obtain ⟨a, among, spanned⟩ := (spans_derivatives wf).1 ⟨d, member, spanned⟩
      exact ⟨a, among, c :: found, rest, rfl, spanned⟩

theorem spansPart_nil : e.SpansPart before [] ↔ e.Spans before [] none := by
  rw [← spansStart_nil]
  constructor
  · rintro ⟨skipped, rest, split, spanned⟩
    obtain ⟨rfl, rfl⟩ := List.append_eq_nil_iff.1 split.symm
    exact spanned
  · intro spanned
    exact ⟨[], [], rfl, spanned⟩

theorem spansPart_cons : e.SpansPart before (c :: text) ↔
    e.SpansStart before (c :: text) ∨ e.SpansPart (some c) text := by
  constructor
  · rintro ⟨skipped, rest, split, spanned⟩
    cases skipped with
    | nil =>
      rw [List.nil_append] at split
      subst split
      exact .inl spanned
    | cons d skipped =>
      obtain ⟨rfl, rfl⟩ := List.cons.inj split
      exact .inr ⟨skipped, rest, rfl, spanned⟩
  · rintro (spanned | ⟨skipped, rest, rfl, spanned⟩)
    · exact ⟨[], c :: text, rfl, spanned⟩
    · exact ⟨c :: skipped, rest, rfl, spanned⟩

theorem findsFrom_iff (wf : e.WellFormed) {active : List Expr} (wfs : ∀ a ∈ active, a.WellFormed) :
    e.findsFrom before active text = true ↔
      (∃ a ∈ active, a.SpansStart before text) ∨ e.SpansPart before text := by
  induction text generalizing before active with
  | nil =>
    rw [findsFrom, any_matchesEmpty (List.forall_mem_cons.2 ⟨wf, wfs⟩)]
    simp only [List.mem_cons, or_and_right, exists_or, exists_eq_left, spansStart_nil, spansPart_nil]
    exact or_comm
  | cons c text ih =>
    have wfs' : ∀ a ∈ (e :: active).eraseDups, a.WellFormed := fun a member =>
      List.forall_mem_cons.2 ⟨wf, wfs⟩ a (List.mem_eraseDups.1 member)
    rw [findsFrom, Bool.or_eq_true, ih (wellFormed_derivatives wfs'), any_matchesEmpty wfs',
      ← or_assoc, ← spansStart_cons wfs', spansPart_cons]
    simp only [List.mem_eraseDups, List.mem_cons, or_and_right, exists_or, exists_eq_left]
    rw [or_comm (a := e.SpansStart before (c :: text)), or_assoc]

theorem finds_iff (wf : e.WellFormed) : e.finds text = true ↔ e.SpansPart none text := by
  rw [finds, findsFrom_iff wf (fun _ member => absurd member List.not_mem_nil)]
  simp

theorem finds_anchored (wf : e.WellFormed) :
    (followedBy (.anchor .textStart) (followedBy e (.seq (.anchor .textEnd) .empty))).finds text =
      true ↔ e.Spans none text none := by
  have wfEnd : (seq (.anchor .textEnd) .empty).WellFormed := ⟨trivial, trivial⟩
  have wfStart : (anchor .textStart).WellFormed := trivial
  rw [finds_iff (wellFormed_followedBy wfStart (wellFormed_followedBy wf wfEnd))]
  constructor
  · rintro ⟨skipped, _, rfl, found, rest, rfl, spanned⟩
    obtain ⟨_, inner, rfl, ⟨rfl, atStart⟩, spanned⟩ := spans_followedBy.1 spanned
    obtain ⟨whole, _, rfl, spanned, _, _, rfl, ⟨rfl, atEnd⟩, rfl⟩ := spans_followedBy.1 spanned
    have start : skipped = [] := by
      simpa [Anchor.holds, lastOf_eq_none] using atStart
    have finish : rest = [] := by
      simpa [Anchor.holds] using atEnd
    subst start finish
    simpa using spanned
  · intro spanned
    refine ⟨[], text, rfl, text, [], (List.append_nil _).symm, ?_⟩
    refine spans_followedBy.2 ⟨[], text, rfl, ⟨rfl, rfl⟩, ?_⟩
    exact spans_followedBy.2 ⟨text, [], (List.append_nil _).symm, spanned, [], [], rfl, ⟨rfl, rfl⟩, rfl⟩

end Expr

end XmlSchema.Regex
