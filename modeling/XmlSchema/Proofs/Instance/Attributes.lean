import XmlSchema.Proofs.Instance.Legality

namespace XmlSchema.Instance

structure Spelling where
  indent : Bytes
  key : Bytes
  beforeSign : Bytes
  afterSign : Bytes
  quote : UInt8
  value : Bytes

def Blank (bytes : Bytes) : Prop := ∀ b ∈ bytes, isBlankByte b = true

namespace Spelling

variable {s : Spelling}

def bytes (s : Spelling) : Bytes :=
  s.indent ++ (s.key ++ (s.beforeSign ++ '='.toUInt8 :: (s.afterSign ++
    s.quote :: (s.value ++ [s.quote]))))

def raw (s : Spelling) : RawAttribute := ⟨s.key, s.value⟩

structure Valid (s : Spelling) : Prop where
  indent : Blank s.indent
  key : ∃ first more, s.key = first :: more ∧ isBlankByte first = false ∧
    ∀ b ∈ more, isBlankByte b = false ∧ b ≠ '='.toUInt8
  beforeSign : Blank s.beforeSign
  afterSign : Blank s.afterSign
  quote : s.quote = '"'.toUInt8 ∨ s.quote = '\''.toUInt8
  value : s.quote ∉ s.value

end Spelling

section Span

variable {n : Nat} {p : UInt8 → Bool} {read rest : Bytes}

theorem Cursor.span_append (all : ∀ b ∈ read, p b = true) (ends : ∀ b ∈ rest.head?, p b = false) :
    (Cursor.mk n (read ++ rest)).span p = (read, ⟨n + read.length, rest⟩) := by
  have stops : rest.takeWhile p = [] ∧ rest.dropWhile p = rest := by
    cases rest with
    | nil => exact ⟨rfl, rfl⟩
    | cons b rest => simp [ends b rfl]
  simp only [Cursor.span, List.takeWhile_append_of_pos all, List.dropWhile_append_of_pos all, stops,
    List.append_nil]

theorem Cursor.skipBlanks_append (blank : Blank read)
    (ends : ∀ b ∈ rest.head?, isBlankByte b = false) :
    (Cursor.mk n (read ++ rest)).skipBlanks = ⟨n + read.length, rest⟩ := by
  rw [Cursor.skipBlanks, Cursor.span_append blank ends]

theorem exists_span (p : UInt8 → Bool) (bytes : Bytes) :
    ∃ read rest, bytes = read ++ rest ∧ (∀ b ∈ read, p b = true) ∧
      ∀ b ∈ rest.head?, p b = false := by
  refine ⟨bytes.takeWhile p, bytes.dropWhile p, List.takeWhile_append_dropWhile.symm,
    List.all_eq_true.1 List.all_takeWhile, fun b head => ?_⟩
  have := List.head?_dropWhile_not p bytes
  rw [Option.mem_def.1 head] at this
  simpa using this

end Span

section Read

variable {n : Nat} {first : UInt8} {more before after value rest : Bytes}

theorem readKey_append (named : ∀ b ∈ more, isBlankByte b = false ∧ b ≠ '='.toUInt8)
    (blank : Blank before) :
    readKey first ⟨n, more ++ (before ++ '='.toUInt8 :: rest)⟩ =
      .ok (first :: more, ⟨n + more.length + before.length + 1, rest⟩) := by
  have name : ∀ b ∈ more, (!isBlankByte b && b != '='.toUInt8) = true := by simpa using named
  have ends : ∀ b ∈ (before ++ '='.toUInt8 :: rest).head?,
      (!isBlankByte b && b != '='.toUInt8) = false := by
    cases before with
    | nil => simp
    | cons b before =>
      have := blank b List.mem_cons_self
      simp [this]
  have sign : ∀ b ∈ ('='.toUInt8 :: rest).head?, isBlankByte b = false := by
    rintro b ⟨⟩
    decide
  simp only [readKey, Cursor.span_append name ends, Cursor.skipBlanks_append blank sign,
    beq_self_eq_true, if_true]

theorem readValue_append {quote : UInt8} (blank : Blank after)
    (quoted : quote = '"'.toUInt8 ∨ quote = '\''.toUInt8) (inside : quote ∉ value) :
    readValue ⟨n, after ++ quote :: (value ++ quote :: rest)⟩ =
      .ok (value, ⟨n + after.length + value.length + 2, rest⟩) := by
  have sign : ∀ b ∈ (quote :: (value ++ quote :: rest)).head?, isBlankByte b = false := by
    rintro b ⟨⟩
    rcases quoted with rfl | rfl <;> decide
  have isQuote : (quote == '"'.toUInt8 || quote == '\''.toUInt8) = true := by
    rcases quoted with rfl | rfl <;> decide
  have open' : ∀ b ∈ value, (b != quote) = true := fun b member =>
    bne_iff_ne.2 fun same => inside (same ▸ member)
  have close : ∀ b ∈ (quote :: rest).head?, (b != quote) = false := by simp
  simp only [readValue, Cursor.skipBlanks_append blank sign, isQuote, if_true,
    Cursor.span_append open' close]
  congr 3
  omega

theorem readAttribute?_spelling {s : Spelling} (valid : s.Valid) {keys : List (Bytes × Nat)}
    (fresh : s.key ∉ keys.map (·.1)) :
    readAttribute? keys ⟨n, s.bytes ++ rest⟩ =
      some (.ok (s.raw, n + s.indent.length, ⟨n + s.bytes.length, rest⟩)) := by
  obtain ⟨first, more, key, visible, named⟩ := valid.key
  have unread : keys.find? (fun known => known.1 == s.key) = none :=
    List.find?_eq_none.2 fun known member same =>
      fresh (List.mem_map.2 ⟨known, member, beq_iff_eq.1 same⟩)
  have start : ∀ b ∈ (first :: (more ++ (s.beforeSign ++ '='.toUInt8 :: (s.afterSign ++
      s.quote :: (s.value ++ s.quote :: rest))))).head?, isBlankByte b = false := by
    rintro b ⟨⟩
    exact visible
  simp only [Spelling.bytes, Spelling.raw, key, List.append_assoc, List.cons_append,
    List.nil_append] at unread ⊢
  simp only [readAttribute?, Cursor.skipBlanks_append valid.indent start,
    readKey_append named valid.beforeSign, readValue_append valid.afterSign valid.quote valid.value,
    bind, Except.bind, unread, pure, Except.pure]
  simp only [Option.some.injEq, Except.ok.injEq, Prod.mk.injEq, Cursor.mk.injEq, true_and, and_true,
    List.length_append, List.length_cons, List.length_nil]
  omega

end Read

section Inversion

variable {c c' : Cursor} {key value : Bytes}

theorem exists_of_readKey {first : UInt8} (read : readKey first c = .ok (key, c')) :
    ∃ more before, key = first :: more ∧ (∀ b ∈ more, isBlankByte b = false ∧ b ≠ '='.toUInt8) ∧
      Blank before ∧ c.rest = more ++ (before ++ '='.toUInt8 :: c'.rest) := by
  obtain ⟨n, bytes⟩ := c
  obtain ⟨more, bytes, rfl, name, named⟩ :=
    exists_span (fun b => !isBlankByte b && b != '='.toUInt8) bytes
  obtain ⟨before, bytes, rfl, blank, signed⟩ := exists_span isBlankByte bytes
  simp only [readKey, Cursor.span_append name named, Cursor.skipBlanks_append blank signed] at read
  cases bytes with
  | nil => cases read
  | cons sign bytes =>
    dsimp only at read
    split at read
    · next equals =>
      obtain ⟨rfl, rfl⟩ := Prod.mk.inj (Except.ok.inj read)
      rw [beq_iff_eq.1 equals]
      exact ⟨more, before, rfl, by simpa using name, blank, rfl⟩
    · cases read

theorem exists_of_readValue (read : readValue c = .ok (value, c')) :
    ∃ after quote, Blank after ∧ (quote = '"'.toUInt8 ∨ quote = '\''.toUInt8) ∧ quote ∉ value ∧
      c.rest = after ++ quote :: (value ++ quote :: c'.rest) := by
  obtain ⟨n, bytes⟩ := c
  obtain ⟨after, bytes, rfl, blank, signed⟩ := exists_span isBlankByte bytes
  simp only [readValue, Cursor.skipBlanks_append blank signed] at read
  cases bytes with
  | nil => cases read
  | cons quote bytes =>
    dsimp only at read
    split at read
    · next quoted =>
      obtain ⟨inside, bytes, rfl, open', closed⟩ := exists_span (· != quote) bytes
      rw [Cursor.span_append open' closed] at read
      cases bytes with
      | nil => cases read
      | cons close bytes =>
        obtain ⟨rfl, rfl⟩ := Prod.mk.inj (Except.ok.inj read)
        obtain rfl : close = quote := by simpa using closed close rfl
        refine ⟨after, close, blank, by simpa using quoted, fun member => ?_, rfl⟩
        simpa using open' close member
    · cases read

theorem exists_spelling {keys : List (Bytes × Nat)} {raw : RawAttribute} {position : Nat}
    (read : readAttribute? keys c = some (.ok (raw, position, c'))) :
    ∃ s : Spelling, s.Valid ∧ s.raw = raw ∧ c.rest = s.bytes ++ c'.rest ∧
      s.key ∉ keys.map (·.1) := by
  obtain ⟨n, bytes⟩ := c
  obtain ⟨indent, bytes, rfl, indented, started⟩ := exists_span isBlankByte bytes
  simp only [readAttribute?, Cursor.skipBlanks_append indented started] at read
  cases bytes with
  | nil => cases read
  | cons first bytes =>
    simp only [Option.some.injEq, bind_eq_ok] at read
    obtain ⟨⟨key, afterKey⟩, keyRead, read⟩ := read
    obtain ⟨more, beforeSign, rfl, named, before, rfl⟩ := exists_of_readKey keyRead
    split at read
    · cases read
    · next unread =>
      obtain ⟨⟨value, afterValue⟩, valueRead, given⟩ := bind_eq_ok.1 read
      obtain ⟨afterSign, quote, after, quoted, inside, rest⟩ := exists_of_readValue valueRead
      dsimp only at rest
      obtain ⟨rfl, -, rfl⟩ : _ = raw ∧ _ = position ∧ _ = c' := by
        simpa [pure, Except.pure] using given
      let s : Spelling := ⟨indent, first :: more, beforeSign, afterSign, quote, value⟩
      have valid : s.Valid :=
        ⟨indented, ⟨first, more, rfl, started first rfl, named⟩, before, after, quoted, inside⟩
      refine ⟨s, valid, rfl, ?_, fun member => ?_⟩
      · simp only [s, Spelling.bytes, rest, List.append_assoc, List.cons_append, List.nil_append]
      · obtain ⟨earlier, known, same⟩ := List.mem_map.1 member
        cases found : keys.find? (·.1 == first :: more) with
        | some other => exact unread other.1 other.2 found
        | none => exact List.find?_eq_none.1 found earlier known (beq_iff_eq.2 same)

end Inversion

def spelled (spellings : List Spelling) : Bytes := spellings.flatMap Spelling.bytes

theorem length_le_spelled (spellings : List Spelling) :
    spellings.length ≤ (spelled spellings).length := by
  induction spellings with
  | nil => exact Nat.le_refl _
  | cons s spellings ih =>
    simp only [spelled, Spelling.bytes, List.flatMap_cons, List.length_append,
      List.length_cons] at ih ⊢
    omega

theorem readAttribute?_blank {keys : List (Bytes × Nat)} {n : Nat} {blanks : Bytes}
    (blank : Blank blanks) : readAttribute? keys ⟨n, blanks⟩ = none := by
  have skipped : (Cursor.mk n blanks).skipBlanks = ⟨n + blanks.length, []⟩ := by
    simpa using @Cursor.skipBlanks_append n blanks [] blank nofun
  simp only [readAttribute?, skipped]

theorem readAttribute?_eq_none {keys : List (Bytes × Nat)} {c : Cursor}
    (none : readAttribute? keys c = none) : Blank c.rest := by
  obtain ⟨n, bytes⟩ := c
  obtain ⟨blanks, bytes, rfl, blank, started⟩ := exists_span isBlankByte bytes
  simp only [readAttribute?, Cursor.skipBlanks_append blank started] at none
  cases bytes with
  | nil => rwa [List.append_nil]
  | cons => cases none

theorem exists_spellings_of_readAttributes {distinct : Bool} {fuel : Nat}
    {keys : List (Bytes × Nat)} {c : Cursor} (enough : c.rest.length ≤ fuel)
    (faultless : (readAttributes distinct fuel keys c).fault? = none) :
    ∃ spellings blanks, c.rest = spelled spellings ++ blanks ∧ Blank blanks ∧
      (∀ s ∈ spellings, s.Valid) ∧
      (readAttributes distinct fuel keys c).attributes = spellings.map Spelling.raw := by
  induction fuel generalizing keys c with
  | zero =>
    have empty : c.rest = [] := List.eq_nil_of_length_eq_zero (Nat.le_zero.1 enough)
    exact ⟨[], [], empty, nofun, nofun, rfl⟩
  | succ fuel ih =>
    rw [readAttributes] at faultless ⊢
    cases read : readAttribute? keys c with
    | none => exact ⟨[], c.rest, rfl, readAttribute?_eq_none read, nofun, rfl⟩
    | some result =>
      cases result with
      | error fault => simp [read] at faultless
      | ok found =>
        obtain ⟨raw, position, after⟩ := found
        simp only [read] at faultless ⊢
        obtain ⟨s, valid, rfl, rest, -⟩ := exists_spelling read
        have shorter : after.rest.length ≤ fuel := by
          simp only [rest, Spelling.bytes, List.length_append, List.length_cons] at enough
          omega
        obtain ⟨spellings, blanks, later, blank, all, same⟩ := ih shorter faultless
        refine ⟨s :: spellings, blanks, ?_, blank, List.forall_mem_cons.2 ⟨valid, all⟩, ?_⟩
        · rw [rest, later, spelled, spelled, List.flatMap_cons, List.append_assoc]
        · rw [same, List.map_cons]

theorem nodup_keys_readAttributes (fuel : Nat) (keys : List (Bytes × Nat)) (c : Cursor) :
    ((readAttributes true fuel keys c).attributes.map (·.key)).Nodup ∧
      ∀ raw ∈ (readAttributes true fuel keys c).attributes, raw.key ∉ keys.map (·.1) := by
  induction fuel generalizing keys c with
  | zero => exact ⟨List.nodup_nil, nofun⟩
  | succ fuel ih =>
    rw [readAttributes]
    cases read : readAttribute? keys c with
    | none => exact ⟨List.nodup_nil, nofun⟩
    | some result =>
      cases result with
      | error fault => exact ⟨List.nodup_nil, nofun⟩
      | ok found =>
        obtain ⟨raw, position, after⟩ := found
        obtain ⟨s, -, rfl, -, fresh⟩ := exists_spelling read
        obtain ⟨nodup, unread⟩ := ih ((s.key, position) :: keys) after
        simp only [List.map_cons, List.mem_cons, not_or] at unread
        refine ⟨List.nodup_cons.2 ⟨fun member => ?_, nodup⟩, List.forall_mem_cons.2 ⟨fresh, ?_⟩⟩
        · obtain ⟨other, among, same⟩ := List.mem_map.1 member
          exact (unread other among).1 same
        · exact fun other among => (unread other among).2

theorem readAttributes_spelled {distinct : Bool} {spellings : List Spelling} {blanks : Bytes}
    {fuel n : Nat} {keys : List (Bytes × Nat)} (valid : ∀ s ∈ spellings, s.Valid)
    (blank : Blank blanks) (nodup : (spellings.map (·.key)).Nodup)
    (fresh : ∀ s ∈ spellings, s.key ∉ keys.map (·.1)) (enough : spellings.length ≤ fuel) :
    readAttributes distinct fuel keys ⟨n, spelled spellings ++ blanks⟩ =
      ⟨spellings.map Spelling.raw, none⟩ := by
  induction fuel generalizing spellings n keys with
  | zero =>
    obtain rfl := List.eq_nil_of_length_eq_zero (Nat.le_zero.1 enough)
    rfl
  | succ fuel ih =>
    cases spellings with
    | nil =>
      rw [readAttributes, spelled, List.flatMap_nil, List.nil_append, readAttribute?_blank blank,
        List.map_nil]
    | cons s spellings =>
      rw [List.map_cons, List.nodup_cons] at nodup
      have other : ∀ t ∈ spellings, t.key ∉
          (if distinct then (s.key, n + s.indent.length) :: keys else keys).map (·.1) := by
        intro t member known
        have unread := fresh t (List.mem_cons_of_mem s member)
        cases distinct with
        | false => exact unread known
        | true =>
          rcases List.mem_cons.1 known with same | known
          · exact nodup.1 (List.mem_map.2 ⟨t, member, same⟩)
          · exact unread known
      rw [readAttributes, spelled, List.flatMap_cons, List.append_assoc,
        readAttribute?_spelling (valid s List.mem_cons_self) (fresh s List.mem_cons_self)]
      have later := ih (n := n + s.bytes.length)
        (fun t member => valid t (List.mem_cons_of_mem s member)) nodup.2 other
        (Nat.le_of_succ_le_succ enough)
      simp only [spelled] at later
      simp only [Spelling.raw, later, List.map_cons]

theorem nodup_keys_attributesOf (content : Bytes) :
    ((attributesOf true content).attributes.map (·.key)).Nodup :=
  (nodup_keys_readAttributes _ _ _).1

theorem afterName_rest (content : Bytes) :
    elementName content ++ (afterName content).rest = content :=
  List.takeWhile_append_dropWhile

theorem attributesOf_spelled {distinct : Bool} {name blanks : Bytes} {spellings : List Spelling}
    (visible : ∀ b ∈ name, isBlankByte b = false)
    (apart : ∀ b ∈ (spelled spellings ++ blanks).head?, isBlankByte b = true)
    (valid : ∀ s ∈ spellings, s.Valid) (blank : Blank blanks)
    (nodup : (spellings.map (·.key)).Nodup) :
    elementName (name ++ (spelled spellings ++ blanks)) = name ∧
      attributesOf distinct (name ++ (spelled spellings ++ blanks)) =
        ⟨spellings.map Spelling.raw, none⟩ := by
  have shown : ∀ b ∈ name, (!isBlankByte b) = true := by simpa using visible
  have stops : ∀ b ∈ (spelled spellings ++ blanks).head?, (!isBlankByte b) = false := by
    simpa using apart
  have split := Cursor.span_append (n := 0) shown stops
  refine ⟨congrArg Prod.fst split, ?_⟩
  rw [attributesOf, afterName, split]
  apply readAttributes_spelled valid blank nodup (by simp)
  have := length_le_spelled spellings
  rw [List.length_append, List.length_append]
  omega

theorem exists_spellings {distinct : Bool} {content : Bytes}
    (faultless : (attributesOf distinct content).fault? = none) :
    ∃ spellings blanks, content = elementName content ++ (spelled spellings ++ blanks) ∧
      Blank blanks ∧ (∀ s ∈ spellings, s.Valid) ∧
      (attributesOf distinct content).attributes = spellings.map Spelling.raw := by
  have enough : (afterName content).rest.length ≤ content.length := by
    have := congrArg List.length (afterName_rest content)
    rw [List.length_append] at this
    omega
  obtain ⟨spellings, blanks, rest, found⟩ := exists_spellings_of_readAttributes enough faultless
  exact ⟨spellings, blanks, by rw [← rest, afterName_rest], found⟩

end XmlSchema.Instance
