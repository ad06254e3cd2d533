import Mathlib.Data.List.Induction
import XmlSchema.Proofs.Instance.Legality

namespace XmlSchema.Instance

def placeBehind (bytes : Bytes) : Location where
  line := 1 + bytes.count lineFeed
  column := 1 + (bytes.reverse.takeWhile (· != lineFeed)).length

@[simp]
def feedsFrom (start : Nat) : Bytes → List Nat
  | [] => []
  | b :: rest => if b == lineFeed then start :: feedsFrom (start + 1) rest else feedsFrom (start + 1) rest

theorem feedsFrom_append (start : Nat) (bytes more : Bytes) :
    feedsFrom start (bytes ++ more) =
      feedsFrom start bytes ++ feedsFrom (start + bytes.length) more := by
  induction bytes generalizing start with
  | nil => rfl
  | cons b bytes ih =>
    have next : start + (b :: bytes).length = start + 1 + bytes.length := by
      rw [List.length_cons]
      omega
    rw [List.cons_append, feedsFrom, feedsFrom, ih, next]
    split <;> rfl

theorem bounds_of_mem_feedsFrom {start n : Nat} {bytes : Bytes} (member : n ∈ feedsFrom start bytes) :
    start ≤ n ∧ n < start + bytes.length := by
  induction bytes generalizing start with
  | nil => cases member
  | cons b bytes ih =>
    rw [List.length_cons]
    rw [feedsFrom] at member
    split at member
    · rcases List.mem_cons.1 member with rfl | member
      · omega
      · have := ih member
        omega
    · have := ih member
      omega

theorem length_feedsFrom (start : Nat) (bytes : Bytes) :
    (feedsFrom start bytes).length = bytes.count lineFeed := by
  induction bytes generalizing start with
  | nil => rfl
  | cons b bytes ih =>
    rw [feedsFrom, List.count_cons]
    split
    · rw [List.length_cons, ih]
    · rw [ih, Nat.add_zero]

def lineStart (bytes : Bytes) : Nat := (feedsFrom 0 bytes).getLast?.elim 0 (· + 1)

theorem lineStart_add (bytes : Bytes) :
    lineStart bytes + (bytes.reverse.takeWhile (· != lineFeed)).length = bytes.length := by
  induction bytes using List.reverseRecOn with
  | nil => rfl
  | append_singleton bytes b ih =>
    rw [List.reverse_concat, List.length_append, List.length_singleton]
    by_cases feed : b = lineFeed
    · subst feed
      simp [lineStart, feedsFrom_append]
    · have same : lineStart (bytes ++ [b]) = lineStart bytes := by
        simp [lineStart, feedsFrom_append, feed]
      rw [same, List.takeWhile_cons_of_pos (by simpa using feed), List.length_cons]
      omega

namespace LineMap

theorem toList_feeds_consume (m : LineMap) (bytes : Bytes) :
    (m.consume bytes).feeds.toList = m.feeds.toList ++ feedsFrom m.consumed bytes := by
  have noted (feeds : Array Nat) (k : Nat) :
      ((bytes.zipIdx k).foldl (fun feeds entry =>
        if entry.1 == lineFeed then feeds.push (m.consumed + entry.2) else feeds) feeds).toList =
      feeds.toList ++ feedsFrom (m.consumed + k) bytes := by
    induction bytes generalizing feeds k with
    | nil => simp
    | cons b bytes ih =>
      rw [List.zipIdx_cons, List.foldl_cons, ih, feedsFrom, Nat.add_assoc]
      by_cases feed : (b == lineFeed) = true <;> simp [feed]
  exact noted m.feeds 0

theorem consume_append (m : LineMap) (bytes more : Bytes) :
    m.consume (bytes ++ more) = (m.consume bytes).consume more := by
  have consumed : (m.consume (bytes ++ more)).consumed = ((m.consume bytes).consume more).consumed := by
    simp [consume, Nat.add_assoc]
  have feeds : (m.consume (bytes ++ more)).feeds = ((m.consume bytes).consume more).feeds := by
    refine Array.toList_inj.1 ?_
    rw [toList_feeds_consume, toList_feeds_consume, toList_feeds_consume, feedsFrom_append,
      List.append_assoc]
    rfl
  generalize m.consume (bytes ++ more) = left at consumed feeds
  generalize (m.consume bytes).consume more = right at consumed feeds
  cases left
  cases right
  cases consumed
  cases feeds
  rfl

theorem feeds_consume_take {bytes : Bytes} {offset : Nat} (le : offset ≤ bytes.length) :
    (consume {} bytes).feeds =
      (feedsFrom 0 (bytes.take offset) ++ feedsFrom offset (bytes.drop offset)).toArray := by
  refine Array.toList_inj.1 ?_
  have parts := feedsFrom_append 0 (bytes.take offset) (bytes.drop offset)
  rw [List.take_append_drop, List.length_take_of_le le, Nat.zero_add] at parts
  rw [toList_feeds_consume, ← parts]
  rfl

theorem locate_consume {bytes : Bytes} {offset : Nat} (le : offset ≤ bytes.length) :
    (consume {} bytes).locate offset = placeBehind (bytes.take offset) := by
  have front : ∀ n ∈ feedsFrom 0 (bytes.take offset), decide (n < offset) = true := fun n member => by
    have := (bounds_of_mem_feedsFrom member).2
    rw [List.length_take_of_le le] at this
    exact decide_eq_true (by omega)
  have rear : ∀ n ∈ feedsFrom offset (bytes.drop offset), decide (n < offset) = false :=
    fun n member => decide_eq_false (Nat.not_lt.2 (bounds_of_mem_feedsFrom member).1)
  have column := lineStart_add (bytes.take offset)
  rw [List.length_take_of_le le] at column
  rw [locate, feeds_consume_take le, Bisection.partitionPoint_append front rear, placeBehind,
    ← length_feedsFrom 0]
  rw [lineStart] at column
  rcases List.eq_nil_or_concat (feedsFrom 0 (bytes.take offset)) with none | ⟨earlier, last, some⟩
  · simp [none] at column ⊢
    omega
  · simp [some] at column ⊢
    omega

end LineMap

namespace LineReader

variable {start r : LineReader} {bytes : Bytes} {amount : Nat}

/-- The bytes that have not been taken, whether they have been fetched or not. -/
def pending (r : LineReader) : Bytes := r.buffer ++ (r.coming.filterMap id).flatten

theorem fill_cases (r : LineReader) :
    (∃ piece coming, r.buffer = [] ∧ r.coming = some piece :: coming ∧
      r.fill = (some piece, { r with buffer := piece, coming })) ∨
    (∃ coming, r.buffer = [] ∧ r.coming = none :: coming ∧ r.fill = (none, { r with coming })) ∨
    r.fill = (some r.buffer, r) := by
  unfold fill
  split
  · next piece coming empty fetches => exact .inl ⟨piece, coming, empty, fetches, rfl⟩
  · next coming empty fetches => exact .inr (.inl ⟨coming, empty, fetches, rfl⟩)
  · exact .inr (.inr rfl)

theorem lines_fill (r : LineReader) : r.fill.2.lines = r.lines := by
  rcases r.fill_cases with ⟨_, _, _, _, fills⟩ | ⟨_, _, _, fills⟩ | fills
  all_goals rw [fills]

theorem pending_fill (r : LineReader) : r.fill.2.pending = r.pending := by
  rcases r.fill_cases with ⟨piece, coming, empty, fetches, fills⟩ |
    ⟨coming, empty, fetches, fills⟩ | fills
  · simp [fills, pending, empty, fetches]
  · simp [fills, pending, empty, fetches]
  · rw [fills]

theorem buffer_fill {there : Bytes} (filled : r.fill.1 = some there) : r.fill.2.buffer = there := by
  rcases r.fill_cases with ⟨_, _, _, _, fills⟩ | ⟨_, _, _, fills⟩ | fills
  · rw [fills] at filled ⊢
    exact Option.some.inj filled
  · rw [fills] at filled
    cases filled
  · rw [fills] at filled ⊢
    exact Option.some.inj filled

theorem take_buffer_fill (le : amount ≤ r.buffer.length) :
    r.fill.2.buffer.take amount = r.buffer.take amount := by
  rcases r.fill_cases with ⟨_, _, empty, _, fills⟩ | ⟨_, _, _, fills⟩ | fills
  · rw [empty, List.length_nil, Nat.le_zero] at le
    rw [le, List.take_zero, List.take_zero]
  · rw [fills]
  · rw [fills]

theorem lines_take (le : amount ≤ r.buffer.length) :
    (r.take amount).lines = r.lines.consume (r.buffer.take amount) := by
  have same := take_buffer_fill le
  simp only [take, same, lines_fill]
  simp only [LineMap.consume, List.length_take_of_le le]

theorem pending_take (le : amount ≤ r.buffer.length) :
    r.buffer.take amount ++ (r.take amount).pending = r.pending := by
  rw [← take_buffer_fill le, ← pending_fill r, pending, pending, ← List.append_assoc]
  simp [take]

/-- A reader has delivered some bytes since a start: any number of times, bytes have been fetched or
some of those have been taken that were there. -/
inductive Delivers (start : LineReader) : Bytes → LineReader → Prop where
  | nothing : Delivers start [] start
  | fill {bytes : Bytes} {r : LineReader} (before : Delivers start bytes r) :
    Delivers start bytes r.fill.2
  | take {bytes : Bytes} {r : LineReader} (before : Delivers start bytes r) {amount : Nat}
    (le : amount ≤ r.buffer.length) :
    Delivers start (bytes ++ r.buffer.take amount) (r.take amount)

theorem Delivers.read (before : Delivers start bytes r) (room : Nat) :
    Delivers start (bytes ++ (r.read room).1.getD []) (r.read room).2 := by
  have filled := before.fill
  unfold LineReader.read
  split
  · next failed =>
    rw [failed] at filled
    simpa using filled
  · next there r' fetched =>
    have buffer : r'.buffer = there := by
      have := buffer_fill (r := r) (congrArg Prod.fst fetched)
      rwa [fetched] at this
    have same : there.take (min there.length room) = there.take room :=
      List.take_eq_take_iff.2 (by omega)
    rw [fetched] at filled
    have taken := filled.take (buffer ▸ Nat.min_le_left there.length room)
    rwa [buffer, same] at taken

theorem Delivers.lines_eq (delivers : Delivers start bytes r) :
    r.lines = start.lines.consume bytes := by
  induction delivers with
  | nothing => rfl
  | fill _ ih => rw [lines_fill, ih]
  | take _ le ih => rw [lines_take le, ih, LineMap.consume_append]

theorem Delivers.append_pending (delivers : Delivers start bytes r) :
    bytes ++ r.pending = start.pending := by
  induction delivers with
  | nothing => rfl
  | fill _ ih => rw [pending_fill, ih]
  | take _ le ih => rw [List.append_assoc, pending_take le, ih]

end LineReader

/-- Of the bytes that a reader has delivered, the first ones that have been fetched, every offset is
placed by the line feeds in front of it: there is a line for each of them, and columns count the bytes
behind the last one. -/
theorem located_by_line_feeds {coming : List (Option Bytes)} {bytes : Bytes} {r : LineReader}
    (delivers : LineReader.Delivers { coming } bytes r) :
    r.lines.consumed = bytes.length ∧ bytes ++ r.pending = (coming.filterMap id).flatten ∧
    ∀ offset ≤ r.lines.consumed,
      (r.lines.locate offset).line = 1 + (bytes.take offset).count lineFeed ∧
      (r.lines.locate offset).column =
        1 + ((bytes.take offset).reverse.takeWhile (· != lineFeed)).length := by
  have lines : r.lines = LineMap.consume {} bytes := delivers.lines_eq
  have consumed : r.lines.consumed = bytes.length := by
    rw [lines]
    exact Nat.zero_add _
  refine ⟨consumed, delivers.append_pending, fun offset le => ?_⟩
  rw [lines, LineMap.locate_consume (consumed ▸ le)]
  exact ⟨rfl, rfl⟩

def brokenLines : LineReader := { coming := [some (ascii "ab\nc"), none, some (ascii "d\n\nef")] }

theorem brokenLines_located : ∃ r, LineReader.Delivers brokenLines (ascii "ab\ncd\n\nef") r ∧
    7 ≤ r.lines.consumed ∧
    (r.lines.locate 4).line = 2 ∧ (r.lines.locate 4).column = 2 ∧
    (r.lines.locate 7).line = 4 ∧ (r.lines.locate 7).column = 1 := by
  have start : LineReader.Delivers brokenLines [] brokenLines := .nothing
  have delivers : LineReader.Delivers brokenLines (ascii "ab\ncd\n\nef") _ :=
    (((start.read 3).read 8).read 8).read 8
  obtain ⟨consumed, -, located⟩ := located_by_line_feeds delivers
  have inside : 7 ≤ _ := consumed ▸ (by decide : 7 ≤ (ascii "ab\ncd\n\nef").length)
  obtain ⟨lineFour, columnFour⟩ := located 4 (by omega)
  obtain ⟨lineSeven, columnSeven⟩ := located 7 inside
  exact ⟨_, delivers, inside, lineFour.trans (by decide), columnFour.trans (by decide),
    lineSeven.trans (by decide), columnSeven.trans (by decide)⟩

namespace Reader

variable {bytes front : Bytes} {r : Reader}

structure Stands (bytes front : Bytes) (r : Reader) : Prop where
  split : front ++ r.rest = bytes
  offset : r.offset = front.length
  lines : r.lines = LineMap.consume {} front

theorem Stands.location (stands : Stands bytes front r) : r.location = placeBehind front := by
  rw [Reader.location, stands.lines, stands.offset, LineMap.locate_consume (Nat.le_refl _),
    List.take_length]

theorem Stands.after (stands : Stands bytes front r) {s : Scan} (scanned : scan? r.rest = some s) :
    Stands bytes (front ++ s.read) (r.after s) where
  split := by
    rw [List.append_assoc]
    exact (congrArg (front ++ ·) (scan?_append scanned).1).trans stands.split
  offset := by rw [List.length_append, ← stands.offset]; rfl
  lines := by rw [LineMap.consume_append, ← stands.lines]; rfl

def IsPlaceIn (bytes : Bytes) (place : Location) : Prop :=
  ∃ front, front <+: bytes ∧ place = placeBehind front

theorem Stands.isPlaceIn (stands : Stands bytes front r) : IsPlaceIn bytes r.location :=
  ⟨front, ⟨r.rest, stands.split⟩, stands.location⟩

theorem places_of_reading {p : Progress} {earlier : List (Event × Location)} {document : Document}
    (reading : Reading r p earlier document) (stands : Stands bytes front r)
    (placed : ∀ e ∈ earlier, IsPlaceIn bytes e.2) :
    (∀ e ∈ document.events, IsPlaceIn bytes e.2) ∧ ∀ f ∈ document.fault?, IsPlaceIn bytes f.2 := by
  have reversed : ∀ e ∈ earlier.reverse, IsPlaceIn bytes e.2 := fun e member =>
    placed e (List.mem_reverse.1 member)
  induction reading generalizing front with
  | ended _ =>
    refine ⟨reversed, fun f fault => ?_⟩
    obtain ⟨_, -, rfl⟩ := Option.map_eq_some_iff.1 fault
    exact stands.isPlaceIn
  | broken scanned | refused scanned =>
    exact ⟨reversed, fun f fault => Option.some.inj fault ▸ (stands.after scanned).isPlaceIn⟩
  | @goesOn r p q earlier s token more document scanned _ _ _ ih =>
    have further := stands.after scanned
    have placedMore : ∀ e ∈ (more.map (·, (r.after s).location)).reverse ++ earlier,
        IsPlaceIn bytes e.2 := fun e member => by
      rcases List.mem_append.1 member with member | member
      · obtain ⟨_, -, rfl⟩ := List.mem_map.1 (List.mem_reverse.1 member)
        exact further.isPlaceIn
      · exact placed e member
    exact ih further placedMore fun e member => placedMore e (List.mem_reverse.1 member)

theorem places_of_document (unmarked : byteOrderMark.isPrefixOf bytes = false) :
    (∀ e ∈ (Document.ofBytes bytes).events, IsPlaceIn bytes e.2) ∧
      ∀ f ∈ (Document.ofBytes bytes).fault?, IsPlaceIn bytes f.2 := by
  have start : Stands bytes [] (ofBytes bytes) := by
    rw [ofBytes, if_neg (by simp [unmarked])]
    exact ⟨rfl, rfl, rfl⟩
  exact places_of_reading (.ofBytes bytes) start (List.forall_mem_nil _)

end Reader

end XmlSchema.Instance
