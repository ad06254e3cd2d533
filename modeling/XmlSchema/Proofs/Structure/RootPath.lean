import Mathlib.Data.List.DropRight
import XmlSchema.Proofs.Schema.Location
import XmlSchema.Structure.Monitor

namespace XmlSchema

namespace Text

open Unicode (isWhiteSpace)

variable {text : List Char} {c : Char}

def Trimmed (text : List Char) : Prop :=
  (∀ c ∈ text.head?, isWhiteSpace c = false) ∧ ∀ c ∈ text.getLast?, isWhiteSpace c = false

theorem dropWhile_eq_self_of_head? {p : Char → Bool} (stops : ∀ c ∈ text.head?, p c = false) :
    text.dropWhile p = text := by
  cases text with
  | nil => rfl
  | cons c rest => exact List.dropWhile_cons_of_neg (by simp [stops c rfl])

theorem trimChars_eq_rdropWhile (text : List Char) :
    trimChars text = (text.dropWhile isWhiteSpace).rdropWhile isWhiteSpace := rfl

theorem trimChars_of_trimmed (trimmed : Trimmed text) : trimChars text = text := by
  obtain ⟨first, last⟩ := trimmed
  rw [trimChars_eq_rdropWhile, dropWhile_eq_self_of_head? first, List.rdropWhile_eq_self_iff]
  intro nonempty
  simp [last _ (List.getLast?_eq_some_getLast nonempty)]

theorem trim_of_trimmed {text : String} (trimmed : Trimmed text.toList) : trim text = text := by
  rw [trim, trimChars_of_trimmed trimmed, String.ofList_toList]

theorem trimmed_trimChars (text : List Char) : Trimmed (trimChars text) := by
  rw [trimChars_eq_rdropWhile]
  constructor
  · intro c isFirst
    obtain ⟨rest, whole⟩ := List.rdropWhile_prefix isWhiteSpace (text.dropWhile isWhiteSpace)
    have first : (text.dropWhile isWhiteSpace).head? = some c := by
      rw [← whole, List.head?_append, isFirst, Option.some_or]
    have stops := List.head?_dropWhile_not isWhiteSpace text
    rwa [first] at stops
  · intro c isLast
    have stops := List.head?_dropWhile_not isWhiteSpace (text.dropWhile isWhiteSpace).reverse
    rw [List.rdropWhile, List.getLast?_reverse] at isLast
    rwa [isLast] at stops

variable {parts : List (List Char)}

theorem exists_of_getLast?_intercalate {separator : List Char}
    (nonempty : ∀ part ∈ parts, part ≠ []) (isLast : c ∈ (separator.intercalate parts).getLast?) :
    ∃ part ∈ parts, c ∈ part.getLast? := by
  induction parts with
  | nil => cases isLast
  | cons part parts ih =>
    cases parts with
    | nil => exact ⟨part, List.mem_cons_self, by simpa using isLast⟩
    | cons next parts =>
      have others : separator.intercalate (next :: parts) ≠ [] := by
        have first := head?_intercalate (nonempty next (by simp)) separator parts
        intro empty
        rw [empty, List.head?_nil, eq_comm, List.head?_eq_none_iff] at first
        exact nonempty next (by simp) first
      rw [List.intercalate_cons_cons, List.getLast?_append_of_ne_nil _ others] at isLast
      obtain ⟨part, member, last⟩ :=
        ih (fun part member => nonempty part (List.mem_cons_of_mem _ member)) isLast
      exact ⟨part, List.mem_cons_of_mem _ member, last⟩

theorem trimmed_intercalate {separator : List Char}
    (trimmed : ∀ part ∈ parts, part ≠ [] ∧ Trimmed part) :
    Trimmed (separator.intercalate parts) := by
  constructor
  · intro c isFirst
    cases parts with
    | nil => cases isFirst
    | cons part parts =>
      obtain ⟨nonempty, first, -⟩ := trimmed part List.mem_cons_self
      rw [head?_intercalate nonempty] at isFirst
      exact first c isFirst
  · intro c isLast
    obtain ⟨part, member, last⟩ :=
      exists_of_getLast?_intercalate (fun part member => (trimmed part member).1) isLast
    exact (trimmed part member).2.2 c last

end Text

namespace Xml

theorem isNameChar_and_isWhiteSpace {c : Char} :
    isNameChar c = true ∧ Unicode.isWhiteSpace c = true ↔ c = '\u1680' := by
  constructor
  · rintro ⟨named, blank⟩
    rcases eq_or_ne c ':' with rfl | notColon
    · exact absurd blank (by decide)
    · simp only [isNameChar, isNameStartChar, beq_eq_false_iff_ne.2 notColon, nameStartRanges,
        nameExtraRanges, CodeRange.contains, Unicode.isWhiteSpace, List.any_cons, List.any_nil,
        Bool.or_eq_true, Bool.and_eq_true, decide_eq_true_eq, Bool.false_eq_true, false_or,
        or_false] at named blank
      refine Char.toNat_inj.1 (show c.toNat = 0x1680 from ?_)
      omega
  · rintro rfl
    decide

theorem slash_notMem_of_isNCName {name : List Char} (named : isNCName name = true) :
    '/' ∉ name := fun member => by
  have isChar := ((isNameChar_of_isNCName named).2 '/' member).2
  cases isChar

theorem trimmed_iff_of_isNCName {name : List Char} (named : isNCName name = true) :
    Text.Trimmed name ↔ name.head? ≠ some '\u1680' ∧ name.getLast? ≠ some '\u1680' := by
  have blank {c : Char} (member : c ∈ name) : Unicode.isWhiteSpace c = false ↔ c ≠ '\u1680' := by
    have isChar := ((isNameChar_of_isNCName named).2 c member).2
    rw [ne_eq, ← isNameChar_and_isWhiteSpace, and_iff_right isChar, Bool.not_eq_true]
  have edge {o : Option Char} (inside : ∀ c ∈ o, c ∈ name) :
      (∀ c ∈ o, Unicode.isWhiteSpace c = false) ↔ o ≠ some '\u1680' := by
    cases o with
    | none => simp
    | some c => simp [blank (inside c rfl)]
  exact and_congr (edge fun _ => List.mem_of_mem_head?) (edge fun _ => List.mem_of_mem_getLast?)

end Xml

namespace Structure.RootPath

theorem segmentFault?_eq_none_iff {path segment : String} :
    segmentFault? path segment = none ↔
      Text.trim segment ≠ "" ∧ Xml.isNCName segment.toList = true := by
  unfold segmentFault?
  split
  · next empty => simp [String.isEmpty_iff.1 empty]
  · next nonempty =>
    rw [String.isEmpty_iff] at nonempty
    simp [nonempty]

theorem rootPathFault?_eq_none_iff {segments : List String} :
    rootPathFault? segments = none ↔ segments ≠ [] ∧
      ∀ segment ∈ segments, Text.trim segment ≠ "" ∧ Xml.isNCName segment.toList = true := by
  simp only [rootPathFault?, List.isEmpty_iff]
  split
  · next empty => simp [empty]
  · next nonempty =>
    simp only [List.findSome?_eq_none_iff, segmentFault?_eq_none_iff, nonempty, ne_eq,
      not_false_eq_true, true_and]

theorem ofSegments_eq_ok_iff {segments : List String} {path : RootPath} :
    ofSegments segments = .ok path ↔ path.segments = segments := by
  obtain ⟨given, faultless⟩ := path
  unfold ofSegments
  split
  · next fault found =>
    refine ⟨nofun, fun same => ?_⟩
    subst same
    cases found.symm.trans faultless
  · simp [eq_comm]

variable {path : RootPath}

theorem segments_ne_nil (path : RootPath) : path.segments ≠ [] :=
  (rootPathFault?_eq_none_iff.1 path.faultless).1

theorem isNCName_of_mem {segment : String} (member : segment ∈ path.segments) :
    Xml.isNCName segment.toList = true :=
  ((rootPathFault?_eq_none_iff.1 path.faultless).2 segment member).2

theorem ancestors_concat_name (path : RootPath) :
    path.ancestors ++ [path.name] = path.segments := by
  rw [ancestors, name, List.getLastD_eq_getLast?, List.getLast?_eq_some_getLast path.segments_ne_nil]
  exact List.dropLast_concat_getLast path.segments_ne_nil

theorem segments_eq_concat_iff (path : RootPath) {ancestors : List String}
    {localName : String} :
    path.segments = ancestors ++ [localName] ↔
      path.ancestors = ancestors ∧ path.name = localName := by
  rw [← path.ancestors_concat_name]
  simp [List.append_eq_append_iff_of_size_eq_right]

theorem toList_text (path : RootPath) :
    path.text.toList = ['/'].intercalate (path.segments.map String.toList) := by
  rw [text, joinSegments, String.toList_intercalate]
  rfl

theorem head?_text (path : RootPath) : ∃ c, path.text.toList.head? = some c ∧ c ≠ '/' := by
  obtain ⟨segment, more, segments⟩ := List.exists_cons_of_ne_nil path.segments_ne_nil
  have among : segment ∈ path.segments := segments ▸ List.mem_cons_self
  have named := isNCName_of_mem among
  have nonempty := (Xml.isNameChar_of_isNCName named).1
  obtain ⟨c, rest, letters⟩ := List.exists_cons_of_ne_nil nonempty
  refine ⟨c, ?_, ?_⟩
  · rw [toList_text, segments, List.map_cons, Text.head?_intercalate nonempty, letters,
      List.head?_cons]
  · rintro rfl
    exact Xml.slash_notMem_of_isNCName named (by simp [letters])

theorem cutAt_text (path : RootPath) : Text.cutAt '/' path.text = path.segments := by
  have separate : ∀ part ∈ path.segments.map String.toList, '/' ∉ part := by
    intro part member
    obtain ⟨segment, among, rfl⟩ := List.mem_map.1 member
    exact Xml.slash_notMem_of_isNCName (isNCName_of_mem among)
  rw [Text.cutAt_eq_splitOn, toList_text,
    List.splitOn_intercalate '/' separate (by simpa using path.segments_ne_nil), List.map_map]
  simp [Function.comp_def]

theorem trim_text (trimmed : ∀ segment ∈ path.segments, Text.Trimmed segment.toList) :
    Text.trim path.text = path.text := by
  refine Text.trim_of_trimmed ?_
  rw [toList_text]
  refine Text.trimmed_intercalate fun part member => ?_
  obtain ⟨segment, among, rfl⟩ := List.mem_map.1 member
  exact ⟨(Xml.isNameChar_of_isNCName (isNCName_of_mem among)).1, trimmed segment among⟩

theorem parse_text_of_trimmed
    (trimmed : ∀ segment ∈ path.segments, Text.Trimmed segment.toList) :
    parse path.text = .ok path := by
  obtain ⟨c, first, notSlash⟩ := path.head?_text
  have front : path.text.toList.dropWhile (· == '/') = path.text.toList :=
    Text.dropWhile_eq_self_of_head? fun d isFirst => by
      obtain rfl : c = d := Option.some.inj (first.symm.trans isFirst)
      simpa using notSlash
  have nonempty : path.text.toList.isEmpty = false := by
    cases letters : path.text.toList with
    | nil => simp [letters] at first
    | cons c rest => rfl
  have inner : path.segments.map Text.trim = path.segments :=
    (List.map_congr_left fun segment member => Text.trim_of_trimmed (trimmed segment member)).trans
      (List.map_id' _)
  simp only [parse, trim_text trimmed, front, nonempty, String.ofList_toList, cutAt_text, inner,
    Bool.false_eq_true, if_false]
  exact ofSegments_eq_ok_iff.2 rfl

theorem trimmed_of_parse {text : String} {path : RootPath} (read : parse text = .ok path) :
    ∀ segment ∈ path.segments, Text.Trimmed segment.toList := by
  simp only [parse] at read
  split at read
  · cases read
  · intro segment member
    rw [ofSegments_eq_ok_iff.1 read] at member
    obtain ⟨part, -, rfl⟩ := List.mem_map.1 member
    rw [Text.trim, String.toList_ofList]
    exact Text.trimmed_trimChars _

/-- A root path that was made of segments is read back from its text exactly if none of them begins
or ends with an Ogham space mark; one that was read from a text always is. -/
theorem parse_text_iff (segments : List String) (text : String) (path : RootPath) :
    (ofSegments segments = .ok path →
      (parse path.text = .ok path ↔ ∀ segment ∈ segments,
        segment.toList.head? ≠ some '\u1680' ∧ segment.toList.getLast? ≠ some '\u1680')) ∧
    (parse text = .ok path → parse path.text = .ok path) := by
  refine ⟨fun made => ?_, fun read => parse_text_of_trimmed (trimmed_of_parse read)⟩
  obtain rfl : path.segments = segments := ofSegments_eq_ok_iff.1 made
  have trimmed : parse path.text = .ok path ↔
      ∀ segment ∈ path.segments, Text.Trimmed segment.toList :=
    ⟨trimmed_of_parse, parse_text_of_trimmed⟩
  rw [trimmed]
  exact forall₂_congr fun segment member => Xml.trimmed_iff_of_isNCName (isNCName_of_mem member)

theorem parse_text_iff_envelope :
    let marked : RootPath := ⟨["Envelope", "a\u1680b"], by decide +kernel⟩
    let spelled : RootPath := ⟨["Envelope", "Body"], by decide +kernel⟩
    ofSegments ["Envelope", "a\u1680b"] = .ok marked ∧ parse marked.text = .ok marked ∧
      parse " //Envelope / Body " = .ok spelled ∧ parse spelled.text = .ok spelled := by
  intro marked spelled
  have made : ofSegments ["Envelope", "a\u1680b"] = .ok marked := ofSegments_eq_ok_iff.2 rfl
  have read : parse " //Envelope / Body " = .ok spelled := by decide +kernel
  exact ⟨made, ((parse_text_iff _ "" marked).1 made).2 (by decide +kernel), read,
    (parse_text_iff [] _ spelled).2 read⟩

/-- A name that begins with the mark comes back without it. -/
theorem parse_text_spaceMark :
    let path : RootPath := ⟨["\u1680a"], by decide +kernel⟩
    ofSegments ["\u1680a"] = .ok path ∧ path.text = "\u1680a" ∧ parse path.text ≠ .ok path := by
  decide +kernel

end Structure.RootPath

end XmlSchema
