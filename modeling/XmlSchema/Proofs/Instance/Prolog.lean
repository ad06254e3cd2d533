import XmlSchema.Proofs.Instance.Locality

namespace XmlSchema.Instance

structure Root where
  prolog : List (Token × Bytes)
  content : Bytes
  isEmpty : Bool
  rest : Bytes
  deriving DecidableEq

namespace Root

def inside (root : Root) : Bytes :=
  if root.isEmpty then root.content ++ ['/'.toUInt8] else root.content

def bytes (root : Root) : Bytes :=
  root.prolog.flatMap Prod.snd ++ '<'.toUInt8 :: (root.inside ++ '>'.toUInt8 :: root.rest)

end Root

def rootFrom? : Nat → Bytes → Option Root
  | 0, _ => none
  | fuel + 1, bytes =>
    match scan? bytes with
    | none => none
    | some s =>
      match s.result with
      | .error _ => none
      | .ok (.startTag content isEmpty) => some ⟨[], content, isEmpty, s.rest⟩
      | .ok token => (rootFrom? fuel s.rest).map fun root =>
          { root with prolog := (token, s.read) :: root.prolog }

def root? (document : Bytes) : Option Root :=
  rootFrom? (document.length + 1) (Reader.ofBytes document).rest

variable {bytes : Bytes} {token : Token} {root : Root} {p q : Progress} {events : List Event}

structure Progress.IsOutside (p : Progress) : Prop where
  opened : p.opened = []
  scope : p.scope = .initial
  rootSeen : p.rootSeen = false
  depth : p.depth = 0

def Token.isStart : Token → Bool
  | .startTag .. => true
  | _ => false

def Token.isProlog : Token → Bool
  | .text _ | .comment _ | .doctype | .declaration | .instruction _ => true
  | _ => false

theorem read_outside (outside : p.IsOutside) (other : token.isStart = false)
    (read : p.read token = .ok (events, q)) :
    token.isProlog = true ∧ events = [] ∧ q.IsOutside := by
  have later : { p with atStart := false }.IsOutside :=
    ⟨outside.opened, outside.scope, outside.rootSeen, outside.depth⟩
  have notInside : p.isInside = false := by rw [Progress.isInside, outside.depth]; rfl
  cases Progress.read_eq_ok_iff.1 read with
  | text ofText =>
    obtain ⟨-, _, -, -, ⟨inside, -⟩ | ⟨-, -, none⟩⟩ := readText_eq_ok.1 ofText
    · rw [notInside] at inside
      cases inside
    · exact ⟨rfl, none, later⟩
  | cdata ofData =>
    -- Character data is refused outside of the root, and so is an end tag.
    have inside := (readCData_eq_ok.1 ofData).1
    rw [notInside] at inside
    cases inside
  | comment | doctype | declaration | instruction => exact ⟨rfl, rfl, later⟩
  | empty | start => cases other
  | finish ended =>
    simp only [Progress.readEnd, outside.opened] at ended
    cases ended

/-- A start tag has been read with nothing declared around it. -/
def IsRootTag (content : Bytes) (scope : Scope) (tag : StartTag) : Prop :=
  Scope.initial.enter content = .ok scope ∧ StartTag.read scope content = .ok tag

theorem isRootTag_of_readStart {content : Bytes} {tag : StartTag} (outside : p.IsOutside)
    (read : p.readStart content = .ok (tag, q)) : ∃ scope, IsRootTag content scope tag := by
  simp only [Progress.readStart, outside.scope, bind_eq_ok, mapError_eq_ok] at read
  obtain ⟨scope, entered, read⟩ := read
  split at read
  · obtain ⟨_, thrown, _⟩ := bind_eq_ok.1 read
    cases thrown
  · simp only [bind_eq_ok, mapError_eq_ok] at read
    obtain ⟨_, tagRead, made⟩ := read
    obtain ⟨rfl, -⟩ := Prod.mk.inj (Except.ok.inj made)
    exact ⟨scope, entered, tagRead⟩

theorem Reading.exists_later {r : Reader} {earlier : List (Event × Location)} {document : Document}
    (reading : Reading r p earlier document) :
    ∃ later, document.events = earlier.reverse ++ later := by
  induction reading with
  | ended | broken | refused => exact ⟨[], (List.append_nil _).symm⟩
  | goesOn _ _ _ _ ih =>
    obtain ⟨later, same⟩ := ih
    exact ⟨_, by rw [same, List.reverse_append, List.append_assoc]⟩

theorem exists_of_read_startTag {content : Bytes} {isEmpty : Bool} (outside : p.IsOutside)
    (read : p.read (.startTag content isEmpty) = .ok (events, q)) :
    ∃ scope tag more, IsRootTag content scope tag ∧ events = .start tag :: more := by
  have later : { p with atStart := false }.IsOutside :=
    ⟨outside.opened, outside.scope, outside.rootSeen, outside.depth⟩
  cases Progress.read_eq_ok_iff.1 read with
  | empty started =>
    obtain ⟨scope, isRoot⟩ := isRootTag_of_readStart later started
    exact ⟨scope, _, _, isRoot, rfl⟩
  | start started =>
    obtain ⟨scope, isRoot⟩ := isRootTag_of_readStart later started
    exact ⟨scope, _, [], isRoot, rfl⟩

theorem Reading.exists_root {r : Reader} {earlier : List (Event × Location)} {document : Document}
    (reading : Reading r p earlier document) (outside : p.IsOutside)
    (faultless : document.fault? = none) {fuel : Nat} (enough : r.rest.length < fuel) :
    ∃ root scope tag location later, rootFrom? fuel r.rest = some root ∧
      (∀ piece ∈ root.prolog, piece.1.isProlog = true) ∧ IsRootTag root.content scope tag ∧
      document.events = earlier.reverse ++ (.start tag, location) :: later := by
  induction reading generalizing fuel with
  | ended _ =>
    -- A document that ends without a root has a fault.
    simp [Progress.endFault?, Progress.isInside, outside.depth, outside.rootSeen] at faultless
  | broken | refused => cases faultless
  | @goesOn r p q earlier s token events document scanned result read rest ih =>
    obtain ⟨fuel, rfl⟩ : ∃ less, fuel = less + 1 := ⟨fuel - 1, by omega⟩
    cases isStart : token.isStart with
    | true =>
      cases token with
      | startTag content isEmpty =>
        obtain ⟨scope, tag, more, isRoot, rfl⟩ := exists_of_read_startTag outside read
        obtain ⟨later, same⟩ := rest.exists_later
        refine ⟨⟨[], content, isEmpty, s.rest⟩, scope, tag, (r.after s).location,
          more.map (·, (r.after s).location) ++ later, ?_, List.forall_mem_nil _, isRoot, ?_⟩
        · simp only [rootFrom?, scanned, result]
        · rw [same, List.reverse_append, List.reverse_reverse, List.append_assoc]
          rfl
      | _ => cases isStart
    | false =>
      -- Any other token brings no events and stays outside, so the search goes on.
      obtain ⟨isProlog, rfl, outside'⟩ := read_outside outside isStart read
      have shorter : (r.after s).rest.length < fuel :=
        Nat.lt_of_lt_of_le (length_rest_lt scanned) (Nat.le_of_lt_succ enough)
      obtain ⟨root, scope, tag, location, later, found, prolog, isRoot, same⟩ :=
        ih outside' faultless shorter
      refine ⟨{ root with prolog := (token, s.read) :: root.prolog }, scope, tag, location,
        later, ?_, List.forall_mem_cons.2 ⟨isProlog, prolog⟩, isRoot, same⟩
      have behind : rootFrom? fuel s.rest = some root := found
      cases token with
      | startTag => cases isStart
      | _ => simp only [rootFrom?, scanned, result, behind, Option.map_some]

theorem exists_root {document : Bytes} (wellFormed : (Document.ofBytes document).fault? = none) :
    ∃ root scope tag location later, root? document = some root ∧
      (∀ piece ∈ root.prolog, piece.1.isProlog = true) ∧ IsRootTag root.content scope tag ∧
      (Document.ofBytes document).events = (.start tag, location) :: later :=
  (Reading.ofBytes document).exists_root ⟨rfl, rfl, rfl, rfl⟩ wellFormed
    (Nat.lt_succ_of_le (length_ofBytes_le document))

theorem endAfter?_first {ending passed content rest before after : Bytes} {least : Nat}
    (found : endAfter? ending least passed bytes = some (content, rest))
    (earlier : content = before ++ '>'.toUInt8 :: after) (behind : passed.length ≤ before.length) :
    ¬ (ending.isPrefixOf before.reverse = true ∧ least ≤ before.length) := by
  induction bytes generalizing passed with
  | nil => cases found
  | cons b bytes ih =>
    unfold endAfter? at found
    split at found
    · obtain ⟨rfl, rfl⟩ := Prod.mk.inj (Option.some.inj found)
      have longer := congrArg List.length earlier
      simp only [List.length_reverse, List.length_append, List.length_cons] at longer
      omega
    · next goesOn =>
      rcases Nat.lt_or_eq_of_le behind with further | here
      · exact ih found further
      · -- The place is the one that the search has just passed.
        have whole := endAfter?_append found
        rw [earlier, List.reverse_cons, List.append_assoc, List.append_assoc] at whole
        obtain ⟨same, behind'⟩ := List.append_inj whole (by rw [List.length_reverse, here])
        obtain rfl : '>'.toUInt8 = b := (List.cons.inj behind').1
        rw [same, List.reverse_reverse, List.length_reverse]
        simpa using goesOn

inductive IsMarkup (content rest : Bytes) : Token → Prop
  | comment {inside : Bytes} (begins : ascii "!--" <+: content)
      (ends : endAfter? (ascii "--") 5 [] (content ++ '>'.toUInt8 :: rest) = some (content, rest)) :
      IsMarkup content rest (.comment inside)
  | cdata {inside : Bytes} : IsMarkup content rest (.cdata inside)
  | doctype : IsMarkup content rest .doctype
  | instruction {token : Token} (begins : ascii "?" <+: content)
      (ends : endAfter? (ascii "?") 0 [] (content ++ '>'.toUInt8 :: rest) = some (content, rest))
      (kind : token = .declaration ∨ ∃ target, token = .instruction target) :
      IsMarkup content rest token
  | tag {token : Token} (meant : tag content = token) : IsMarkup content rest token

theorem IsMarkup.of_comment {content rest : Bytes}
    (found : endAfter? (ascii "--") 5 [] (content ++ '>'.toUInt8 :: rest) = some (content, rest))
    (meant : Instance.comment content = .ok token) : IsMarkup content rest token := by
  unfold Instance.comment at meant
  split at meant
  · next begins =>
    obtain rfl := Except.ok.inj meant
    exact .comment (List.isPrefixOf_iff_prefix.1 begins) found
  · cases meant

theorem IsMarkup.of_instruction {content rest : Bytes}
    (first : (content ++ '>'.toUInt8 :: rest).head? = some '?'.toUInt8)
    (found : endAfter? (ascii "?") 0 [] (content ++ '>'.toUInt8 :: rest) = some (content, rest))
    (meant : Instance.instruction content = .ok token) : IsMarkup content rest token := by
  unfold Instance.instruction at meant
  split at meant
  · cases meant
  · next long =>
    have begins : ascii "?" <+: content := by
      cases content with
      | nil => exact absurd (Nat.zero_le 1) long
      | cons b content =>
        obtain rfl := Option.some.inj first
        exact ⟨content, rfl⟩
    obtain rfl := Except.ok.inj meant
    refine .instruction begins found ?_
    split
    · exact .inl rfl
    · exact .inr ⟨_, rfl⟩

theorem Marks.isMarkup {content rest : Bytes} (marks : Marks content rest token) :
    IsMarkup content rest token := by
  cases marks with
  | comment found meant => exact .of_comment found meant
  | cdata _ meant =>
    unfold Instance.cdata at meant
    split at meant
    · obtain rfl := Except.ok.inj meant
      exact .cdata
    · cases meant
  | doctype meant =>
    unfold Instance.doctype at meant
    repeat' split at meant
    all_goals cases meant
    exact .doctype
  | instruction first found meant => exact .of_instruction first found meant
  | tag meant => exact .tag meant

inductive IsPiece : Token × Bytes → Prop
  | text {content read : Bytes} (isText : '<'.toUInt8 ∉ read) : IsPiece (.text content, read)
  | markup {token : Token} {content rest : Bytes} (isMarkup : IsMarkup content rest token) :
      IsPiece (token, '<'.toUInt8 :: (content ++ ['>'.toUInt8]))

theorem isPiece_of_scan? {s : Scan} (scanned : scan? bytes = some s)
    (read : s.result = .ok token) : IsPiece (token, s.read) := by
  cases bytes with
  | nil => cases scanned
  | cons b bytes =>
    rw [scan?_cons] at scanned
    split at scanned
    · obtain rfl := Option.some.inj scanned
      obtain ⟨content, rest, -, same, marks⟩ := marks_of_scanMarkup read
      rw [same]
      exact .markup marks.isMarkup
    · obtain rfl := Option.some.inj scanned
      obtain rfl := Except.ok.inj read
      refine .text fun member => ?_
      simpa using List.all_eq_true.1 List.all_takeWhile _ member

theorem inside_of_tag {content : Bytes} {isEmpty : Bool} {inside : Bytes}
    (isTag : tag content = .startTag inside isEmpty) :
    content = if isEmpty then inside ++ ['/'.toUInt8] else inside := by
  unfold tag at isTag
  split at isTag
  · split at isTag
    · cases isTag
    · split at isTag
      · next last =>
        obtain ⟨rfl, rfl⟩ := Token.startTag.inj isTag
        exact (List.dropLast_append_getLast? _ (beq_iff_eq.1 last)).symm
      · obtain ⟨rfl, rfl⟩ := Token.startTag.inj isTag
        rfl
  · obtain ⟨rfl, rfl⟩ := Token.startTag.inj isTag
    rfl

theorem IsPiece.bytes_startTag {content read : Bytes} {isEmpty : Bool}
    (piece : IsPiece (.startTag content isEmpty, read)) :
    read = '<'.toUInt8 :: ((if isEmpty then content ++ ['/'.toUInt8] else content) ++
      ['>'.toUInt8]) := by
  cases piece with
  | markup isMarkup =>
    cases isMarkup with
    | instruction _ _ kind => simp at kind
    | tag isTag => rw [inside_of_tag isTag]

theorem bytes_of_rootFrom? {fuel : Nat} (found : rootFrom? fuel bytes = some root) :
    bytes = root.bytes ∧ ∀ piece ∈ root.prolog, IsPiece piece := by
  induction fuel generalizing bytes root with
  | zero => cases found
  | succ fuel ih =>
    rw [rootFrom?] at found
    split at found
    · cases found
    · next s scanned =>
      have whole := (scan?_append scanned).1
      split at found
      · cases found
      · next content isEmpty result =>
        obtain rfl := Option.some.inj found
        refine ⟨?_, nofun⟩
        rw [← whole, (isPiece_of_scan? scanned result).bytes_startTag]
        simp only [Root.bytes, Root.inside, List.flatMap_nil, List.nil_append, List.cons_append,
          List.append_assoc]
      · next token _ result =>
        obtain ⟨root, behind, rfl⟩ := Option.map_eq_some_iff.1 found
        obtain ⟨rest, pieces⟩ := ih behind
        refine ⟨?_, List.forall_mem_cons.2 ⟨isPiece_of_scan? scanned result, pieces⟩⟩
        rw [← whole, rest]
        simp only [Root.bytes, Root.inside, List.flatMap_cons, List.append_assoc]

theorem bytes_of_root? {document : Bytes} (found : root? document = some root) :
    ∃ mark, document = mark ++ root.bytes ∧ '<'.toUInt8 ∉ mark ∧
      ∀ piece ∈ root.prolog, IsPiece piece := by
  obtain ⟨rest, pieces⟩ := bytes_of_rootFrom? found
  unfold Reader.ofBytes at rest
  split at rest
  · next marked =>
    obtain ⟨behind, rfl⟩ := List.isPrefixOf_iff_prefix.1 marked
    have same : behind = root.bytes := rest
    exact ⟨Reader.byteOrderMark, by rw [same], by decide, pieces⟩
  · exact ⟨[], rest, List.not_mem_nil, pieces⟩

end XmlSchema.Instance
