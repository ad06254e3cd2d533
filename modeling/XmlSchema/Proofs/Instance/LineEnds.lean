import Mathlib.Data.List.Forall2
import XmlSchema.Proofs.Instance.Locality
import XmlSchema.Proofs.Text.LineEnds

/-!
# Documents with other line ends

The reader does not look for line ends, so it keeps them: if some line feeds in the text of a document
get carriage returns (`Rebroken`), every scan reads the same token up to line ends
(`scan?_rebroken`), no reference is torn (`replaceFrom_rebroken`), and the events that are delivered
are the same up to line ends (`document_rebroken`).
-/

namespace XmlSchema.Instance

/-! ## References -/

section References

variable {text text' acc acc' chars : List Char} {d : Char}

theorem value_of_digit {base value : Nat} {c : Char} (found : digitValue? base c = some value) :
    c ≠ '\n' := by
  rintro rfl
  simp [digitValue?] at found

theorem lineFeed_not_mem_digits {base value n : Nat} {digits : List Char}
    (read : digitsFrom base value digits = .ok n) : '\n' ∉ digits := by
  induction digits generalizing value with
  | nil => simp
  | cons c rest ih =>
    rw [digitsFrom] at read
    split at read
    · cases read
    · next found =>
      dsimp only at read
      split at read
      · exact List.not_mem_cons_of_ne_of_not_mem (value_of_digit found).symm (ih read)
      · cases read

theorem lineFeed_not_mem_number {base n : Nat} {digits : List Char}
    (read : number base digits = .ok n) : '\n' ∉ digits := by
  unfold number at read
  split at read
  · cases read
  · split at read
    · cases read
    · exact lineFeed_not_mem_digits read

theorem lineFeed_not_mem_numbered (read : numbered text = .ok d) : '\n' ∉ text := by
  unfold numbered at read
  split at read
  · obtain ⟨n, digits, -⟩ := bind_eq_ok.1 read
    exact List.not_mem_cons_of_ne_of_not_mem (by decide) (lineFeed_not_mem_number digits)
  · obtain ⟨n, digits, -⟩ := bind_eq_ok.1 read
    exact lineFeed_not_mem_number digits

theorem lineFeed_not_mem_entity (known : entity? text = some d) : '\n' ∉ text := by
  unfold entity? at known
  split at known
  case h_6 => cases known
  all_goals
    next same =>
    rw [← String.toList_ofList (l := text), same]
    decide

theorem lineFeed_not_mem_reference {first : Nat} (read : referenced first text = .ok d) :
    '\n' ∉ text := by
  unfold referenced at read
  split at read
  · exact List.not_mem_cons_of_ne_of_not_mem (by decide)
      (lineFeed_not_mem_numbered (mapError_eq_ok.1 read))
  · split at read
    · next known =>
      exact lineFeed_not_mem_entity known
    · cases read

theorem lineFeed_not_mem_opened {position : Nat} {r : OpenReference}
    (read : replaceFrom position (some r) acc text = .ok chars) : '\n' ∉ r.reversed := by
  induction text generalizing position r acc with
  | nil => cases read
  | cons c rest ih =>
    rw [replaceFrom] at read
    split at read
    · cases read
    · split at read
      · split at read
        · next found =>
          exact fun member => lineFeed_not_mem_reference found (List.mem_reverse.2 member)
        · cases read
      · exact fun member => ih read (List.mem_cons_of_mem _ member)

theorem referenced_congr {first : Nat} (read : referenced first text = .ok d) (first' : Nat) :
    referenced first' text = .ok d := by
  unfold referenced at read ⊢
  split at read
  · exact read
  · split at read
    · exact read
    · cases read

theorem replaceFrom_rebroken (replaced : Replaced '\n' ['\r', '\n'] text text')
    (found : Replaced '\n' ['\n', '\r'] acc acc') {opened opened' : Option OpenReference}
    (same : opened.map (·.reversed) = opened'.map (·.reversed)) {position : Nat}
    (read : replaceFrom position opened acc text = .ok chars) (position' : Nat) :
    ∃ chars', replaceFrom position' opened' acc' text' = .ok chars' ∧
      Replaced '\n' ['\r', '\n'] chars chars' := by
  induction replaced generalizing acc acc' opened opened' position position' with
  | nil =>
    cases opened with
    | some r => cases read
    | none =>
      obtain rfl : opened' = none := by simpa using same.symm
      obtain rfl := Except.ok.inj read
      exact ⟨_, rfl, found.reverse⟩
  | keep c _ ih =>
    cases opened with
    | none =>
      obtain rfl : opened' = none := by simpa using same.symm
      rw [replaceFrom] at read ⊢
      split at read
      · next begins =>
        rw [if_pos begins]
        have begun : (some (⟨position, []⟩ : OpenReference)).map (·.reversed) =
            (some (⟨position', []⟩ : OpenReference)).map (·.reversed) := rfl
        exact ih found begun read _
      · next other =>
        rw [if_neg other]
        exact ih (found.keep c) rfl read _
    | some r =>
      obtain ⟨r', rfl, reversed⟩ := Option.map_eq_some_iff.1 same.symm
      rw [replaceFrom] at read ⊢
      split at read
      · cases read
      · next notBegin =>
        rw [if_neg notBegin]
        split at read
        · next ends =>
          rw [if_pos ends]
          split at read
          · next known =>
            rw [reversed, referenced_congr known]
            exact ih (found.keep _) rfl read _
          · cases read
        · next other =>
          rw [if_neg other]
          exact ih found (by simp [reversed]) read _
  | replace _ ih =>
    cases opened with
    | none =>
      obtain rfl : opened' = none := by simpa using same.symm
      exact ih found.replace rfl read _
    | some r =>
      -- A reference with a line feed in it is refused.
      have lineFeed := lineFeed_not_mem_opened (r := ⟨r.position, '\n' :: r.reversed⟩) read
      exact absurd List.mem_cons_self lineFeed

end References

variable {content content' : Bytes} {text : String}

theorem readContent_rebroken (rebroken : Utf8.Rebroken content content')
    (read : readContent content = .ok text) :
    ∃ text', readContent content' = .ok text' ∧ Text.Rebroken text text' := by
  simp only [readContent, bind_eq_ok, mapError_eq_ok] at read ⊢
  obtain ⟨raw, decoded, replaced⟩ := read
  obtain ⟨raw', decoded', rebroken'⟩ := Utf8.decode_rebroken rebroken decoded
  unfold replaceReferences at replaced
  cases found : replaceFrom 0 none [] raw.toList with
  | error fault => simp [found, Except.map] at replaced
  | ok chars =>
    obtain rfl : String.ofList chars = text := by simpa [found, Except.map] using replaced
    have notOpen : (none : Option OpenReference).map (·.reversed) =
        (none : Option OpenReference).map (·.reversed) := rfl
    obtain ⟨chars', found', lines⟩ := replaceFrom_rebroken rebroken' .nil notOpen found 0
    refine ⟨String.ofList chars', ⟨raw', decoded', ?_⟩, ?_⟩
    · simp [replaceReferences, found', Except.map]
    · simpa [Text.Rebroken] using lines

/-! ## Tokens -/

theorem Progress.holdsSectionEnd_cons {b : UInt8} (other : b ≠ ']'.toUInt8) (rest : Bytes) :
    holdsSectionEnd (b :: rest) = holdsSectionEnd rest := by
  have noStart : (ascii "]]>").isPrefixOf (b :: rest) = false := by
    have different : (']'.toUInt8 == b) = false := beq_false_of_ne other.symm
    change (']'.toUInt8 == b && (ascii "]>").isPrefixOf rest) = false
    rw [different, Bool.false_and]
  rw [holdsSectionEnd, noStart, Bool.false_or]

theorem holdsSectionEnd_rebroken (rebroken : Utf8.Rebroken content content') :
    Progress.holdsSectionEnd content' = Progress.holdsSectionEnd content := by
  induction rebroken with
  | nil => rfl
  | @keep b xs ys later ih =>
    have absent : 0x0A ∉ ascii "]]>" ∧ 0x0D ∉ ascii "]]>" := by decide
    rw [Progress.holdsSectionEnd, Progress.holdsSectionEnd, ih,
      (later.keep b).isPrefixOf_eq absent.1 absent.2]
  | replace _ ih =>
    rw [List.cons_append, List.cons_append, List.nil_append,
      Progress.holdsSectionEnd_cons (by decide), Progress.holdsSectionEnd_cons (by decide),
      Progress.holdsSectionEnd_cons (by decide), ih]

theorem LegalText.rebroken (legal : LegalText text) {text' : String}
    (rebroken : Text.Rebroken text text') : LegalText text' := by
  have legalEnds : Xml.isXmlChar '\n' = true ∧ ['\r', '\n'].all Xml.isXmlChar = true := by decide
  have same := Replaced.all_eq rebroken legalEnds.1 legalEnds.2
  rw [LegalText, ← List.all_eq_true] at legal ⊢
  rw [same, legal]

theorem isBlankText_rebroken {text' : String} (rebroken : Text.Rebroken text text') :
    Progress.isBlankText text' = Progress.isBlankText text :=
  Replaced.all_eq rebroken rfl rfl

/-- A token is another one with other line ends in what it holds of the text of elements. -/
inductive Token.Rebroken : Token → Token → Prop
  | text {content content' : Bytes} (lines : Utf8.Rebroken content content') :
      Rebroken (.text content) (.text content')
  | cdata {content content' : Bytes} (lines : Utf8.Rebroken content content') :
      Rebroken (.cdata content) (.cdata content')
  | same (token : Token) : Rebroken token token

inductive Event.Rebroken : Event → Event → Prop
  | text {content content' : String} (lines : Text.Rebroken content content') :
      Rebroken (.text content) (.text content')
  | same (event : Event) : Rebroken event event

variable {p q : Progress} {events : List Event}

theorem readText_rebroken (lines : Utf8.Rebroken content content')
    (read : p.readText content = .ok events) :
    ∃ events', p.readText content' = .ok events' ∧
      List.Forall₂ Event.Rebroken events events' := by
  obtain ⟨noEnd, text, value, legal, given⟩ := readText_eq_ok.1 read
  obtain ⟨text', value', lines'⟩ := readContent_rebroken lines value
  have reads (events') (given' : p.isInside = true ∧ events' = [.text text'] ∨
      p.isInside = false ∧ Progress.isBlankText text' = true ∧ events' = []) :
      p.readText content' = .ok events' :=
    readText_eq_ok.2
      ⟨(holdsSectionEnd_rebroken lines).trans noEnd, text', value', legal.rebroken lines', given'⟩
  rcases given with ⟨inside, rfl⟩ | ⟨outside, blank, rfl⟩
  · exact ⟨_, reads _ (.inl ⟨inside, rfl⟩), .cons (.text lines') .nil⟩
  · rw [← isBlankText_rebroken lines'] at blank
    exact ⟨_, reads _ (.inr ⟨outside, blank, rfl⟩), .nil⟩

theorem readCData_rebroken (lines : Utf8.Rebroken content content')
    (read : p.readCData content = .ok events) :
    ∃ events', p.readCData content' = .ok events' ∧
      List.Forall₂ Event.Rebroken events events' := by
  obtain ⟨inside, legal, rfl⟩ := readCData_eq_ok.1 read
  have lines' := Utf8.decodeLossy_rebroken lines
  exact ⟨_, readCData_eq_ok.2 ⟨inside, legal.rebroken lines', rfl⟩, .cons (.text lines') .nil⟩

theorem read_rebroken {token token' : Token} (lines : token.Rebroken token')
    (read : p.read token = .ok (events, q)) :
    ∃ events', p.read token' = .ok (events', q) ∧ List.Forall₂ Event.Rebroken events events' := by
  cases lines with
  | same => exact ⟨events, read, List.forall₂_same.2 fun event _ => .same event⟩
  | text lines =>
    cases Progress.read_eq_ok_iff.1 read with
    | text ofText =>
      obtain ⟨events', ofText', same⟩ := readText_rebroken lines ofText
      exact ⟨events', Progress.read_eq_ok_iff.2 (.text ofText'), same⟩
  | cdata lines =>
    cases Progress.read_eq_ok_iff.1 read with
    | cdata ofData =>
      obtain ⟨events', ofData', same⟩ := readCData_rebroken lines ofData
      exact ⟨events', Progress.read_eq_ok_iff.2 (.cdata ofData'), same⟩

/-! ## Character data -/

theorem between_append (before inside after : Bytes) :
    between before.length after.length (before ++ inside ++ after) = inside := by
  simp [between]

def sectionStart : Bytes := ascii "![CDATA["

def sectionOf (inside : Bytes) : Bytes := sectionStart ++ inside ++ ascii "]]"

theorem cdata_sectionOf (inside : Bytes) : cdata (sectionOf inside) = .ok (.cdata inside) := by
  have starts : (ascii "![CDATA[").isPrefixOf (sectionOf inside) = true := by
    rw [List.isPrefixOf_iff_prefix, sectionOf, List.append_assoc]
    exact List.prefix_append _ _
  rw [cdata, if_pos starts]
  exact congrArg (fun bytes => Except.ok (Token.cdata bytes))
    (between_append sectionStart inside (ascii "]]"))

theorem exists_sectionOf_eq {token : Token} (read : cdata content = .ok token)
    (ends : (ascii "]]").isPrefixOf content.reverse = true) :
    ∃ inside, content = sectionOf inside := by
  unfold cdata at read
  split at read
  · next starts =>
    obtain ⟨later, rfl⟩ := List.isPrefixOf_iff_prefix.1 starts
    obtain ⟨before, same⟩ := List.isPrefixOf_iff_prefix.1 ends
    rw [List.reverse_append] at same
    replace same : ']'.toUInt8 :: ']'.toUInt8 :: before =
      later.reverse ++ sectionStart.reverse := same
    -- The brackets at the end are none of those at the start.
    match reversed : later.reverse with
    | [] =>
      rw [reversed] at same
      exact absurd (List.cons.inj same).1 (by decide)
    | [_] =>
      rw [reversed] at same
      exact absurd (List.cons.inj (List.cons.inj same).2).1 (by decide)
    | b :: c :: inside =>
      rw [reversed] at same
      obtain ⟨rfl, next⟩ := List.cons.inj same
      obtain rfl : ']'.toUInt8 = c := (List.cons.inj next).1
      refine ⟨inside.reverse, ?_⟩
      rw [← List.reverse_reverse later, reversed, sectionOf, List.append_assoc, List.reverse_cons,
        List.reverse_cons, List.append_assoc]
      rfl
  · cases read

theorem endAfter?_cons_of_ne {ending passed : Bytes} {least : Nat} {b : UInt8}
    (other : b ≠ '>'.toUInt8) (rest : Bytes) :
    endAfter? ending least passed (b :: rest) = endAfter? ending least (b :: passed) rest := by
  rw [endAfter?, beq_false_of_ne other]
  rfl

theorem endAfter?_rebroken {ending passed passed' inside inside' rest : Bytes}
    (absent : 0x0A ∉ ending) (lines : Utf8.Rebroken inside inside')
    (before : Replaced 0x0A [0x0A, 0x0D] passed passed')
    (found : endAfter? ending 0 passed (inside ++ '>'.toUInt8 :: rest) =
      some (passed.reverse ++ inside, rest)) (rest' : Bytes) :
    endAfter? ending 0 passed' (inside' ++ '>'.toUInt8 :: rest') =
      some (passed'.reverse ++ inside', rest') := by
  induction lines generalizing passed passed' with
  | nil =>
    rw [List.nil_append, endAfter?] at found ⊢
    split at found
    · next ends =>
      rw [before.isPrefixOf_eq absent absent]
      simp only [Bool.and_eq_true] at ends
      simp [ends.1.2]
    · -- An end that is found later leaves fewer bytes behind it.
      obtain ⟨between, whole, -⟩ := endAfter?_local found
      have longer := congrArg List.length whole
      simp only [List.length_append, List.length_cons] at longer
      omega
  | @keep b xs ys _ ih =>
    rw [List.cons_append, endAfter?] at found ⊢
    split at found
    · -- An end that is found here leaves more.
      have shorter := congrArg List.length (Prod.mk.inj (Option.some.inj found)).2
      simp only [List.length_append, List.length_cons] at shorter
      omega
    · next goesOn =>
      rw [before.isPrefixOf_eq absent absent]
      simp only [Nat.zero_le, decide_true, Bool.and_true] at goesOn ⊢
      rw [if_neg goesOn]
      simpa using ih (before.keep b) (by simpa using found)
  | replace _ ih =>
    rw [List.cons_append, endAfter?_cons_of_ne (by decide)] at found
    rw [List.append_assoc, List.cons_append, List.cons_append, List.nil_append,
      endAfter?_cons_of_ne (by decide), endAfter?_cons_of_ne (by decide)]
    simpa using ih before.replace (by simpa using found)

theorem scanMarkup_sectionOf {inside rest : Bytes}
    (found : endAfter? (ascii "]]") 0 [] (sectionOf inside ++ '>'.toUInt8 :: rest) =
      some (sectionOf inside, rest)) :
    scanMarkup (sectionOf inside ++ '>'.toUInt8 :: rest) =
      .markup (.ok (.cdata inside)) (sectionOf inside) rest := by
  have kind (bytes : Bytes) : scanMarkup (sectionStart ++ bytes) =
      .upTo (endAfter? (ascii "]]") 0 [] (sectionStart ++ bytes)) cdata .unclosedCData
        (sectionStart ++ bytes) := rfl
  have whole : sectionOf inside ++ '>'.toUInt8 :: rest =
      sectionStart ++ (inside ++ ascii "]]" ++ '>'.toUInt8 :: rest) := by
    simp only [sectionOf, List.append_assoc]
  rw [whole, kind, ← whole, found, Scan.upTo, cdata_sectionOf]

def Token.isContent : Token → Bool
  | .text _ | .cdata _ => true
  | _ => false

theorem exists_sectionOf_scanMarkup {bytes : Bytes} {token : Token}
    (read : (scanMarkup bytes).result = .ok token) (isContent : token.isContent = true) :
    ∃ inside rest, endAfter? (ascii "]]") 0 [] (sectionOf inside ++ '>'.toUInt8 :: rest) =
        some (sectionOf inside, rest) ∧
      bytes = sectionOf inside ++ '>'.toUInt8 :: rest := by
  obtain ⟨content, rest, rfl, -, marks⟩ := marks_of_scanMarkup read
  cases marks with
  | cdata found meant =>
    obtain ⟨inside, rfl⟩ := exists_sectionOf_eq meant (endAfter?_ends found)
    exact ⟨inside, rest, found, rfl⟩
  | comment _ meant =>
    unfold comment at meant
    split at meant
    all_goals cases meant
    cases isContent
  | doctype meant =>
    unfold doctype at meant
    repeat' split at meant
    all_goals cases meant
    cases isContent
  | instruction _ _ meant =>
    unfold instruction at meant
    dsimp only at meant
    repeat' split at meant
    all_goals cases meant
    all_goals cases isContent
  | tag meant =>
    unfold tag at meant
    repeat' split at meant
    all_goals subst meant
    all_goals cases isContent

/-! ## Documents -/

/-- A document is another one with a carriage return in front of some of the line feeds in text and
character data. -/
inductive Rebroken : Bytes → Bytes → Prop
  | nothing : Rebroken [] []
  | content {bytes read' rest' : Bytes} {s : Scan} {token : Token} (scanned : scan? bytes = some s)
      (read : s.result = .ok token) (isContent : token.isContent = true)
      (lines : Utf8.Rebroken s.read read') (later : Rebroken s.rest rest') :
      Rebroken bytes (read' ++ rest')
  | kept {bytes rest' : Bytes} {s : Scan} (scanned : scan? bytes = some s)
      (later : Rebroken s.rest rest') : Rebroken bytes (s.read ++ rest')

variable {bytes bytes' : Bytes} {s : Scan} {token : Token}

theorem Rebroken.replaced (lines : Rebroken bytes bytes') : Utf8.Rebroken bytes bytes' := by
  induction lines with
  | nothing => exact .nil
  | content scanned _ _ lines _ ih =>
    rw [← (scan?_append scanned).1]
    exact lines.append ih
  | kept scanned _ ih =>
    rw [← (scan?_append scanned).1]
    exact (Replaced.refl _).append ih

theorem Rebroken.of_scan (rebroken : Rebroken bytes bytes') (scanned : scan? bytes = some s) :
    ∃ read' rest', bytes' = read' ++ rest' ∧ Utf8.Rebroken s.read read' ∧
      Rebroken s.rest rest' := by
  cases rebroken with
  | nothing => cases scanned
  | kept scanned' later =>
    obtain rfl := Option.some.inj (scanned.symm.trans scanned')
    exact ⟨_, _, rfl, Replaced.refl _, later⟩
  | content scanned' _ _ lines later =>
    obtain rfl := Option.some.inj (scanned.symm.trans scanned')
    exact ⟨_, _, rfl, lines, later⟩

theorem Rebroken.ends (lines : Rebroken bytes bytes') (ends : ∀ b ∈ bytes.head?, b = '<'.toUInt8) :
    ∀ b ∈ bytes'.head?, b = '<'.toUInt8 := by
  have replaced := lines.replaced
  cases bytes with
  | nil =>
    rw [Replaced.nil_iff.1 replaced]
    exact ends
  | cons b bytes =>
    obtain rfl := ends b rfl
    obtain ⟨ys, -, rfl | ⟨same, -⟩⟩ := Replaced.cons_iff.1 replaced
    · exact ends
    · exact absurd same (by decide)

theorem head?_dropWhile_text (bytes : Bytes) :
    ∀ b ∈ (bytes.dropWhile (· != '<'.toUInt8)).head?, b = '<'.toUInt8 := by
  intro b first
  have notText := List.head?_dropWhile_not (· != '<'.toUInt8) bytes
  rw [Option.mem_def.1 first] at notText
  simpa using notText

theorem scan?_of_text (nonempty : bytes ≠ []) (text : bytes.head? ≠ some '<'.toUInt8) :
    scan? bytes = some ⟨.ok (.text (bytes.takeWhile (· != '<'.toUInt8))),
      bytes.takeWhile (· != '<'.toUInt8), bytes.dropWhile (· != '<'.toUInt8)⟩ := by
  cases bytes with
  | nil => exact absurd rfl nonempty
  | cons b bytes =>
    have notMarkup : ¬ (b == '<'.toUInt8) = true := by simpa using text
    rw [scan?_cons, if_neg notMarkup]

theorem scan?_text_rebroken {read' rest' : Bytes} (scanned : scan? bytes = some s)
    (text : bytes.head? ≠ some '<'.toUInt8) (lines : Utf8.Rebroken s.read read')
    (later : Rebroken s.rest rest') :
    s.result = .ok (.text s.read) ∧
      scan? (read' ++ rest') = some ⟨.ok (.text read'), read', rest'⟩ := by
  have nonempty : s.read ≠ [] := (scan?_append scanned).2
  have isNonempty : bytes ≠ [] := by
    rintro rfl
    cases scanned
  rw [scan?_of_text isNonempty text] at scanned
  obtain rfl := Option.some.inj scanned
  refine ⟨rfl, scan?_text ?_ ?_ (later.ends (head?_dropWhile_text bytes))⟩
  · rintro rfl
    exact nonempty lines.eq_nil
  · rw [← List.all_eq_true, Replaced.all_eq lines (by decide) (by decide)]
    exact List.all_takeWhile

theorem scan?_section_rebroken {inside rest : Bytes} {bytes' rest' : Bytes}
    (found : endAfter? (ascii "]]") 0 [] (sectionOf inside ++ '>'.toUInt8 :: rest) =
      some (sectionOf inside, rest))
    (lines : Utf8.Rebroken ('<'.toUInt8 :: sectionOf inside ++ ['>'.toUInt8]) bytes') :
    ∃ inside', Utf8.Rebroken inside inside' ∧ scan? (bytes' ++ rest') =
      some (.markup (.ok (.cdata inside')) (sectionOf inside') rest') := by
  have parts : '<'.toUInt8 :: sectionOf inside ++ ['>'.toUInt8] =
      ascii "<![CDATA[" ++ (inside ++ ascii "]]>") := by
    simp [sectionOf, sectionStart, ascii]
  rw [parts] at lines
  obtain ⟨start', _, rfl, same, later⟩ := lines.of_append
  obtain ⟨inside', end', rfl, between, same'⟩ := later.of_append
  obtain rfl := same.eq_of_not_mem (by decide)
  obtain rfl := same'.eq_of_not_mem (by decide)
  refine ⟨inside', between, ?_⟩
  have around : Utf8.Rebroken (sectionOf inside) (sectionOf inside') :=
    ((Replaced.refl _).append between).append (.refl _)
  have found' := endAfter?_rebroken (by decide) around .nil found rest'
  have whole : ascii "<![CDATA[" ++ (inside' ++ ascii "]]>") ++ rest' =
      '<'.toUInt8 :: (sectionOf inside' ++ '>'.toUInt8 :: rest') := by
    simp [sectionOf, sectionStart, ascii]
  rw [whole]
  exact congrArg some (scanMarkup_sectionOf found')

theorem scan?_rebroken (rebroken : Rebroken bytes bytes') (scanned : scan? bytes = some s)
    (read : s.result = .ok token) :
    ∃ s' token', scan? bytes' = some s' ∧ s'.result = .ok token' ∧ token.Rebroken token' ∧
      Rebroken s.rest s'.rest := by
  -- Only of character data is the end looked for among bytes that may be other ones.
  by_cases text : bytes.head? = some '<'.toUInt8
  · cases rebroken with
    | nothing => cases text
    | kept scanned' later =>
      obtain rfl := Option.some.inj (scanned.symm.trans scanned')
      exact ⟨_, token, scan?_local scanned read text _, read, .same token, later⟩
    | content scanned' read' isContent lines later =>
      obtain rfl := Option.some.inj (scanned.symm.trans scanned')
      obtain rfl := Except.ok.inj (read.symm.trans read')
      cases bytes with
      | nil => cases text
      | cons b bytes =>
        obtain rfl := Option.some.inj text
        obtain rfl := Option.some.inj scanned
        obtain ⟨inside, rest, found, rfl⟩ := exists_sectionOf_scanMarkup read isContent
        rw [scanMarkup_sectionOf found] at read lines
        obtain rfl := Except.ok.inj read
        obtain ⟨inside', between, scanned'⟩ := scan?_section_rebroken found lines
        exact ⟨_, _, scanned', rfl, .cdata between, later⟩
  · obtain ⟨read', rest', rfl, lines, later⟩ := rebroken.of_scan scanned
    obtain ⟨isText, scanned'⟩ := scan?_text_rebroken scanned text lines later
    obtain rfl := Except.ok.inj (isText.symm.trans read)
    exact ⟨_, _, scanned', rfl, .text lines, later⟩

/-! ## Reading -/

variable {r r' : Reader}

theorem map_fst_delivered (more : List Event) (location : Location)
    (earlier : List (Event × Location)) :
    ((more.map (·, location)).reverse ++ earlier).map Prod.fst =
      more.reverse ++ earlier.map Prod.fst := by
  simp [Function.comp_def]

theorem Reading.rebroken {earlier earlier' : List (Event × Location)} {document : Document}
    (reading : Reading r p earlier document) (lines : Rebroken r.rest r'.rest)
    (before : List.Forall₂ Event.Rebroken (earlier.map Prod.fst) (earlier'.map Prod.fst))
    (faultless : document.fault? = none) :
    ∃ document', Reading r' p earlier' document' ∧ document'.fault? = none ∧
      List.Forall₂ Event.Rebroken (document.events.map Prod.fst)
        (document'.events.map Prod.fst) := by
  induction reading generalizing r' earlier' with
  | ended ended =>
    rw [scan?_eq_none ended] at lines
    have ended' : scan? r'.rest = none := by
      rw [Replaced.nil_iff.1 lines.replaced]
      rfl
    refine ⟨_, .ended ended', by simpa using faultless, ?_⟩
    rw [List.map_reverse, List.map_reverse]
    exact List.rel_reverse before
  | broken | refused => cases faultless
  | @goesOn r p q earlier s token more document scanned result read _ ih =>
    obtain ⟨s', token', scanned', result', sameToken, linesLater⟩ :=
      scan?_rebroken lines scanned result
    obtain ⟨more', read', sameEvents⟩ := read_rebroken sameToken read
    have linesLater : Rebroken (r.after s).rest (r'.after s').rest := linesLater
    have behind : List.Forall₂ Event.Rebroken
        (((more.map (·, (r.after s).location)).reverse ++ earlier).map Prod.fst)
        (((more'.map (·, (r'.after s').location)).reverse ++ earlier').map Prod.fst) := by
      rw [map_fst_delivered, map_fst_delivered]
      exact List.rel_append (List.rel_reverse sameEvents) before
    obtain ⟨document', later, same⟩ := ih linesLater behind faultless
    exact ⟨document', .goesOn scanned' result' read' later, same⟩

theorem Rebroken.of_text {read' rest' : Bytes}
    (lines : Utf8.Rebroken (bytes.takeWhile (· != '<'.toUInt8)) read')
    (later : Rebroken (bytes.dropWhile (· != '<'.toUInt8)) rest') :
    Rebroken bytes (read' ++ rest') := by
  by_cases text : bytes.head? ≠ some '<'.toUInt8 ∧ bytes ≠ []
  · exact .content (scan?_of_text text.2 text.1) rfl rfl lines later
  · have none : bytes.takeWhile (· != '<'.toUInt8) = [] ∧
        bytes.dropWhile (· != '<'.toUInt8) = bytes := by
      cases bytes with
      | nil => exact ⟨rfl, rfl⟩
      | cons b bytes =>
        obtain rfl : b = '<'.toUInt8 := by simpa using text
        exact ⟨rfl, rfl⟩
    rw [none.1] at lines
    rw [none.2] at later
    rwa [Replaced.nil_iff.1 lines]

theorem Rebroken.of_byteOrderMark
    (lines : Rebroken (Reader.byteOrderMark ++ bytes) (Reader.byteOrderMark ++ bytes')) :
    Rebroken bytes bytes' := by
  have isText : ∀ b ∈ Reader.byteOrderMark, (b != '<'.toUInt8) = true :=
    List.all_eq_true.1 (by decide)
  have notMarkup : (Reader.byteOrderMark ++ bytes).head? ≠ some '<'.toUInt8 := fun same =>
    absurd (Option.some.inj same) (by decide)
  have nonempty : Reader.byteOrderMark ++ bytes ≠ [] := List.cons_ne_nil _ _
  have scanned := scan?_of_text nonempty notMarkup
  rw [List.takeWhile_append_of_pos isText, List.dropWhile_append_of_pos isText] at scanned
  obtain ⟨read', rest', whole, marked, later⟩ := lines.of_scan scanned
  obtain ⟨mark, text', rfl, same, text⟩ := Replaced.of_append marked
  obtain rfl := same.eq_of_not_mem (by decide)
  rw [List.append_assoc] at whole
  obtain rfl := List.append_cancel_left whole
  exact .of_text text later

theorem Rebroken.ofBytes (lines : Rebroken bytes bytes') :
    Rebroken (Reader.ofBytes bytes).rest (Reader.ofBytes bytes').rest := by
  have sameMark : Reader.byteOrderMark.isPrefixOf bytes' = Reader.byteOrderMark.isPrefixOf bytes :=
    lines.replaced.isPrefixOf_eq (by decide) (by decide)
  unfold Reader.ofBytes
  rw [sameMark]
  split
  · next marked =>
    obtain ⟨more, rfl⟩ := List.isPrefixOf_iff_prefix.1 marked
    obtain ⟨more', rfl⟩ := List.isPrefixOf_iff_prefix.1 (sameMark.trans marked)
    exact lines.of_byteOrderMark
  · exact lines

theorem document_rebroken (lines : Rebroken bytes bytes')
    (wellFormed : (Document.ofBytes bytes).fault? = none) :
    (Document.ofBytes bytes').fault? = none ∧
      List.Forall₂ Event.Rebroken ((Document.ofBytes bytes).events.map Prod.fst)
        ((Document.ofBytes bytes').events.map Prod.fst) := by
  have nothing : List.Forall₂ Event.Rebroken (([] : List (Event × Location)).map Prod.fst)
      (([] : List (Event × Location)).map Prod.fst) := .nil
  obtain ⟨document', reading, same⟩ :=
    (Reading.ofBytes bytes).rebroken lines.ofBytes nothing wellFormed
  rwa [reading.ofBytes_eq]

end XmlSchema.Instance
