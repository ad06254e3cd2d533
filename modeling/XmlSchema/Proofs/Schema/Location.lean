import XmlSchema.Schema.Document

namespace XmlSchema.Text

theorem cutWhere_eq_splitOnP (p : Char → Bool) (text : List Char) :
    cutWhere p text = text.splitOnP p := by
  induction text with
  | nil => rfl
  | cons c text ih =>
    rw [cutWhere, List.splitOnP_cons_eq_if_modifyHead, ih]
    cases parts : text.splitOnP p with
    | nil => exact absurd parts (List.splitOnP_ne_nil p text)
    | cons part rest => rfl

theorem cutAt_eq_splitOn (separator : Char) (text : String) :
    cutAt separator text = (text.toList.splitOn separator).map String.ofList := by
  rw [cutAt, cutWhere_eq_splitOnP]
  rfl

theorem eq_false_of_mem_cutWhere {p : Char → Bool} {text part : List Char} {c : Char}
    (member : part ∈ cutWhere p text) (among : c ∈ part) : p c = false := by
  induction text generalizing part with
  | nil =>
    obtain rfl := List.mem_singleton.1 member
    cases among
  | cons d text ih =>
    rw [cutWhere] at member
    cases parts : cutWhere p text with
    | nil =>
      rw [cutWhere_eq_splitOnP] at parts
      exact absurd parts (List.splitOnP_ne_nil p text)
    | cons first rest =>
      simp only [parts] at member ih
      split at member
      · rcases List.mem_cons.1 member with rfl | later
        · cases among
        · exact ih later among
      · next other =>
        rcases List.mem_cons.1 member with rfl | later
        · rcases List.mem_cons.1 among with rfl | inFirst
          · simpa using other
          · exact ih List.mem_cons_self inFirst
        · exact ih (List.mem_cons_of_mem _ later) among

theorem head?_intercalate {part : List Char} (nonempty : part ≠ []) (separator : List Char)
    (parts : List (List Char)) : (separator.intercalate (part :: parts)).head? = part.head? := by
  obtain ⟨c, rest, rfl⟩ := List.exists_cons_of_ne_nil nonempty
  cases parts with
  | nil => simp
  | cons next parts => simp [List.intercalate_cons_cons]

theorem occursIn_iff {part text : List Char} : occursIn part text = true ↔ part <:+: text := by
  induction text with
  | nil => cases part <;> simp [occursIn]
  | cons c text ih =>
    rw [occursIn, Bool.or_eq_true, ih, List.infix_cons_iff, List.isPrefixOf_iff_prefix]

theorem infix_append_cons {part before after : List Char} {c : Char} (absent : c ∉ part)
    (among : part <:+: before ++ c :: after) : part <:+: before ∨ part <:+: after := by
  have nilOfPrefix {front : List Char} (lacks : c ∉ front) (starts : front <+: c :: after) :
      front = [] := by
    cases front with
    | nil => rfl
    | cons d front =>
      obtain ⟨rest, equal⟩ := starts
      exact absurd ((List.cons.inj equal).1 ▸ List.mem_cons_self) lacks
  rcases List.infix_append_iff.1 among with left | right | ⟨front, back, rfl, ends, starts⟩
  · exact .inl left
  · rcases List.infix_cons_iff.1 right with starts | right
    · rw [nilOfPrefix absent starts]
      exact .inl List.nil_infix
    · exact .inr right
  · rw [nilOfPrefix (fun member => absent (List.mem_append_right _ member)) starts,
      List.append_nil]
    exact .inl ends.isInfix

end XmlSchema.Text

namespace XmlSchema.Files.Path

def IsStep (step : String) : Prop := step ≠ "" ∧ step ≠ "." ∧ '/' ∉ step.toList

def Proper (p : Path) : Prop := ∀ step ∈ p.steps, IsStep step

theorem proper_ofText (text : String) : (ofText text).Proper := by
  intro step member
  simp only [ofText, List.mem_filter, Bool.and_eq_true, bne_iff_ne] at member
  obtain ⟨among, notEmpty, notDot⟩ := member
  obtain ⟨part, isPart, rfl⟩ := List.mem_map.1 among
  refine ⟨notEmpty, notDot, fun slash => ?_⟩
  rw [String.toList_ofList] at slash
  have separates := Text.eq_false_of_mem_cutWhere isPart slash
  simp at separates

theorem toList_text (p : Path) : p.text.toList =
    (if p.absolute then ['/'] else []) ++ ['/'].intercalate (p.steps.map String.toList) := by
  rw [text, String.toList_append, String.toList_intercalate]
  split <;> rfl

def joined (steps : List String) : List Char := ['/'].intercalate (steps.map String.toList)

theorem joined_cons_cons (step next : String) (steps : List String) :
    joined (step :: next :: steps) = step.toList ++ '/' :: joined (next :: steps) := by
  simp [joined, List.intercalate_cons_cons]

theorem filter_splitOn_joined {steps : List String} (proper : ∀ step ∈ steps, IsStep step) :
    (((joined steps).splitOn '/').map String.ofList).filter (fun step => step != "" && step != ".") =
      steps := by
  cases steps with
  | nil => rfl
  | cons step steps =>
    have separate : ∀ part ∈ (step :: steps).map String.toList, '/' ∉ part := by
      intro part member
      obtain ⟨step, among, rfl⟩ := List.mem_map.1 member
      exact (proper step among).2.2
    rw [joined, List.splitOn_intercalate '/' separate (by simp), List.map_map]
    have back : (step :: steps).map (String.ofList ∘ String.toList) = step :: steps := by
      simp [Function.comp_def]
    rw [back]
    refine List.filter_eq_self.2 fun step among => ?_
    obtain ⟨notEmpty, notDot, _⟩ := proper step among
    simp [notEmpty, notDot]

theorem head?_joined {steps : List String} (proper : ∀ step ∈ steps, IsStep step) :
    (joined steps).head? ≠ some '/' := by
  cases steps with
  | nil => simp [joined]
  | cons step steps =>
    obtain ⟨notEmpty, _, noSlash⟩ := proper step List.mem_cons_self
    have nonempty : step.toList ≠ [] := fun empty => notEmpty (String.toList_eq_nil_iff.1 empty)
    rw [joined, List.map_cons, Text.head?_intercalate nonempty]
    intro slash
    exact noSlash (List.mem_of_head? slash)

theorem ofText_text {p : Path} (proper : p.Proper) : ofText p.text = p := by
  obtain ⟨absolute, steps⟩ := p
  have letters : (Path.text ⟨absolute, steps⟩).toList =
      (if absolute then ['/'] else []) ++ joined steps := toList_text _
  have same : (Path.text ⟨absolute, steps⟩).startsWith "/" = absolute := by
    rw [Bool.eq_iff_iff, String.startsWith_string_iff, letters]
    cases absolute with
    | true => simp
    | false =>
      have notSlash := head?_joined proper
      simp only [Bool.false_eq_true, if_false, List.nil_append, iff_false]
      rintro ⟨rest, equal⟩
      rw [← equal] at notSlash
      exact notSlash rfl
  have sameSteps : (Text.cutAt '/' (Path.text ⟨absolute, steps⟩)).filter
      (fun step => step != "" && step != ".") = steps := by
    rw [Text.cutAt_eq_splitOn, letters]
    cases absolute with
    | true =>
      have first : ('/' :: joined steps).splitOn '/' = [] :: (joined steps).splitOn '/' := by
        simp [List.splitOn, List.splitOnP_cons_eq_if_modifyHead]
      rw [if_pos rfl, List.singleton_append, first, List.map_cons, List.filter_cons_of_neg (by simp)]
      exact filter_splitOn_joined proper
    | false => exact filter_splitOn_joined proper
  rw [ofText, same, sameSteps]

theorem steps_append (before after : String) :
    (ofText (before ++ "/" ++ after)).steps = (ofText before).steps ++ (ofText after).steps := by
  have cut : Text.cutAt '/' (before ++ "/" ++ after) =
      Text.cutAt '/' before ++ Text.cutAt '/' after := by
    simp [Text.cutAt_eq_splitOn, List.splitOn, List.splitOnP_append_cons]
  rw [ofText, cut, List.filter_append]
  rfl

theorem steps_of_isStep {step : String} (isStep : IsStep step) : (ofText step).steps = [step] := by
  have text : (⟨false, [step]⟩ : Path).text = step := by simp [text]
  have proper : (⟨false, [step]⟩ : Path).Proper := fun other member =>
    List.mem_singleton.1 member ▸ isStep
  have read := ofText_text proper
  rw [text] at read
  rw [read]

theorem here_append {p : Path} (relative : p.absolute = false) :
    (⟨false, []⟩ : Path).append p = p := by
  obtain ⟨absolute, steps⟩ := p
  obtain rfl : absolute = false := relative
  rfl

theorem push_of_ne {step : String} (name : step ≠ "..") (done : List String) :
    push done step = step :: done := by
  simp [push, name]

theorem push_push_back {step : String} (name : step ≠ "..") (done : List String) :
    push (push done step) ".." = done := by
  rw [push_of_ne name]
  simp [push, name]

theorem mem_push {done : List String} {step other : String} (member : other ∈ push done step) :
    other ∈ done ∨ other = step := by
  by_cases back : step = ".."
  · subst back
    cases done with
    | nil => exact .inr (List.mem_singleton.1 member)
    | cons last rest =>
      by_cases twice : last = ".."
      · subst twice
        exact (List.mem_cons.1 member).symm
      · have removed : push (last :: rest) ".." = rest := by simp [push, twice]
        rw [removed] at member
        exact .inl (List.mem_cons_of_mem _ member)
  · rw [push_of_ne back] at member
    exact (List.mem_cons.1 member).symm

theorem mem_foldl_push {done steps : List String} {step : String}
    (member : step ∈ steps.foldl push done) : step ∈ done ∨ step ∈ steps := by
  induction steps generalizing done with
  | nil => exact .inl member
  | cons first steps ih =>
    rcases ih member with pushed | later
    · rcases mem_push pushed with old | rfl
      · exact .inl old
      · exact .inr List.mem_cons_self
    · exact .inr (List.mem_cons_of_mem _ later)

def IsSettled (done : List String) : Prop := done.reverse.foldl push [] = done

theorem isSettled_nil : IsSettled [] := rfl

theorem IsSettled.cons {done : List String} (settled : IsSettled done) {step : String}
    (stays : push done step = step :: done) : IsSettled (step :: done) := by
  rw [IsSettled, List.reverse_cons, List.foldl_append, settled, List.foldl_cons, stays, List.foldl_nil]

theorem IsSettled.tail {step : String} {done : List String} (settled : IsSettled (step :: done))
    (name : step ≠ "..") : IsSettled done := by
  rw [IsSettled, List.reverse_cons, List.foldl_append, List.foldl_cons, List.foldl_nil,
    push_of_ne name] at settled
  exact (List.cons.inj settled).2

theorem IsSettled.push {done : List String} (settled : IsSettled done) (step : String) :
    IsSettled (Path.push done step) := by
  by_cases back : step = ".."
  · subst back
    cases done with
    | nil => exact settled.cons rfl
    | cons last rest =>
      by_cases twice : last = ".."
      · subst twice
        exact settled.cons rfl
      · have removed : Path.push (last :: rest) ".." = rest := by simp [Path.push, twice]
        rw [removed]
        exact settled.tail twice
  · rw [push_of_ne back]
    exact settled.cons (push_of_ne back done)

theorem isSettled_foldl_push {done : List String} (settled : IsSettled done) (steps : List String) :
    IsSettled (steps.foldl push done) := by
  induction steps generalizing done with
  | nil => exact settled
  | cons step steps ih => exact ih (settled.push step)

theorem Proper.normalize {p : Path} (proper : p.Proper) : p.normalize.Proper := by
  intro step member
  rcases mem_foldl_push (List.mem_reverse.1 member) with none | among
  · cases none
  · exact proper step among

theorem Proper.append {p q : Path} (proper : p.Proper) (properOther : q.Proper) :
    (p.append q).Proper := by
  unfold Path.append
  split
  · exact properOther
  · intro step member
    exact (List.mem_append.1 member).elim (proper step) (properOther step)

theorem normalize_normalize (p : Path) : p.normalize.normalize = p.normalize := by
  have settled : IsSettled (p.steps.foldl push []) := isSettled_foldl_push isSettled_nil _
  simp only [normalize]
  rw [settled]

theorem normalize_append_normalize (p q : Path) :
    (p.normalize.append q).normalize = (p.append q).normalize := by
  unfold append
  split
  · rfl
  · have settled : IsSettled (p.steps.foldl push []) := isSettled_foldl_push isSettled_nil _
    simp only [normalize, List.foldl_append]
    rw [settled]

/-- The last step of a path is not a step back. -/
def EndsWithName (p : Path) : Prop := p.steps.getLast? ≠ some ".."

instance (p : Path) : Decidable p.EndsWithName := inferInstanceAs (Decidable (_ ≠ _))

theorem parent?_normalize {p : Path} (named : p.EndsWithName) :
    p.normalize.parent? = p.parent?.map normalize := by
  obtain ⟨absolute, steps⟩ := p
  rcases List.eq_nil_or_concat steps with rfl | ⟨before, last, rfl⟩
  · rfl
  · have isName : last ≠ ".." := by simpa [EndsWithName] using named
    simp [normalize, parent?, push_of_ne isName]

end XmlSchema.Files.Path

namespace XmlSchema.Schema

open Files (Path)

theorem infix_of_infix_append {c : Char} {before rest : List Char} (absent : c ∉ before)
    (among : [c, c] <:+: before ++ rest) : [c, c] <:+: rest := by
  induction before with
  | nil => exact among
  | cons d before ih =>
    rw [List.mem_cons, not_or] at absent
    obtain ⟨other, absent⟩ := absent
    rcases List.infix_cons_iff.1 among with ⟨_, starts⟩ | later
    · exact absurd (List.cons.inj starts).1 other
    · exact ih absent later

theorem not_infix_joined {steps : List String} (proper : ∀ step ∈ steps, Path.IsStep step) :
    ¬['/', '/'] <:+: Path.joined steps := by
  induction steps with
  | nil => simp [Path.joined]
  | cons step steps ih =>
    obtain ⟨⟨_, _, noSlash⟩, properRest⟩ := List.forall_mem_cons.1 proper
    intro among
    cases steps with
    | nil =>
      have single : Path.joined [step] = step.toList ++ [] := by simp [Path.joined]
      rw [single] at among
      exact absurd (infix_of_infix_append noSlash among) (by simp)
    | cons next steps =>
      rw [Path.joined_cons_cons] at among
      rcases List.infix_cons_iff.1 (infix_of_infix_append noSlash among) with starts | later
      -- The step behind the slash is not empty and holds no slash.
      · obtain ⟨rest, equal⟩ := starts
        refine Path.head?_joined properRest ?_
        rw [← (List.cons.inj equal).2]
        rfl
      · exact ih properRest later

theorem isRemote_text {p : Path} (proper : p.Proper) : isRemote p.text = false := by
  rw [← Bool.not_eq_true, isRemote, Text.occursIn_iff]
  intro among
  have slashes : ['/', '/'] <:+: p.text.toList := List.IsInfix.trans (by decide) among
  rw [Path.toList_text] at slashes
  cases absolute : p.absolute with
  | false =>
    rw [absolute] at slashes
    exact not_infix_joined proper slashes
  | true =>
    rw [absolute, if_pos rfl, List.singleton_append] at slashes
    rcases List.infix_cons_iff.1 slashes with ⟨rest, equal⟩ | later
    · refine Path.head?_joined proper ?_
      rw [Path.joined, ← (List.cons.inj equal).2]
      rfl
    · exact not_infix_joined proper later

theorem normalizeLocation_text {p : Path} (proper : p.Proper) :
    normalizeLocation p.normalize.text = p.normalize.text := by
  rw [normalizeLocation, isRemote_text proper.normalize, if_neg (by simp),
    Path.ofText_text proper.normalize, Path.normalize_normalize]

theorem normalizeLocation_normalizeLocation (location : String) :
    normalizeLocation (normalizeLocation location) = normalizeLocation location := by
  by_cases remote : isRemote location = true
  · simp [normalizeLocation, remote]
  · have normalized : normalizeLocation location = (Path.ofText location).normalize.text := by
      simp [normalizeLocation, remote]
    rw [normalized, normalizeLocation_text (Path.proper_ofText _)]

theorem infix_of_infix_append_snoc {c : Char} {part before rest : List Char} (absent : c ∉ rest)
    (among : part ++ [c] <:+: before ++ rest) : part ++ [c] <:+: before := by
  obtain ⟨front, back, equal⟩ := among
  rcases List.append_eq_append_iff.1 equal with ⟨more, inBefore, _⟩ | ⟨more, across, inRest⟩
  · exact ⟨front, more, inBefore.symm⟩
  · rcases List.eq_nil_or_concat more with rfl | ⟨init, last, rfl⟩
    · exact ⟨front, [], by simpa using across⟩
    -- The last character of the part would stand in the rest.
    · have same : c = last := by
        rw [List.concat_eq_append, ← List.append_assoc, ← List.append_assoc] at across
        exact List.singleton_inj.1 (List.append_inj' across rfl).2
      refine absurd ?_ absent
      simp [inRest, same]

theorem intercalate_concat {c : Char} {parts : List (List Char)} (some : parts ≠ [])
    (last : List Char) : [c].intercalate (parts ++ [last]) = [c].intercalate parts ++ c :: last := by
  induction parts with
  | nil => exact absurd rfl some
  | cons part parts ih =>
    cases parts with
    | nil => simp [List.intercalate_cons_cons]
    | cons next parts =>
      have further := ih (List.cons_ne_nil _ _)
      simp only [List.cons_append] at further ⊢
      simp [List.intercalate_cons_cons, further]

theorem isRemote_beforeLastSlash {base : String} (remote : isRemote base = true)
    (location : String) : isRemote (beforeLastSlash base ++ "/" ++ location) = true := by
  rw [isRemote, Text.occursIn_iff] at remote ⊢
  have whole : ['/'].intercalate (base.toList.splitOn '/') = base.toList := List.intercalate_splitOn '/'
  have letters : (beforeLastSlash base).toList =
      ['/'].intercalate (base.toList.splitOn '/').dropLast := by
    simp [beforeLastSlash, Text.cutAt_eq_splitOn, String.toList_intercalate, List.map_dropLast,
      Function.comp_def]
  have separate : ∀ part ∈ base.toList.splitOn '/', '/' ∉ part := by
    intro part member slash
    have cut : part ∈ Text.cutWhere (· == '/') base.toList := by
      rwa [Text.cutWhere_eq_splitOnP]
    simpa using Text.eq_false_of_mem_cutWhere cut slash
  generalize base.toList.splitOn '/' = parts at whole letters separate
  rw [← whole] at remote
  have found : [':', '/'] ++ ['/'] <:+: (beforeLastSlash base).toList ++ ['/'] := by
    rcases List.eq_nil_or_concat parts with rfl | ⟨before, last, rfl⟩
    · exact absurd remote (by decide)
    · have absent : '/' ∉ last := separate last (by simp)
      rw [letters, List.concat_eq_append, List.dropLast_concat]
      cases before with
      | nil => exact absurd (remote.subset (by simp : '/' ∈ "://".toList)) (by simpa using absent)
      | cons first more =>
        rw [List.concat_eq_append, intercalate_concat (List.cons_ne_nil _ _)] at remote
        refine infix_of_infix_append_snoc absent ?_
        simpa using remote
  rw [String.toList_append, String.toList_append]
  exact found.trans (List.prefix_append _ _).isInfix

theorem normalizeLocation_resolveLocation (base location : String) :
    normalizeLocation (resolveLocation base location) = resolveLocation base location := by
  unfold resolveLocation
  split
  · exact normalizeLocation_normalizeLocation _
  · split
    · next remote => rw [normalizeLocation, if_pos (isRemote_beforeLastSlash remote _)]
    · dsimp only
      split
      · next directory found =>
        have proper : directory.Proper := fun step member => by
          unfold Path.parent? at found
          split at found
          · cases found
          · cases found
            exact Path.proper_ofText base step ((List.dropLast_sublist _).mem member)
        exact normalizeLocation_text (proper.append (Path.proper_ofText location))
      · exact normalizeLocation_normalizeLocation _

theorem resolveLocation_normalizeLocation {base : String} (named : (Path.ofText base).EndsWithName)
    (location : String) :
    resolveLocation (normalizeLocation base) location = resolveLocation base location := by
  by_cases remote : isRemote base = true
  · rw [normalizeLocation, if_pos remote]
  · have proper := Path.proper_ofText base
    have normalized : normalizeLocation base = (Path.ofText base).normalize.text := by
      simp [normalizeLocation, remote]
    have notRemote := isRemote_text proper.normalize
    rw [normalized]
    unfold resolveLocation
    rw [Path.ofText_text proper.normalize, Path.parent?_normalize named, notRemote, if_neg remote]
    split
    · rfl
    · cases (Path.ofText base).parent? with
      | none => rfl
      | some directory => simp [Path.normalize_append_normalize]

def IsRelative (location : String) : Prop :=
  isRemote location = false ∧ location.startsWith "/" = false

instance (location : String) : Decidable (IsRelative location) :=
  inferInstanceAs (Decidable (_ ∧ _))

/-- Two ways to spell a location with steps that lead nowhere. -/
inductive Respells (location : String) : String → Prop
  | stay : Respells location ("./" ++ location)
  | back {step : String} (isStep : Path.IsStep step) (name : step ≠ "..") :
    Respells location (step ++ "/../" ++ location)

variable {base location other : String}

theorem Respells.exists_steps (respells : Respells location other) :
    ∃ idle : List String, (∀ done, idle.foldl Path.push done = done) ∧
      (Path.ofText other).steps = idle ++ (Path.ofText location).steps := by
  cases respells with
  | stay =>
    refine ⟨[], fun done => rfl, ?_⟩
    have split : "./" ++ location = "." ++ "/" ++ location := rfl
    rw [split, Path.steps_append]
    rfl
  | @back step isStep name =>
    refine ⟨[step, ".."], Path.push_push_back name, ?_⟩
    have split : step ++ "/../" ++ location = step ++ "/" ++ ".." ++ "/" ++ location := by
      simp [String.append_assoc]
    rw [split, Path.steps_append, Path.steps_append, Path.steps_of_isStep isStep]
    rfl

theorem not_infix_respelled {before rest : List Char} (absent : ¬"://".toList <:+: before)
    (absentRest : ¬"://".toList <:+: rest) : ¬"://".toList <:+: before ++ '.' :: '/' :: rest := by
  intro among
  rcases Text.infix_append_cons (by decide) among with left | right
  · exact absent left
  · rcases List.infix_cons_iff.1 right with ⟨more, equal⟩ | right
    · exact absurd (List.cons.inj equal).1 (by decide)
    · exact absentRest right

theorem not_infix_of_isStep {step : String} (isStep : Path.IsStep step) :
    ¬"://".toList <:+: step.toList ++ ['/', '.'] := by
  intro among
  have slashes := among.sublist.count_le '/'
  have none : step.toList.count '/' = 0 := List.count_eq_zero.2 isStep.2.2
  rw [List.count_append, none] at slashes
  exact absurd slashes (by decide)

theorem Respells.exists_chars (respells : Respells location other) :
    ∃ before : List Char, (¬"://".toList <:+: before) ∧ before.head? ≠ some '/' ∧
      other.toList = before ++ '.' :: '/' :: location.toList := by
  cases respells with
  | stay => exact ⟨[], by decide, by decide, by simp⟩
  | @back step isStep name =>
    refine ⟨step.toList ++ ['/', '.'], not_infix_of_isStep isStep, ?_, by simp⟩
    obtain ⟨notEmpty, _, noSlash⟩ := isStep
    obtain ⟨c, rest, letters⟩ : ∃ c rest, step.toList = c :: rest :=
      List.exists_cons_of_ne_nil fun empty => notEmpty (String.toList_eq_nil_iff.1 empty)
    rw [letters] at noSlash ⊢
    rintro ⟨⟩
    exact noSlash List.mem_cons_self

theorem IsRelative.respelled (relative : IsRelative location) (respells : Respells location other) :
    IsRelative other := by
  obtain ⟨before, absent, notSlash, letters⟩ := respells.exists_chars
  obtain ⟨notRemote, _⟩ := relative
  refine ⟨?_, ?_⟩
  · rw [← Bool.not_eq_true, isRemote, Text.occursIn_iff] at notRemote ⊢
    rw [letters]
    exact not_infix_respelled absent notRemote
  · rw [← Bool.not_eq_true, String.startsWith_string_iff, letters]
    rintro ⟨rest, equal⟩
    cases before with
    | nil => exact absurd (List.cons.inj equal).1 (by decide)
    | cons c before => exact notSlash (congrArg some (List.cons.inj equal).1.symm)

theorem resolveLocation_of_isRelative (notRemote : isRemote base = false)
    (relative : IsRelative location) :
    resolveLocation base location =
      (((Path.ofText base).parent?.getD ⟨false, []⟩).append (Path.ofText location)).normalize.text := by
  obtain ⟨isLocal, notAbsolute⟩ := relative
  rw [resolveLocation, isLocal, notAbsolute, notRemote]
  cases (Path.ofText base).parent? with
  | some directory => rfl
  | none =>
    rw [Option.getD_none, Path.here_append notAbsolute]
    simp [normalizeLocation, isLocal]

theorem Respells.resolveLocation_eq (notRemote : isRemote base = false)
    (relative : IsRelative location) (respells : Respells location other) :
    resolveLocation base other = resolveLocation base location := by
  obtain ⟨idle, nowhere, steps⟩ := respells.exists_steps
  have start : ∀ {path}, IsRelative path → (Path.ofText path).absolute = false := And.right
  rw [resolveLocation_of_isRelative notRemote relative,
    resolveLocation_of_isRelative notRemote (relative.respelled respells)]
  simp only [Path.append, start relative, start (relative.respelled respells), Bool.false_eq_true,
    if_false, Path.normalize, steps, List.foldl_append, nowhere]

theorem source?_isSome_iff {sources : List (String × String)} {files : Option Files.Tree} :
    ((Library.ofSources sources files).source? location).isSome = true ↔
      ∃ source ∈ sources, normalizeLocation source.1 = location := by
  rw [Library.source?, Library.ofSources, List.lookup_isSome_iff]
  constructor
  · rintro ⟨entry, member, same⟩
    obtain ⟨source, isSource, rfl⟩ := List.mem_map.1 (List.mem_reverse.1 member)
    exact ⟨source, isSource, (beq_iff_eq.1 same).symm⟩
  · rintro ⟨source, isSource, rfl⟩
    exact ⟨_, List.mem_reverse.2 (List.mem_map.2 ⟨source, isSource, rfl⟩), beq_self_eq_true _⟩

/-- Normalizing and resolving give locations that are normalized. What a location is resolved to on
a path does not change with steps that lead nowhere, and decides which source is found. Behind the
address of another machine a location stays as it is spelled. -/
theorem spellings_resolved (base location : String) :
    normalizeLocation (normalizeLocation location) = normalizeLocation location ∧
      normalizeLocation (resolveLocation base location) = resolveLocation base location ∧
      (IsRelative location →
        (isRemote base = false → ∀ other, Respells location other →
          resolveLocation base other = resolveLocation base location ∧
            ∀ sources files, ((Library.ofSources sources files).source?
              (resolveLocation base other)).isSome = true ↔
                ∃ source ∈ sources, normalizeLocation source.1 = resolveLocation base location) ∧
        (isRemote base = true →
          resolveLocation base location = beforeLastSlash base ++ "/" ++ location)) := by
  refine ⟨normalizeLocation_normalizeLocation location, normalizeLocation_resolveLocation base location,
    fun relative => ⟨fun notRemote other respells => ?_, fun remote => ?_⟩⟩
  · have same := respells.resolveLocation_eq notRemote relative
    exact ⟨same, fun sources files => same ▸ source?_isSome_iff⟩
  · simp [resolveLocation, relative.1, relative.2, remote]

theorem spellings_resolved_detour :
    IsRelative "../c.xsd" ∧ isRemote "orders/main.xsd" = false ∧
      Respells "../c.xsd" ("types" ++ "/../" ++ "../c.xsd") ∧
      resolveLocation "orders/main.xsd" ("types" ++ "/../" ++ "../c.xsd") = "c.xsd" := by
  have facts : IsRelative "../c.xsd" ∧ isRemote "orders/main.xsd" = false ∧
      resolveLocation "orders/main.xsd" "../c.xsd" = "c.xsd" := by decide +kernel
  obtain ⟨relative, onPath, resolved⟩ := facts
  have respells : Respells "../c.xsd" ("types" ++ "/../" ++ "../c.xsd") :=
    .back ⟨by decide, by decide, by decide⟩ (by decide)
  obtain ⟨alike, _⟩ := (spellings_resolved "orders/main.xsd" "../c.xsd").2.2 relative
  exact ⟨relative, onPath, respells, (alike onPath _ respells).1.trans resolved⟩

/-- Behind the address of another machine a detour leads to another location. -/
theorem detour_kept_behind_address :
    isRemote "http://e/s/main.xsd" = true ∧ IsRelative "b.xsd" ∧
      Respells "b.xsd" ("./" ++ "b.xsd") ∧
      resolveLocation "http://e/s/main.xsd" ("./" ++ "b.xsd") ≠
        resolveLocation "http://e/s/main.xsd" "b.xsd" := by
  have facts : isRemote "http://e/s/main.xsd" = true ∧ IsRelative "b.xsd" ∧
      resolveLocation "http://e/s/main.xsd" ("./" ++ "b.xsd") ≠
        resolveLocation "http://e/s/main.xsd" "b.xsd" := by decide +kernel
  exact ⟨facts.1, facts.2.1, .stay, facts.2.2⟩

end XmlSchema.Schema

namespace XmlSchema.Files.Tree

variable {tree : Tree} {content : ByteArray}

theorem lookup_of_entry? {p : Path} (found : tree.entry? p = some (.file content)) :
    tree.entries.lookup p = some (.file content) := by
  unfold entry? at found
  split at found
  · next e held => rw [held, found]
  · split at found <;> cases found

theorem entry?_of_walk {done : Path} {steps : List String}
    (found : tree.walk done steps = .ok (.file content)) :
    tree.entry? { done with steps := (steps.foldl Path.push done.steps.reverse).reverse } =
      some (.file content) := by
  induction steps generalizing done with
  | nil =>
    rw [walk] at found
    rw [List.foldl_nil, List.reverse_reverse]
    cases held : tree.entry? done with
    | none => simp [held] at found
    | some e => simpa [held] using found
  | cons step steps ih =>
    rw [walk] at found
    split at found
    · cases found
    · cases found
    · simpa using ih found

theorem entry?_of_find {location : String} (found : tree.find location = .ok (.file content)) :
    tree.entry? (Path.ofText location).normalize = some (.file content) := by
  unfold find at found
  cases empty : location.isEmpty with
  | true => simp [empty, throw, throwThe, MonadExceptOf.throw, bind, Except.bind] at found
  | false =>
    simp only [empty, Bool.false_eq_true, if_false, bind, Except.bind, pure, Except.pure] at found
    cases walked : tree.walk { Path.ofText location with steps := [] } (Path.ofText location).steps with
    | error fault => simp [walked] at found
    | ok e =>
      rw [walked] at found
      cases e with
      | directory => simp at found
      | file other =>
        dsimp only at found
        split at found
        · cases found
        · cases found
          exact entry?_of_walk walked

theorem entry?_of_readText {location text : String} (read : tree.readText location = .ok text) :
    ∃ content, tree.entry? (Path.ofText location).normalize = some (.file content) := by
  unfold readText Tree.read at read
  cases found : tree.find location with
  | error fault => simp [found, bind, Except.bind] at read
  | ok e =>
    cases e with
    | file content => exact ⟨content, entry?_of_find found⟩
    | directory => simp [found, bind, Except.bind, throw, throwThe, MonadExceptOf.throw] at read

end XmlSchema.Files.Tree

namespace XmlSchema.Schema

open Files (Path)

theorem isRemote_eq_false_of_discover? {lib : Library} {location content : String}
    (found : lib.discover? location = some content) : isRemote location = false := by
  rw [← Bool.not_eq_true]
  intro remote
  simp [Library.discover?, remote] at found

theorem mem_entries_of_discover? {lib : Library} {location content : String}
    (found : lib.discover? location = some content) :
    ∃ files, lib.files = some files ∧ normalizeLocation location ∈ files.entries.map (·.1.text) := by
  have notRemote := isRemote_eq_false_of_discover? found
  simp only [Library.discover?, notRemote, Bool.false_eq_true, if_false,
    Option.bind_eq_some_iff] at found
  obtain ⟨files, given, read⟩ := found
  cases text : files.readText location with
  | error fault => simp [text, Except.toOption] at read
  | ok text' =>
    obtain ⟨bytes, entry⟩ := Files.Tree.entry?_of_readText text
    obtain ⟨before, after, entries, _⟩ := List.lookup_eq_some_iff.1 (Files.Tree.lookup_of_entry? entry)
    refine ⟨files, given, List.mem_map.2 ⟨((Path.ofText location).normalize, .file bytes), ?_, ?_⟩⟩
    · simp [entries]
    · simp [normalizeLocation, notRemote]

end XmlSchema.Schema
