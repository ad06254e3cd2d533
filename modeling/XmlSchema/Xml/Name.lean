namespace XmlSchema.Xml

structure CodeRange where
  first : Nat
  last : Nat
  deriving DecidableEq, Repr

namespace CodeRange

def contains (r : CodeRange) (c : Char) : Bool :=
  r.first ≤ c.toNat && c.toNat ≤ r.last

end CodeRange

def nameStartRanges : List CodeRange :=
  [⟨0x41, 0x5A⟩, ⟨0x5F, 0x5F⟩, ⟨0x61, 0x7A⟩, ⟨0xC0, 0xD6⟩, ⟨0xD8, 0xF6⟩, ⟨0xF8, 0x2FF⟩,
   ⟨0x370, 0x37D⟩, ⟨0x37F, 0x1FFF⟩, ⟨0x200C, 0x200D⟩, ⟨0x2070, 0x218F⟩, ⟨0x2C00, 0x2FEF⟩,
   ⟨0x3001, 0xD7FF⟩, ⟨0xF900, 0xFDCF⟩, ⟨0xFDF0, 0xFFFD⟩, ⟨0x10000, 0xEFFFF⟩]

def nameExtraRanges : List CodeRange :=
  [⟨0x2D, 0x2E⟩, ⟨0x30, 0x39⟩, ⟨0xB7, 0xB7⟩, ⟨0x300, 0x36F⟩, ⟨0x203F, 0x2040⟩]

def isXmlChar (c : Char) : Bool :=
  c == '\t' || c == '\n' || c == '\r' ||
    (0x20 ≤ c.toNat && c.toNat ≤ 0xD7FF) || (0xE000 ≤ c.toNat && c.toNat ≤ 0xFFFD) ||
    0x10000 ≤ c.toNat

def isNameStartChar (c : Char) : Bool :=
  c == ':' || nameStartRanges.any (·.contains c)

def isNameChar (c : Char) : Bool :=
  isNameStartChar c || nameExtraRanges.any (·.contains c)

def isNCName : List Char → Bool
  | [] => false
  | c :: rest => c != ':' && isNameStartChar c && rest.all fun c => c != ':' && isNameChar c

def splitAtChar (separator : Char) : List Char → Option (List Char × List Char)
  | [] => none
  | c :: rest =>
    if c = separator then some ([], rest)
    else (splitAtChar separator rest).map fun (before, after) => (c :: before, after)

theorem splitAtChar_eq_none_iff {separator : Char} {text : List Char} :
    splitAtChar separator text = none ↔ separator ∉ text := by
  induction text with
  | nil => simp [splitAtChar]
  | cons c rest ih =>
    rw [splitAtChar, List.mem_cons, not_or]
    split
    · next same => simp [same]
    · next other => simp [ih, Ne.symm other]

theorem splitAtChar_eq_some_iff {separator : Char} {text before after : List Char} :
    splitAtChar separator text = some (before, after) ↔
      separator ∉ before ∧ text = before ++ separator :: after := by
  induction text generalizing before with
  | nil => simp [splitAtChar]
  | cons c rest ih =>
    rw [splitAtChar]
    cases before with
    | nil => by_cases same : c = separator <;> simp [same]
    | cons b before =>
      rw [List.mem_cons, not_or, List.cons_append, List.cons.injEq]
      split
      · next same => simp +contextual [same, eq_comm]
      · next other =>
        simp only [Option.map_eq_some_iff, Prod.exists, Prod.mk.injEq, List.cons.injEq]
        constructor
        · rintro ⟨first, second, split, ⟨rfl, rfl⟩, rfl⟩
          exact ⟨⟨Ne.symm other, (ih.1 split).1⟩, rfl, (ih.1 split).2⟩
        · rintro ⟨⟨-, absent⟩, rfl, made⟩
          exact ⟨before, after, ih.2 ⟨absent, made⟩, ⟨rfl, rfl⟩, rfl⟩

def isQName (name : List Char) : Bool :=
  match splitAtChar ':' name with
  | some (qualifier, localPart) => isNCName qualifier && isNCName localPart
  | none => isNCName name

theorem isNameChar_of_isNCName {name : List Char} (named : isNCName name = true) :
    name ≠ [] ∧ ∀ c ∈ name, c ≠ ':' ∧ isNameChar c = true := by
  cases name with
  | nil => cases named
  | cons first rest =>
    simp only [isNCName, Bool.and_eq_true, List.all_eq_true, bne_iff_ne] at named
    refine ⟨List.cons_ne_nil _ _, List.forall_mem_cons.2 ⟨⟨named.1.1, ?_⟩, named.2⟩⟩
    rw [isNameChar, named.1.2, Bool.true_or]

theorem isQName_cases {name : List Char} (named : isQName name = true) :
    splitAtChar ':' name = none ∧ isNCName name = true ∨ ∃ label localPart,
      splitAtChar ':' name = some (label, localPart) ∧ name = label ++ ':' :: localPart ∧
        isNCName label = true ∧ isNCName localPart = true := by
  unfold isQName at named
  split at named
  · next label localPart split =>
    rw [Bool.and_eq_true] at named
    exact .inr ⟨label, localPart, split, (splitAtChar_eq_some_iff.1 split).2, named⟩
  · exact .inl ⟨‹_›, named⟩

theorem isNameChar_of_isQName {name : List Char} (named : isQName name = true) :
    ∀ c ∈ name, isNameChar c = true := by
  have chars {name : List Char} (named : isNCName name = true) :
      ∀ c ∈ name, isNameChar c = true := fun c member =>
    ((isNameChar_of_isNCName named).2 c member).2
  rcases isQName_cases named with ⟨-, plain⟩ | ⟨label, localPart, -, rfl, named, named'⟩
  · exact chars plain
  · rw [List.forall_mem_append, List.forall_mem_cons]
    exact ⟨chars named, by decide, chars named'⟩

def firstIllegalChar? (text : List Char) : Option Char :=
  text.find? fun c => !isXmlChar c

end XmlSchema.Xml
