import XmlSchema.Xml.Name

/-!
# From patterns to regular expressions

The patterns of XML Schema differ from regular expressions in a few points. They have no anchors,
so `^` and `$` stand for themselves outside of brackets. One bracket may be taken away from
another, as in `[a-z-[aeiou]]`. The escapes for names, blanks, words and Unicode blocks have no
counterpart and are written out as brackets. `translate` rewrites a pattern accordingly; the rest
of it stays as it is.
-/

namespace XmlSchema.Pattern

open Xml (CodeRange)

/-! ## Unicode blocks -/

/-- The blocks that patterns may name, with their code points. The blocks of surrogates hold no
character. -/
def blocks : List (String × List CodeRange) :=
  [("BasicLatin", [⟨0x0000, 0x007F⟩]),
   ("Latin-1Supplement", [⟨0x0080, 0x00FF⟩]),
   ("LatinExtended-A", [⟨0x0100, 0x017F⟩]),
   ("LatinExtended-B", [⟨0x0180, 0x024F⟩]),
   ("IPAExtensions", [⟨0x0250, 0x02AF⟩]),
   ("SpacingModifierLetters", [⟨0x02B0, 0x02FF⟩]),
   ("CombiningDiacriticalMarks", [⟨0x0300, 0x036F⟩]),
   ("Greek", [⟨0x0370, 0x03FF⟩]),
   ("Cyrillic", [⟨0x0400, 0x04FF⟩]),
   ("Armenian", [⟨0x0530, 0x058F⟩]),
   ("Hebrew", [⟨0x0590, 0x05FF⟩]),
   ("Arabic", [⟨0x0600, 0x06FF⟩]),
   ("Syriac", [⟨0x0700, 0x074F⟩]),
   ("Thaana", [⟨0x0780, 0x07BF⟩]),
   ("Devanagari", [⟨0x0900, 0x097F⟩]),
   ("Bengali", [⟨0x0980, 0x09FF⟩]),
   ("Gurmukhi", [⟨0x0A00, 0x0A7F⟩]),
   ("Gujarati", [⟨0x0A80, 0x0AFF⟩]),
   ("Oriya", [⟨0x0B00, 0x0B7F⟩]),
   ("Tamil", [⟨0x0B80, 0x0BFF⟩]),
   ("Telugu", [⟨0x0C00, 0x0C7F⟩]),
   ("Kannada", [⟨0x0C80, 0x0CFF⟩]),
   ("Malayalam", [⟨0x0D00, 0x0D7F⟩]),
   ("Sinhala", [⟨0x0D80, 0x0DFF⟩]),
   ("Thai", [⟨0x0E00, 0x0E7F⟩]),
   ("Lao", [⟨0x0E80, 0x0EFF⟩]),
   ("Tibetan", [⟨0x0F00, 0x0FFF⟩]),
   ("Myanmar", [⟨0x1000, 0x109F⟩]),
   ("Georgian", [⟨0x10A0, 0x10FF⟩]),
   ("HangulJamo", [⟨0x1100, 0x11FF⟩]),
   ("Ethiopic", [⟨0x1200, 0x137F⟩]),
   ("Cherokee", [⟨0x13A0, 0x13FF⟩]),
   ("UnifiedCanadianAboriginalSyllabics", [⟨0x1400, 0x167F⟩]),
   ("Ogham", [⟨0x1680, 0x169F⟩]),
   ("Runic", [⟨0x16A0, 0x16FF⟩]),
   ("Khmer", [⟨0x1780, 0x17FF⟩]),
   ("Mongolian", [⟨0x1800, 0x18AF⟩]),
   ("LatinExtendedAdditional", [⟨0x1E00, 0x1EFF⟩]),
   ("GreekExtended", [⟨0x1F00, 0x1FFF⟩]),
   ("GeneralPunctuation", [⟨0x2000, 0x206F⟩]),
   ("SuperscriptsandSubscripts", [⟨0x2070, 0x209F⟩]),
   ("CurrencySymbols", [⟨0x20A0, 0x20CF⟩]),
   ("CombiningMarksforSymbols", [⟨0x20D0, 0x20FF⟩]),
   ("LetterlikeSymbols", [⟨0x2100, 0x214F⟩]),
   ("NumberForms", [⟨0x2150, 0x218F⟩]),
   ("Arrows", [⟨0x2190, 0x21FF⟩]),
   ("MathematicalOperators", [⟨0x2200, 0x22FF⟩]),
   ("MiscellaneousTechnical", [⟨0x2300, 0x23FF⟩]),
   ("ControlPictures", [⟨0x2400, 0x243F⟩]),
   ("OpticalCharacterRecognition", [⟨0x2440, 0x245F⟩]),
   ("EnclosedAlphanumerics", [⟨0x2460, 0x24FF⟩]),
   ("BoxDrawing", [⟨0x2500, 0x257F⟩]),
   ("BlockElements", [⟨0x2580, 0x259F⟩]),
   ("GeometricShapes", [⟨0x25A0, 0x25FF⟩]),
   ("MiscellaneousSymbols", [⟨0x2600, 0x26FF⟩]),
   ("Dingbats", [⟨0x2700, 0x27BF⟩]),
   ("BraillePatterns", [⟨0x2800, 0x28FF⟩]),
   ("CJKRadicalsSupplement", [⟨0x2E80, 0x2EFF⟩]),
   ("KangxiRadicals", [⟨0x2F00, 0x2FDF⟩]),
   ("IdeographicDescriptionCharacters", [⟨0x2FF0, 0x2FFF⟩]),
   ("CJKSymbolsandPunctuation", [⟨0x3000, 0x303F⟩]),
   ("Hiragana", [⟨0x3040, 0x309F⟩]),
   ("Katakana", [⟨0x30A0, 0x30FF⟩]),
   ("Bopomofo", [⟨0x3100, 0x312F⟩]),
   ("HangulCompatibilityJamo", [⟨0x3130, 0x318F⟩]),
   ("Kanbun", [⟨0x3190, 0x319F⟩]),
   ("BopomofoExtended", [⟨0x31A0, 0x31BF⟩]),
   ("EnclosedCJKLettersandMonths", [⟨0x3200, 0x32FF⟩]),
   ("CJKCompatibility", [⟨0x3300, 0x33FF⟩]),
   ("CJKUnifiedIdeographsExtensionA", [⟨0x3400, 0x4DB5⟩]),
   ("CJKUnifiedIdeographs", [⟨0x4E00, 0x9FFF⟩]),
   ("YiSyllables", [⟨0xA000, 0xA48F⟩]),
   ("YiRadicals", [⟨0xA490, 0xA4CF⟩]),
   ("HangulSyllables", [⟨0xAC00, 0xD7A3⟩]),
   ("HighSurrogates", []),
   ("HighPrivateUseSurrogates", []),
   ("LowSurrogates", []),
   ("PrivateUse", [⟨0xE000, 0xF8FF⟩, ⟨0xF0000, 0xFFFFD⟩, ⟨0x100000, 0x10FFFD⟩]),
   ("CJKCompatibilityIdeographs", [⟨0xF900, 0xFAFF⟩]),
   ("AlphabeticPresentationForms", [⟨0xFB00, 0xFB4F⟩]),
   ("ArabicPresentationForms-A", [⟨0xFB50, 0xFDFF⟩]),
   ("CombiningHalfMarks", [⟨0xFE20, 0xFE2F⟩]),
   ("CJKCompatibilityForms", [⟨0xFE30, 0xFE4F⟩]),
   ("SmallFormVariants", [⟨0xFE50, 0xFE6F⟩]),
   ("ArabicPresentationForms-B", [⟨0xFE70, 0xFEFE⟩]),
   ("Specials", [⟨0xFEFF, 0xFEFF⟩, ⟨0xFFF0, 0xFFFD⟩]),
   ("HalfwidthandFullwidthForms", [⟨0xFF00, 0xFFEF⟩]),
   ("OldItalic", [⟨0x10300, 0x1032F⟩]),
   ("Gothic", [⟨0x10330, 0x1034F⟩]),
   ("Deseret", [⟨0x10400, 0x1044F⟩]),
   ("ByzantineMusicalSymbols", [⟨0x1D000, 0x1D0FF⟩]),
   ("MusicalSymbols", [⟨0x1D100, 0x1D1FF⟩]),
   ("MathematicalAlphanumericSymbols", [⟨0x1D400, 0x1D7FF⟩]),
   ("CJKUnifiedIdeographsExtensionB", [⟨0x20000, 0x2A6D6⟩]),
   ("CJKCompatibilityIdeographsSupplement", [⟨0x2F800, 0x2FA1F⟩]),
   ("Tags", [⟨0xE0000, 0xE007F⟩])]

def block? (name : String) : Option (List CodeRange) :=
  (blocks.find? fun entry => entry.1 == name).map (·.2)

/-! ## Rewriting -/

inductive Fault where
  | trailingBackslash
  | unbracedProperty (letter : Char)
  | unclosedProperty (letter : Char) (name : String)
  | unknownBlock (name : String)
  | unknownEscape (c : Char)
  | unclosedClass
  | emptyClass
  | bareBracket
  | subtractionNotLast
  | refused
  deriving DecidableEq, Repr

def Fault.message : Fault → String
  | .trailingBackslash => "trailing backslash"
  | .unbracedProperty letter => s!"\\{letter} must be followed by a braced property name"
  | .unclosedProperty letter name => s!"unterminated \\{letter}\x7b{name}"
  | .unknownBlock name => s!"unknown Unicode block 'Is{name}'"
  | .unknownEscape c => s!"unknown escape \\{c}"
  | .unclosedClass => "unterminated character class"
  | .emptyClass => "empty character class"
  | .bareBracket => "'[' must be escaped inside a character class"
  | .subtractionNotLast => "a subtracted class must end its enclosing class"
  | .refused => "<regex>"

def codePoint (n : Nat) : String :=
  "\\x\x7b" ++ (String.ofList (Nat.toDigits 16 n)).toUpper ++ "\x7d"

def rangeText (r : CodeRange) : String :=
  if r.first = r.last then codePoint r.first else codePoint r.first ++ "-" ++ codePoint r.last

def rangesText (ranges : List CodeRange) : String :=
  String.join (ranges.map rangeText)

def bracketed (negated : Bool) (items : String) : String :=
  (if negated then "[^" else "[") ++ items ++ "]"

def blockClass (name : String) (negated : Bool) : Except Fault String :=
  match block? name with
  | none => .error (.unknownBlock name)
  | some [] =>
    -- all characters are left when none is taken away
    .ok (bracketed (!negated) (codePoint 0 ++ "-" ++ codePoint 0x10FFFF))
  | some ranges =>
    .ok (bracketed negated (String.join (ranges.map fun r =>
      codePoint r.first ++ "-" ++ codePoint r.last)))

def nameStartClass (negated : Bool) : String :=
  bracketed negated (":" ++ rangesText Xml.nameStartRanges)

def nameClass (negated : Bool) : String :=
  bracketed negated (":" ++ rangesText Xml.nameStartRanges ++ rangesText Xml.nameExtraRanges)

def splitAtBrace : List Char → Option (List Char × List Char) :=
  Xml.splitAtChar '\x7d'

def escape : List Char → Except Fault (String × List Char)
  | [] => .error .trailingBackslash
  | 'i' :: rest => .ok (nameStartClass false, rest)
  | 'I' :: rest => .ok (nameStartClass true, rest)
  | 'c' :: rest => .ok (nameClass false, rest)
  | 'C' :: rest => .ok (nameClass true, rest)
  | 's' :: rest => .ok (bracketed false (codePoint 0x20 ++ "\\t\\n\\r"), rest)
  | 'S' :: rest => .ok (bracketed true (codePoint 0x20 ++ "\\t\\n\\r"), rest)
  | 'w' :: rest => .ok (bracketed true "\\p\x7bP\x7d\\p\x7bZ\x7d\\p\x7bC\x7d", rest)
  | 'W' :: rest => .ok (bracketed false "\\p\x7bP\x7d\\p\x7bZ\x7d\\p\x7bC\x7d", rest)
  | 'd' :: rest => .ok ("\\p\x7bNd\x7d", rest)
  | 'D' :: rest => .ok ("\\P\x7bNd\x7d", rest)
  | c :: rest =>
    if c == 'p' || c == 'P' then
      match rest with
      | '\x7b' :: rest =>
        match splitAtBrace rest with
        | none => .error (.unclosedProperty c (String.ofList rest))
        | some ('I' :: 's' :: name, rest) => do
          pure (← blockClass (String.ofList name) (c == 'P'), rest)
        | some (name, rest) =>
          .ok (String.ofList ('\\' :: c :: '\x7b' :: name) ++ "\x7d", rest)
      | _ => .error (.unbracedProperty c)
    else if "nrt\\|.?*+()\x7b\x7d-[]^$".toList.contains c then
      .ok (String.ofList ['\\', c], rest)
    else .error (.unknownEscape c)

def classLiteral (c : Char) : String :=
  if "[]\\^-&~".toList.contains c then String.ofList ['\\', c] else c.toString

structure ClassParts where
  items : String
  subtracted : Option String
  rest : List Char

namespace ClassParts

def cons (item : String) (parts : ClassParts) : ClassParts :=
  { parts with items := item ++ parts.items }

def close (negated : Bool) (parts : ClassParts) : Except Fault (String × List Char) :=
  if parts.items.isEmpty then .error .emptyClass
  else
    let base := bracketed negated parts.items
    match parts.subtracted with
    | none => .ok (base, parts.rest)
    | some subtracted => .ok (bracketed false (base ++ "--" ++ subtracted), parts.rest)

end ClassParts

def negation : List Char → Bool × List Char
  | '^' :: rest => (true, rest)
  | text => (false, text)

/-- Translates the inside of a bracket. `canRange` tells whether a range may start with the item
before. -/
def classParts : Nat → Bool → List Char → Except Fault ClassParts
  | 0, _, _ => .error .unclosedClass
  | _ + 1, _, [] => .error .unclosedClass
  | _ + 1, _, ']' :: rest => .ok ⟨"", none, rest⟩
  | fuel + 1, _, '\\' :: rest => do
    let (atom, rest) ← escape rest
    return (← classParts fuel (atom.length == 2) rest).cons atom
  | fuel + 1, _, '-' :: '[' :: rest => do
    let (negated, inside) := negation rest
    let (subtracted, rest) ← (← classParts fuel false inside).close negated
    match rest with
    | ']' :: rest => return ⟨"", some subtracted, rest⟩
    | _ => throw .subtractionNotLast
  | fuel + 1, canRange, '-' :: last :: rest => do
    if canRange && last != ']' then
      if last == '\\' then
        let (atom, rest) ← escape rest
        return (← classParts fuel false rest).cons ("-" ++ atom)
      else return (← classParts fuel false rest).cons ("-" ++ classLiteral last)
    else return (← classParts fuel true (last :: rest)).cons (classLiteral '-')
  | _ + 1, _, '[' :: _ => .error .bareBracket
  | fuel + 1, _, c :: rest => do
    return (← classParts fuel true rest).cons (classLiteral c)

def classText (text : List Char) : Except Fault (String × List Char) := do
  let (negated, inside) := negation text
  (← classParts (inside.length + 1) false inside).close negated

def translateFrom : Nat → List Char → Except Fault String
  | _, [] => .ok ""
  | 0, _ => .ok ""
  | fuel + 1, '\\' :: rest => do
    let (atom, rest) ← escape rest
    return atom ++ (← translateFrom fuel rest)
  | fuel + 1, '[' :: rest => do
    let (bracket, rest) ← classText rest
    return bracket ++ (← translateFrom fuel rest)
  | fuel + 1, '.' :: rest => return "[^\\n\\r]" ++ (← translateFrom fuel rest)
  | fuel + 1, c :: rest => do
    if c == '^' || c == '$' then return String.ofList ['\\', c] ++ (← translateFrom fuel rest)
    else return c.toString ++ (← translateFrom fuel rest)

/-- The regular expression that a pattern stands for, without anchors. -/
def translate (pattern : String) : Except Fault String :=
  let text := pattern.toList
  translateFrom text.length text

end XmlSchema.Pattern
