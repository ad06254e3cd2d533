import XmlSchema.Text.Basic
import XmlSchema.Text.Utf8

namespace XmlSchema.Provider

structure Hint where
  ns : String
  location : String
  deriving DecidableEq, Repr

def scanLimit : Nat := 16384

def afterText? (text : List Char) : List Char → Option (List Char)
  | [] => none
  | c :: rest =>
    if text.isPrefixOf (c :: rest) then some ((c :: rest).drop text.length)
    else afterText? text rest

def wholeTag : List Char → List Char
  | [] => []
  | c :: rest => if c == '>' then [c] else c :: wholeTag rest

def afterMarkup? (text : List Char) : Option (List Char) :=
  if "<?".toList.isPrefixOf text then afterText? "?>".toList text
  else if "<!--".toList.isPrefixOf text then afterText? "-->".toList text
  else afterText? ">".toList text

def startsWithTag (text : List Char) : Bool :=
  !"<?".toList.isPrefixOf text && !"<!".toList.isPrefixOf text

def firstTag : Nat → List Char → List Char
  | 0, _ => []
  | fuel + 1, text =>
    match text.dropWhile (· != '<') with
    | [] => []
    | tail =>
      if startsWithTag tail then wholeTag tail
      else match afterMarkup? tail with
        | some rest => firstTag fuel rest
        | none => []

/-- The first start tag of a text, or nothing. Every piece of markup has a character. -/
def rootTag (text : List Char) : List Char := firstTag (text.length + 1) text

def isPrefixChar (c : Char) : Bool := c == '.' || c == '-' || Unicode.isWordChar c

def quotedValue? : List Char → Option (List Char × List Char)
  | [] => none
  | quote :: rest =>
    if quote == '"' || quote == '\'' then
      match rest.dropWhile (· != quote) with
      | [] => none
      | _ :: after => some (rest.takeWhile (· != quote), after)
    else none

def attributeValue? (localName text : List Char) : Option (List Char × List Char) := do
  guard (localName.isPrefixOf text)
  match (text.drop localName.length).dropWhile Unicode.isWhiteSpace with
  | '=' :: rest => quotedValue? (rest.dropWhile Unicode.isWhiteSpace)
  | _ => none

/-- The values of the attributes of a local name that have a prefix, in as many steps as fuel
permits. -/
def valuesFrom (localName : List Char) : Nat → Bool → List Char → List (List Char)
  | 0, _, _ => []
  | _ + 1, _, [] => []
  | fuel + 1, prefixed, c :: rest =>
    if c == ':' && prefixed then
      match attributeValue? localName rest with
      | some (value, after) => value :: valuesFrom localName fuel false after
      | none => valuesFrom localName fuel false rest
    else valuesFrom localName fuel (isPrefixChar c) rest

def valuesOf (localName : String) (tag : List Char) : List String :=
  (valuesFrom localName.toList tag.length false tag).map String.ofList

/-- Words taken in pairs. A word that is left over does not count. -/
def pairs : List String → List Hint
  | ns :: location :: rest => ⟨ns, location⟩ :: pairs rest
  | _ => []

/-- The hints in a start tag: those for namespaces, then those for no namespace. -/
def hintsOfTag (tag : List Char) : List Hint :=
  (valuesOf "schemaLocation" tag).flatMap (fun value => pairs (Text.words value)) ++
    ((valuesOf "noNamespaceSchemaLocation" tag).map Text.trim).filterMap fun location =>
      if location.isEmpty then none else some ⟨"", location⟩

def hintsOf (document : Bytes) : List Hint :=
  hintsOfTag (rootTag (Utf8.decodeLossy (document.take scanLimit)).toList)

end XmlSchema.Provider
