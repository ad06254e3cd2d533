import XmlSchema.Unicode.Category
import XmlSchema.Unicode.ScriptTable
import XmlSchema.Unicode.BinaryTable
import XmlSchema.Unicode.FoldingTable

namespace XmlSchema.Unicode

def scripts : Runs Nat :=
  Runs.ofLengths <| (wordsOf scriptRuns).map fun word =>
    match cutAt '.' word with
    | [script, length] => (hexValue script, hexValue length)
    | _ => (0, 0)

def scriptNameTable : List (List String) :=
  (wordsOf scriptNames).map fun word => (cutAt '.' word).map String.ofList

def binaryTable : List (List String × Runs Bool) :=
  binaryRuns.map fun entry =>
    ((wordsOf [entry.1]).map String.ofList, membershipRuns (wordsOf entry.2))

inductive Property where
  | any
  | ascii
  | assigned
  | category (categories : List Category)
  | script (index : Nat)
  | binary (index : Nat)
  deriving DecidableEq, Repr

namespace Property

def holds (p : Property) (c : Char) : Bool :=
  match p with
  | .any => true
  | .ascii => c.toNat < 0x80
  | .assigned => Unicode.category c != .cn
  | .category categories => categories.contains (Unicode.category c)
  | .script index => scripts.at? c.toNat == some index
  | .binary index =>
    match binaryTable[index]? with
    | some entry => entry.2.at? c.toNat == some true
    | none => false

/-- Case, blanks, underscores and hyphens do not count in a name, nor does a leading `is`. -/
def looseName (name : List Char) : String :=
  let isPrefixed := match name with
    | i :: s :: _ => i.toLower == 'i' && s.toLower == 's'
    | _ => false
  let letters := (if isPrefixed then name.drop 2 else name).filterMap fun c =>
    if c == ' ' || c == '_' || c == '-' then none
    else if c.toNat < 0x80 then some c.toLower
    else none
  -- `isc` is short for the category of all other characters, written `c`
  if isPrefixed && letters == ['c'] then "isc" else String.ofList letters

def ofCategoryName? (name : String) : Option Property :=
  match name with
  | "any" => some .any
  | "assigned" => some .assigned
  | "ascii" => some .ascii
  | _ => (Category.ofName? name).map .category

def ofScriptName? (name : String) : Option Property :=
  (scriptNameTable.findIdx? (·.contains name)).map fun i => .script (i + 1)

def ofBinaryName? (name : String) : Option Property :=
  (binaryTable.findIdx? fun entry => entry.1.contains name).map .binary

def valuedNames : List String :=
  ["age", "bc", "bidiclass", "blk", "block", "bmg", "bpb", "bpt", "ccc",
   "canonicalcombiningclass", "casefolding", "dm", "dt", "decompositiontype", "ea",
   "eastasianwidth", "gc", "generalcategory", "gcb", "graphemeclusterbreak", "hst",
   "hangulsyllabletype", "insc", "inpc", "jg", "joininggroup", "jt", "joiningtype", "lb",
   "linebreak", "na", "name", "nt", "numerictype", "nv", "numericvalue", "sb", "sentencebreak",
   "script", "scx", "scriptextensions", "vo", "verticalorientation", "wb", "wordbreak"]

/-- The property that a name denotes. A binary property comes first, then a category, then a
script; `cf`, `sc` and `lc` are always categories. -/
def ofName? (name : List Char) : Option Property :=
  let name := looseName name
  let named := ofCategoryName? name <|> ofScriptName? name
  if name == "cf" || name == "sc" || name == "lc" then named
  else if valuedNames.contains name then none
  else ofBinaryName? name <|> named

def ofNameValue? (name value : List Char) : Option Property :=
  let name := looseName name
  let value := looseName value
  if name == "gc" || name == "generalcategory" then ofCategoryName? value
  else if name == "sc" || name == "script" then ofScriptName? value
  else none

end Property

def foldingIndex : Runs (List Nat) :=
  let orbits := (wordsOf foldingOrbits).map fun word => (cutAt '.' word).map hexValue
  let entries := orbits.flatMap fun orbit => orbit.map fun c => (c, orbit)
  (entries.mergeSort fun a b => a.1 ≤ b.1).toArray

/-- The characters that simple case folding identifies with `c`, itself included. -/
def caseVariants (c : Char) : List Char :=
  match foldingIndex.at? c.toNat with
  | some orbit => if orbit.contains c.toNat then orbit.map Char.ofNat else [c]
  | none => [c]

def isWhiteSpace (c : Char) : Bool :=
  [(0x09, 0x0D), (0x20, 0x20), (0x85, 0x85), (0xA0, 0xA0), (0x1680, 0x1680), (0x2000, 0x200A),
   (0x2028, 0x2029), (0x202F, 0x202F), (0x205F, 0x205F), (0x3000, 0x3000)].any
    fun range => range.1 ≤ c.toNat && c.toNat ≤ range.2

def alphabetic : Property := (Property.ofBinaryName? "alphabetic").getD .any

def isWordChar (c : Char) : Bool :=
  alphabetic.holds c ||
    (Property.category [.mn, .mc, .me, .nd, .pc]).holds c || c == '\u200C' || c == '\u200D'

def extendsGrapheme : Property :=
  (Property.ofBinaryName? "graphemeextend").getD (.category [.mn, .me])

end XmlSchema.Unicode
