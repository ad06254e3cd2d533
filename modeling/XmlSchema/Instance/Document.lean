import XmlSchema.Bisection
import XmlSchema.Instance.StartTag
import XmlSchema.Text.Utf8

/-!
# Documents

A document is read token by token into events: elements begin and end, and text stands between. The
reader keeps the elements that are open, each with its name as it is written and its scope, and
stops at the first thing that is not well formed. What it delivers up to there is the document:
every end belongs to the latest start that is still open, and text occurs inside elements only.
-/

/-!
## Where lines begin

A place is named by its line and its column. Columns count bytes, and both count from one. A line map
notes the line feeds of the bytes that go by, in pieces of any size, and tells the line
and the column of every offset into them.
-/

namespace XmlSchema

structure Location where
  line : Nat
  column : Nat
  deriving DecidableEq, Repr

def Location.text (l : Location) : String := s!"line {l.line}, column {l.column}"

namespace Instance

def lineFeed : UInt8 := '\n'.toUInt8

structure LineMap where
  consumed : Nat := 0
  feeds : Array Nat := #[]

namespace LineMap

def consume (m : LineMap) (bytes : Bytes) : LineMap where
  consumed := m.consumed + bytes.length
  feeds := bytes.zipIdx.foldl (fun feeds (b, index) =>
    if b == lineFeed then feeds.push (m.consumed + index) else feeds) m.feeds

def locate (m : LineMap) (offset : Nat) : Location :=
  let before := Bisection.partitionPoint (· < offset) m.feeds
  let start := match before with
    | 0 => 0
    | last + 1 => (m.feeds[last]?).elim 0 (· + 1)
  ⟨before + 1, offset - start + 1⟩

end LineMap

/-- A reader of bytes that are fetched piece by piece, with a map of the lines of the bytes that have
been taken from it. -/
structure LineReader where
  buffer : Bytes := []
  /-- What the fetches to come bring: a piece, which may be empty, or nothing if one fails. -/
  coming : List (Option Bytes)
  lines : LineMap := {}

namespace LineReader

def fill (r : LineReader) : Option Bytes × LineReader :=
  match r.buffer, r.coming with
  | [], some piece :: coming => (some piece, { r with buffer := piece, coming })
  | [], none :: coming => (none, { r with coming })
  | buffer, _ => (some buffer, r)

/-- Takes a number of the bytes that are there. As many are counted as are asked for. -/
def take (r : LineReader) (amount : Nat) : LineReader :=
  let r := r.fill.2
  { r with
    buffer := r.buffer.drop amount
    lines := { r.lines.consume (r.buffer.take amount) with
      consumed := r.lines.consumed + amount } }

def read (r : LineReader) (room : Nat) : Option Bytes × LineReader :=
  match r.fill with
  | (none, r) => (none, r)
  | (some bytes, r) => (some (bytes.take room), r.take (min bytes.length room))

end LineReader

end Instance

end XmlSchema

/-! ## Events -/

namespace XmlSchema.Instance

inductive Event where
  | start (tag : StartTag)
  | text (content : String)
  | finish
  deriving DecidableEq, Repr

inductive Section where
  | elementContent
  | outside
  | cdata
  | comment
  deriving DecidableEq, Repr

inductive Fault where
  | token (fault : TokenFault)
  | declaration (fault : DeclarationFault)
  | tag (fault : TagFault)
  | content (fault : ContentFault)
  | endMismatch (expected found : Bytes)
  | endWithoutStart (found : Bytes)
  | illegalChar (c : Char) (place : Section)
  | reservedTarget
  | sectionEndInText
  | textInProlog
  | textAfterRoot
  | cdataOutsideRoot
  | secondRoot
  | rootUnclosed
  | rootMissing
  deriving DecidableEq, Repr

def Section.words : Section → String
  | .elementContent => "element content of the document"
  | .outside => "prolog of the document"
  | .cdata => "CDATA section"
  | .comment => "comment"

def nameInMessage (name : Bytes) : String := (Utf8.decode name).toOption.getD ""

def Fault.message : Fault → String
  | .token fault => fault.message
  | .declaration fault => fault.message
  | .tag fault => fault.message
  | .content fault => fault.message
  | .endMismatch expected found =>
    s!"ill-formed document: expected `</{nameInMessage expected}>`, but `</{nameInMessage found}>` was found"
  | .endWithoutStart found =>
    s!"ill-formed document: close tag `</{nameInMessage found}>` does not match any open tag"
  | .illegalChar c place =>
    s!"An invalid XML character (Unicode: {charNumber c}) was found in the {place.words}."
  | .reservedTarget =>
    "The processing instruction target matching \"[xX][mM][lL]\" is not allowed."
  | .sectionEndInText =>
    "The character sequence \"]]>\" must not appear in content unless used to mark the end of a CDATA section."
  | .textInProlog => "Content is not allowed in prolog."
  | .textAfterRoot => "Content is not allowed in trailing section."
  | .cdataOutsideRoot => "CDATA is not allowed outside the root element."
  | .secondRoot =>
    "The markup in the document following the root element must be well-formed."
  | .rootUnclosed => "XML document structures must start and end within the same entity."
  | .rootMissing => "Premature end of file."

/-- An element that is open: its name as it is written, and the scope around it. -/
structure Opened where
  name : Bytes
  outer : Scope

structure Progress where
  opened : List Opened := []
  scope : Scope := .initial
  rootSeen : Bool := false
  atStart : Bool := true
  /-- One more at each start of an element, and one less at each end. -/
  depth : Nat := 0

namespace Progress

def isInside (p : Progress) : Bool := p.depth != 0

def isBlankText (text : String) : Bool :=
  text.toList.all fun c => c == ' ' || c == '\t' || c == '\n' || c == '\r'

def checkChars (text : String) (place : Section) : Except Fault Unit :=
  match Xml.firstIllegalChar? text.toList with
  | some c => .error (.illegalChar c place)
  | none => .ok ()

def holdsSectionEnd : Bytes → Bool
  | [] => false
  | b :: rest => (ascii "]]>").isPrefixOf (b :: rest) || holdsSectionEnd rest

def readText (p : Progress) (content : Bytes) : Except Fault (List Event) := do
  if holdsSectionEnd content then throw .sectionEndInText
  let text ← (readContent content).mapError .content
  checkChars text (if p.isInside then .elementContent else .outside)
  if p.isInside then pure [.text text]
  else if isBlankText text then pure []
  else throw (if p.rootSeen then .textAfterRoot else .textInProlog)

def readCData (p : Progress) (content : Bytes) : Except Fault (List Event) := do
  if !p.isInside then throw .cdataOutsideRoot
  let text := Utf8.decodeLossy content
  checkChars text .cdata
  pure [.text text]

def readStart (p : Progress) (content : Bytes) : Except Fault (StartTag × Progress) := do
  let inner ← (p.scope.enter content).mapError .declaration
  if p.rootSeen && !p.isInside then throw .secondRoot
  let tag ← (StartTag.read inner content).mapError .tag
  pure (tag, ⟨⟨elementName content, p.scope⟩ :: p.opened, inner, true, false, p.depth + 1⟩)

def close (p : Progress) : Progress :=
  let p := { p with depth := p.depth - 1 }
  match p.opened with
  | [] => p
  | o :: outer => { p with opened := outer, scope := o.outer }

def readEnd (p : Progress) (name : Bytes) : Except Fault Progress :=
  match p.opened with
  | [] => .error (.endWithoutStart name)
  | o :: _ => if o.name == name then .ok p.close else .error (.endMismatch o.name name)

def read (p : Progress) (token : Token) : Except Fault (List Event × Progress) :=
  let later : Progress := { p with atStart := false }
  match token with
  | .text content => do pure (← p.readText content, later)
  | .cdata content => do pure (← p.readCData content, later)
  | .comment content => do
    checkChars (Utf8.decodeLossy content) .comment
    pure ([], later)
  | .doctype => pure ([], later)
  | .declaration => if p.atStart then pure ([], later) else throw .reservedTarget
  | .instruction target =>
    if target.map upperByte == ascii "XML" then throw .reservedTarget else pure ([], later)
  | .startTag content isEmpty => do
    let (tag, inner) ← later.readStart content
    if isEmpty then pure ([.start tag, .finish], inner.close) else pure ([.start tag], inner)
  | .endTag name => do pure ([.finish], ← later.readEnd name)

def endFault? (p : Progress) : Option Fault :=
  if p.isInside then some .rootUnclosed
  else if !p.rootSeen then some .rootMissing
  else none

end Progress

/-- The events of a document with their places, and the fault that ends it if it is not well
formed. -/
structure Document where
  events : List (Event × Location)
  fault? : Option (Fault × Location)
  deriving DecidableEq, Repr

structure Reader where
  rest : Bytes
  /-- The number of bytes that have been read, a mark at the start not counted. -/
  offset : Nat := 0
  lines : LineMap := {}

namespace Reader

def byteOrderMark : Bytes := [0xEF, 0xBB, 0xBF]

def ofBytes (bytes : Bytes) : Reader :=
  if byteOrderMark.isPrefixOf bytes then
    { rest := bytes.drop 3, lines := LineMap.consume {} byteOrderMark }
  else { rest := bytes }

def after (r : Reader) (s : Scan) : Reader :=
  { rest := s.rest, offset := r.offset + s.read.length, lines := r.lines.consume s.read }

def location (r : Reader) : Location := r.lines.locate r.offset

/-- Reads as many tokens as fuel permits. The events that have been read are given in reverse. -/
def readFrom : Nat → Reader → Progress → List (Event × Location) → Document
  | 0, _, _, events => ⟨events.reverse, none⟩
  | fuel + 1, r, p, events =>
    match scan? r.rest with
    | none => ⟨events.reverse, p.endFault?.map (·, r.location)⟩
    | some s =>
      let r := r.after s
      let at' := r.location
      match s.result with
      | .error fault => ⟨events.reverse, some (.token fault, at')⟩
      | .ok token =>
        match p.read token with
        | .error fault => ⟨events.reverse, some (fault, at')⟩
        | .ok (more, p) => readFrom fuel r p ((more.map (·, at')).reverse ++ events)

end Reader

/-- Reads a document. Every token has a byte, so there are no more tokens than bytes. -/
def Document.ofBytes (bytes : Bytes) : Document :=
  Reader.readFrom (bytes.length + 1) (.ofBytes bytes) {} []

end XmlSchema.Instance
