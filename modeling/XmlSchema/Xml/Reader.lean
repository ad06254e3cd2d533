import XmlSchema.Xml.Name

namespace XmlSchema.Xml

structure ExpandedName where
  ns : Option String
  localName : String
  deriving DecidableEq, Repr

structure Attribute where
  name : ExpandedName
  value : String
  deriving DecidableEq, Repr

structure Binding where
  label : Option String
  uri : String
  deriving DecidableEq, Repr

structure Element where
  name : ExpandedName
  attributes : List Attribute
  bindings : List Binding
  line : Nat
  position : Nat
  children : List Element

namespace Element

def attribute? (e : Element) (name : String) : Option String :=
  (e.attributes.find? fun a => a.name == ⟨none, name⟩).map (·.value)

def namespaceOf? (e : Element) (label : Option String) : Option String :=
  (e.bindings.find? fun b => b.label == label).map (·.uri)

mutual

def height : Element → Nat
  | ⟨_, _, _, _, _, children⟩ => heightOfAll children + 1

def heightOfAll : List Element → Nat
  | [] => 0
  | e :: es => max e.height (heightOfAll es)

end

end Element

end XmlSchema.Xml

namespace XmlSchema.Xml

def xmlUri : String := "http://www.w3.org/XML/1998/namespace"

def xmlnsUri : String := "http://www.w3.org/2000/xmlns/"

namespace Reader

def maxDepth : Nat := 10

def maxReferences : Nat := 255

structure Input where
  text : List Char
  line : Nat

structure Entity where
  name : List Char
  value : Input

def advance (line : Nat) (read : List Char) : Nat := line + read.count '\n'

namespace Input

def drop (s : Input) (n : Nat) : Input :=
  { text := s.text.drop n, line := advance s.line (s.text.take n) }

def startsWith (s : Input) (text : String) : Bool := text.toList.isPrefixOf s.text

def expect? (s : Input) (text : String) : Option Input :=
  if s.startsWith text then some (s.drop text.length) else none

def span (s : Input) (p : Char → Bool) : List Char × Input :=
  let read := s.text.takeWhile p
  (read, { text := s.text.dropWhile p, line := advance s.line read })

end Input

def isSpace (c : Char) : Bool := c == ' ' || c == '\t' || c == '\n' || c == '\r'

def isAllowed (c : Char) : Bool :=
  if c.toNat < 0x20 then isSpace c else c.toNat != 0xFFFE && c.toNat != 0xFFFF

def skipSpaces (s : Input) : Input := (s.span isSpace).2

def spaces? (s : Input) : Option Input :=
  match s.text with
  | c :: _ => if isSpace c then some (skipSpaces s) else none
  | [] => none

def name? (s : Input) : Option (List Char × Input) :=
  match s.text with
  | c :: _ => if isNameStartChar c then some (s.span isNameChar) else none
  | [] => none

/-- Reads a name with an optional prefix. A colon in front of a name is passed over. -/
def qName? (s : Input) : Option (List Char × List Char × Input) :=
  let (name, rest) := s.span isNameChar
  let (label, localName) := (splitAtChar ':' name).getD ([], name)
  let startsWell (part : List Char) := part.head?.all isNameStartChar
  if !localName.isEmpty && !localName.contains ':' && startsWell label && startsWell localName then
    some (label, localName, rest)
  else none

def skipPast? (final : String) : Nat → Input → Option Input
  | 0, _ => none
  | fuel + 1, s =>
    if s.startsWith final then some (s.drop final.length)
    else match s.text with
      | [] => none
      | c :: _ => if isAllowed c then skipPast? final fuel (s.drop 1) else none

def past? (final : String) (s : Input) : Option Input := skipPast? final (s.text.length + 1) s

def quoted? (ends : Char → Bool) (s : Input) : Option (Input × Input) :=
  match s.text with
  | q :: _ =>
    if q == '"' || q == '\'' then do
      let start := s.drop 1
      let (value, rest) := start.span fun c => c != q && !ends c
      pure ({ text := value, line := start.line }, ← rest.expect? (String.ofList [q]))
    else none
  | [] => none

def equals? (s : Input) : Option Input := do
  pure (skipSpaces (← (skipSpaces s).expect? "="))

inductive Reference where
  | char (c : Char)
  | entity (name : List Char)

/-- Reads the digits of a character reference. A number that is not that of a character stands for
the replacement character. -/
def charReference? (digits : List Char) (base : Nat) : Option Char := do
  guard !digits.isEmpty
  let value (c : Char) : Nat :=
    if c.isDigit then c.toNat - '0'.toNat else c.toLower.toNat - 'a'.toNat + 10
  let n := digits.foldl (fun n c => n * base + value c) 0
  guard (n < Nat.pow 2 32)
  let c := if n < 0xD800 ∨ (0xDFFF < n ∧ n < 0x110000) then Char.ofNat n else '\uFFFD'
  guard (isAllowed c)
  pure c

def isHexDigit (c : Char) : Bool := c.isDigit || ('a' ≤ c.toLower && c.toLower ≤ 'f')

def reference? (s : Input) : Option (Reference × Input) := do
  let (reference, rest) ←
    if s.startsWith "#x" then do
      let (digits, rest) := (s.drop 2).span isHexDigit
      pure (Reference.char (← charReference? digits 16), rest)
    else if s.startsWith "#" then do
      let (digits, rest) := (s.drop 1).span Char.isDigit
      pure (Reference.char (← charReference? digits 10), rest)
    else do
      let (name, rest) ← name? s
      pure (match String.ofList name with
        | "quot" => .char '"'
        | "amp" => .char '&'
        | "apos" => .char '\''
        | "lt" => .char '<'
        | "gt" => .char '>'
        | _ => .entity name, rest)
  pure (reference, ← rest.expect? ";")

def entity? (entities : List Entity) (name : List Char) : Option Input :=
  (entities.find? fun e => e.name == name).map (·.value)

def countReference? (depth references : Nat) : Option Nat :=
  if depth = 0 then some 0
  else if references < maxReferences then some (references + 1) else none

/-- White space in a value becomes a blank. A line feed after a carriage return stands for both. -/
def normalizedChar (c : Char) (next : Option Char) : List Char :=
  if c == '\r' && next == some '\n' then []
  else if c == '\n' || c == '\r' || c == '\t' then [' ']
  else [c]

structure Value where
  read : List Char := []
  references : Nat := 0

def Value.append (v : Value) (cs : List Char) : Value := { v with read := cs.reverse ++ v.read }

/-- Reads the value of an attribute. `depth` is the number of entities around it, and `expand` reads
the replacement text of another one. -/
def valueWith (expand : Value → Input → Option Value) (entities : List Entity) (depth : Nat) :
    Nat → Value → Input → Option Value
  | 0, v, s => if s.text.isEmpty then some v else none
  | fuel + 1, v, s =>
    match s.text with
    | [] => some v
    | '&' :: _ => do
      match ← reference? (s.drop 1) with
      | (.char c, rest) =>
        guard (depth = 0 || c != '<')
        valueWith expand entities depth fuel
          (v.append (if depth = 0 then [c] else normalizedChar c none)) rest
      | (.entity name, rest) =>
        let replacement ← entity? entities name
        let references ← countReference? depth v.references
        let v ← expand { v with references } replacement
        valueWith expand entities depth fuel
          (if depth = 0 then { v with references := 0 } else v) rest
    | c :: rest =>
      valueWith expand entities depth fuel (v.append (normalizedChar c rest.head?)) (s.drop 1)

def value? (entities : List Entity) : Nat → Value → Input → Option Value
  | 0, v, s => valueWith (fun _ _ => none) entities maxDepth s.text.length v s
  | depthLeft + 1, v, s =>
    valueWith (value? entities depthLeft) entities (maxDepth - (depthLeft + 1)) s.text.length v s

def comment? (s : Input) : Option Input := do
  (← past? "--" (s.drop 4)).expect? ">"

def instruction? (s : Input) : Option Input := do
  guard !(s.startsWith "<?xml ")
  let (_, rest) ← name? (s.drop 2)
  past? "?>" (skipSpaces rest)

def misc? : Nat → Input → Option Input
  | 0, s => some s
  | fuel + 1, s =>
    let s := skipSpaces s
    if s.startsWith "<!--" then do misc? fuel (← comment? s)
    else if s.startsWith "<?" then do misc? fuel (← instruction? s)
    else some s

def rawAttribute? (s : Input) : Option ((List Char × List Char × Input) × Input) := do
  let (label, localName, rest) ← qName? s
  let rest ← equals? rest
  let (value, after) ← quoted? (· == '<') rest
  guard (value.text.all isAllowed)
  pure ((label, localName, value), after)

def declarationSpaces? (s : Input) : Option Input :=
  if s.startsWith "?>" then some s else spaces? s

def declaration? (s : Input) : Option Input := do
  let s ← declarationSpaces? (s.drop 5)
  guard (s.startsWith "version")
  let s ← declarationSpaces? (← rawAttribute? s).2
  let s ← if s.startsWith "encoding" then do declarationSpaces? (← rawAttribute? s).2 else pure s
  let s ← if s.startsWith "standalone" then do pure (← rawAttribute? s).2 else pure s
  (skipSpaces s).expect? "?>"

def externalId? (s : Input) : Option Input := do
  let isPublic := s.startsWith "PUBLIC"
  let s ← spaces? (s.drop 6)
  let (_, s) ← quoted? (fun _ => false) s
  if isPublic then do
    let s ← spaces? s
    pure (← quoted? (fun _ => false) s).2
  else pure s

def startsExternalId (s : Input) : Bool := s.startsWith "SYSTEM" || s.startsWith "PUBLIC"

/-- Reads the declaration of an entity. External entities have no replacement text. -/
def entityDeclaration? (s : Input) : Option (Option Entity × Input) := do
  let s ← spaces? (s.drop 8)
  let isParameter := s.startsWith "%"
  let s ← if isParameter then spaces? (s.drop 1) else pure s
  let (name, s) ← name? s
  let s ← spaces? s
  let (entity, s) ←
    if startsExternalId s then do
      let s ← externalId? s
      let unparsed := skipSpaces s
      if !isParameter && unparsed.startsWith "NDATA" then do
        let (_, s) ← name? (← spaces? (unparsed.drop 5))
        pure (none, s)
      else pure (none, s)
    else do
      let (value, s) ← quoted? (fun _ => false) s
      pure (some { name, value : Entity }, s)
  pure (entity, ← (skipSpaces s).expect? ">")

def subset? : Nat → List Entity → Input → Option (List Entity × Input)
  | 0, entities, s => some (entities, s)
  | fuel + 1, entities, s =>
    let s := skipSpaces s
    if s.text.isEmpty then some (entities, s)
    else if s.startsWith "<!ENTITY" then do
      let (entity, s) ← entityDeclaration? s
      subset? fuel (entities ++ entity.toList) s
    else if s.startsWith "<!--" then do subset? fuel entities (← comment? s)
    else if s.startsWith "<?" then do subset? fuel entities (← instruction? s)
    else if s.startsWith "]" then do
      pure (entities, ← (skipSpaces (s.drop 1)).expect? ">")
    else if s.startsWith "<!ELEMENT" || s.startsWith "<!ATTLIST" || s.startsWith "<!NOTATION" then do
      subset? fuel entities (← (s.span (· != '>')).2.expect? ">")
    else none

def documentType? (s : Input) : Option (List Entity × Input) := do
  let (_, s) ← name? (← spaces? (s.drop 9))
  let s := skipSpaces s
  let s ← if startsExternalId s then externalId? s else pure s
  let s := skipSpaces s
  if s.startsWith ">" then pure ([], s.drop 1)
  else do
    let s ← s.expect? "["
    subset? (s.text.length + 1) [] s

structure Open where
  label : List Char
  element : Element
  children : List Element := []

namespace Open

def close (o : Open) : Element := { o.element with children := o.children.reverse }

end Open

/-- The elements that are open, the innermost one first, and the root element once it is closed. -/
structure State where
  stack : List Open := []
  root : Option Element := none
  count : Nat := 0
  /-- The number of references to entities in the entity that is being read. -/
  references : Nat := 0
  /-- Whether the entity that is being read has started an element. -/
  started : Bool := true

namespace State

def add (st : State) (e : Element) : State :=
  match st.stack with
  | [] => { st with root := some e }
  | o :: rest => { st with stack := { o with children := e :: o.children } :: rest }

def close? (st : State) (label localName : List Char) : Option State :=
  match st.stack with
  | [] => none
  | o :: rest =>
    if o.label == label && o.element.name.localName == String.ofList localName then
      some (({ st with stack := rest }).add o.close)
    else none

def bindings (st : State) : List Binding := (st.stack.head?.map (·.element.bindings)).getD []

end State

structure RawAttributes where
  bindings : List Binding := []
  attributes : List (List Char × List Char × String) := []

def RawAttributes.add? (a : RawAttributes) (label localName : List Char) (value : String) :
    Option RawAttributes :=
  if label == "xmlns".toList then do
    let isXml := value == xmlUri
    guard (value != xmlnsUri && (localName == "xml".toList) == isXml)
    let name := String.ofList localName
    guard !(a.bindings.any fun b => b.label == some name)
    pure (if isXml then a else { a with bindings := a.bindings ++ [⟨some name, value⟩] })
  else if localName == "xmlns".toList then do
    guard (value != xmlUri && value != xmlnsUri)
    pure { a with bindings := a.bindings ++ [⟨none, value⟩] }
  else pure { a with attributes := a.attributes ++ [(label, localName, value)] }

def resolve? (bindings : List Binding) (label : List Char) : Option (Option String) :=
  if label == "xml".toList then some (some xmlUri)
  else
    let key := if label.isEmpty then none else some (String.ofList label)
    match bindings.find? fun b => b.label == key with
    | some b => some (some b.uri)
    | none => if label.isEmpty then some none else none

def resolveAttributes? (bindings : List Binding) :
    List (List Char × List Char × String) → Option (List Attribute)
  | [] => some []
  | (label, localName, value) :: rest => do
    let ns ← if label.isEmpty then pure none else resolve? bindings label
    let others ← resolveAttributes? bindings rest
    let name : ExpandedName := ⟨ns, String.ofList localName⟩
    guard !(others.any fun a => a.name == name)
    pure (⟨name, value⟩ :: others)

def attributes? (entities : List Entity) (depthLeft : Nat) :
    Nat → Nat → RawAttributes → Input → Option (RawAttributes × Bool × Nat × Input)
  | 0, _, _, _ => none
  | fuel + 1, references, a, s =>
    let rest := skipSpaces s
    if rest.startsWith "/" then do
      pure (a, true, references, ← (rest.drop 1).expect? ">")
    else if rest.startsWith ">" then some (a, false, references, rest.drop 1)
    else do
      let _ ← spaces? s
      let ((label, localName, raw), rest) ← rawAttribute? rest
      let v ← value? entities depthLeft { references } raw
      let a ← a.add? label localName (String.ofList v.read.reverse)
      attributes? entities depthLeft fuel v.references a rest

def startTag? (entities : List Entity) (depthLeft : Nat) (st : State) (s : Input) :
    Option (State × Bool × Input) := do
  let (label, localName, rest) ← qName? (s.drop 1)
  guard (label != "xmlns".toList)
  let (raw, isEmpty, references, rest) ←
    attributes? entities depthLeft (rest.text.length + 1) st.references {} rest
  let inherited := st.bindings.filter fun b => !(raw.bindings.any fun own => own.label == b.label)
  let bindings := raw.bindings ++ inherited
  let attributes ← resolveAttributes? bindings raw.attributes
  let ns ← resolve? bindings label
  let element : Element :=
    { name := ⟨ns, String.ofList localName⟩, attributes, bindings, line := s.line,
      position := st.count, children := [] }
  let st := { st with count := st.count + 1, references, started := true }
  pure (if isEmpty then st.add element
    else { st with stack := { label, element } :: st.stack }, isEmpty, rest)

/-- Reads an end tag. Where an entity is read, it must have started an element before. -/
def endTag? (st : State) (s : Input) : Option (State × Input) := do
  let (label, localName, rest) ← qName? (s.drop 2)
  let rest ← (skipSpaces rest).expect? ">"
  guard st.started
  pure (← st.close? label localName, rest)

/-- Reads content up to the end tag of the element that it belongs to, or to its end. `depth` is the
number of entities around it, and `expand` reads the replacement text of another one. `level` counts
the elements that have been opened in it, and the one around it. -/
def contentWith (expand : State → Input → Option State) (entities : List Entity) (depth : Nat) :
    Nat → Nat → State → Input → Option (State × Input)
  | 0, _, st, s => if s.text.isEmpty then some (st, s) else none
  | fuel + 1, level, st, s =>
    let go := contentWith expand entities depth fuel
    match s.text with
    | [] => some (st, s)
    | '<' :: '!' :: _ =>
      if s.startsWith "<!--" then do go level st (← comment? s)
      else if s.startsWith "<![CDATA[" then do go level st (← past? "]]>" (s.drop 9))
      else none
    | '<' :: '?' :: _ => do go level st (← instruction? s)
    | '<' :: '/' :: _ => do
      let (st, rest) ← endTag? st s
      if level ≤ 1 then pure (st, rest) else go (level - 1) st rest
    | '<' :: _ => do
      let (st, isEmpty, rest) ← startTag? entities (maxDepth - depth) st s
      go (if isEmpty then level else level + 1) st rest
    | '&' :: _ => do
      match ← reference? (s.drop 1) with
      | (.char _, rest) => go level st rest
      | (.entity name, rest) =>
        let replacement ← entity? entities name
        let references ← countReference? depth st.references
        let inner ← expand { st with references, started := false } replacement
        go level
          { inner with
            references := if depth = 0 then 0 else inner.references, started := st.started } rest
    | ']' :: _ => if s.startsWith "]]>" then none else go level st (s.drop 1)
    | c :: _ => if isAllowed c then go level st (s.drop 1) else none

/-- Reads the replacement text of an entity as content. `depthLeft` tells how far entities may still
nest. -/
def expansion? (entities : List Entity) : Nat → State → Input → Option State
  | 0, _, _ => none
  | depthLeft + 1, st, s =>
    (contentWith (expansion? entities depthLeft) entities (maxDepth - depthLeft) s.text.length 1 st
      s).map (·.1)

def root? (entities : List Entity) (s : Input) : Option (Element × Input) := do
  guard (s.startsWith "<")
  let (st, isEmpty, rest) ← startTag? entities maxDepth {} s
  let (st, rest) ←
    if isEmpty then pure (st, rest)
    else contentWith (expansion? entities maxDepth) entities 0 rest.text.length 1 st rest
  guard st.stack.isEmpty
  pure (← st.root, rest)

end Reader

open Reader in
def parse? (text : String) : Option Element := do
  let fuel := text.length + 1
  let s : Input := { text := text.toList, line := 1 }
  let s := if s.startsWith "\uFEFF" then s.drop 1 else s
  let s ← if s.startsWith "<?xml " then declaration? s else pure s
  let s := skipSpaces (← misc? fuel s)
  let (entities, s) ←
    if s.startsWith "<!DOCTYPE" then do
      let (entities, s) ← documentType? s
      pure (entities, ← misc? fuel s)
    else pure ([], s)
  let (root, s) ← root? entities (skipSpaces s)
  let s ← misc? fuel s
  guard s.text.isEmpty
  pure root

end XmlSchema.Xml
