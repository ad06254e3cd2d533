import XmlSchema.Text.Basic
import XmlSchema.Xml.Name

namespace XmlSchema.Structure

inductive RootPathFault where
  | empty
  | emptySegment (path : String)
  | invalidName (path segment : String)
  deriving DecidableEq, Repr

def RootPathFault.message : RootPathFault → String
  | .empty => "root path must name at least one element"
  | .emptySegment path => s!"invalid root path '{path}': segments must not be empty"
  | .invalidName path segment => s!"invalid root path '{path}': '{segment}' is not an element name"

def joinSegments (segments : List String) : String := "/".intercalate segments

def segmentFault? (path segment : String) : Option RootPathFault :=
  if (Text.trim segment).isEmpty then some (.emptySegment path)
  else if Xml.isNCName segment.toList then none
  else some (.invalidName path segment)

def rootPathFault? (segments : List String) : Option RootPathFault :=
  if segments.isEmpty then some .empty
  else segments.findSome? (segmentFault? (joinSegments segments))

/-- The local names of elements, from the root of a document downwards. -/
structure RootPath where
  segments : List String
  faultless : rootPathFault? segments = none
  deriving DecidableEq

namespace RootPath

def ofSegments (segments : List String) : Except RootPathFault RootPath :=
  match faultless : rootPathFault? segments with
  | some fault => .error fault
  | none => .ok ⟨segments, faultless⟩

/-- Reads a root path. Slashes at the start and white space around the segments do not matter. -/
def parse (text : String) : Except RootPathFault RootPath :=
  let text := (Text.trim text).toList.dropWhile (· == '/')
  if text.isEmpty then .error .empty
  else ofSegments ((Text.cutAt '/' (String.ofList text)).map Text.trim)

def text (path : RootPath) : String := joinSegments path.segments

def ancestors (path : RootPath) : List String := path.segments.dropLast

def name (path : RootPath) : String := path.segments.getLastD ""

end RootPath

inductive RootFault where
  | missing (path : RootPath)
  | repeated (path : RootPath)
  | unexpected (localName : String) (expected : List String)
  deriving DecidableEq

def RootFault.message : RootFault → String
  | .missing path => s!"Element(s) '{path.text}' not found"
  | .repeated path => s!"Element(s) '{path.text}' should occur only once"
  | .unexpected localName expected =>
    let listed := ", ".intercalate expected
    s!"Illegal element '{localName}'. Element(s) '{listed}' expected."

inductive NamespaceWarning where
  | absent (localName : String)
  | unknown (ns localName : String)
  | suppressed
  deriving DecidableEq, Repr

def NamespaceWarning.message : NamespaceWarning → String
  | .absent localName =>
    s!"Element '{localName}' has no namespace, but no schema without a target namespace is loaded"
  | .unknown ns localName => s!"Unknown namespace '{ns}' on element '{localName}'"
  | .suppressed => "Too many unknown namespaces, further warnings suppressed"

inductive Phase where
  | awaiting
  | inside
  | ended
  deriving DecidableEq, Repr

structure Watched where
  path : RootPath
  observed : Bool := false
  deriving DecidableEq

structure Monitor where
  roots : List Watched
  knownNamespaces : List String
  checksNamespaces : Bool
  maxWarnings : Nat
  unknownSeen : List String := []
  warnings : Nat := 0
  capped : Bool := false
  rootFaults : Nat := 0
  path : List String := []
  phase : Phase := .awaiting

namespace Monitor

def start (rootPaths : List RootPath) (knownNamespaces : List String) (checksNamespaces : Bool)
    (maxWarnings : Nat) : Monitor :=
  { roots := rootPaths.map ({ path := · }), knownNamespaces, checksNamespaces, maxWarnings }

def depth (m : Monitor) : Nat := m.path.length

def xpath (m : Monitor) : String := "/" ++ "/".intercalate m.path.reverse

/-- Marks a root path as seen if an element stands at its place. The fault is that it has been seen
before. -/
def observe (ancestors : List String) (localName : String) (w : Watched) :
    Watched × Option RootFault :=
  if w.path.ancestors == ancestors && w.path.name == localName then
    (⟨w.path, true⟩, if w.observed then some (.repeated w.path) else none)
  else (w, none)

def checkRoots (roots : List Watched) (ancestors : List String) (localName : String) :
    List Watched × List RootFault :=
  let candidates := roots.filter fun w => w.path.ancestors == ancestors
  let results := roots.map (observe ancestors localName)
  if candidates.isEmpty || candidates.any fun w => w.path.name == localName then
    (results.map (·.1), results.filterMap (·.2))
  else (roots, [.unexpected localName (candidates.map (·.path.name))])

def missingRoots (roots : List Watched) : List RootFault :=
  (roots.filter (!·.observed)).map fun w => .missing w.path

def checkNamespace (m : Monitor) (ns localName : String) : Monitor × Option NamespaceWarning :=
  if !m.checksNamespaces || m.capped || m.knownNamespaces.contains ns || m.unknownSeen.contains ns then
    (m, none)
  else
    let m := { m with unknownSeen := ns :: m.unknownSeen }
    if m.maxWarnings ≤ m.warnings then ({ m with capped := true }, some .suppressed)
    else
      ({ m with warnings := m.warnings + 1 },
        some (if ns.isEmpty then .absent localName else .unknown ns localName))

def startElement (m : Monitor) (ns localName : String) :
    Monitor × List RootFault × Option NamespaceWarning :=
  let (roots, faults) := checkRoots m.roots m.path.reverse localName
  let m := { m with
    roots, path := localName :: m.path, phase := .inside, rootFaults := m.rootFaults + faults.length }
  let (m, warning) := m.checkNamespace ns localName
  (m, faults, warning)

def endElement (m : Monitor) : Monitor := { m with path := m.path.tail }

def endDocument (m : Monitor) : Monitor × List RootFault :=
  let faults := missingRoots m.roots
  ({ m with phase := .ended, rootFaults := m.rootFaults + faults.length }, faults)

def hasRootFaults (m : Monitor) : Bool := 0 < m.rootFaults

end Monitor

end XmlSchema.Structure
