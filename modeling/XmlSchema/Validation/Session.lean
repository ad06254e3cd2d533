import XmlSchema.Schema.Compilation
import XmlSchema.Validation.Frame
import XmlSchema.Validation.Outcome

/-!
# Sessions

A session validates one document. It follows the events of the document with a frame for every open
element and a monitor for the structure, and collects reasons. The verdict is found at the end: a
document that is not well formed cannot be judged otherwise, a fault at the root paths goes before
all others, and any reason at all, warnings included, makes a document not valid.
-/

namespace XmlSchema.Validation

open Component (Pool)
open Instance (Document Event StartTag)
open Report (Cause Reason)
open Structure (Monitor RootPath)

structure Options where
  rootPaths : List RootPath := []
  ignoreUnknownNamespaces : Bool := false
  fullSchemaChecking : Bool := false
  maxNamespaceWarnings : Nat := 100

structure Session where
  monitor : Monitor
  frames : List Frame := []
  checks : SchemaChecks
  /-- What has been found, the latest first. -/
  found : List Reason := []

namespace Session

def start (bundle : Bundle) (options : Options) : Session where
  monitor := .start options.rootPaths bundle.validNamespaces (!options.ignoreUnknownNamespaces)
    options.maxNamespaceWarnings
  checks := { enabled := options.fullSchemaChecking }

def add (s : Session) (reasons : List Reason) : Session :=
  { s with found := reasons.reverse ++ s.found }

def errorsAt (monitor : Monitor) (location : Location) (causes : List Cause) : List Reason :=
  causes.map fun cause =>
    { severity := .error, cause, location? := some location, xpath? := some monitor.xpath }

def structureReasons (monitor : Monitor) (location : Location)
    (faults : List Structure.RootFault) (warning : Option Structure.NamespaceWarning) :
    List Reason :=
  errorsAt monitor location (faults.map .root) ++
    warning.toList.map fun w =>
      { severity := .warning, cause := .ns w, location? := some location,
        xpath? := some monitor.xpath }

def resolve (pool : Pool) (frames : List Frame) (name : Component.QName) :
    Resolution × List Frame × List Cause :=
  match frames with
  | [] =>
    let (resolution, causes) := resolveRoot pool name
    (resolution, [], causes)
  | parent :: outer =>
    let (resolution, parent, causes) := parent.child pool name
    (resolution, parent :: outer, causes)

def startElement (pool : Pool) (s : Session) (tag : StartTag) (location : Location) : Session :=
  let (monitor, faults, warning) := s.monitor.startElement tag.name.ns tag.name.localName
  let (resolution, outer, childCauses) := resolve pool s.frames tag.name
  let (frame, checks, causes) := openFrame pool s.checks resolution tag
  { monitor, frames := frame :: outer, checks,
    found := (structureReasons monitor location faults warning ++
      errorsAt monitor location (childCauses ++ causes)).reverse ++ s.found }

def characters (s : Session) (text : String) (location : Location) : Session :=
  match s.frames with
  | [] => s
  | frame :: outer =>
    let (frame, causes) := frame.characters text
    { s with frames := frame :: outer }.add (errorsAt s.monitor location causes)

def endElement (s : Session) (location : Location) : Session :=
  let causes := match s.frames with
    | [] => []
    | frame :: _ => frame.close
  { s with frames := s.frames.tail, monitor := s.monitor.endElement }.add
    (errorsAt s.monitor location causes)

def handle (pool : Pool) (s : Session) (event : Event) (location : Location) : Session :=
  match event with
  | .start tag => s.startElement pool tag location
  | .text content => s.characters content location
  | .finish => s.endElement location

def endDocument (s : Session) : Session :=
  let (monitor, faults) := s.monitor.endDocument
  { s with monitor }.add (faults.map fun fault => { severity := .error, cause := .root fault })

def abort (s : Session) (fault : Instance.Fault) (location : Location) : Session :=
  s.add [{
    severity := .fatal
    cause := .malformed fault
    location? := some location
    xpath? := if s.monitor.path.isEmpty then none else some s.monitor.xpath }]

def outcome (s : Session) (identity : String) (wellFormed : Bool) : Outcome :=
  let verdict : Verdict :=
    if !wellFormed then .parserError
    else if s.monitor.hasRootFaults then .illegalRoot
    else if !s.found.isEmpty then .notValid
    else .valid
  { verdict, report := { summary := verdict.summary identity, reasons := s.found.reverse } }

def follow (pool : Pool) (s : Session) (events : List (Event × Location)) : Session :=
  events.foldl (fun s (event, location) => s.handle pool event location) s

end Session

def validateDocument (bundle : Bundle) (options : Options) (document : Document) : Outcome :=
  let s := (Session.start bundle options).follow bundle.pool document.events
  match document.fault? with
  | none => s.endDocument.outcome bundle.identity true
  | some (fault, location) => (s.abort fault location).outcome bundle.identity false

def validate (bundle : Bundle) (options : Options) (bytes : Bytes) : Outcome :=
  validateDocument bundle options (.ofBytes bytes)

end XmlSchema.Validation
