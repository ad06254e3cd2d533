namespace XmlSchema.Component

structure QName where
  ns : String
  localName : String
  deriving DecidableEq, Repr, Hashable

namespace QName

def text (q : QName) : String :=
  if q.ns.isEmpty then q.localName else "\x7b" ++ q.ns ++ "\x7d" ++ q.localName

def quoted (q : QName) : String :=
  if q.ns.isEmpty then q.localName else "\"" ++ q.ns ++ "\":" ++ q.localName

end QName

def schemaNamespace : String := "http://www.w3.org/2001/XMLSchema"

def instanceNamespace : String := "http://www.w3.org/2001/XMLSchema-instance"

def xmlNamespace : String := "http://www.w3.org/XML/1998/namespace"

end XmlSchema.Component

namespace XmlSchema.Component

inductive NamespaceConstraint where
  | any
  /-- Any namespace except the given one and none at all. -/
  | other (target : String)
  /-- Some namespaces. The empty text stands for names without a namespace. -/
  | among (namespaces : List String)
  deriving DecidableEq, Repr

inductive ProcessContents where
  | strict
  | lax
  | skip
  deriving DecidableEq, Repr

def ProcessContents.word : ProcessContents → String
  | .strict => "strict"
  | .lax => "lax"
  | .skip => "skip"

structure Wildcard where
  constraint : NamespaceConstraint
  process : ProcessContents
  deriving DecidableEq, Repr

namespace Wildcard

def allows (w : Wildcard) (ns : String) : Bool :=
  match w.constraint with
  | .any => true
  | .other target => !ns.isEmpty && ns != target
  | .among namespaces => namespaces.contains ns

def overlaps (a b : Wildcard) : Bool :=
  match a.constraint, b.constraint with
  | .any, _ | _, .any => true
  | .other _, .other _ => true
  | .among namespaces, _ => namespaces.any b.allows
  | _, .among namespaces => namespaces.any a.allows

def description (w : Wildcard) : String :=
  match w.constraint with
  | .any => "WC[##any]"
  | .other target => "WC[##other:\"" ++ target ++ "\"]"
  | .among namespaces =>
    "WC[" ++ ",".intercalate (namespaces.map fun ns => "\"" ++ ns ++ "\"") ++ "]"

def fullDescription (w : Wildcard) : String := w.process.word ++ " " ++ w.description

end Wildcard

end XmlSchema.Component
