import XmlSchema.ContentModel.Automaton
import XmlSchema.Pattern.Translation

namespace XmlSchema.Schema

open Component (QName)

inductive ComponentFault where
  | missingAttribute (name : String)
  | undeclaredPrefix (value : String)
  | badOccurrence (value : String)
  | boundsInverted
  | namelessElement
  | namelessAttribute
  | unknownBuiltin (localName : String)
  | circular (localName : String)
  | anyTypeNotSimple
  | notSimple (localName : String)
  | notComplex (localName : String)
  | builtinNotComplex (localName : String)
  | listWithoutItem
  | unionWithoutMembers
  | noVariety
  | restrictionWithoutBase
  | badFacet (facet value : String)
  | badWhiteSpace (value : String)
  | simpleContentWithoutDerivation
  | complexContentWithoutDerivation
  | baseWithoutSimpleContent (localName : String)
  | groupWithoutModel (localName : String)
  | model (typeName : String) (fault : ContentModel.ModelFault)
  | unresolved (name : QName) (kind : String)
  /-- A bound on how deeply definitions nest has been reached, which never happens. -/
  | unfinished
  deriving DecidableEq, Repr

def ComponentFault.message : ComponentFault → String
  | .missingAttribute name => s!"missing '{name}' attribute"
  | .undeclaredPrefix value => s!"undeclared namespace prefix in '{value}'"
  | .badOccurrence value => s!"invalid occurrence value '{value}'"
  | .boundsInverted => "p-props-correct.2.1: minOccurs must not be greater than maxOccurs"
  | .namelessElement => "element requires a 'name' or 'ref'"
  | .namelessAttribute => "attribute requires a 'name' or 'ref'"
  | .unknownBuiltin localName => s!"unknown built-in type 'xs:{localName}'"
  | .circular localName => s!"circular definition of '{localName}'"
  | .anyTypeNotSimple => "xs:anyType is not a simple type"
  | .notSimple localName => s!"'{localName}' is not a simple type"
  | .notComplex localName => s!"'{localName}' is not a complex type"
  | .builtinNotComplex localName => s!"'xs:{localName}' is not a complex type"
  | .listWithoutItem => "xs:list requires an item type"
  | .unionWithoutMembers => "xs:union requires member types"
  | .noVariety => "simpleType requires restriction, list or union"
  | .restrictionWithoutBase => "restriction requires a base type"
  | .badFacet facet value => s!"invalid {facet} value '{value}'"
  | .badWhiteSpace value => s!"invalid whiteSpace value '{value}'"
  | .simpleContentWithoutDerivation => "simpleContent requires extension or restriction"
  | .complexContentWithoutDerivation => "complexContent requires extension or restriction"
  | .baseWithoutSimpleContent localName =>
    s!"base type '{localName}' of simpleContent does not have simple content"
  | .groupWithoutModel localName => s!"group '{localName}' has no model group"
  | .model typeName fault => s!"{typeName}: {fault.message}"
  | .unresolved name kind =>
    s!"src-resolve: Cannot resolve the name '{name.text}' to a(n) '{kind}' component."
  | .unfinished => "definitions nest too deeply"

inductive Detail where
  | notWellFormed
  | notSchema (rootName : String)
  | emptyTarget
  | notText
  | remote
  | component (line : Nat) (fault : ComponentFault)
  | pattern (fault : Pattern.Fault)
  | words (text : String)
  deriving DecidableEq, Repr

def Detail.message : Detail → String
  | .notWellFormed => "<xml>"
  | .notSchema rootName => s!"root element must be xs:schema, found '{rootName}'"
  | .emptyTarget => "targetNamespace must not be empty"
  | .notText => "schema content is not valid UTF-8"
  | .remote => "remote schema retrieval is not supported"
  | .component line fault => s!"line {line}: {fault.message}"
  | .pattern fault => fault.message
  | .words text => text

end Schema

inductive SchemaError where
  | sourceNotFound (systemId : String)
  | unreadable (systemId : String) (detail : Schema.Detail)
  | malformed (systemId : String) (detail : Schema.Detail)
  /-- A component is missing that some other schema may define. -/
  | unresolvedReference (systemId : String) (detail : Schema.Detail)
  | invalidPattern (systemId pattern : String) (detail : Schema.Detail)
  | unsupported (systemId : String) (detail : Schema.Detail)
  | noSources (identity : String)
  deriving DecidableEq, Repr

namespace SchemaError

def message : SchemaError → String
  | .sourceNotFound systemId => s!"Schema not found: {systemId}"
  | .unreadable systemId detail => s!"Cannot read schema {systemId}: {detail.message}"
  | .malformed systemId detail => s!"Malformed schema {systemId}: {detail.message}"
  | .unresolvedReference systemId detail =>
    s!"Unresolved reference in schema {systemId}: {detail.message}"
  | .invalidPattern systemId pattern detail =>
    s!"Invalid pattern '{pattern}' in schema {systemId}: {detail.message}"
  | .unsupported systemId detail => s!"Unsupported construct in schema {systemId}: {detail.message}"
  | .noSources identity => s!"No schema sources configured for {identity}"

/-- Whether the error may vanish once other schemas of the set have been compiled. -/
def isDeferrable : SchemaError → Bool
  | .unresolvedReference .. => true
  | _ => false

def systemId? : SchemaError → Option String
  | .sourceNotFound systemId | .unreadable systemId _ | .malformed systemId _
  | .unresolvedReference systemId _ | .invalidPattern systemId _ _ | .unsupported systemId _ =>
    some systemId
  | .noSources _ => none

end SchemaError

end XmlSchema
