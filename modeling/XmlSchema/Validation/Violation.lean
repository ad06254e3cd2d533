import XmlSchema.Component.Name
import XmlSchema.Text.Basic

namespace XmlSchema.Validation

open Component (QName)

inductive Violation where
  | undeclaredElement (element : String)
  | abstractElement (element : String)
  | missingType (element : String)
  | abstractType (element : String)
  | typeNotDerived (type declared element : String)
  | unknownType (type element : String)
  | invalidNil (value : String)
  | notNillable (element : String)
  | nilWithFixed (element : String)
  | contentOfNil (element : String)
  | childOfSimpleType (element : String)
  | childOfSimpleContent (element : String)
  | contentOfEmpty (element : String)
  | textInElementOnly (element : String)
  | undeclaredForWildcard (element : String)
  | unexpectedElement (found : QName) (expected : List String)
  | incompleteContent (element : String) (expected : List String)
  | attributeNotAllowed (name element : String)
  | attributeMissing (name element : String)
  | attributeInvalid (value name element typeName : String)
  | attributeNotFixed (value name element fixed : String)
  | attributeOfSimpleType (name element : String)
  | elementInvalid (value element : String)
  | elementNotFixed (value element fixed : String)
  deriving DecidableEq, Repr

def expectedText (expected : List String) : String :=
  "'\x7b" ++ ", ".intercalate expected ++ "\x7d'"

def Violation.message : Violation → String
  | .undeclaredElement e => s!"cvc-elt.1.a: Cannot find the declaration of element '{e}'."
  | .abstractElement e =>
    "cvc-elt.2: The value of \x7babstract\x7d in the element declaration for '" ++ e ++
      "' must be false."
  | .missingType e =>
    s!"cvc-type.1: The type definition specified for element '{e}' cannot be found."
  | .abstractType e =>
    s!"cvc-type.2: The type definition cannot be abstract for element {e}."
  | .typeNotDerived type declared e =>
    s!"cvc-elt.4.3: Type '{type}' is not validly derived from the type definition, '{declared}', of element '{e}'."
  | .unknownType type e =>
    s!"cvc-elt.4.2: Cannot resolve '{type}' to a type definition for element '{e}'."
  | .invalidNil value =>
    s!"cvc-datatype-valid.1.2.1: '{value}' is not a valid value for 'boolean'."
  | .notNillable e =>
    s!"cvc-elt.3.1: Attribute '{Component.instanceNamespace},nil' must not appear on element '{e}', " ++
      "because the \x7bnillable\x7d property of '" ++ e ++ "' is false."
  | .nilWithFixed e =>
    "cvc-elt.3.2.2: There must be no fixed \x7bvalue constraint\x7d for element '" ++ e ++
      "', because 'xsi:nil' is specified."
  | .contentOfNil e =>
    s!"cvc-elt.3.2.1: Element '{e}' cannot have character or element information [children], because 'xsi:nil' is specified."
  | .childOfSimpleType e =>
    s!"cvc-type.3.1.2: Element '{e}' is a simple type, so it must have no element information item [children]."
  | .childOfSimpleContent e =>
    s!"cvc-complex-type.2.2: Element '{e}' must have no element [children], and the value must be valid."
  | .contentOfEmpty e =>
    s!"cvc-complex-type.2.1: Element '{e}' must have no character or element information item [children], because the type's content type is empty."
  | .textInElementOnly e =>
    s!"cvc-complex-type.2.3: Element '{e}' cannot have character [children], because the type's content type is element-only."
  | .undeclaredForWildcard e =>
    s!"cvc-complex-type.2.4.c: The matching wildcard is strict, but no declaration can be found for element '{e}'."
  | .unexpectedElement found [] =>
    s!"cvc-complex-type.2.4.d: Invalid content was found starting with element '{found.quoted}'. No child element is expected at this point."
  | .unexpectedElement found expected =>
    s!"cvc-complex-type.2.4.a: Invalid content was found starting with element '{found.quoted}'. One of {expectedText expected} is expected."
  | .incompleteContent e [] =>
    s!"cvc-complex-type.2.4.b: The content of element '{e}' is not complete."
  | .incompleteContent e expected =>
    s!"cvc-complex-type.2.4.b: The content of element '{e}' is not complete. One of {expectedText expected} is expected."
  | .attributeNotAllowed a e =>
    s!"cvc-complex-type.3.2.2: Attribute '{a}' is not allowed to appear in element '{e}'."
  | .attributeMissing a e =>
    s!"cvc-complex-type.4: Attribute '{a}' must appear on element '{e}'."
  | .attributeInvalid value a e typeName =>
    s!"cvc-attribute.3: The value '{value}' of attribute '{a}' on element '{e}' is not valid with respect to its type, '{typeName}'."
  | .attributeNotFixed value a e fixed =>
    s!"cvc-attribute.4: The value '{value}' of attribute '{a}' on element '{e}' is not valid with respect to its fixed " ++
      "\x7bvalue constraint\x7d. The attribute must have a value of '" ++ fixed ++ "'."
  | .attributeOfSimpleType a e =>
    s!"cvc-type.3.1.1: Element '{e}' is a simple type, so it cannot have attributes, excepting those whose namespace name is identical to '{Component.instanceNamespace}' and whose [local name] is one of 'type', 'nil', 'schemaLocation' or 'noNamespaceSchemaLocation'. However, the attribute, '{a}' was found."
  | .elementInvalid value e =>
    s!"cvc-type.3.1.3: The value '{Text.trim value}' of element '{e}' is not valid."
  | .elementNotFixed value e fixed =>
    s!"cvc-elt.5.2.2.2.2: The value '{value}' of element '{e}' does not match the " ++
      "\x7bvalue constraint\x7d value '" ++ fixed ++ "'."

end XmlSchema.Validation
