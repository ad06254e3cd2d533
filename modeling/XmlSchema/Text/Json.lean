namespace XmlSchema

inductive Json where
  | null
  | bool (b : Bool)
  | number (text : String)
  | string (text : String)
  | array (items : List Json)
  | object (members : List (String × Json))

namespace Json

def nat (n : Nat) : Json := .number (toString n)

def option {α : Type} (f : α → Json) : Option α → Json
  | some a => f a
  | none => .null

def hexDigit (n : Nat) : Char := (Nat.digitChar n)

def escapedChar (c : Char) : String :=
  match c with
  | '"' => "\\\""
  | '\\' => "\\\\"
  | '\n' => "\\n"
  | '\r' => "\\r"
  | '\t' => "\\t"
  | '\x08' => "\\b"
  | '\x0c' => "\\f"
  | c =>
    if c.toNat < 0x20 then
      "\\u00" ++ String.ofList [hexDigit (c.toNat / 16), hexDigit (c.toNat % 16)]
    else String.singleton c

def quoted (text : String) : String :=
  "\"" ++ String.join (text.toList.map escapedChar) ++ "\""

def line (level : Nat) : String := "\n" ++ String.ofList (List.replicate (2 * level) ' ')

mutual

def textAt (level : Nat) : Json → String
  | .null => "null"
  | .bool b => if b then "true" else "false"
  | .number text => text
  | .string text => quoted text
  | .array [] => "[]"
  | .array items => "[" ++ ",".intercalate (itemTexts (level + 1) items) ++ line level ++ "]"
  | .object [] => "\x7b\x7d"
  | .object members =>
    "\x7b" ++ ",".intercalate (memberTexts (level + 1) members) ++ line level ++ "\x7d"

def itemTexts (level : Nat) : List Json → List String
  | [] => []
  | item :: rest => (line level ++ textAt level item) :: itemTexts level rest

def memberTexts (level : Nat) : List (String × Json) → List String
  | [] => []
  | (name, value) :: rest =>
    (line level ++ quoted name ++ ": " ++ textAt level value) :: memberTexts level rest

end

def text (value : Json) : String := textAt 0 value

end Json

end XmlSchema
