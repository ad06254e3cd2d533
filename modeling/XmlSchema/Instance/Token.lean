import XmlSchema.Text.Utf8

namespace XmlSchema.Instance

def ascii (text : String) : Bytes := text.toList.map Char.toUInt8

def isBlankByte (b : UInt8) : Bool := b == 0x20 || b == 0x09 || b == 0x0A || b == 0x0D

inductive Token where
  | text (content : Bytes)
  | comment (content : Bytes)
  | cdata (content : Bytes)
  | doctype
  | declaration
  | instruction (target : Bytes)
  | startTag (content : Bytes) (isEmpty : Bool)
  | endTag (name : Bytes)
  deriving DecidableEq, Repr

inductive TokenFault where
  | unclosedTag
  | unclosedComment
  | unclosedCData
  | unclosedDoctype
  | unclosedInstruction
  | unknownMarkup
  | unnamedDoctype
  deriving DecidableEq, Repr

def TokenFault.message : TokenFault → String
  | .unclosedTag => "syntax error: tag not closed: `>` not found before end of input"
  | .unclosedComment => "syntax error: comment not closed: `-->` not found before end of input"
  | .unclosedCData => "syntax error: CDATA not closed: `]]>` not found before end of input"
  | .unclosedDoctype => "syntax error: DOCTYPE not closed: `>` not found before end of input"
  | .unclosedInstruction =>
    "syntax error: processing instruction or xml declaration not closed: `?>` not found before end of input"
  | .unknownMarkup => "syntax error: unknown or missed symbol in markup"
  | .unnamedDoctype =>
    "ill-formed document: `<!DOCTYPE>` declaration does not contain a name of a document type"

structure Scan where
  result : Except TokenFault Token
  read : Bytes
  rest : Bytes

def tagEnd? (quote : Option UInt8) (passed : Bytes) : Bytes → Option (Bytes × Bytes)
  | [] => none
  | b :: rest =>
    match quote with
    | some q => tagEnd? (if b == q then none else some q) (b :: passed) rest
    | none =>
      if b == '>'.toUInt8 then some (passed.reverse, rest)
      else tagEnd? (if b == '"'.toUInt8 || b == '\''.toUInt8 then some b else none) (b :: passed) rest

/-- The end of markup that ends with some bytes before the `>`, after a least number of bytes. The
ending is given in reverse. -/
def endAfter? (ending : Bytes) (least : Nat) (passed : Bytes) : Bytes → Option (Bytes × Bytes)
  | [] => none
  | b :: rest =>
    if b == '>'.toUInt8 && ending.isPrefixOf passed && least ≤ passed.length then
      some (passed.reverse, rest)
    else endAfter? ending least (b :: passed) rest

/-- The end of a document type: the first `>` without a `<` that it belongs to. -/
def balancedEnd? (depth : Nat) (passed : Bytes) : Bytes → Option (Bytes × Bytes)
  | [] => none
  | b :: rest =>
    if b == '>'.toUInt8 then
      match depth with
      | 0 => some (passed.reverse, rest)
      | depth + 1 => balancedEnd? depth (b :: passed) rest
    else balancedEnd? (if b == '<'.toUInt8 then depth + 1 else depth) (b :: passed) rest

def between (first last : Nat) (content : Bytes) : Bytes :=
  (content.drop first).take (content.length - first - last)

def comment (content : Bytes) : Except TokenFault Token :=
  if (ascii "!--").isPrefixOf content then .ok (.comment (between 3 2 content))
  else .error .unclosedComment

def cdata (content : Bytes) : Except TokenFault Token :=
  if (ascii "![CDATA[").isPrefixOf content then .ok (.cdata (between 8 2 content))
  else .error .unclosedCData

def upperByte (b : UInt8) : UInt8 := if 0x61 ≤ b && b ≤ 0x7A then b - 0x20 else b

def doctype (content : Bytes) : Except TokenFault Token :=
  if !(ascii "!DOCTYPE").isPrefixOf (content.map upperByte) then .error .unclosedDoctype
  else if (content.drop 8).all isBlankByte then .error .unnamedDoctype
  else .ok .doctype

def trimBlankEnd (bytes : Bytes) : Bytes :=
  if bytes.all isBlankByte then bytes else (bytes.reverse.dropWhile isBlankByte).reverse

def instruction (content : Bytes) : Except TokenFault Token :=
  if content.length ≤ 1 then .error .unclosedInstruction
  else
    let target := (between 1 1 content).takeWhile fun b => !isBlankByte b
    .ok (if target == ascii "xml" then .declaration else .instruction target)

def tag (content : Bytes) : Token :=
  match content with
  | b :: name =>
    if b == '/'.toUInt8 then .endTag (trimBlankEnd name)
    else if content.getLast? == some '/'.toUInt8 then .startTag content.dropLast true
    else .startTag content false
  | [] => .startTag [] false

def Scan.markup (result : Except TokenFault Token) (content rest : Bytes) : Scan :=
  { result, read := '<'.toUInt8 :: content ++ ['>'.toUInt8], rest }

def Scan.unclosed (fault : TokenFault) (bytes : Bytes) : Scan :=
  { result := .error fault, read := '<'.toUInt8 :: bytes, rest := [] }

def Scan.upTo (finish : Option (Bytes × Bytes)) (meaning : Bytes → Except TokenFault Token)
    (fault : TokenFault) (bytes : Bytes) : Scan :=
  match finish with
  | some (content, rest) => .markup (meaning content) content rest
  | none => .unclosed fault bytes

def scanMarkup (bytes : Bytes) : Scan :=
  if bytes.head? == some '!'.toUInt8 then
    match bytes[1]?.map upperByte with
    | some 0x2D => .upTo (endAfter? (ascii "--") 5 [] bytes) comment .unclosedComment bytes
    | some 0x5B => .upTo (endAfter? (ascii "]]") 0 [] bytes) cdata .unclosedCData bytes
    | some 0x44 => .upTo (balancedEnd? 0 [] bytes) doctype .unclosedDoctype bytes
    | _ => { result := .error .unknownMarkup, read := ['<'.toUInt8], rest := bytes }
  else if bytes.head? == some '?'.toUInt8 then
    .upTo (endAfter? (ascii "?") 0 [] bytes) instruction .unclosedInstruction bytes
  else
    .upTo (tagEnd? none [] bytes) (fun content => .ok (tag content)) .unclosedTag bytes

def scan? (bytes : Bytes) : Option Scan :=
  match bytes with
  | [] => none
  | b :: rest =>
    if b == '<'.toUInt8 then some (scanMarkup rest)
    else
      let isText := fun b => b != '<'.toUInt8
      let content := bytes.takeWhile isText
      some { result := .ok (.text content), read := content, rest := bytes.dropWhile isText }

end XmlSchema.Instance
