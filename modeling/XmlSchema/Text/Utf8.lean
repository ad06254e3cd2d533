/-!
# Decoding UTF-8

Bytes are decoded item by item: a character, or a stretch of bytes that is not one. Such a stretch
ends in front of the first byte with which it could not be the start of a character, and a stretch
of the same kind at the end of the bytes is told apart from it, since more bytes could mend it.

`decode` refuses bytes with such a stretch and says where the first one begins. `decodeLossy` puts
the replacement character in the place of each of them.
-/

namespace XmlSchema

abbrev Bytes := List UInt8

namespace Utf8

structure Pending where
  read : Nat
  missing : Nat
  low : UInt8
  high : UInt8
  bits : Nat

inductive Item where
  | char (c : Char)
  | malformed (size : Nat)
  | truncated
  deriving DecidableEq, Repr

def start (b : UInt8) : Item ⊕ Pending :=
  if b < 0x80 then .inl (.char (Char.ofNat b.toNat))
  else if b < 0xC2 then .inl (.malformed 1)
  else if b < 0xE0 then .inr ⟨1, 0, 0x80, 0xBF, b.toNat - 0xC0⟩
  else if b < 0xF0 then
    .inr ⟨1, 1, if b == 0xE0 then 0xA0 else 0x80, if b == 0xED then 0x9F else 0xBF, b.toNat - 0xE0⟩
  else if b < 0xF5 then
    .inr ⟨1, 2, if b == 0xF0 then 0x90 else 0x80, if b == 0xF4 then 0x8F else 0xBF, b.toNat - 0xF0⟩
  else .inl (.malformed 1)

/-- Reads one byte. The result is the items that it completes, with what is then pending. -/
def next (pending : Option Pending) (b : UInt8) : List Item × Option Pending :=
  let fresh := match start b with
    | .inl item => ([item], none)
    | .inr p => ([], some p)
  match pending with
  | none => fresh
  | some p =>
    if p.low ≤ b && b ≤ p.high then
      let bits := p.bits * 64 + (b.toNat - 0x80)
      match p.missing with
      | 0 => ([.char (Char.ofNat bits)], none)
      | n + 1 => ([], some ⟨p.read + 1, n, 0x80, 0xBF, bits⟩)
    else (.malformed p.read :: fresh.1, fresh.2)

/-- The items of some bytes after a pending start, behind those of an accumulator. -/
def itemsFrom (pending : Option Pending) (acc : List Item) : Bytes → List Item
  | [] => match pending with
    | none => acc.reverse
    | some _ => (.truncated :: acc).reverse
  | b :: rest =>
    let (items, pending) := next pending b
    itemsFrom pending (items.reverse ++ acc) rest

def items (bytes : Bytes) : List Item := itemsFrom none [] bytes

inductive Fault where
  | malformed (size position : Nat)
  | truncated (position : Nat)
  deriving DecidableEq, Repr

def Fault.message : Fault → String
  | .malformed size position => s!"invalid utf-8 sequence of {size} bytes from index {position}"
  | .truncated position => s!"incomplete utf-8 byte sequence from index {position}"

def charsOf (position : Nat) (acc : List Char) : List Item → Except Fault (List Char)
  | [] => .ok acc.reverse
  | .char c :: rest => charsOf (position + c.utf8Size) (c :: acc) rest
  | .malformed size :: _ => .error (.malformed size position)
  | .truncated :: _ => .error (.truncated position)

def decode (bytes : Bytes) : Except Fault String :=
  (charsOf 0 [] (items bytes)).map String.ofList

def replacement : Char := '\uFFFD'

def Item.toChar : Item → Char
  | .char c => c
  | _ => replacement

/-- Decodes bytes, with a replacement character for each part that is not a character. -/
def decodeLossy (bytes : Bytes) : String := String.ofList ((items bytes).map Item.toChar)

def encode (text : String) : Bytes := text.toUTF8.toList

end Utf8

end XmlSchema
