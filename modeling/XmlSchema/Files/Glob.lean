import XmlSchema.Regex.Basic
import XmlSchema.Text.Utf8

namespace XmlSchema.Files

inductive GlobToken where
  | literal (c : Char)
  | any
  | star
  | leading
  | trailing
  | between
  | set (negated : Bool) (ranges : List (Char × Char))
  | oneOf (branches : List (List GlobToken))

namespace Glob

open Regex (Expr CharSet)

structure Parts where
  /-- The branches of the groups that are open, the innermost one first, with their parts in reverse.
  The last one is the pattern itself. -/
  branches : List (List GlobToken) := [[]]
  /-- For each open group, the innermost one first, the number of branches around it. -/
  groups : List Nat := []

namespace Parts

def push (p : Parts) (token : GlobToken) : Parts :=
  match p.branches with
  | [] => { p with branches := [[token]] }
  | branch :: outer => { p with branches := (token :: branch) :: outer }

def pushStars (p : Parts) : Parts := (p.push .star).push .star

def isFresh (p : Parts) : Bool := (p.branches.head?.getD []).isEmpty

def openGroup (p : Parts) : Parts :=
  ⟨[] :: p.branches, p.branches.length :: p.groups⟩

def comma (p : Parts) : Parts :=
  if p.groups.isEmpty then p.push (.literal ',') else { p with branches := [] :: p.branches }

def closeGroup? (p : Parts) : Option Parts :=
  match p.groups with
  | [] => none
  | around :: groups =>
    let count := p.branches.length - around
    let inside := ((p.branches.take count).map List.reverse).reverse
    some (Parts.push ⟨p.branches.drop count, groups⟩ (.oneOf inside))

/-- Puts a part in the place of the last one, unless that takes in any directories itself. -/
def replaceLast (p : Parts) (token : GlobToken) : Parts :=
  match p.branches with
  | (.leading :: _) :: _ | (.trailing :: _) :: _ => p
  | (_ :: branch) :: outer => { p with branches := (token :: branch) :: outer }
  | _ => p.push token

end Parts

def doubleStar (p : Parts) (before : Option Char) (rest : List Char) : Parts × List Char :=
  if p.isFresh then
    match rest with
    | [] => (p.push .leading, [])
    | '/' :: rest => (p.push .leading, rest)
    | _ => (p.pushStars, rest)
  else
    let inGroup := 1 < p.branches.length
    if before != some '/' && !(inGroup && (before == some ',' || before == some '\x7b')) then
      (p.pushStars, rest)
    else match rest with
      | [] => (p.replaceLast .trailing, [])
      | '/' :: rest => (p.replaceLast .between, rest)
      | c :: _ =>
        if inGroup && (c == ',' || c == '\x7d') then (p.replaceLast .trailing, rest)
        else (p.pushStars, rest)

/-- Reads the rest of a class behind its first character, which may be any. The ranges are in
reverse, and `inRange` tells whether the last one awaits its end. -/
def classRest? (ranges : List (Char × Char)) (inRange : Bool) :
    List Char → Option (List (Char × Char) × List Char)
  | [] => none
  | c :: rest =>
    if c == ']' then
      some ((if inRange then ('-', '-') :: ranges else ranges).reverse, rest)
    else if c == '-' && !inRange then classRest? ranges true rest
    else
      match inRange, ranges with
      | true, (first, _) :: more =>
        if c < first then none else classRest? ((first, c) :: more) false rest
      | _, _ => classRest? ((c, c) :: ranges) false rest

def class? (text : List Char) : Option (GlobToken × List Char) := do
  let (negated, text) := match text with
    | '!' :: rest | '^' :: rest => (true, rest)
    | text => (false, text)
  match text with
  | [] => none
  | c :: rest =>
    let (ranges, rest) ← classRest? [(c, c)] false rest
    pure (.set negated ranges, rest)

def parts? : Nat → Parts → Option Char → List Char → Option Parts
  | _, p, _, [] => some p
  | 0, _, _, _ :: _ => none
  | fuel + 1, p, before, c :: rest =>
    match c with
    | '?' => parts? fuel (p.push .any) (some c) rest
    | '*' =>
      match rest with
      | '*' :: rest =>
        let (p, left) := doubleStar p before rest
        parts? fuel p (some (if left.length < rest.length then '/' else '*')) left
      | _ => parts? fuel (p.push .star) (some c) rest
    | '[' => do
      let (token, rest) ← class? rest
      parts? fuel (p.push token) (some ']') rest
    | '\x7b' => parts? fuel p.openGroup (some c) rest
    | '\x7d' => do parts? fuel (← p.closeGroup?) (some c) rest
    | ',' => parts? fuel p.comma (some c) rest
    | '\\' =>
      match rest with
      | [] => none
      | d :: rest => parts? fuel (p.push (.literal d)) (some d) rest
    | c => parts? fuel (p.push (.literal c)) (some c) rest

def tokens? (text : List Char) : Option (List GlobToken) := do
  let p ← parts? text.length {} none text
  match p.branches with
  | [branch] => pure branch.reverse
  | _ => none

def byteChars (bytes : Bytes) : List Char := bytes.map fun b => Char.ofNat b.toNat

def anyByte : Expr := .chars (.compl .empty)

def anyButSlash : Expr := .chars (.compl (.singleton '/'))

def bytesExpr (text : List Char) : Expr :=
  .sequence ((byteChars (Utf8.encode (String.ofList text))).map fun c => .chars (.singleton c))

/-- The bytes of a range in a class. Of characters with several bytes, the last byte of the first
one and the first byte of the last one are the ends of the range, and the others stand alone. -/
def rangeSet (first last : Char) : CharSet :=
  let alone (bytes : List Char) : CharSet :=
    bytes.foldl (fun s c => .union s (.singleton c)) .empty
  let a := byteChars (Utf8.encode (String.singleton first))
  let b := byteChars (Utf8.encode (String.singleton last))
  if first == last then alone a
  else .union (alone (a.dropLast ++ b.tail))
    (.range ((a.getLast?.getD first).toNat) ((b.head?.getD last).toNat))

mutual

def isVoid : GlobToken → Bool
  | .oneOf branches => areVoidBranches branches
  | _ => false

def areVoid : List GlobToken → Bool
  | [] => true
  | token :: rest => isVoid token && areVoid rest

def areVoidBranches : List (List GlobToken) → Bool
  | [] => true
  | branch :: rest => areVoid branch && areVoidBranches rest

end

mutual

def tokenExpr : GlobToken → Expr
  | .literal c => bytesExpr [c]
  | .any => anyButSlash
  | .star => .star anyButSlash
  | .leading =>
    .alt (.optional (.literal "/")) (.sequence [.star anyByte, .literal "/"])
  | .trailing => .sequence [.literal "/", .star anyByte]
  | .between => .alt (.literal "/") (.sequence [.literal "/", .star anyByte, .literal "/"])
  | .set negated ranges =>
    let set := ranges.foldl (fun s (first, last) => CharSet.union s (rangeSet first last)) .empty
    .chars (if negated then .compl set else set)
  | .oneOf branches =>
    match branchExprs branches with
    | [] => .sequence []
    | e :: es => .oneOf e es

def tokensExpr : List GlobToken → Expr
  | [] => .sequence []
  | token :: rest => .sequence [tokenExpr token, tokensExpr rest]

def branchExprs : List (List GlobToken) → List Expr
  | [] => []
  | branch :: rest =>
    if areVoid branch then branchExprs rest else tokensExpr branch :: branchExprs rest

end

def expr : List GlobToken → Expr
  | [.leading] => .star anyByte
  | tokens => tokensExpr tokens

def accepts (e : Expr) (path : String) : Bool := e.matchesWhole (byteChars (Utf8.encode path))

end Glob

end XmlSchema.Files
