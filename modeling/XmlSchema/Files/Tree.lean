import XmlSchema.Files.Path

namespace XmlSchema.Files

inductive Entry where
  | file (content : ByteArray)
  | directory

inductive ReadFault where
  | notFound
  | isDirectory
  | notDirectory
  | invalidText
  deriving DecidableEq, Repr

namespace ReadFault

def kind : ReadFault → String
  | .notFound => "NotFound"
  | .isDirectory => "IsADirectory"
  | .notDirectory => "NotADirectory"
  | .invalidText => "InvalidData"

def code? : ReadFault → Option Nat
  | .notFound => some 2
  | .isDirectory => some 21
  | .notDirectory => some 20
  | .invalidText => none

def words : ReadFault → String
  | .notFound => "No such file or directory"
  | .isDirectory => "Is a directory"
  | .notDirectory => "Not a directory"
  | .invalidText => "stream did not contain valid UTF-8"

def message (f : ReadFault) : String :=
  f.words ++ match f.code? with
    | some code => s!" (os error {code})"
    | none => ""

end ReadFault

structure Tree where
  entries : List (Path × Entry) := []

namespace Tree

def entry? (tree : Tree) (p : Path) : Option Entry :=
  match tree.entries.lookup p with
  | some e => some e
  | none =>
    if p.steps.isEmpty ||
      tree.entries.any (fun (q, _) => q.absolute == p.absolute && p.steps.isPrefixOf q.steps)
    then some .directory else none

def walk (tree : Tree) (done : Path) : List String → Except ReadFault Entry
  | [] =>
    match tree.entry? done with
    | some e => .ok e
    | none => .error .notFound
  | step :: rest =>
    match tree.entry? done with
    | none => .error .notFound
    | some (.file _) => .error .notDirectory
    | some .directory => walk tree { done with steps := (Path.push done.steps.reverse step).reverse } rest

def find (tree : Tree) (location : String) : Except ReadFault Entry := do
  if location.isEmpty then throw .notFound
  let p := Path.ofText location
  match ← tree.walk { p with steps := [] } p.steps with
  | .file content =>
    -- a way that ends in a slash or in a dot must lead to a directory
    if location.endsWith "/" || location.endsWith "/." then throw .notDirectory
    else pure (.file content)
  | .directory => pure .directory

def read (tree : Tree) (location : String) : Except ReadFault ByteArray := do
  match ← tree.find location with
  | .file content => pure content
  | .directory => throw .isDirectory

def readText (tree : Tree) (location : String) : Except ReadFault String := do
  match String.fromUTF8? (← tree.read location) with
  | some text => pure text
  | none => throw .invalidText

end Tree

end XmlSchema.Files
