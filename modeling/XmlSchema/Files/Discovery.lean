import XmlSchema.Files.Glob
import XmlSchema.Files.Path
import XmlSchema.Files.Tree
import XmlSchema.Unicode.Lowercase

namespace XmlSchema.Files

structure FilterRule where
  expr : Regex.Expr
  drops : Bool
  onlyDirectories : Bool

structure Filter where
  root : String
  rules : List FilterRule

inductive FilterVerdict where
  | none
  | keep
  | drop
  deriving DecidableEq, Repr

namespace FilterRule

/-- A pattern without white space at its end, unless a backslash stands in front of that. -/
def trimEnd (line : List Char) : List Char :=
  if ['\\', ' '].isSuffixOf line then line
  else (line.reverse.dropWhile Unicode.isWhiteSpace).reverse

def splitFinalSlash (line : List Char) : Bool × List Char :=
  match line.reverse with
  | '/' :: '\\' :: before => (true, before.reverse)
  | '/' :: before => (true, before.reverse)
  | _ => (false, line)

/-- The pattern that takes the same from the start of a path on. One without a slash takes steps
anywhere. -/
def anchor (absolute : Bool) (pattern : List Char) : List Char :=
  let anywhere := !absolute && !pattern.contains '/' &&
    !("**/".toList.isPrefixOf pattern || pattern == "**".toList)
  let pattern := if anywhere then "**/".toList ++ pattern else pattern
  -- what takes all things below a directory does not take the directory itself
  if "/**".toList.isSuffixOf pattern then pattern ++ "/*".toList else pattern

def splitLeadingSlash : List Char → Bool × List Char
  | '/' :: rest => (true, rest)
  | line => (false, line)

/-- Whether a pattern drops what it takes, whether it is bound to the start of paths, and the rest of
it. An exclamation mark in front tells the first. -/
def splitMarks (line : List Char) : Bool × Bool × List Char :=
  match line with
  | '\\' :: '!' :: rest => (false, false, '!' :: rest)
  | '\\' :: '#' :: rest => (false, false, '#' :: rest)
  | '!' :: rest => (true, splitLeadingSlash rest)
  | line => (false, splitLeadingSlash line)

/-- Reads a pattern. The outer option is empty if it is not well formed, the inner one if it is blank
or a remark. -/
def parse? (text : String) : Option (Option FilterRule) :=
  let line := trimEnd text.toList
  if line.isEmpty || text.startsWith "#" then some none
  else
    let (drops, absolute, line) := splitMarks line
    let (onlyDirectories, line) := splitFinalSlash line
    (Glob.tokens? (anchor absolute line)).map fun tokens =>
      some ⟨Glob.expr tokens, drops, onlyDirectories⟩

end FilterRule

namespace Filter

def dropDotSlash (path : String) : String :=
  if path.startsWith "./" then (path.drop 2).toString else path

def ofPatterns (root : String) (includes excludes : List String) : Except String Filter := do
  let read (pattern shown : String) : Except String (Option FilterRule) :=
    match FilterRule.parse? pattern with
    | some rule => .ok rule
    | none => .error shown
  let kept ← includes.mapM fun pattern => read pattern pattern
  let dropped ← excludes.mapM fun pattern => read ("!" ++ pattern) pattern
  pure ⟨dropDotSlash root, (kept ++ dropped).filterMap id⟩

def relative (filter : Filter) (path : String) : String :=
  let path := dropDotSlash path
  if filter.root == "." || !path.contains '/' || !path.startsWith filter.root then path
  else
    let rest := (path.drop filter.root.length).toString
    if rest.startsWith "/" then (rest.drop 1).toString else rest

def verdict (filter : Filter) (path : String) (isDirectory : Bool) : FilterVerdict :=
  let path := filter.relative path
  let taken := filter.rules.reverse.find? fun rule =>
    (!rule.onlyDirectories || isDirectory) && Glob.accepts rule.expr path
  match taken with
  | some rule => if rule.drops then .drop else .keep
  | none => if !isDirectory && filter.rules.any (!·.drops) then .drop else .none

end Filter

structure Search where
  extensions : List String := ["xml"]
  includes : List String := []
  excludes : List String := []
  /-- The number of directories that are entered one in another below the first, if it is limited. -/
  maxDepth : Option Nat := none

def stepsLe : List String → List String → Bool
  | [], _ => true
  | _ :: _, [] => false
  | a :: as, b :: bs => if a == b then stepsLe as bs else decide (a < b)

namespace Tree

def namesIn (tree : Tree) (directory : Path) : List String :=
  (tree.entries.filterMap fun (p, _) =>
    if p.absolute == directory.absolute && directory.steps.isPrefixOf p.steps then
      p.steps[directory.steps.length]?
    else none).eraseDups

def height (tree : Tree) : Nat := tree.entries.foldl (fun n (p, _) => max n p.steps.length) 0

def directoryOf (path : String) : Path := (Path.ofText path).normalize

def filesBelow (tree : Tree) (enters : String → Bool) : Nat → String → Path → List String
  | 0, _, _ => []
  | depth + 1, path, directory =>
    (tree.namesIn directory).flatMap fun name =>
      let inner := { directory with steps := directory.steps ++ [name] }
      let innerPath := joinText path name
      match tree.entry? inner with
      | some (.file _) => [innerPath]
      | some .directory =>
        if enters innerPath then filesBelow tree enters depth innerPath inner else []
      | none => []

end Tree

namespace Search

/-- Extensions as they are compared: without dots in front and in small letters. -/
def normalizeExtension (extension : String) : String :=
  Unicode.lowercase (String.ofList (extension.toList.dropWhile (· == '.')))

def hasExtension (s : Search) (path : String) : Bool :=
  match extension? path with
  | some extension => (s.extensions.map normalizeExtension).contains (Unicode.lowercase extension)
  | none => false

def filter (s : Search) (root : String) : Except String Filter :=
  Filter.ofPatterns root s.includes s.excludes

def accepts (s : Search) (filter : Filter) (path : String) : Bool :=
  s.hasExtension path && filter.verdict path false != .drop

def finds (s : Search) (path : String) : Bool :=
  match s.filter "." with
  | .ok filter => s.accepts filter path
  | .error _ => false

inductive Fault where
  | pattern (text : String)
  | read (fault : ReadFault)
  deriving DecidableEq, Repr

def depthIn (s : Search) (tree : Tree) : Nat :=
  match s.maxDepth with
  | some depth => min (depth + 1) (tree.height + 1)
  | none => tree.height + 1

def enters (filter : Filter) (path : String) : Bool :=
  filter.verdict (Filter.dropDotSlash path) true != .drop

def walk (s : Search) (tree : Tree) (root : String) : Except Fault (List String) := do
  let filter ← (s.filter root).mapError .pattern
  let files := tree.filesBelow (enters filter) (s.depthIn tree) root (Tree.directoryOf root)
  let kept := files.filter fun path =>
    filter.verdict (Filter.dropDotSlash path) false != .drop && s.accepts filter path
  pure (kept.mergeSort fun a b => stepsLe (Path.ofText a).steps (Path.ofText b).steps)

/-- The files at a path that a search finds: the file itself, or those below a directory. The
patterns must be well formed even where they do not matter. -/
def run (s : Search) (tree : Tree) (path : String) : Except Fault (List String) := do
  let _ ← (s.filter ".").mapError .pattern
  match ← (tree.find path).mapError .read with
  | .file _ => pure (if s.finds path then [path] else [])
  | .directory => s.walk tree path

end Search

end XmlSchema.Files
