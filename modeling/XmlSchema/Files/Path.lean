import XmlSchema.Text.Basic

namespace XmlSchema.Files

/-- A path without empty steps and without steps that stay where they are. -/
structure Path where
  absolute : Bool
  steps : List String
  deriving DecidableEq, Repr

namespace Path

def ofText (text : String) : Path where
  absolute := text.startsWith "/"
  steps := (Text.cutAt '/' text).filter fun step => step != "" && step != "."

def text (p : Path) : String :=
  (if p.absolute then "/" else "") ++ "/".intercalate p.steps

def push : List String → String → List String
  | done, step =>
    if step == ".." then
      match done with
      | last :: rest => if last == ".." then step :: done else rest
      | [] => [step]
    else step :: done

def normalize (p : Path) : Path :=
  { p with steps := (p.steps.foldl push []).reverse }

def parent? (p : Path) : Option Path :=
  if p.steps.isEmpty then none else some { p with steps := p.steps.dropLast }

def append (p q : Path) : Path :=
  if q.absolute then q else { p with steps := p.steps ++ q.steps }

end Path

def isAbsolute (path : String) : Bool := path.startsWith "/"

def isIdle (step : String) : Bool := step == "" || step == "."

/-- Leaves out the steps at the end that lead nowhere. The first step of a relative path counts if it
is a dot. The steps are in reverse. -/
def dropIdle (absolute : Bool) : List String → List String
  | [] => []
  | [step] => if step == "" || (absolute && step == ".") then [] else [step]
  | step :: more => if isIdle step then dropIdle absolute more else step :: more

def reversedSteps (path : String) : List String :=
  let steps := Text.cutAt '/' path
  dropIdle (isAbsolute path) (if isAbsolute path then steps.tail else steps).reverse

def parentText? (path : String) : Option String :=
  match reversedSteps path with
  | [] => none
  | _ :: before =>
    let text := "/".intercalate (dropIdle (isAbsolute path) before).reverse
    some (if isAbsolute path then "/" ++ text else text)

def fileName? (path : String) : Option String :=
  match reversedSteps path with
  | step :: _ => if step == "." || step == ".." then none else some step
  | [] => none

def splitAtLast? (separator : Char) (text : List Char) : Option (List Char × List Char) :=
  let reversed := text.reverse
  match reversed.dropWhile (· != separator) with
  | [] => none
  | _ :: before => some (before.reverse, (reversed.takeWhile (· != separator)).reverse)

/-- The extension of the name of a file: what follows the last dot that is not at the start. -/
def extension? (path : String) : Option String := do
  match splitAtLast? '.' (← fileName? path).toList with
  | some ([], _) => none
  | some (_, extension) => some (String.ofList extension)
  | none => none

def joinText (base path : String) : String :=
  if isAbsolute path then path
  else if base.isEmpty || base.endsWith "/" then base ++ path
  else base ++ "/" ++ path

end XmlSchema.Files
