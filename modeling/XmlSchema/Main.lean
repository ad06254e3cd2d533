import XmlSchema.Batch.Program

namespace XmlSchema.Outside

open Batch Files

def namesIn (directory : String) : IO (List String) := do
  let here ← IO.currentDir
  try
    let found ← (here / directory).readDir
    pure (found.toList.map (·.fileName))
  catch _ => pure []

def entriesBelow : Nat → String → IO (List (Files.Path × Entry))
  | 0, _ => pure []
  | depth + 1, path => do
    let here ← IO.currentDir
    let place := (Files.Path.ofText path).normalize
    if ← (here / path).isDir then
      let inner ← (← namesIn path).mapM fun name => entriesBelow depth (joinText path name)
      pure ((place, .directory) :: inner.flatten)
    else
      try
        let content ← IO.FS.readBinFile (here / path)
        pure [(place, .file content)]
      catch _ => pure []

def depthLimit : Nat := 64

def environment : IO Settings.Environment := do
  let found ← Settings.Environment.names.mapM fun name => do
    pure ((← IO.getEnv name).map fun text => (name, text))
  pure found.reduceOption

def settingsHome : IO (Option String) := do
  match ← IO.getEnv "XDG_CONFIG_HOME" with
  | some directory => if isAbsolute directory then return some directory
  | none => pure ()
  return (← IO.getEnv "HOME").map (· ++ "/.config")

def pathsIn (args : List String) : List String :=
  (args.flatMap fun arg => [arg, (arg.splitOn "=").getLastD ""]).filter fun text =>
    isAbsolute text || text.startsWith ".."

def world (args : List String) : IO World := do
  let home ← settingsHome
  let places := "." :: (pathsIn args ++ (home.map (· ++ "/xsdgate")).toList)
  let entries ← places.mapM (entriesBelow depthLimit)
  pure { files := ⟨entries.flatten⟩, environment := ← environment, home }

def since (moment : Nat) : IO Duration := do
  pure ⟨(← IO.monoNanosNow) - moment⟩

def validateAll (p : Plan) : IO (Run Validation.Validator) := do
  let mut run := p.start
  for place in p.batch.inOrder do
    let moment ← IO.monoNanosNow
    run := p.batch.turn run place
    let taken ← since moment
    run := { run with finished := match run.finished with
      | (place, result) :: rest => (place, { result with duration := taken }) :: rest
      | [] => [] }
  pure run

end XmlSchema.Outside

open XmlSchema XmlSchema.Outside Batch in
def main (args : List String) : IO UInt32 := do
  let moment ← IO.monoNanosNow
  match Plan.ofArgs (← world args) args with
  | .error refusal =>
    if refusal.wanted then IO.print refusal.text else IO.eprint refusal.text
    pure refusal.exitCode.toUInt32
  | .ok p =>
    let discovery ← since moment
    let moment ← IO.monoNanosNow
    let run ← validateAll p
    let results := p.results run discovery (← since moment)
    IO.println (p.text false results)
    pure results.exitCode.toUInt32
