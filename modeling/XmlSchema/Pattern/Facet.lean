import XmlSchema.Pattern.Translation
import XmlSchema.Regex.Syntax

namespace XmlSchema.Pattern

structure Facet where
  sources : List String
  expressions : List Regex.Expr

def anchored (source : String) : Except Fault Regex.Expr := do
  let translated ← translate source
  match Regex.parse? ("^(?:" ++ translated ++ ")$").toList with
  | some e => pure e
  | none => throw .refused

def compileAll : List String → Except (String × Fault) (List Regex.Expr)
  | [] => .ok []
  | source :: sources =>
    match anchored source with
    | .error fault => .error (source, fault)
    | .ok e => (compileAll sources).map (e :: ·)

namespace Facet

def compile (sources : List String) : Except (String × Fault) Facet :=
  (compileAll sources).map fun expressions => { sources, expressions }

def accepts (facet : Facet) (value : String) : Bool :=
  facet.expressions.any (·.finds value.toList)

end Facet

end XmlSchema.Pattern
