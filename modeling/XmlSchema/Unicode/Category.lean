import XmlSchema.Unicode.CategoryTable

namespace XmlSchema.Unicode

def hexDigitValue (c : Char) : Nat :=
  if '0' ≤ c ∧ c ≤ '9' then c.toNat - '0'.toNat
  else if 'a' ≤ c ∧ c ≤ 'f' then c.toNat - 'a'.toNat + 10
  else if 'A' ≤ c ∧ c ≤ 'F' then c.toNat - 'A'.toNat + 10
  else 0

def hexValue (digits : List Char) : Nat :=
  digits.foldl (fun n c => 16 * n + hexDigitValue c) 0

def cutAt (separator : Char) : List Char → List (List Char)
  | [] => [[]]
  | c :: rest =>
    if c = separator then [] :: cutAt separator rest
    else match cutAt separator rest with
      | [] => [[c]]
      | word :: words => (c :: word) :: words

def wordsOf (lines : List String) : List (List Char) :=
  lines.flatMap fun line => cutAt ' ' line.toList

/-- Values on the code points from 0 on: each entry holds from its start to the next entry. -/
abbrev Runs (α : Type) := Array (Nat × α)

namespace Runs
variable {α : Type}

def ofLengths (lengths : List (α × Nat)) : Runs α :=
  (lengths.foldl (fun (acc : Runs α × Nat) run => (acc.1.push (acc.2, run.1), acc.2 + run.2))
    (#[], 0)).1

def bisect (runs : Runs α) (n lo hi : Nat) : Nat :=
  if _h : lo + 1 < hi then
    let mid := (lo + hi) / 2
    match runs[mid]? with
    | some run => if run.1 ≤ n then bisect runs n mid hi else bisect runs n lo mid
    | none => lo
  else lo
termination_by hi - lo
decreasing_by all_goals omega

def at? (runs : Runs α) (n : Nat) : Option α :=
  (runs[bisect runs n 0 runs.size]?).map (·.2)

end Runs

def membershipRuns (words : List (List Char)) : Runs Bool :=
  Runs.ofLengths <| (words.zipIdx.map fun (word, i) => (i % 2 == 1, hexValue word)) ++
    [(false, 0x110000)]

end XmlSchema.Unicode

namespace XmlSchema.Unicode

inductive Category where
  | lu | ll | lt | lm | lo
  | mn | mc | me
  | nd | nl | no
  | pc | pd | ps | pe | pi | pf | po
  | sm | sc | sk | so
  | zs | zl | zp
  | cc | cf | cs | co | cn
  deriving DecidableEq, Repr

namespace Category

def names : List (Category × List String) :=
  [(lu, ["lu", "uppercaseletter"]), (ll, ["ll", "lowercaseletter"]),
   (lt, ["lt", "titlecaseletter"]), (lm, ["lm", "modifierletter"]), (lo, ["lo", "otherletter"]),
   (mn, ["mn", "nonspacingmark"]), (mc, ["mc", "spacingmark"]), (me, ["me", "enclosingmark"]),
   (nd, ["nd", "decimalnumber", "digit"]), (nl, ["nl", "letternumber"]),
   (no, ["no", "othernumber"]),
   (pc, ["pc", "connectorpunctuation"]), (pd, ["pd", "dashpunctuation"]),
   (ps, ["ps", "openpunctuation"]), (pe, ["pe", "closepunctuation"]),
   (pi, ["pi", "initialpunctuation"]), (pf, ["pf", "finalpunctuation"]),
   (po, ["po", "otherpunctuation"]),
   (sm, ["sm", "mathsymbol"]), (sc, ["sc", "currencysymbol"]), (sk, ["sk", "modifiersymbol"]),
   (so, ["so", "othersymbol"]),
   (zs, ["zs", "spaceseparator"]), (zl, ["zl", "lineseparator"]),
   (zp, ["zp", "paragraphseparator"]),
   (cc, ["cc", "control", "cntrl"]), (cf, ["cf", "format"]), (cs, ["cs", "surrogate"]),
   (co, ["co", "privateuse"]), (cn, ["cn", "unassigned"])]

def groups : List (List Category × List String) :=
  [([lu, ll, lt, lm, lo], ["l", "letter"]),
   ([lu, ll, lt], ["lc", "casedletter"]),
   ([mn, mc, me], ["m", "mark", "combiningmark"]),
   ([nd, nl, no], ["n", "number"]),
   ([pc, pd, ps, pe, pi, pf, po], ["p", "punctuation", "punct"]),
   ([sm, sc, sk, so], ["s", "symbol"]),
   ([zs, zl, zp], ["z", "separator"]),
   ([cc, cf, cs, co, cn], ["c", "other"])]

def ofName? (name : String) : Option (List Category) :=
  match names.find? fun entry => entry.2.contains name with
  | some entry => some [entry.1]
  | none => (groups.find? fun entry => entry.2.contains name).map (·.1)

def ofLetters (first second : Char) : Category :=
  match names.find? fun entry =>
      entry.2.head? == some (String.ofList [first.toLower, second]) with
  | some entry => entry.1
  | none => cn

end Category

def categoryRun : List Char → Category × Nat
  | first :: second :: [] => (.ofLetters first second, 1)
  | first :: second :: length => (.ofLetters first second, hexValue length)
  | _ => (.cn, 0)

def categories : Runs Category :=
  Runs.ofLengths ((wordsOf categoryRuns).map categoryRun)

def category (c : Char) : Category :=
  (categories.at? c.toNat).getD .cn

end XmlSchema.Unicode
