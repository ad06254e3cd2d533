/-!
# Binary floating point numbers of 64 bits

A number is kept as its sign, an integer mantissa and a power of two, so that comparing, rounding
and printing are exact integer arithmetic. `ofRatio` rounds a ratio to the nearest number, and of
two equally near ones to the one with an even mantissa.
-/

namespace XmlSchema.Number

def roundHalfEven (num den : Nat) : Nat :=
  let q := num / den
  let r := num % den
  if 2 * r < den ∨ (2 * r = den ∧ q % 2 = 0) then q else q + 1

inductive Binary64 where
  | nan
  | infinite (negative : Bool)
  | finite (negative : Bool) (mantissa : Nat) (exponent : Int)
  deriving DecidableEq, Repr

namespace Binary64

def minExponent : Int := -1074

def maxExponent : Int := 971

def zero (negative : Bool) : Binary64 := .finite negative 0 minExponent

def scale (num den : Nat) (e : Int) : Nat × Nat :=
  if 0 ≤ e then (num * Nat.pow 2 e.toNat, den) else (num, den * Nat.pow 2 (-e).toNat)

/-- The exponent at which the mantissa of a positive ratio has 53 bits, but not below the smallest
one. -/
def exponentOf (num den : Nat) : Int :=
  let guess : Int := (num.log2 : Int) - (den.log2 : Int) - 52
  let (n, d) := scale num den (-guess)
  let e := if n / d < Nat.pow 2 52 then guess - 1 else guess
  max e minExponent

def ofRatio (negative : Bool) (num den : Nat) : Binary64 :=
  if num = 0 then zero negative
  else
    let e := exponentOf num den
    let (n, d) := scale num den (-e)
    let m := roundHalfEven n d
    let (m, e) := if m = Nat.pow 2 53 then (Nat.pow 2 52, e + 1) else (m, e)
    if maxExponent < e then .infinite negative else .finite negative m e

def ofDecimal (negative : Bool) (digits : List Char) (exponent : Int) : Binary64 :=
  let digits := digits.dropWhile (· == '0')
  let magnitude : Int := digits.length + exponent
  if digits.isEmpty ∨ magnitude < -330 then zero negative
  else if 310 < magnitude then .infinite negative
  else
    let n := digits.foldl (fun n c => 10 * n + (c.toNat - '0'.toNat)) 0
    if 0 ≤ exponent then ofRatio negative (n * Nat.pow 10 exponent.toNat) 1
    else ofRatio negative n (Nat.pow 10 (-exponent).toNat)

def ofNat (n : Nat) : Binary64 := ofRatio false n 1

def aligned (negative : Bool) (mantissa : Nat) (exponent least : Int) : Int :=
  let m : Int := mantissa * Nat.pow 2 (exponent - least).toNat
  if negative then -m else m

/-- The order of two numbers. What is no number has no place in it. -/
def compare? : Binary64 → Binary64 → Option Ordering
  | .nan, _ => none
  | _, .nan => none
  | .infinite a, .infinite b => some (compare b.toNat a.toNat)
  | .infinite a, .finite .. => some (if a then .lt else .gt)
  | .finite .., .infinite b => some (if b then .gt else .lt)
  | .finite s m e, .finite t n f =>
    let least := min e f
    some (compare (aligned s m e least) (aligned t n f least))

def ofWord? (negative : Bool) (word : List Char) : Option Binary64 :=
  let word := String.ofList (word.map Char.toLower)
  if word = "inf" ∨ word = "infinity" then some (.infinite negative)
  else if word = "nan" then some .nan
  else none

def splitDigits (text : List Char) : List Char × List Char :=
  (text.takeWhile Char.isDigit, text.dropWhile Char.isDigit)

def splitSign : List Char → Bool × List Char
  | '-' :: rest => (true, rest)
  | '+' :: rest => (false, rest)
  | text => (false, text)

def exponent? : List Char → Option Int
  | [] => some 0
  | c :: rest =>
    if c == 'e' || c == 'E' then
      let (negative, digits) := splitSign rest
      if digits.isEmpty || !digits.all Char.isDigit then none
      else
        let n : Int := digits.foldl (fun n c => 10 * n + (c.toNat - '0'.toNat)) 0
        some (if negative then -n else n)
    else none

def ofText? (text : List Char) : Option Binary64 :=
  let (negative, unsigned) := splitSign text
  match ofWord? negative unsigned with
  | some x => some x
  | none =>
    let (whole, rest) := splitDigits unsigned
    let (fraction, rest) := match rest with
      | '.' :: rest => splitDigits rest
      | rest => ([], rest)
    if whole.isEmpty && fraction.isEmpty then none
    else (exponent? rest).map fun e => ofDecimal negative (whole ++ fraction) (e - fraction.length)

end Binary64

end XmlSchema.Number

/-!
## Arithmetic of binary numbers

Each operation gives the number nearest to the exact result for the values of two finite numbers.
-/

namespace XmlSchema.Number.Binary64

def ratio? : Binary64 → Option (Int × Nat)
  | .finite negative mantissa exponent =>
    let (num, den) := scale mantissa 1 exponent
    some (if negative then -num else num, den)
  | _ => none

def ofIntRatio (num : Int) (den : Nat) : Binary64 := ofRatio (num < 0) num.natAbs den

def nearest (op : Int × Nat → Int × Nat → Int × Nat) (x y : Binary64) : Binary64 :=
  match x.ratio?, y.ratio? with
  | some a, some b => let (num, den) := op a b; ofIntRatio num den
  | _, _ => .nan

def add : Binary64 → Binary64 → Binary64 :=
  nearest fun (a, b) (c, d) => (a * d + c * b, b * d)

def mul : Binary64 → Binary64 → Binary64 :=
  nearest fun (a, b) (c, d) => (a * c, b * d)

def div : Binary64 → Binary64 → Binary64 :=
  nearest fun (a, b) (c, d) => (a * d * c.sign, b * c.natAbs)

def rem : Binary64 → Binary64 → Binary64 :=
  nearest fun (a, b) (c, d) => (Int.tmod (a * d) (c * b), b * d)

def wholePart (x : Binary64) : Nat :=
  match x.ratio? with
  | some (num, den) => num.natAbs / den
  | none => 0

def lt (x y : Binary64) : Bool := x.compare? y == some .lt

end XmlSchema.Number.Binary64
