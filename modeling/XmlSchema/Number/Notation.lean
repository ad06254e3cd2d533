import XmlSchema.Number.Binary64

namespace XmlSchema.Number.Binary64

def digitsOf (n : Nat) : List Char := Nat.toDigits 10 n

def padded (length : Nat) (digits : List Char) : List Char :=
  List.replicate (length - digits.length) '0' ++ digits

def ratio (mantissa : Nat) (exponent : Int) : Nat × Nat := scale mantissa 1 exponent

def signText (negative : Bool) : String := if negative then "-" else ""

def fixed (places : Nat) : Binary64 → String
  | .nan => "NaN"
  | .infinite negative => signText negative ++ "inf"
  | .finite negative mantissa exponent =>
    let (num, den) := ratio mantissa exponent
    let digits := padded (places + 1) (digitsOf (roundHalfEven (num * Nat.pow 10 places) den))
    let whole := digits.take (digits.length - places)
    let fraction := digits.drop (digits.length - places)
    signText negative ++ String.ofList whole ++
      (if places = 0 then "" else "." ++ String.ofList fraction)

/-- The ratios that are rounded to a number, all over one denominator: the number, the least and the
greatest of them. The two ends belong to it if the flag is set. -/
structure Neighbourhood where
  value : Nat
  low : Nat
  high : Nat
  den : Nat
  closed : Bool

/-- The ratios that are rounded to a positive number. Below a power of two the numbers lie twice as
close. -/
def neighbourhood (mantissa : Nat) (exponent : Int) : Neighbourhood :=
  let (unit, den) := scale 1 1 (exponent - 2)
  let below := if mantissa = Nat.pow 2 52 ∧ minExponent < exponent then 1 else 2
  { value := 4 * mantissa * unit, low := (4 * mantissa - below) * unit,
    high := (4 * mantissa + 2) * unit, den, closed := mantissa % 2 == 0 }

def Neighbourhood.contains (n : Neighbourhood) (num den : Nat) : Bool :=
  let a := num * n.den
  let low := n.low * den
  let high := n.high * den
  if n.closed then low ≤ a && a ≤ high else low < a && a < high

def leadingZeros (num den : Nat) : Nat → Nat
  | 0 => 0
  | fuel + 1 => if den ≤ num * 10 then 0 else leadingZeros (num * 10) den fuel + 1

def magnitude (num den : Nat) : Int :=
  if den ≤ num then (digitsOf (num / den)).length else -(leadingZeros num den 400 : Int)

def decimalRatio (n : Nat) (power : Int) : Nat × Nat :=
  if 0 ≤ power then (n * Nat.pow 10 power.toNat, 1) else (n, Nat.pow 10 (-power).toNat)

/-- The multiple of a power of ten nearest to a number, if it is rounded to it, and else its other
neighbour, if that is. -/
def onGrid? (n : Neighbourhood) (power : Int) : Option Nat :=
  let (unitNum, unitDen) := decimalRatio 1 power
  let num := n.value * unitDen
  let den := n.den * unitNum
  let near := roundHalfEven num den
  let other := if near * den ≤ num then near + 1 else near - 1
  let hit (k : Nat) : Bool :=
    let (a, b) := decimalRatio k power
    0 < k && n.contains a b
  if hit near then some near else if hit other then some other else none

def searchGrids (n : Neighbourhood) (magnitude : Int) : Nat → Nat → Nat × Int
  | 0, digits => (n.value / n.den, digits)
  | fuel + 1, digits =>
    let power := magnitude - digits
    match onGrid? n power with
    | some k => (k, power)
    | none => searchGrids n magnitude fuel (digits + 1)

def shortestDigits (mantissa : Nat) (exponent : Int) : List Char × Int :=
  let (num, den) := ratio mantissa exponent
  let (n, power) := searchGrids (neighbourhood mantissa exponent) (magnitude num den) 17 1
  let digits := digitsOf n
  let zeros := (digits.reverse.takeWhile (· == '0')).length
  (digits.take (digits.length - zeros), power + zeros)

def zeros (n : Nat) : List Char := List.replicate n '0'

/-- Digits with a point or an exponent. Numbers from `0.00001` to below ten to the power of sixteen
are written without an exponent, and whole ones of them with one decimal place. -/
def digitsText (digits : List Char) (power : Int) : String :=
  let point : Int := digits.length + power
  let text :=
    if 0 ≤ power ∧ point ≤ 16 then digits ++ zeros power.toNat ++ ".0".toList
    else if 0 < point ∧ point ≤ 16 then
      digits.take point.toNat ++ '.' :: digits.drop point.toNat
    else if -5 < point ∧ point ≤ 0 then "0.".toList ++ zeros (-point).toNat ++ digits
    else
      let exponent := (toString (point - 1)).toList
      match digits with
      | [d] => d :: 'e' :: exponent
      | d :: more => d :: '.' :: more ++ 'e' :: exponent
      | [] => []
  String.ofList text

def shortest? : Binary64 → Option String
  | .finite negative mantissa exponent =>
    some (signText negative ++
      (if mantissa = 0 then "0.0"
      else
        let (digits, power) := shortestDigits mantissa exponent
        digitsText digits power))
  | _ => none

end XmlSchema.Number.Binary64
