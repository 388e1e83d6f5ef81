/-!
Floating numbers in decimal.

A number is written with the fewest digits that are nearer to it than to every other number, and of
those with the digits nearest to it.

* `dyadic` takes a number apart into a whole number and a power of two.
* `shortest` chooses the digits.
* `floatText` writes them: with a point from a ten-thousandth up to ten to the sixteenth, and with an
  exponent outside of that range.
-/

namespace RbsSynth.Text

/-! ## Powers -/

def powerOfTwo (n : Nat) : Nat := Nat.pow 2 n

def powerOfTen (n : Nat) : Nat := Nat.pow 10 n

/-! ## Numbers as fractions -/

/-- A whole number times a power of two. -/
structure Dyadic where
  mantissa : Nat
  exponent : Int
deriving DecidableEq, Repr

/-- The size of a finite number. -/
def dyadic (x : Float) : Dyadic :=
  let bits := x.toBits.toNat
  let fraction := bits % powerOfTwo 52
  match bits / powerOfTwo 52 % powerOfTwo 11 with
  | 0 => ⟨fraction, -1074⟩
  | e + 1 => ⟨powerOfTwo 52 + fraction, e - 1074⟩

/-- Whether a number has a minus, which zero can have too. -/
def isNegative (x : Float) : Bool := powerOfTwo 63 ≤ x.toBits.toNat

/-- A number and the bounds of those that round to it, as numerators with one denominator. -/
structure Span where
  low : Nat
  middle : Nat
  high : Nat
  unit : Nat
  /-- Whether the bounds round to the number themselves. -/
  closed : Bool
deriving DecidableEq, Repr

/-- A power of two has its lower neighbour at half of the distance, unless it is the least one. -/
def Dyadic.span (d : Dyadic) : Span :=
  let below := if d.mantissa = powerOfTwo 52 ∧ d.exponent ≠ -1074 then 1 else 2
  let e := d.exponent - 2
  let scale := powerOfTwo e.toNat
  ⟨(4 * d.mantissa - below) * scale, 4 * d.mantissa * scale, (4 * d.mantissa + 2) * scale,
    powerOfTwo (-e).toNat, d.mantissa % 2 == 0⟩

/-! ## The fewest digits -/

/-- Counts in units of a power of ten. -/
def Span.inTens (s : Span) (e : Int) : Span :=
  let scale := powerOfTen (-e).toNat
  { s with low := s.low * scale, middle := s.middle * scale, high := s.high * scale,
           unit := s.unit * powerOfTen e.toNat }

def Span.contains (s : Span) (n : Nat) : Bool :=
  if s.closed then s.low ≤ n * s.unit && n * s.unit ≤ s.high
  else s.low < n * s.unit && n * s.unit < s.high

/-- The whole number in a span that is nearest to its middle; of two the even one. -/
def Span.nearest? (s : Span) : Option Nat :=
  let n := s.middle / s.unit
  match s.contains n, s.contains (n + 1) with
  | true, true =>
    let twice := 2 * s.middle
    let half := (2 * n + 1) * s.unit
    some (if twice < half ∨ (twice = half ∧ n % 2 = 0) then n else n + 1)
  | true, false => some n
  | false, true => some (n + 1)
  | false, false => none

/-- How many digits the middle has before its point; less than one if zeros follow the point. -/
def Span.point (s : Span) : Int :=
  if s.unit ≤ s.middle then (toString (s.middle / s.unit)).length
  else
    let zeros := ((List.range 324).find? fun k => s.unit ≤ powerOfTen (k + 1) * s.middle).getD 324
    0 - zeros

/-- Digits of a number and the place of its point among them, the digits without zeros behind. -/
def shortest (d : Dyadic) : List Char × Int :=
  let s := d.span
  let chosen := (List.range 17).findSome? fun (k : Nat) =>
    let e := s.point - (k + 1)
    (s.inTens e).nearest?.map fun n => (n, e)
  let (n, e) := chosen.getD (0, 0)
  let digits := (toString n).toList
  ((digits.reverse.dropWhile (· == '0')).reverse, digits.length + e)

/-! ## Layout -/

/-- Digits with a point, which always has a digit on each side. -/
def positional (digits : List Char) (point : Int) : List Char :=
  let whole := digits.take point.toNat
  let part := digits.drop point.toNat
  let zeros := fun n : Int => List.replicate n.toNat '0'
  (if whole.isEmpty then ['0'] else whole ++ zeros (point - digits.length)) ++ '.' ::
    (if part.isEmpty then ['0'] else zeros (-point) ++ part)

/-- Digits with the point behind the first one, and an exponent of two digits or more. -/
def withExponent (digits : List Char) (point : Int) : List Char :=
  let exponent := toString (point - 1).natAbs
  let exponent := if exponent.length < 2 then "0" ++ exponent else exponent
  let part := digits.drop 1
  digits.take 1 ++ (if part.isEmpty then [] else '.' :: part) ++
    ['e', if point < 1 then '-' else '+'] ++ exponent.toList

/-- A number as it is written. -/
def floatText (x : Float) : String :=
  let sign := if isNegative x then "-" else ""
  if x.isNaN then "nan"
  else if x.isInf then sign ++ "inf"
  else
    let d := dyadic x
    if d.mantissa = 0 then sign ++ "0.0"
    else
      let (digits, point) := shortest d
      sign ++ .ofList (if -3 ≤ point ∧ point ≤ 16 then positional digits point
        else withExponent digits point)

end RbsSynth.Text
