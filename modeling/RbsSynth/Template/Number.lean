import RbsSynth.Template.Value

/-!
Numbers of templates.

A true or false value counts as one or zero.  Whole numbers stay whole, but for a quotient and a
power with a negative exponent; what has a floating number on one side becomes floating.
-/

namespace RbsSynth.Template

inductive Number
  | whole (n : Int)
  | real (x : Float)

/-- The number that a value counts as. -/
def Value.number? : Value → Option Number
  | .real x => some (.real x)
  | v => v.int?.map .whole

def Number.value : Number → Value
  | .whole n => .int n
  | .real x => .real x

/-- A number as a floating one, which must not be too large for that. -/
def Number.float : Number → Except RenderError Float
  | .whole n =>
    let x := Float.ofInt n
    if x.isInf then .error .overflow else .ok x
  | .real x => .ok x

/-- The floating number nearest to digits times a power of ten.  Powers beyond the two-thousandth are
too large or too small for any digits, and count as that one. -/
def Number.ofDigits (digits : Nat) (e : Int) : Number :=
  .real (.ofScientific digits (e < 0) (min e.natAbs 2000))

/-! ## Comparisons -/

def Number.equals : Number → Number → Bool
  | .whole m, .whole n => m == n
  | .whole m, .real y => Float.ofInt m == y
  | .real x, .whole n => x == Float.ofInt n
  | .real x, .real y => x == y

def Number.below : Number → Number → Bool
  | .whole m, .whole n => m < n
  | .whole m, .real y => Float.ofInt m < y
  | .real x, .whole n => x < Float.ofInt n
  | .real x, .real y => x < y

/-! ## Division -/

/-- A finite number in units of a power of two. -/
def inUnits (x : Float) (e : Int) : Int :=
  let d := Text.dyadic x
  let n : Int := d.mantissa * Text.powerOfTwo (d.exponent - e).toNat
  if Text.isNegative x then -n else n

/-- What is left of a number when it is divided towards zero. -/
def remainder (x y : Float) : Float :=
  let e := min (Text.dyadic x).exponent (Text.dyadic y).exponent
  (Float.ofInt ((inUnits x e).tmod (inUnits y e))).scaleB e

/-- A zero with the sign of a number. -/
def zeroLike (x : Float) : Float := if Text.isNegative x then -0.0 else 0.0

/-- Quotient and remainder, the quotient rounded to the smaller side. -/
def divideDown (x y : Float) : Float × Float :=
  let r := remainder x y
  let q := (x - r) / y
  let (q, r) :=
    if r == 0 then (q, zeroLike y) else if (y < 0) != (r < 0) then (q - 1, r + y) else (q, r)
  if q == 0 then (zeroLike (x / y), r)
  else
    let whole := q.floor
    (if q - whole > 0.5 then whole + 1 else whole, r)

/-! ## Arithmetic -/

/-- An operation that whole numbers and floating ones have each. -/
def Number.on (wholes : Int → Int → Except RenderError Number)
    (reals : Float → Float → Except RenderError Float) :
    Number → Number → Except RenderError Number
  | .whole m, .whole n => wholes m n
  | a, b => do return .real (← reals (← a.float) (← b.float))

def Number.add : Number → Number → Except RenderError Number :=
  on (fun m n => .ok (.whole (m + n))) fun x y => .ok (x + y)

def Number.sub : Number → Number → Except RenderError Number :=
  on (fun m n => .ok (.whole (m - n))) fun x y => .ok (x - y)

def Number.mul : Number → Number → Except RenderError Number :=
  on (fun m n => .ok (.whole (m * n))) fun x y => .ok (x * y)

def Number.div (a b : Number) : Except RenderError Number := do
  if b.equals (.whole 0) then throw RenderError.zeroDivision
  return .real ((← a.float) / (← b.float))

/-- The quotient rounded to the smaller side. -/
def Number.floorDiv (a b : Number) : Except RenderError Number := do
  if b.equals (.whole 0) then throw RenderError.zeroDivision
  on (fun m n => .ok (.whole (m.fdiv n))) (fun x y => .ok (divideDown x y).1) a b

/-- What is left by `floorDiv`; it has the sign of the divisor. -/
def Number.mod (a b : Number) : Except RenderError Number := do
  if b.equals (.whole 0) then throw RenderError.zeroDivision
  on (fun m n => .ok (.whole (m.fmod n))) (fun x y => .ok (divideDown x y).2) a b

/-- A power of floating numbers.  A negative number has only whole powers. -/
def realPower (x y : Float) : Except RenderError Float :=
  if x == 0 && y < 0 then .error .zeroDivision
  else if x < 0 && y.floor != y then .error .type
  else
    let z := x.pow y
    if z.isInf && !x.isInf && !y.isInf then .error .overflow else .ok z

def Number.pow : Number → Number → Except RenderError Number :=
  on (fun m n =>
      if 0 ≤ n then .ok (.whole (Int.pow m n.toNat))
      else do return .real (← realPower (← (whole m).float) (← (whole n).float)))
    realPower

def Number.neg : Number → Number
  | .whole n => .whole (-n)
  | .real x => .real (-x)

end RbsSynth.Template
