/-
# The shortest decimal of a binary number

A finite number of the double format stands for all reals that round to it. Its
text is the decimal with the fewest digits among those reals and, of several
such decimals, the one nearest to the number; of two equally near ones the
larger. Selection is exact arithmetic on natural numbers; nothing here rounds.

`Decimal.render` writes the selected decimal positionally, without an exponent
and without a fraction of zero.
-/

namespace Coverage

/-- The number `digits * 10 ^ exponent`. -/
structure Decimal where
  digits : Nat
  exponent : Int
deriving Repr, DecidableEq

/-- A positive number `mantissa * 2 ^ exponent` of the double format. -/
structure Binary where
  mantissa : Nat
  exponent : Int
  /-- Whether the neighbour below is only half as far away as the neighbour above. -/
  narrowBelow : Bool
deriving Repr, DecidableEq

namespace Binary

/-- A power, which is one for a negative exponent. -/
def power (base : Nat) (exponent : Int) : Nat := Nat.pow base exponent.toNat

/-- Decode the bits of a finite number, ignoring its sign. -/
def ofBits (bits : UInt64) : Binary :=
  let exponent := ((bits >>> 52) &&& 0x7FF).toNat
  let fraction := (bits &&& 0xFFFFFFFFFFFFF).toNat
  if exponent = 0 then ⟨fraction, -1074, false⟩
  else ⟨0x10000000000000 + fraction, (exponent : Int) - 1075, fraction == 0 && exponent > 1⟩

/-- Compare `d` with `n * 2 ^ j`, exactly. -/
def compareDecimal (d : Decimal) (n : Nat) (j : Int) : Ordering :=
  compare (d.digits * power 10 d.exponent * power 2 (-j))
    (n * power 2 j * power 10 (-d.exponent))

/-- Whether `d` is among the reals that round to `x`: between the midpoints to
its two neighbours, the midpoints included when the mantissa is even. -/
def admits (x : Binary) (d : Decimal) : Bool :=
  let low := if x.narrowBelow then 4 * x.mantissa - 1 else 4 * x.mantissa - 2
  let atLow := compareDecimal d low (x.exponent - 2)
  let atHigh := compareDecimal d (4 * x.mantissa + 2) (x.exponent - 2)
  let closed := x.mantissa % 2 == 0
  (atLow == .gt || (closed && atLow == .eq)) && (atHigh == .lt || (closed && atHigh == .eq))

/-- The least `k` with `x < 10 ^ k`. -/
def scale (x : Binary) : Int :=
  let estimate := ((x.mantissa.log2 : Int) + x.exponent) * 30103 / 100000
  let above (k : Int) : Bool := compareDecimal ⟨1, k⟩ x.mantissa x.exponent == .gt
  if above estimate then estimate else if above (estimate + 1) then estimate + 1 else estimate + 2

/-- The best multiple of `10 ^ grid` among the reals that round to `x`, if there is one. -/
def onGrid? (x : Binary) (grid : Int) : Option Decimal :=
  let num := x.mantissa * power 2 x.exponent * power 10 (-grid)
  let den := power 2 (-x.exponent) * power 10 grid
  let below : Decimal := ⟨num / den, grid⟩
  let above : Decimal := ⟨num / den + 1, grid⟩
  match x.admits below, x.admits above with
  | true, true => some (if 2 * num < (2 * below.digits + 1) * den then below else above)
  | true, false => some below
  | false, true => some above
  | false, false => none

/-- The number itself as a decimal. -/
def exact (x : Binary) : Decimal :=
  ⟨x.mantissa * power 2 x.exponent * power 5 (-x.exponent), if x.exponent < 0 then x.exponent else 0⟩

/-- Move trailing zeros of the digits into the exponent. -/
def stripZeros : Nat → Decimal → Decimal
  | 0, d => d
  | n + 1, d =>
    if d.digits % 10 = 0 then stripZeros n ⟨d.digits / 10, d.exponent + 1⟩ else d

/-- The decimal with the fewest digits that rounds to `x`. -/
def shortest (x : Binary) : Decimal :=
  let k := x.scale
  let found := (List.range 17).findSome? fun (n : Nat) => x.onGrid? (k - 1 - (n : Int))
  stripZeros 17 (found.getD x.exact)

end Binary

namespace Decimal

/-- Positional text: no exponent, and a point only in front of a fraction. -/
def positional (d : Decimal) : String :=
  let digits := (toString d.digits).toList
  if 0 ≤ d.exponent then
    String.ofList (digits ++ List.replicate d.exponent.toNat '0')
  else
    let places := (-d.exponent).toNat
    let padded := List.replicate (places + 1 - digits.length) '0' ++ digits
    String.ofList (padded.take (padded.length - places) ++ '.' :: padded.drop (padded.length - places))

/-- The text of a number of the double format: its sign, then its shortest
decimal. Zero keeps its sign; infinities and undefined values have names. -/
def render (x : Float) : String :=
  if x.isNaN then "NaN"
  else
    let bits := x.toBits
    let sign := if bits >>> 63 == 1 then "-" else ""
    let magnitude := bits &&& 0x7FFFFFFFFFFFFFFF
    if magnitude == 0x7FF0000000000000 then sign ++ "inf"
    else if magnitude == 0 then sign ++ "0"
    else sign ++ (Binary.ofBits magnitude).shortest.positional

end Decimal

end Coverage
