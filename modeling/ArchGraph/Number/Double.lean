import ArchGraph.Number.Decimal
/-!
# Quotients in double precision

The double nearest to a quotient of natural numbers, its shortest decimal form, and rounding to a
whole number. Everything is computed on natural numbers; a tie goes to the even neighbour.
Main statement: rounding is off by half a unit at most.
-/

namespace ArchGraph

/-- The number `mantissa · 2 ^ exponent`. -/
structure Double where
  mantissa : Nat
  exponent : Int
deriving DecidableEq, Repr

namespace Double

/-- The integer nearest to `num / den`, ties to even. -/
def roundDiv (num den : Nat) : Nat :=
  let q := num / den
  let r := num % den
  if 2 * r < den ∨ (2 * r = den ∧ q % 2 = 0) then q else q + 1

/-- The fraction `num / den` with `2 ^ exponent` taken out. -/
def scaled (num den : Nat) (exponent : Int) : Nat × Nat :=
  if 0 ≤ exponent then (num, den * Nat.pow 2 exponent.toNat)
  else (num * Nat.pow 2 (-exponent).toNat, den)

/-- The double nearest to `num / den`: its mantissa has 53 bits. The exponent range of doubles is
not looked at, because quotients of 64-bit words stay far inside it. -/
def ofQuotient (num den : Nat) : Double :=
  if num = 0 ∨ den = 0 then ⟨0, 0⟩
  else
    let guess : Int := (num.log2 : Int) - den.log2 - 52
    let (n, d) := scaled num den guess
    let exponent := if n < d * Nat.pow 2 52 then guess - 1 else guess
    let (n, d) := scaled num den exponent
    let m := roundDiv n d
    if m = Nat.pow 2 53 then ⟨Nat.pow 2 52, exponent + 1⟩ else ⟨m, exponent⟩

/-- The double as a fraction. -/
def fraction (x : Double) : Nat × Nat :=
  if 0 ≤ x.exponent then (x.mantissa * Nat.pow 2 x.exponent.toNat, 1)
  else (x.mantissa, Nat.pow 2 (-x.exponent).toNat)

/-- The double nearest to the quotient of two doubles. -/
def div (x y : Double) : Double :=
  let (a, b) := x.fraction
  let (c, d) := y.fraction
  ofQuotient (a * d) (b * c)

/-- The double nearest to `factor` times a double. -/
def scale (factor : Nat) (x : Double) : Double :=
  let (a, b) := x.fraction
  ofQuotient (factor * a) b

/-- The whole number nearest to a double, ties to even. -/
def round (x : Double) : Nat :=
  let (a, b) := x.fraction
  roundDiv a b

/-- Whether `num / den` rounds to the double: it lies at most half the distance to a neighbour
away, and strictly less when the mantissa is odd. All is counted in quarters of the last place. -/
def isNearest (x : Double) (num den : Nat) : Bool :=
  let (n, d) := scaled (4 * num) den x.exponent
  let low := if x.mantissa = Nat.pow 2 52 then 4 * x.mantissa - 1 else 4 * x.mantissa - 2
  let high := 4 * x.mantissa + 2
  if x.mantissa % 2 = 0 then low * d ≤ n && n ≤ high * d else low * d < n && n < high * d

/-- The multiple of `10 ^ place` that rounds to the double and is nearest to it, if there is one.
Only the two neighbours of the double on that grid can be such. -/
def onGrid? (x : Double) (place : Int) : Option Nat :=
  let (a, b) := x.fraction
  let (n, d) :=
    if 0 ≤ place then (a, b * Nat.pow 10 place.toNat) else (a * Nat.pow 10 (-place).toNat, b)
  let fits (c : Nat) : Bool :=
    if 0 ≤ place then x.isNearest (c * Nat.pow 10 place.toNat) 1
    else x.isNearest c (Nat.pow 10 (-place).toNat)
  let nearest := roundDiv n d
  let other := if nearest = n / d then nearest + 1 else n / d
  [nearest, other].find? fits

/-- The first grid from `place` down on which the double has a form. -/
def firstForm (x : Double) : Nat → Int → Decimal
  | 0, place => ⟨(x.onGrid? place).getD 0, place⟩
  | steps + 1, place =>
    match x.onGrid? place with
    | some c => if c = 0 then firstForm x steps (place - 1) else ⟨c, place⟩
    | none => firstForm x steps (place - 1)

/-- The shortest decimal that reads back as the double: of all grids of powers of ten the
coarsest on which some multiple rounds to it, and there the nearest one. -/
def shortest (x : Double) : Decimal :=
  if x.mantissa = 0 then ⟨0, 0⟩
  else
    let (a, b) := x.fraction
    firstForm x 40 ((Decimal.digits a).length - (Decimal.digits b).length + 1)

theorem roundDiv_le (num den : Nat) : 2 * den * roundDiv num den ≤ 2 * num + den := by
  have h := Nat.div_add_mod num den
  unfold roundDiv
  simp only
  split
  · have : 2 * den * (num / den) = 2 * (den * (num / den)) := by rw [Nat.mul_assoc]
    omega
  · have : 2 * den * (num / den + 1) = 2 * (den * (num / den)) + 2 * den := by
      rw [Nat.mul_add, Nat.mul_one, Nat.mul_assoc]
    omega

theorem le_roundDiv (num den : Nat) (h : 0 < den) :
    2 * num ≤ 2 * den * roundDiv num den + den := by
  have e := Nat.div_add_mod num den
  have l := Nat.mod_lt num h
  unfold roundDiv
  simp only
  split
  · have : 2 * den * (num / den) = 2 * (den * (num / den)) := by rw [Nat.mul_assoc]
    omega
  · have : 2 * den * (num / den + 1) = 2 * (den * (num / den)) + 2 * den := by
      rw [Nat.mul_add, Nat.mul_one, Nat.mul_assoc]
    omega

end Double
end ArchGraph
