/-!
# Decimal numbers

A number as an integer coefficient times a power of ten, its text, and whether it fits the range
of double precision.
-/

namespace ArchGraph

/-- The number `coefficient · 10 ^ exponent`. -/
structure Decimal where
  coefficient : Int
  exponent    : Int
deriving DecidableEq, Repr

namespace Decimal

/-- The decimal digits of a natural number. -/
def digits (n : Nat) : List Char :=
  (Nat.toDigits 10 n)

/-- The text of a number: positional from `0.00001` up to sixteen places before the point, in
scientific form elsewhere, and never without a fraction in positional form. -/
def text (d : Decimal) : String :=
  let sign := if d.coefficient < 0 then "-" else ""
  if d.coefficient = 0 then "0.0"
  else
    let ds := digits d.coefficient.natAbs
    let point : Int := ds.length + d.exponent
    let body :=
      if 0 ≤ d.exponent ∧ point ≤ 16 then
        ds ++ List.replicate d.exponent.toNat '0' ++ ['.', '0']
      else if 0 < point ∧ point ≤ 16 then
        ds.take point.toNat ++ '.' :: ds.drop point.toNat
      else if -5 < point ∧ point ≤ 0 then
        '0' :: '.' :: List.replicate (-point).toNat '0' ++ ds
      else
        let mantissa := match ds with
          | [] => []
          | [d] => [d]
          | d :: more => d :: '.' :: more
        mantissa ++ 'e' :: (toString (point - 1)).toList
    sign ++ String.ofList body

/-- The least magnitude that rounds to no finite double: halfway between the greatest double and
the next power of two. -/
def doubleLimit : Nat :=
  Nat.pow 2 1024 - Nat.pow 2 970

/-- Whether the number lies beyond every finite double. The exponent is looked at first, so that
a huge one is never expanded. -/
def exceedsDouble (d : Decimal) : Bool :=
  let n := d.coefficient.natAbs
  if n = 0 then false
  else
    let point : Int := (digits n).length + d.exponent
    if 310 < point then true
    else if point < 300 then false
    else if 0 ≤ d.exponent then doubleLimit ≤ n * Nat.pow 10 d.exponent.toNat
    else doubleLimit * Nat.pow 10 (-d.exponent).toNat ≤ n

end Decimal
end ArchGraph
