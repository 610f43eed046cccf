/-!
# Shortest decimals

The decimal with the fewest digits among those that a reader rounds back to a given binary
number, and of several with equally few digits the nearest. Of two that are equally near, a
format decides which one it takes.

A binary number is `significand * 2 ^ exponent`. The reals that round to it form an interval
whose ends belong to it exactly when the significand is even.
-/

namespace InterfaceGen.Decimal

structure Binary where
  significand : Nat
  exponent : Int
  /-- The significand is the least of its binade, so the gap below is half the gap above. -/
  narrowBelow : Bool

structure Scientific where
  digits : Nat
  exponent : Int

def Binary.ofBits (bits : UInt64) : Binary :=
  let biased : Nat := (bits.toNat / Nat.pow 2 52) % Nat.pow 2 11
  let fraction : Nat := bits.toNat % Nat.pow 2 52
  if biased = 0 then ⟨fraction, -1074, false⟩
  else ⟨fraction + Nat.pow 2 52, (biased : Int) - 1075, fraction = 0 && 1 < biased⟩

/-- The value and the two ends of its rounding interval, as numerators over one denominator. -/
structure Interval where
  value : Nat
  lower : Nat
  upper : Nat
  denominator : Nat
  closed : Bool

def Binary.interval (b : Binary) : Interval :=
  let e := b.exponent - 2
  let scale := Nat.pow 2 e.toNat
  { value := 4 * b.significand * scale
    lower := (4 * b.significand - if b.narrowBelow then 1 else 2) * scale
    upper := (4 * b.significand + 2) * scale
    denominator := Nat.pow 2 (-e).toNat
    closed := b.significand % 2 = 0 }

def Interval.admits (i : Interval) (s : Scientific) : Bool :=
  let point := s.digits * Nat.pow 10 s.exponent.toNat * i.denominator
  let unit := Nat.pow 10 (-s.exponent).toNat
  if i.closed then decide (i.lower * unit ≤ point) && decide (point ≤ i.upper * unit)
  else decide (i.lower * unit < point) && decide (point < i.upper * unit)

def Interval.magnitude (i : Interval) : Int :=
  if i.denominator ≤ i.value then
    ((Nat.toDigits 10 (i.value / i.denominator)).length : Int) - 1
  else
    let quotient := (i.denominator + i.value - 1) / i.value
    Int.negOfNat (Nat.toDigits 10 (quotient - 1)).length

/-- Which of two decimals is taken when the value lies in the middle between them. -/
inductive Tie
  | toEven
  | up
deriving DecidableEq

/-- Whether a tie is decided for the lower of two decimals, given its digits. -/
def Tie.goesDown (tie : Tie) (below : Nat) : Bool := tie = .toEven && below % 2 = 0

/-- The neighbours of the value on the grid of multiples of `10 ^ exponent`; the one kept is
the nearer of those in the interval. -/
def Interval.nearest? (i : Interval) (tie : Tie) (exponent : Int) : Option Scientific :=
  let unit := Nat.pow 10 (-exponent).toNat
  let step := Nat.pow 10 exponent.toNat * i.denominator
  let below := i.value * unit / step
  let low : Scientific := ⟨below, exponent⟩
  let high : Scientific := ⟨below + 1, exponent⟩
  let remainder := i.value * unit % step
  match i.admits low, i.admits high with
  | true, true =>
    if 2 * remainder < step ∨ (2 * remainder = step ∧ tie.goesDown below) then some low
    else some high
  | true, false => some low
  | false, true => some high
  | false, false => none

def Interval.search (i : Interval) (tie : Tie) : Nat → Int → Option Scientific
  | 0, _ => none
  | tries + 1, exponent =>
    match i.nearest? tie exponent with
    | some s => some s
    | none => i.search tie tries (exponent - 1)

/-- Seventeen digits always suffice for a 53-bit significand. -/
def shortest (tie : Tie) (b : Binary) : Scientific :=
  (b.interval.search tie 17 b.interval.magnitude).getD ⟨0, 0⟩

end InterfaceGen.Decimal
