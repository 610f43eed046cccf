import InterfaceGen.Decimal.Shortest

/-!
# Layout of decimals

How the digits of a floating-point number are laid out. The decisions of one output format are
one value of `Layout`.
-/

namespace InterfaceGen.Decimal

/-- A number `0.d₁d₂… * 10 ^ point` is written positionally when
`leastPoint ≤ point ≤ greatestPoint`, and with an exponent otherwise. -/
structure Layout where
  leastPoint : Int
  greatestPoint : Int
  /-- Whether an exponent that is not negative carries a plus sign. -/
  plusSign : Bool
  tie : Tie

/-- JSON text: positional from `1e-5` on and below `1e16`. -/
def Layout.json : Layout := ⟨-4, 16, true, .toEven⟩

/-- The text of a number inside a query: positional from `1e-4` on and below `1e16`. -/
def Layout.query : Layout := ⟨-3, 16, false, .up⟩

def intText (n : Int) : List Char := n.repr.toList

def positional (digits : List Char) (point : Int) : List Char :=
  if point ≤ 0 then '0' :: '.' :: List.replicate (-point).toNat '0' ++ digits
  else if digits.length ≤ point.toNat then
    digits ++ List.replicate (point.toNat - digits.length) '0' ++ ['.', '0']
  else digits.take point.toNat ++ '.' :: digits.drop point.toNat

/-- One digit before the point, none of the point when there is only one digit. -/
def exponential (plusSign : Bool) (digits : List Char) (point : Int) : List Char :=
  let mantissa := match digits with
    | [] => []
    | [d] => [d]
    | d :: ds => d :: '.' :: ds
  let exponent := point - 1
  mantissa ++ 'e' :: (if plusSign && 0 ≤ exponent then ['+'] else []) ++ intText exponent

def trimZeros (digits : List Char) : List Char := (digits.reverse.dropWhile (· == '0')).reverse

def Layout.magnitudeText (layout : Layout) (s : Scientific) : List Char :=
  let digits := Nat.toDigits 10 s.digits
  let point := (digits.length : Int) + s.exponent
  let digits := trimZeros digits
  if layout.leastPoint ≤ point && point ≤ layout.greatestPoint then positional digits point
  else exponential layout.plusSign digits point

def Layout.text (layout : Layout) (x : Float) : List Char :=
  let bits := x.toBits
  let sign := if bits.toNat / Nat.pow 2 63 = 1 then ['-'] else []
  let magnitude := UInt64.ofNat (bits.toNat % Nat.pow 2 63)
  if magnitude = 0 then sign ++ ['0', '.', '0']
  else sign ++ layout.magnitudeText (shortest layout.tie (Binary.ofBits magnitude))

end InterfaceGen.Decimal
