/-!
# Reading decimals

The floating-point number nearest to a decimal text, a tie going to the even significand. The
text is taken as an exact ratio, so that it is rounded once.
-/

namespace InterfaceGen.Decimal

/-- The bits of positive infinity, which is also the first number out of range. -/
def infinityBits : Nat := 2047 * Nat.pow 2 52

/-- The quotient of two numbers, a half going to the even neighbour. -/
def roundQuotient (n d : Nat) : Nat :=
  let quotient := n / d
  let rest := 2 * (n % d)
  if rest < d ∨ (rest = d ∧ quotient % 2 = 0) then quotient else quotient + 1

/-- The bits of the number nearest to a positive ratio. A significand that rounds up to the next
power of two carries into the exponent, as it should. -/
def ratioBits (n d : Nat) : Nat :=
  let scaled (e : Int) := (n * Nat.pow 2 (-e).toNat, d * Nat.pow 2 e.toNat)
  let least : Int := max ((n.log2 : Int) - d.log2 - 53) (-1074)
  let wide := scaled least
  let exponent := if Nat.pow 2 53 ≤ wide.1 / wide.2 then least + 1 else least
  let ratio := scaled exponent
  min infinityBits ((exponent + 1074).toNat * Nat.pow 2 52 + roundQuotient ratio.1 ratio.2)

/-- Beyond this many decimal places to either side every number is infinite or zero. -/
def greatestMagnitude : Int := 400

def nearest (digits : Nat) (exponent : Int) : Float :=
  let magnitude := ((Nat.toDigits 10 digits).length : Int) + exponent
  if digits = 0 ∨ magnitude < -greatestMagnitude then 0
  else if greatestMagnitude < magnitude then Float.ofBits (UInt64.ofNat infinityBits)
  else
    Float.ofBits (UInt64.ofNat
      (ratioBits (digits * Nat.pow 10 exponent.toNat) (Nat.pow 10 (-exponent).toNat)))

def digitsValue (digits : List Char) : Nat :=
  digits.foldl (fun n c => n * 10 + (c.toNat - 48)) 0

def signedValue : List Char → Int
  | '-' :: digits => Int.negOfNat (digitsValue digits)
  | '+' :: digits => digitsValue digits
  | digits => digitsValue digits

def magnitudeOfText (text : List Char) : Float :=
  let isMark (c : Char) : Bool := c = 'e' || c = 'E'
  let mantissa := text.takeWhile fun c => !isMark c
  let exponent := signedValue ((text.dropWhile fun c => !isMark c).drop 1)
  let whole := mantissa.takeWhile (· ≠ '.')
  let fraction := (mantissa.dropWhile (· ≠ '.')).drop 1
  nearest (digitsValue (whole ++ fraction)) (exponent - fraction.length)

def ofText : List Char → Float
  | '-' :: text => -magnitudeOfText text
  | text => magnitudeOfText text

end InterfaceGen.Decimal
