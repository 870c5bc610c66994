/-!
# Fixed places

A binary floating point number is an integer times a power of two, so its decimal
with a given number of places is one exact quotient, rounded once: to the nearest,
and from halfway to the even neighbour.
-/

namespace Reconcile.Decimal

/-- `num / den` to the nearest integer, a half going to the even neighbour. -/
def roundQuotient (num den : Nat) : Nat :=
  let q := num / den
  let twice := 2 * (num % den)
  if twice < den then q
  else if den < twice then q + 1
  else q + q % 2

/-- A finite number, as `significand * 2 ^ exponent` with its sign. -/
structure Binary where
  negative : Bool
  significand : Nat
  exponent : Int
deriving Repr, DecidableEq

inductive Reading where
  | notANumber
  | infinite (negative : Bool)
  | finite (value : Binary)
deriving Repr, DecidableEq

/-- What the sixty-four bits of a number say. -/
def Reading.ofBits (bits : UInt64) : Reading :=
  let n := bits.toNat
  let negative := decide (Nat.pow 2 63 ≤ n)
  let biased : Nat := n / Nat.pow 2 52 % Nat.pow 2 11
  let fraction : Nat := n % Nat.pow 2 52
  if biased = 2047 then
    if fraction = 0 then .infinite negative else .notANumber
  else if biased = 0 then .finite ⟨negative, fraction, -1074⟩
  else .finite ⟨negative, fraction + Nat.pow 2 52, (biased : Int) - 1075⟩

/-- The number times `10 ^ places`, rounded. -/
def Binary.scaled (b : Binary) (places : Nat) : Nat :=
  let num := b.significand * Nat.pow 10 places
  match b.exponent with
  | .ofNat e => num * Nat.pow 2 e
  | .negSucc e => roundQuotient num (Nat.pow 2 (e + 1))

/-- The digits of `n`, with zeros in front up to `width` of them. -/
def padded (width n : Nat) : String :=
  let digits := toString n
  String.ofList (List.replicate (width - digits.length) '0') ++ digits

def Binary.fixed (b : Binary) (places : Nat) : String :=
  let n := b.scaled places
  let scale := Nat.pow 10 places
  let text := toString (n / scale) ++ "." ++ padded places (n % scale)
  if b.negative then "-" ++ text else text

def Reading.fixed (places : Nat) : Reading → String
  | .notANumber => "NaN"
  | .infinite false => "inf"
  | .infinite true => "-inf"
  | .finite b => b.fixed places

/-- The decimal of `x` with `places` digits after the point, at least one. -/
def fixed (places : Nat) (x : Float) : String :=
  (Reading.ofBits x.toBits).fixed places

end Reconcile.Decimal
