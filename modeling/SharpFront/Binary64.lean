/-!
# Binary floating-point values

The non-negative values of the IEEE 754 double format, held exactly: a finite value is a whole
number over a power of two, and what would need an exponent past 1023 is infinite. Rounding goes
to the nearest value and on a tie to the even significand.
-/

namespace SharpFront

/-- `finite n k` is `n / 2 ^ k`. -/
inductive Binary64 where
  | finite (num scale : Nat)
  | infinity
  deriving DecidableEq, Repr

namespace Binary64

/-- The whole number nearest to `p / q`, the even one of two. -/
def roundDiv (p q : Nat) : Nat :=
  if 2 * (p % q) < q then p / q
  else if q < 2 * (p % q) then p / q + 1
  else p / q + p / q % 2

/-- A whole number that has reached 2 ^ 1024 is out of range. -/
def bounded (n : Nat) : Binary64 := if n < 1 <<< 1024 then finite n 0 else infinity

/-- The value nearest to a whole number. Below 2 ^ 53 that is the number itself. -/
def ofNat (n : Nat) : Binary64 :=
  if n < 1 <<< 53 then finite n 0
  else
    let unit := 1 <<< (n.log2 - 52)
    bounded (roundDiv n unit * unit)

/-- The exponent of the greatest power of two that is at most `p / q`. -/
def exponent (p q : Nat) : Int :=
  let e : Int := (p.log2 : Int) - (q.log2 : Int)
  if q <<< e.toNat ≤ p <<< (-e).toNat then e else e - 1

/-- The value nearest to `p / q`. The last place of a significand is worth at least 2 ^ -1074. -/
def ofRatio (p q : Nat) : Binary64 :=
  if p = 0 then finite 0 0
  else
    let unit : Int := max (exponent p q - 52) (-1074)
    if 0 ≤ unit then
      let unit := 1 <<< unit.toNat
      bounded (roundDiv p (q * unit) * unit)
    else
      let scale := (-unit).toNat
      finite (roundDiv (p <<< scale) q) scale

/-- One step of reading digits: the value times `base`, rounded, plus the digit, rounded. -/
def pushDigit (base : Nat) (x : Binary64) (digit : Nat) : Binary64 :=
  match x with
  | infinity => infinity
  | finite n _ =>
    match ofNat (n * base) with
    | infinity => infinity
    | finite m _ => ofNat (m + digit)

/-- The value of a whole number read digit by digit. -/
def ofDigits (base : Nat) (digits : List Nat) : Binary64 :=
  digits.foldl (pushDigit base) (finite 0 0)

/-- The whole number a value stands for, if it is one written as such. -/
def toNat? : Binary64 → Option Nat
  | finite n 0 => some n
  | _ => none

/-- The 64 bits of the interchange format: sign, 11 bits of exponent, 52 bits of fraction. -/
def toBits : Binary64 → Nat
  | infinity => 0x7FF <<< 52
  | finite 0 _ => 0
  | finite (n + 1) scale =>
    let num := n + 1
    let top : Int := (num.log2 : Int) - scale
    if top < -1022 then num <<< (1074 - scale)
    else
      let significand := num <<< (52 - num.log2) >>> (num.log2 - 52)
      ((top + 1023).toNat <<< 52) + (significand - (1 <<< 52))

theorem ofNat_of_lt {n : Nat} (h : n < 1 <<< 53) : ofNat n = finite n 0 := by
  unfold ofNat
  rw [if_pos h]

end Binary64

end SharpFront
