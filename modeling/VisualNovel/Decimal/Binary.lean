/-!
# Binary floating point, seen through its bits

A finite number of either width is `m * 2 ^ q`; everything that is printed is computed from `m` and `q`
in exact arithmetic on natural numbers.

* `Width`        the two widths, by their numbers of fraction and exponent bits;
* `Dyadic`       `m * 2 ^ q`, with a note whether the number below it is closer than the one above;
* `Reading`      what a pattern of bits stands for;
* `Dyadic.over`  a multiple of a quarter of `2 ^ q`, as a ratio to `10 ^ k`.
-/

namespace VisualNovel.Decimal

structure Width where
  fractionBits : Nat
  exponentBits : Nat
  /-- so many significant digits always tell two numbers of this width apart -/
  digits : Nat

/-- the number of different fractions -/
def Width.fractions (w : Width) : Nat := Nat.pow 2 w.fractionBits
/-- the number of different exponents -/
def Width.exponents (w : Width) : Nat := Nat.pow 2 w.exponentBits

def double : Width := ⟨52, 11, 17⟩
def single : Width := ⟨23, 8, 9⟩

/-- the number `m * 2 ^ q` -/
structure Dyadic where
  m : Nat
  q : Int
  /-- `m` starts a binade, so the gap below the number is half of the gap above it -/
  narrow : Bool

inductive Reading
  | finite (negative : Bool) (value : Dyadic)
  | infinite (negative : Bool)
  | notANumber

def Reading.ofBits (w : Width) (bits : Nat) : Reading :=
  let fraction := bits % w.fractions
  let exponent := bits / w.fractions % w.exponents
  let negative := bits / w.fractions / w.exponents % 2 == 1
  let lowest : Int := 2 - (w.exponents / 2 : Nat) - w.fractionBits
  if exponent + 1 = w.exponents then
    if fraction = 0 then .infinite negative else .notANumber
  else if exponent = 0 then .finite negative ⟨fraction, lowest, false⟩
  else
    .finite negative
      ⟨w.fractions + fraction, lowest + (exponent - 1), fraction == 0 && exponent != 1⟩

def Reading.ofFloat (x : Float) : Reading := .ofBits double x.toBits.toNat
def Reading.ofFloat32 (x : Float32) : Reading := .ofBits single x.toBits.toNat

/-- numerator and denominator of `x / 4 * 2 ^ q / 10 ^ k` -/
def Dyadic.over (d : Dyadic) (x : Nat) (k : Int) : Nat × Nat :=
  (x * Nat.pow 2 (d.q - 2).toNat * Nat.pow 10 (-k).toNat, Nat.pow 2 (2 - d.q).toNat * Nat.pow 10 k.toNat)

theorem Dyadic.over_den_pos (d : Dyadic) (x : Nat) (k : Int) : 0 < (d.over x k).2 :=
  Nat.mul_pos (Nat.pow_pos (by decide)) (Nat.pow_pos (by decide))

end VisualNovel.Decimal
