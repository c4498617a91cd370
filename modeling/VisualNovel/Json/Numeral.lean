/-!
# Numerals

A numeral of a document, and the number it stands for. Whole numbers that fit 64 bits stay exact. Any
other numeral is gathered into a 64-bit significand and a power of ten, and these two are multiplied
in floating point; so the last bit may differ from the correctly rounded value.

* `gather`          the leading digits that fit 64 bits;
* `scale?`          a significand times a power of ten, nothing if it overflows;
* `Notation.value?` the number of a numeral, nothing if it is beyond the range.
-/

namespace VisualNovel.Json

/-- a number of a document -/
inductive Number
  | int (i : Int)
  | float (x : Float)

/-- the parts of a numeral, digit by digit -/
structure Notation where
  negative : Bool
  whole : List Nat
  fraction : Option (List Nat)
  exponent : Option Int

/-- appends digits to a significand until the next one would take it out of 64 bits -/
def gather (significand : Nat) : List Nat → Nat × List Nat
  | [] => (significand, [])
  | d :: ds =>
    if significand * 10 + d < UInt64.size then gather (significand * 10 + d) ds
    else (significand, d :: ds)

theorem gather_lt {s : Nat} (h : s < UInt64.size) (ds : List Nat) : (gather s ds).1 < UInt64.size := by
  induction ds generalizing s with
  | nil => exact h
  | cons d ds ih =>
    rw [gather]
    split
    · rename_i c
      exact ih c
    · exact h

def tenTo (n : Nat) : Float := Float.ofScientific 1 false n

/-- divides by a power of ten, by at most `10 ^ 308` at a time -/
def shrink (x : Float) (n : Nat) : Float :=
  if n ≤ 308 then x / tenTo n
  else if x == 0 then x
  else shrink (x / tenTo 308) (n - 308)
termination_by n

def scale? (x : Float) (e : Int) : Option Float :=
  if e < 0 then some (shrink x (-e).toNat)
  else if e ≤ 308 then
    let y := x * tenTo e.toNat
    if y.isInf then none else some y
  else if x == 0 then some x
  else none

def Notation.float? (n : Notation) : Option Float :=
  let (s, surplus) := gather 0 n.whole
  let places := n.fraction.getD []
  let (s, dropped) := gather s places
  let e : Int := surplus.length - (places.length - dropped.length : Nat) + n.exponent.getD 0
  (scale? s.toUInt64.toFloat e).map fun x => if n.negative then -x else x

/-- a whole number keeps its digits if it fits 64 bits, or if half of their range is enough for it and its
sign; minus zero is a floating-point number -/
def Notation.value? (n : Notation) : Option Number :=
  match gather 0 n.whole, n.fraction, n.exponent with
  | (s, []), none, none =>
    if !n.negative then some (.int s)
    else if 0 < s && 2 * s ≤ UInt64.size then some (.int (-s))
    else some (.float (-s.toUInt64.toFloat))
  | _, _, _ => n.float?.map .float

/-! ## Numbers as the machine types of a document -/

def Number.natural? : Number → Option Nat
  | .int (.ofNat n) => some n
  | _ => none

def Number.toFloat : Number → Float
  | .int (.ofNat n) => n.toUInt64.toFloat
  | .int (.negSucc n) => -(n + 1).toUInt64.toFloat
  | .float x => x

def Number.toFloat32 : Number → Float32
  | .int (.ofNat n) => n.toUInt64.toFloat32
  | .int (.negSucc n) => -(n + 1).toUInt64.toFloat32
  | .float x => x.toFloat32

end VisualNovel.Json
