import VisualNovel.Decimal.Binary

/-!
# The shortest decimal that reads back

The printed form of a floating-point number: the fewest significant digits that still tell it apart
from its neighbours, written without an exponent, and without a point for a whole number.

* `Dyadic.onGrid?`    a multiple of `10 ^ k` that rounds to the number, the closer one of two, the
                      larger one if both are equally close;
* `Dyadic.shortest`   the first hit on grids of 1, 2, 3, … significant digits;
* `positional`        the layout of `digits * 10 ^ k`;
* `plain`             the text of a number of either width.
-/

namespace VisualNovel.Decimal

/-- the number of decimal digits of `n`, none for zero -/
def digitCount (n : Nat) : Nat := if n = 0 then 0 else (Nat.toDigits 10 n).length

/-- the exponent of the leading digit: the largest `e` with `10 ^ e ≤ num / den` -/
def leading (num den : Nat) : Int :=
  if den ≤ num then digitCount (num / den) - 1
  else -(digitCount ((den + num - 1) / num - 1) : Int)

/-- the grid point `c` rounds to the number: it lies within the half gaps, whose ends belong to an
even `m` -/
def Dyadic.reads (d : Dyadic) (k : Int) (c : Nat) : Bool :=
  let low := (d.over (4 * d.m - if d.narrow then 1 else 2) k).1
  let (high, den) := d.over (4 * d.m + 2) k
  if d.m % 2 = 0 then low ≤ c * den && c * den ≤ high else low < c * den && c * den < high

def Dyadic.onGrid? (d : Dyadic) (k : Int) : Option Nat :=
  let (num, den) := d.over (4 * d.m) k
  let below := num / den
  match d.reads k below, d.reads k (below + 1) with
  | true, true => some (if 2 * (num % den) < den then below else below + 1)
  | true, false => some below
  | false, true => some (below + 1)
  | false, false => none

/-- `digits * 10 ^ k` for the least number of digits, up to a bound that always suffices -/
def Dyadic.shortest (w : Width) (d : Dyadic) : Nat × Int :=
  let (num, den) := d.over (4 * d.m) 0
  let top := leading num den
  let hit := (List.range w.digits).findSome? fun (n : Nat) =>
    (d.onGrid? (top - n)).map fun c => (c, top - n)
  hit.getD (d.m, d.q)

theorem Dyadic.reads_of_onGrid? {d : Dyadic} {k : Int} {c : Nat} (h : d.onGrid? k = some c) :
    d.reads k c = true := by
  simp only [Dyadic.onGrid?] at h
  split at h <;> rename_i h1 h2
  · split at h <;> cases h <;> assumption
  · cases h; assumption
  · cases h; assumption
  · cases h

/-! ## Layout -/

def zeros (n : Nat) : List Char := List.replicate n '0'

/-- `digits * 10 ^ k` in positional notation -/
def positional (digits : Nat) (k : Int) : List Char :=
  let ds := Nat.toDigits 10 digits
  if 0 ≤ k then ds ++ zeros k.toNat
  else
    let places := (-k).toNat
    let padded := zeros (places + 1 - ds.length) ++ ds
    padded.take (padded.length - places) ++ '.' :: padded.drop (padded.length - places)

/-- takes the zeros off the end of `digits`, as long as `fuel` lasts -/
def dropZeros : Nat → Nat × Int → Nat × Int
  | 0, d => d
  | fuel + 1, (digits, k) =>
    if digits % 10 = 0 then dropZeros fuel (digits / 10, k + 1) else (digits, k)

def signed (negative : Bool) (text : List Char) : String :=
  String.ofList (if negative then '-' :: text else text)

def Reading.plain (w : Width) : Reading → String
  | .notANumber => "NaN"
  | .infinite negative => signed negative ['i', 'n', 'f']
  | .finite negative d =>
    if d.m = 0 then signed negative ['0']
    else
      let (digits, k) := d.shortest w
      let (digits, k) := dropZeros (digitCount digits) (digits, k)
      signed negative (positional digits k)

def plain (x : Float) : String := (Reading.ofFloat x).plain double
def plainSingle (x : Float32) : String := (Reading.ofFloat32 x).plain single

end VisualNovel.Decimal
