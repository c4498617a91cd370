import VisualNovel.Decimal.Shortest

/-!
# A fixed number of decimal places

* `roundRatio`   a ratio rounded to the nearest whole number, a half to the even neighbour;
* `fixed`        the text of a number with so many places after the point, rounded from its exact value.
-/

namespace VisualNovel.Decimal

/-- the whole number nearest to `num / den`; a half goes to the even neighbour -/
def roundRatio (num den : Nat) : Nat :=
  let below := num / den
  let twice := 2 * (num % den)
  if twice < den || (twice = den && below % 2 = 0) then below else below + 1

/-- rounding moves a ratio by half a unit at most -/
theorem roundRatio_near (num den : Nat) (h : 0 < den) :
    2 * (roundRatio num den * den) ≤ 2 * num + den ∧ 2 * num ≤ 2 * (roundRatio num den * den) + den := by
  have e := Nat.div_add_mod num den
  have l := Nat.mod_lt num h
  rw [Nat.mul_comm] at e
  simp only [roundRatio]
  split
  · rename_i c
    simp only [Bool.or_eq_true, decide_eq_true_eq, Bool.and_eq_true] at c
    omega
  · rename_i c
    simp only [Bool.or_eq_true, decide_eq_true_eq, Bool.and_eq_true] at c
    rw [Nat.add_mul, Nat.one_mul]
    omega

def Reading.fixed (places : Nat) : Reading → String
  | .notANumber => "NaN"
  | .infinite negative => signed negative ['i', 'n', 'f']
  | .finite negative d =>
    let (num, den) := d.over (4 * d.m) (-places)
    signed negative (positional (roundRatio num den) (-places))

def fixed (places : Nat) (x : Float) : String := (Reading.ofFloat x).fixed places
def fixedSingle (places : Nat) (x : Float32) : String := (Reading.ofFloat32 x).fixed places

end VisualNovel.Decimal
