/-!
# Durations in milliseconds

* `milliseconds`    a number of seconds; nothing for one that is not finite or not positive;
* `frameInterval`   the time of one picture of a sequence, a millisecond at least.
-/

namespace VisualNovel

/-- the nearest whole number, halves away from zero, within 64 bits -/
def roundToClock (x : Float) : Nat := x.round.toUInt64.toNat

def milliseconds (seconds : Float) : Nat :=
  if seconds.isFinite && seconds > 0 then roundToClock (seconds * 1000) else 0

/-- a rate can be used if it is finite and positive -/
def validRate (fps : Float) : Bool := fps.isFinite && fps > 0

/-- one picture a second where the rate cannot be used -/
def frameInterval (fps : Float) : Nat :=
  max 1 (roundToClock (1000 / (if validRate fps then fps else 1)))

theorem frameInterval_pos (fps : Float) : 0 < frameInterval fps := Nat.lt_of_lt_of_le Nat.one_pos (Nat.le_max_left ..)

end VisualNovel
