/-!
# Timers on a virtual clock

Times are milliseconds in 64 bits. Timers never fire by themselves: whoever drives the clock takes
them out, the earliest first, and of two that are due together the one that was scheduled first. The
queue lists them in this order, which is the one that numbered timers in a heap compare by.

* `Timers.schedule`       a timer so long after the present moment, at the end of time at the latest;
* `Timers.popDue?`        the first timer due by a moment; the clock moves on to it;
* `enter_ordered`         the pending timers stay in the order of their due times;
* `enter_perm`            scheduling adds one timer and loses none.
-/

namespace VisualNovel

/-- the last millisecond of the clock -/
def endOfTime : Nat := UInt64.size - 1

/-- the moment `delay` after `now`, at the end of time at the latest -/
def later (now delay : Nat) : Nat := min (now + delay) endOfTime

theorem later_le_endOfTime (now delay : Nat) : later now delay ≤ endOfTime := Nat.min_le_right _ _

theorem le_later {now : Nat} (le : now ≤ endOfTime) (delay : Nat) : now ≤ later now delay :=
  Nat.le_min.2 ⟨Nat.le_add_right _ _, le⟩

/-- what a timer is for -/
inductive TimerKind
  /-- goes on after a pause -/
  | advance
  /-- reveals the next character of a line -/
  | typeTick
  /-- reveals the next character of an intro card, or ends a line of it -/
  | cardTick
  /-- shows the next picture of a sequence -/
  | frame
  /-- looks at the clock of the video -/
  | videoPoll
  /-- looks whether a video has really started -/
  | videoCheck
deriving DecidableEq

/-- a timer acts only while its guard holds -/
inductive Guard
  /-- the session has neither suspended nor gone on since -/
  | epoch (n : Nat)
  /-- no other video has been played since -/
  | video (generation : Nat)
deriving DecidableEq

structure Timer where
  due : Nat
  kind : TimerKind
  guard : Guard
deriving DecidableEq

structure Timers where
  now : Nat := 0
  /-- in the order in which they come out -/
  pending : List Timer := []

namespace Timers

/-- puts a timer behind all that are due no later -/
def enter (t : Timer) : List Timer → List Timer
  | [] => [t]
  | u :: us => if t.due < u.due then t :: u :: us else u :: enter t us

def schedule (q : Timers) (delay : Nat) (kind : TimerKind) (guard : Guard) : Timers :=
  { q with pending := enter ⟨later q.now delay, kind, guard⟩ q.pending }

/-- the first timer, if it is due by `limit`; the clock never goes back -/
def popDue? (q : Timers) (limit : Nat) : Option (Timer × Timers) :=
  match q.pending with
  | [] => none
  | t :: ts => if t.due ≤ limit then some (t, { now := max q.now t.due, pending := ts }) else none

def setNow (q : Timers) (now : Nat) : Timers := { q with now := max q.now now }

def deadline? (q : Timers) : Option Nat := q.pending.head?.map Timer.due

theorem filter_enter_of_neg {p : Timer → Bool} {t : Timer} (none : p t = false) (ts : List Timer) :
    (enter t ts).filter p = ts.filter p := by
  induction ts with
  | nil => rw [enter, List.filter_cons_of_neg (by simp [none])]
  | cons u us ih =>
    rw [enter]
    split
    · rw [List.filter_cons_of_neg (by simp [none])]
    · rw [List.filter_cons, List.filter_cons, ih]

/-! ## The order of the queue -/

/-- no timer is due before one in front of it -/
def Ordered (ts : List Timer) : Prop := ts.Pairwise fun t u => t.due ≤ u.due

theorem enter_perm (t : Timer) (ts : List Timer) : (enter t ts).Perm (t :: ts) := by
  induction ts with
  | nil => exact .refl _
  | cons u us ih =>
    simp only [enter]
    split
    · exact .refl _
    · exact (ih.cons u).trans (.swap t u us)

theorem enter_ordered (t : Timer) {ts : List Timer} (h : Ordered ts) : Ordered (enter t ts) := by
  induction ts with
  | nil => exact List.pairwise_singleton _ _
  | cons u us ih =>
    have hd := (List.pairwise_cons.1 h).1
    simp only [enter]
    split
    · rename_i lt
      refine List.pairwise_cons.2 ⟨fun v m => ?_, h⟩
      rcases List.mem_cons.1 m with rfl | m
      · omega
      · have := hd v m; omega
    · refine List.pairwise_cons.2 ⟨fun v m => ?_, ih (List.pairwise_cons.1 h).2⟩
      rcases List.mem_cons.1 ((enter_perm t us).mem_iff.1 m) with rfl | m
      · omega
      · exact hd v m

theorem popDue?_eq_some_iff {q q' : Timers} {limit : Nat} {t : Timer} :
    q.popDue? limit = some (t, q') ↔
      q.pending = t :: q'.pending ∧ t.due ≤ limit ∧ q'.now = max q.now t.due := by
  obtain ⟨now, pending⟩ := q
  obtain ⟨now', pending'⟩ := q'
  cases pending with
  | nil => simp [popDue?]
  | cons u us =>
    simp only [popDue?]
    split
    · rename_i le
      simp only [Option.some.injEq, Prod.mk.injEq, mk.injEq, List.cons.injEq]
      constructor
      · rintro ⟨rfl, rfl, rfl⟩
        exact ⟨⟨rfl, rfl⟩, le, rfl⟩
      · rintro ⟨⟨rfl, rfl⟩, -, rfl⟩
        exact ⟨rfl, rfl, rfl⟩
    · rename_i lt
      constructor
      · nofun
      · rintro ⟨e, le, -⟩
        cases e
        exact absurd le lt

theorem popDue?_eq_none_iff {q : Timers} {limit : Nat} :
    q.popDue? limit = none ↔ ∀ t, q.pending.head? = some t → limit < t.due := by
  obtain ⟨now, pending⟩ := q
  cases pending with
  | nil => simp [popDue?]
  | cons u us => simp [popDue?]

end Timers

end VisualNovel
