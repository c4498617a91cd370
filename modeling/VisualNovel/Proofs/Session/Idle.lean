import VisualNovel.Proofs.Session.Clock
import VisualNovel.Proofs.Session.Epoch

/-!
# What becomes of a session that waits for no timer

While a session waits for the player, timers still come due: stale ones, which do nothing, and the check
of the last video, which may find it failed. So the session at a later moment can be read off its queue.

* `Session.failedBy`      when the check of the last video finds it failed;
* `Session.passed`        the session after a timer that is not of its epoch;
* `Session.idleUntil`     the session at a later moment, if it waits for no timer before;
* `idleUntil_passed`      a timer that passes makes no difference to it;
* `runUntil_idle`         a run of the clock leads to it.
-/

set_option linter.unusedSectionVars false

namespace VisualNovel

open Session Presentation

variable {σ : Type} [Presentation σ] [Audio σ]

namespace Session

def checksBy (limit : Nat) (s : Session σ) (t : Timer) : Bool :=
  t.guard = .video s.videoGeneration ∧ t.due ≤ limit

/-- when the last video is found to have failed, if the check of it is the first of these timers -/
def failedBy (checks : List Timer) (s : Session σ) : Option Nat :=
  s.videoFailedAt.or (if videoPaused s.stage then checks.head?.map Timer.due else none)

/-- the session once a timer that is not of its epoch is out of the queue -/
def passed (t : Timer) (timers : Timers) (s : Session σ) : Session σ :=
  { s with timers, videoFailedAt := s.failedBy ([t].filter (s.checksBy t.due)) }

/-- the session at a later moment, if it waits for no timer before -/
def idleUntil (limit : Nat) (s : Session σ) : Session σ :=
  { s with
    timers := ⟨limit, s.timers.pending.filter (limit < ·.due)⟩
    videoFailedAt := s.failedBy (s.timers.pending.filter (s.checksBy limit)) }

theorem checkVideo_eq (s : Session σ) :
    s.checkVideo = { s with
      videoFailedAt := s.videoFailedAt.or (if videoPaused s.stage then some s.now else none) } := by
  unfold checkVideo
  cases failed : s.videoFailedAt with
  | some moment =>
    rw [Option.isNone_some, Bool.false_and, if_neg Bool.false_ne_true, Option.some_or, ← failed]
  | none =>
    rw [Option.isNone_none, Bool.true_and, Option.none_or]
    split
    · rfl
    · rw [← failed]

theorem failedBy_nil (s : Session σ) : s.failedBy [] = s.videoFailedAt := by
  rw [failedBy, List.head?_nil, Option.map_none, ite_self, Option.or_none]

theorem failedBy_cons (t : Timer) (checks : List Timer) (s : Session σ) :
    s.failedBy (t :: checks) =
      s.videoFailedAt.or (if videoPaused s.stage then some t.due else none) := rfl

theorem failedBy_append (checks checks' : List Timer) (timers : Timers) (s : Session σ) :
    failedBy checks' { s with timers, videoFailedAt := s.failedBy checks } =
      s.failedBy (checks ++ checks') := by
  show (s.failedBy checks).or (if videoPaused s.stage then checks'.head?.map Timer.due else none) = _
  rw [failedBy, failedBy, Option.or_assoc, List.head?_append]
  split
  · rw [Option.map_or]
  · rfl

end Session

variable {limit : Nat} {s : Session σ} {t : Timer} {timers : Timers}

/-- a timer that is not of the present epoch is stale or the check of the last video -/
theorem act_eq_passed (game : Game) (inStep : s.InStep) (inTime : s.timers.InTime)
    (due : s.timers.popDue? limit = some (t, timers)) (other : t.guard ≠ .epoch s.epoch) :
    { s with timers := timers }.act game t = some (s.passed t timers) := by
  obtain ⟨-, -, now⟩ := inTime.popDue? due
  unfold act passed
  cases live : isLive { s with timers := timers } t with
  | true =>
    rcases inStep_live inStep due live with ⟨own, -⟩ | ⟨video, kind⟩
    · exact absurd own other
    have checks : s.checksBy t.due t = true := by simp [checksBy, video]
    have fires : { s with timers := timers }.fire game t.kind =
        .rests (checkVideo { s with timers := timers }) := by
      rw [kind]
      rfl
    rw [if_pos rfl, fires, Turn.settle, checkVideo_eq, List.filter_cons_of_pos checks,
      failedBy_cons, ← now]
    rfl
  | false =>
    have checks : s.checksBy t.due t = false := by
      rw [← Bool.not_eq_true]
      intro checks
      have video : t.guard = .video s.videoGeneration := by simpa [checksBy] using checks
      simp [isLive, video] at live
    rw [if_neg Bool.false_ne_true, List.filter_cons_of_neg (by simpa using checks), List.filter_nil,
      failedBy_nil]

theorem idleUntil_passed (due : s.timers.popDue? limit = some (t, timers)) :
    (s.passed t timers).idleUntil limit = s.idleUntil limit := by
  obtain ⟨first, le, -⟩ := Timers.popDue?_eq_some_iff.1 due
  have late : s.timers.pending.filter (limit < ·.due) = timers.pending.filter (limit < ·.due) := by
    rw [first, List.filter_cons_of_neg (by simpa using le)]
  have failed : (s.passed t timers).failedBy (timers.pending.filter (s.checksBy limit)) =
      s.failedBy (s.timers.pending.filter (s.checksBy limit)) := by
    have check : [t].filter (s.checksBy t.due) = [t].filter (s.checksBy limit) := by
      rw [List.filter_congr]
      simp [checksBy, le]
    rw [passed, failedBy_append, check, ← List.filter_append, List.singleton_append, first]
  unfold idleUntil
  rw [late, ← failed]
  rfl

/-- nothing becomes of a session but that its clock moves on, while no timer is due -/
theorem idleUntil_of_none (inTime : s.timers.InTime) (le : s.now ≤ limit)
    (nothing : s.timers.popDue? limit = none) :
    s.idleUntil limit = { s with timers := s.timers.setNow limit } := by
  have late : ∀ t ∈ s.timers.pending, limit < t.due := by
    have first := Timers.popDue?_eq_none_iff.1 nothing
    have ordered := inTime.ordered
    cases pending : s.timers.pending with
    | nil => exact fun _ m => absurd m List.not_mem_nil
    | cons u rest =>
      rw [pending] at first ordered
      intro t m
      have lt := first u rfl
      rcases List.mem_cons.1 m with rfl | m
      · exact lt
      · exact Nat.lt_of_lt_of_le lt ((List.pairwise_cons.1 ordered).1 t m)
  have checks : s.timers.pending.filter (s.checksBy limit) = [] := by
    rw [List.filter_eq_nil_iff]
    intro t m
    have := late t m
    simp [checksBy, this]
  have now : max s.timers.now limit = limit := Nat.max_eq_right le
  unfold idleUntil
  rw [checks, failedBy_nil, List.filter_eq_self.2 fun t m => by simpa using late t m, Timers.setNow,
    now]

/-- **What becomes of a session that waits for no timer.** -/
theorem runUntil_idle (game : Game) (inStep : s.InStep) (inTime : s.timers.InTime)
    (free : s.awaits? = none) (le : s.now ≤ limit) :
    ∃ fuel, s.runUntil game limit fuel = some (s.idleUntil limit) := by
  induction pending : s.timers.pending.length generalizing s with
  | zero =>
    have nothing : s.timers.popDue? limit = none := by
      rw [Timers.popDue?, List.length_eq_zero_iff.1 pending]
    exact ⟨1, by rw [runUntil_of_none nothing, idleUntil_of_none inTime le nothing]⟩
  | succ size ih =>
    cases due : s.timers.popDue? limit with
    | none => exact ⟨1, by rw [runUntil_of_none due, idleUntil_of_none inTime le due]⟩
    | some popped =>
      obtain ⟨t, timers⟩ := popped
      obtain ⟨first, dueBy, -⟩ := Timers.popDue?_eq_some_iff.1 due
      obtain ⟨inTime', -, now⟩ := inTime.popDue? due
      have other : t.guard ≠ .epoch s.epoch :=
        stale_of_free inStep free t (by rw [first]; exact List.mem_cons_self)
      have acted := act_eq_passed game inStep inTime due other
      obtain ⟨fuel, run⟩ := ih (s := s.passed t timers) (inStep_popped inStep due) inTime' free
        (by show timers.now ≤ limit; omega) (by
          rw [first, List.length_cons] at pending
          exact Nat.succ.inj pending)
      refine ⟨fuel + 1, ?_⟩
      rw [runUntil_of_some due, acted, Option.bind_some, run, idleUntil_passed due]

end VisualNovel
