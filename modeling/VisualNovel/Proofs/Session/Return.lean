import VisualNovel.Proofs.Session.Forward

/-!
# The clock comes to a stop

A run of the clock takes one timer after the other, and timers set new ones, often for the same moment.
If the jumps of the script only lead on, then the run comes to its end all the same: each timer that acts
uses up something of what is ahead, each stale one is gone for good, and looking after a video again takes
time. It takes none if the interval between two looks is nothing; then the run can stop at a video for
ever.

* `Timers.toCome`           what a run of the clock still has to do with the pending timers;
* `Session.Passes`          the sessions that a run comes to;
* `Session.Spins`           a look after a video leaves the session as it was;
* `never_returns_of_spins`  a run that comes to such a session has no result;
* `Session.Brought`         operations have brought the session about;
* `Session.Acted`, `Session.Brought.acts`   what a timer that is due leads to;
* `Session.Brought.returns_or_spins`        a run comes to its end, or to a session that spins;
* `runs_return_unless_they_spin`   what this means for a session that operations bring about.
-/

set_option linter.unusedSectionVars false

namespace VisualNovel

open Session

/-! ## The queue -/

namespace Timers

variable {limit : Nat} {q q' : Timers}

/-- the milliseconds that the pending timers are apart from the end of a run to `limit`, all together,
and one for each that is due by then -/
def toCome (q : Timers) (limit : Nat) : Nat := (q.pending.map fun t => limit + 1 - t.due).sum

theorem toCome_of_popDue {t : Timer} (due : q.popDue? limit = some (t, q')) :
    q.toCome limit = (limit + 1 - t.due) + q'.toCome limit ∧ t.due ≤ limit := by
  obtain ⟨first, le, -⟩ := popDue?_eq_some_iff.1 due
  rw [toCome, first, List.map_cons, List.sum_cons]
  exact ⟨rfl, le⟩

theorem toCome_schedule (limit delay : Nat) (kind : TimerKind) (guard : Guard) :
    (q.schedule delay kind guard).toCome limit =
      (limit + 1 - later q.now delay) + q.toCome limit := by
  have perm := (enter_perm ⟨later q.now delay, kind, guard⟩ q.pending).map fun t => limit + 1 - t.due
  exact perm.sum_nat

end Timers

variable {σ : Type} [Presentation σ] [Audio σ]

/-! ## Runs that never return -/

/-- the sessions that a run of the clock to `limit` comes to -/
inductive Session.Passes (game : Game) (limit : Nat) : Session σ → Session σ → Prop
  | here {s : Session σ} : Passes game limit s s
  | on {s s₁ s₂ : Session σ} {t : Timer} {timers : Timers}
      (due : s.timers.popDue? limit = some (t, timers))
      (acted : { s with timers }.act game t = some s₁) (rest : Passes game limit s₁ s₂) :
      Passes game limit s s₂

/-- the next timer looks after a video that is not far enough, and is set again for the same moment: it
leaves the session as it was -/
def Session.Spins (game : Game) (limit : Nat) (s : Session σ) : Prop :=
  game.config.timing.videoPoll = 0 ∧
  ∃ t timers target, s.timers.popDue? limit = some (t, timers) ∧
    t.kind = .videoPoll ∧ t.guard = .epoch s.epoch ∧ s.suspension = some (.videoWait target) ∧
    { s with timers }.fire game .videoPoll = .rests s

section
variable {game : Game} {limit : Nat} {s s' : Session σ}

theorem act_of_own {t : Timer} (own : t.guard = .epoch s.epoch) :
    s.act game t = (s.fire game t.kind).settle game := by
  rw [act, isLive, own]
  exact if_pos (beq_self_eq_true s.epoch)

theorem runUntil_of_spins (spins : s.Spins game limit) (fuel : Nat) :
    s.runUntil game limit fuel = none := by
  obtain ⟨-, t, timers, -, due, kind, own, -, same⟩ := spins
  induction fuel with
  | zero => rfl
  | succ fuel ih =>
    rw [runUntil_of_some due, act_of_own (s := { s with timers }) own, kind, same]
    exact ih

theorem never_returns_of_spins (passes : Passes game limit s s') (spins : s'.Spins game limit)
    (fuel : Nat) : s.runUntil game limit fuel = none := by
  induction passes generalizing fuel with
  | here => exact runUntil_of_spins spins fuel
  | on due acted _ ih =>
    cases fuel with
    | zero => rfl
    | succ fuel =>
      rw [runUntil_of_some due, acted]
      exact ih spins fuel

end

/-! ## What a timer leads to -/

def Session.Brought (game : Game) (s : Session σ) : Prop :=
  ∃ (stage : σ) (deeds : List Deed), Reaches game (.ofStage stage) deeds (.rests s)

/-- what comes of a timer that is due, if at most `n` is ahead of the session: less is ahead, or what is
to come in the run is less, or the timer looks after a video in vain and is set again -/
inductive Session.Acted (game : Game) (limit : Nat) (s : Session σ) (n : Nat) (t : Timer)
    (timers : Timers) (s' : Session σ) : Prop
  | less {m : Nat} (lt : m < n) (left : s'.Left game m)
  | sooner (left : s'.Left game n) (lt : s'.timers.toCome limit < s.timers.toCome limit)
  | again {target : Float} (left : s'.Left game n) (own : t.guard = .epoch s.epoch)
      (kind : t.kind = .videoPoll) (waits : s.suspension = some (.videoWait target))
      (polls : { s with timers }.fire game .videoPoll = .rests s')
      (set : s' = { s with timers }.schedule game.config.timing.videoPoll .videoPoll)

namespace Session.Brought

variable {game : Game} {limit n : Nat} {s s' : Session σ} {t : Timer} {timers : Timers}

theorem inStep (h : s.Brought game) : s.InStep := by
  obtain ⟨stage, _, reached⟩ := h
  exact reached.inStep (inStep_new stage)

theorem inMode (h : s.Brought game) : s.InMode := by
  obtain ⟨stage, _, reached⟩ := h
  exact reached.inMode (inStep_new stage) (inMode_new stage)

theorem inTime (h : s.Brought game) : s.timers.InTime := by
  obtain ⟨stage, _, reached⟩ := h
  exact (reached.onTime (onTime_new stage)).pending

theorem act (h : s.Brought game) (due : s.timers.popDue? limit = some (t, timers))
    (acted : { s with timers }.act game t = some s') : s'.Brought game := by
  obtain ⟨stage, deeds, reached⟩ := h
  unfold Session.act at acted
  split at acted
  · rename_i live
    exact ⟨stage, _, (reached.fired due live).settle acted⟩
  · rename_i stale
    cases acted
    exact ⟨stage, _, reached.dropped due (Bool.eq_false_iff.2 stale)⟩

theorem acts (h : s.Brought game) (forward : game.script.Forward) (left : s.Left game n)
    (due : s.timers.popDue? limit = some (t, timers)) :
    ∃ s', { s with timers }.act game t = some s' ∧ Acted game limit s n t timers s' := by
  obtain ⟨sum, le⟩ := Timers.toCome_of_popDue due
  have popped : { s with timers }.Left game n := left.showing rfl rfl (Nat.le_refl _)
  have fewer : timers.toCome limit < s.timers.toCome limit := by omega
  cases live : isLive { s with timers } t with
  | false =>
    refine ⟨_, ?_, .sooner popped fewer⟩
    rw [Session.act, live, if_neg Bool.false_ne_true]
  | true =>
    rw [Session.act, live, if_pos rfl]
    rcases inStep_live h.inStep due live with ⟨own, awaits, -⟩ | ⟨-, kind⟩
    · have inMode : ({ s with timers } : Session σ).InMode := h.inMode
      rcases popped.fire inMode awaits with ⟨m, lt, left'⟩ | ⟨kind, polls⟩
      · obtain ⟨s', settled, left'⟩ := left'.settle forward
        exact ⟨s', settled, .less lt left'⟩
      · rw [kind] at awaits polls ⊢
        obtain ⟨target, waits⟩ := hasWork_of_awaits inMode awaits
        rw [polls]
        exact ⟨_, rfl, .again (popped.showing rfl rfl (Nat.le_refl _)) own kind waits polls rfl⟩
    · -- the check of a video leaves everything but the video as it was
      obtain ⟨failed, e⟩ := fire_videoCheck game { s with timers }
      rw [kind, e]
      exact ⟨_, rfl, .sooner (popped.showing rfl rfl (Nat.le_refl _)) fewer⟩

end Session.Brought

/-! ## Runs that return -/

def Session.ReturnsOrSpins (game : Game) (limit : Nat) (s : Session σ) : Prop :=
  (∃ fuel s', s.runUntil game limit fuel = some s') ∨
    ∃ s', Passes game limit s s' ∧ s'.Spins game limit

section
variable {game : Game} {limit n : Nat} {s s' : Session σ} {t : Timer} {timers : Timers}

theorem Session.ReturnsOrSpins.of_act (due : s.timers.popDue? limit = some (t, timers))
    (acted : { s with timers }.act game t = some s') (h : s'.ReturnsOrSpins game limit) :
    s.ReturnsOrSpins game limit := by
  rcases h with ⟨fuel, s₂, run⟩ | ⟨s₂, passes, spins⟩
  · left
    refine ⟨fuel + 1, s₂, ?_⟩
    rw [runUntil_of_some due, acted]
    exact run
  · exact .inr ⟨s₂, .on due acted passes, spins⟩

/-- setting the timer that is due again never puts off the end of a run, and brings it nearer if there
is any time in between -/
theorem toCome_again (inTime : s.timers.InTime) (before : limit < endOfTime)
    (due : s.timers.popDue? limit = some (t, timers)) (delay : Nat) (kind : TimerKind) (guard : Guard) :
    (timers.schedule delay kind guard).toCome limit ≤ s.timers.toCome limit ∧
      (0 < delay → (timers.schedule delay kind guard).toCome limit < s.timers.toCome limit) := by
  obtain ⟨sum, le⟩ := Timers.toCome_of_popDue due
  obtain ⟨-, -, now⟩ := inTime.popDue? due
  have scheduled := Timers.toCome_schedule (q := timers) limit delay kind guard
  have after : t.due ≤ later timers.now delay ∧ (0 < delay → t.due < later timers.now delay) := by
    rw [now, later]
    omega
  omega

/-- if there is no time in between, the timer is the same as before, behind the others of its moment -/
theorem pending_polled (inTime : s.timers.InTime) (due : s.timers.popDue? limit = some (t, timers))
    (kind : t.kind = .videoPoll) (own : t.guard = .epoch s.epoch) :
    (timers.schedule 0 .videoPoll (.epoch s.epoch)).pending = Timers.enter t timers.pending := by
  obtain ⟨first, -, -⟩ := Timers.popDue?_eq_some_iff.1 due
  obtain ⟨-, -, now⟩ := inTime.popDue? due
  have within := (inTime.due t (by rw [first]; exact List.mem_cons_self)).2
  have same : later timers.now 0 = t.due := by
    rw [now, later]
    omega
  rw [Timers.schedule, same, ← kind, ← own]

/-- a timer that looks after a video in vain, without any time in between, leaves a session that spins,
unless another timer of its moment comes first -/
theorem spins_or_other (h : s.Brought game) (zero : game.config.timing.videoPoll = 0) {target : Float}
    (due : s.timers.popDue? limit = some (t, timers)) (own : t.guard = .epoch s.epoch)
    (kind : t.kind = .videoPoll) (waits : s.suspension = some (.videoWait target))
    (polls : { s with timers }.fire game .videoPoll = .rests s')
    (set : s' = { s with timers }.schedule game.config.timing.videoPoll .videoPoll) :
    s'.Spins game limit ∨
      ∃ u timers', s'.timers.popDue? limit = some (u, timers') ∧ u ∈ timers.pending := by
  obtain ⟨-, le, -⟩ := Timers.popDue?_eq_some_iff.1 due
  obtain ⟨-, -, now⟩ := h.inTime.popDue? due
  have pending : s'.timers.pending = Timers.enter t timers.pending := by
    rw [set, zero]
    exact pending_polled (s := s) h.inTime due kind own
  have clock : s'.timers.now = t.due := by
    rw [set]
    exact now
  by_cases behind : ∃ u us, timers.pending = u :: us ∧ u.due ≤ t.due
  · obtain ⟨u, us, others, le'⟩ := behind
    right
    refine ⟨u, ⟨max s'.timers.now u.due, Timers.enter t us⟩, Timers.popDue?_eq_some_iff.2
      ⟨?_, Nat.le_trans le' le, rfl⟩, by rw [others]; exact List.mem_cons_self⟩
    rw [pending, others, Timers.enter, if_neg (Nat.not_lt.2 le')]
  · left
    have ahead : Timers.enter t timers.pending = t :: timers.pending := by
      cases others : timers.pending with
      | nil => rfl
      | cons u us =>
        rw [Timers.enter, if_pos]
        rw [← Nat.not_le]
        exact fun le' => behind ⟨u, us, others, le'⟩
    have next : s'.timers.popDue? limit = some (t, timers) := by
      refine Timers.popDue?_eq_some_iff.2 ⟨by rw [pending, ahead], le, ?_⟩
      rw [clock, now, Nat.max_self]
    have same : { s' with timers } = { s with timers } := by rw [set]; rfl
    refine ⟨zero, t, timers, target, next, kind, ?_, ?_, by rw [same]; exact polls⟩
    · rw [set]
      exact own
    · rw [set]
      exact waits

/-- **A run of the clock comes to its end, or to a session that spins.** -/
theorem Session.Brought.returns_or_spins (h : s.Brought game) (forward : game.script.Forward)
    (before : limit < endOfTime) (left : s.Left game n) : s.ReturnsOrSpins game limit := by
  -- each timer lowers what is ahead, or leaves it and lowers what is to come
  induction n using Nat.strongRecOn generalizing s with
  | ind n ahead =>
  induction total : s.timers.toCome limit using Nat.strongRecOn generalizing s with
  | ind k sooner =>
  cases due : s.timers.popDue? limit with
  | none => exact .inl ⟨1, _, runUntil_of_none due 0⟩
  | some popped =>
  obtain ⟨t, timers⟩ := popped
  obtain ⟨s₁, acted, outcome⟩ := h.acts forward left due
  have brought := h.act due acted
  refine .of_act due acted ?_
  cases outcome with
  | less lt left => exact ahead _ lt brought left
  | sooner left lt => exact sooner _ (total ▸ lt) brought left rfl
  | again left own kind waits polls set =>
    obtain ⟨first, -, -⟩ := Timers.popDue?_eq_some_iff.1 due
    obtain ⟨le, lt⟩ := toCome_again h.inTime before due game.config.timing.videoPoll .videoPoll
      (.epoch s.epoch)
    have same : s₁.timers.toCome limit ≤ k := by rw [set, ← total]; exact le
    rcases Nat.eq_zero_or_pos game.config.timing.videoPoll with zero | pos
    · rcases spins_or_other h zero due own kind waits polls set with spins | ⟨u, timers', due', other⟩
      · exact .inr ⟨s₁, .here, spins⟩
      · -- the other timer of that moment is a stale one or the check of a video, and then gone
        obtain ⟨s₂, acted', outcome'⟩ := brought.acts forward left due'
        have brought' := brought.act due' acted'
        refine .of_act due' acted' ?_
        cases outcome' with
        | less lt left => exact ahead _ lt brought' left
        | sooner left lt => exact sooner _ (Nat.lt_of_lt_of_le lt same) brought' left rfl
        | again _ own' =>
          have inStep : VisualNovel.InStep (t :: timers.pending) s.epoch s.videoGeneration s.awaits? :=
            first ▸ h.inStep
          rw [set] at own'
          exact absurd own' (inStep.stale_tail own u other)
    · refine sooner _ ?_ brought left rfl
      rw [set, ← total]
      exact lt pos

theorem pollVideo_of_short (game : Game) {target : Float} (waits : s.suspension = some (.videoWait target))
    (short : (s.videoClock ≥ target || Presentation.videoEnded s.stage) = false) :
    s.pollVideo game = .rests (s.schedule game.config.timing.videoPoll .videoPoll) := by
  simp only [pollVideo, waits, short]
  rfl

/-- a session that waits for a video which is not far enough, with no other timer pending, spins if there
is no time between two looks -/
theorem spins_of_short (zero : game.config.timing.videoPoll = 0) {target : Float} {due : Nat}
    (waits : s.suspension = some (.videoWait target)) (le : due ≤ limit) (before : limit < endOfTime)
    (alone : s.timers = ⟨due, [⟨due, .videoPoll, .epoch s.epoch⟩]⟩)
    (short : (s.videoClock ≥ target || Presentation.videoEnded s.stage) = false) :
    s.Spins game limit := by
  have next : s.timers.popDue? limit = some (⟨due, .videoPoll, .epoch s.epoch⟩, ⟨due, []⟩) := by
    refine Timers.popDue?_eq_some_iff.2 ⟨by rw [alone], le, ?_⟩
    rw [alone, Nat.max_self]
  have clock : videoClock { s with timers := ⟨due, []⟩ } = s.videoClock := by
    have now : s.now = due := by rw [Session.now, alone]
    unfold videoClock
    rw [now]
    rfl
  have back : { s with timers := ⟨due, []⟩ }.schedule 0 .videoPoll = s := by
    have same : later due 0 = due := by rw [later]; omega
    show { s with timers := (⟨due, []⟩ : Timers).schedule 0 .videoPoll (.epoch s.epoch) } = s
    rw [Timers.schedule, same, Timers.enter, ← alone]
  refine ⟨zero, _, _, target, next, rfl, rfl, waits, ?_⟩
  have polls := pollVideo_of_short (s := { s with timers := ⟨due, []⟩ }) game waits
    (by rw [clock]; exact short)
  rw [zero, back] at polls
  exact polls

end

/-- **On scripts that only lead on, the clock comes to a stop, unless a video is looked after without
a pause.** Let every jump of a script lead to a later place. A run of the clock to a moment before the
end of time has a result if there is any time between two looks after a video. It has none if and only
if there is none, and the run comes to a session that waits for a video which is not far enough, and is
looked after again at once. -/
theorem runs_return_unless_they_spin (game : Game) (forward : game.script.Forward) {deeds : List Deed}
    {s : Session σ} (h : Plays game deeds s) {limit : Nat} (before : limit < endOfTime) :
    (0 < game.config.timing.videoPoll → ∃ fuel s', s.runUntil game limit fuel = some s') ∧
    ((∀ fuel, s.runUntil game limit fuel = none) ↔
      ∃ s', Passes game limit s s' ∧ s'.Spins game limit) := by
  obtain ⟨stage, run⟩ := h
  have brought : s.Brought game := ⟨stage, deeds, run.reaches⟩
  obtain ⟨n, left⟩ := Session.Left.exists_left game s
  have result := brought.returns_or_spins forward before left
  refine ⟨fun pos => ?_, fun never => ?_, ?_⟩
  · rcases result with returns | ⟨_, _, zero, _⟩
    · exact returns
    · omega
  · rcases result with ⟨fuel, s', run⟩ | spins
    · rw [never fuel] at run
      cases run
    · exact spins
  · rintro ⟨s', passes, spins⟩ fuel
    exact never_returns_of_spins passes spins fuel

/-- a video is waited for that is looked after in every millisecond: a run of the clock has a result, and
comes to no session that spins -/
theorem video_looked_after_every_millisecond :
    let game : Game :=
      { script := .ofEvents [.single (.waitVideo 1)], config := { timing := { videoPoll := 1 } } }
    game.script.Forward ∧ ∃ deeds, ∃ s : Session RecordingStage, Plays game deeds s ∧
      s.suspension.isSome = true ∧ (∃ fuel s', s.runUntil game 500 fuel = some s') ∧
      ¬ ∃ s', Passes game 500 s s' ∧ s'.Spins game 500 := by
  intro game
  have forward : game.script.Forward := by decide +kernel
  have plays : ∃ deeds, ∃ s : Session RecordingStage, Plays game deeds s ∧
      s.suspension.isSome = true :=
    ⟨_, _, ⟨rehearsalStage, .operation .start .refl rfl⟩, rfl⟩
  obtain ⟨deeds, s, plays, waits⟩ := plays
  have before : 500 < endOfTime := by decide
  obtain ⟨returns, never⟩ := runs_return_unless_they_spin game forward plays before
  obtain ⟨fuel, s', run⟩ := returns (by decide)
  refine ⟨forward, deeds, s, plays, waits, ⟨fuel, s', run⟩, fun spins => ?_⟩
  rw [never.2 spins fuel] at run
  cases run

/-- a video is waited for that is looked after without a pause: no run of the clock has a result -/
theorem video_looked_after_without_a_pause :
    let game : Game :=
      { script := .ofEvents [.single (.waitVideo 1)], config := { timing := { videoPoll := 0 } } }
    game.script.Forward ∧ ∃ deeds, ∃ s : Session RecordingStage, Plays game deeds s ∧
      s.suspension.isSome = true ∧ ∀ fuel, s.runUntil game 0 fuel = none := by
  intro game
  have plays : ∃ deeds, ∃ s : Session RecordingStage, Plays game deeds s ∧
      s.suspension = some (.videoWait 1) ∧ s.timers = ⟨0, [⟨0, .videoPoll, .epoch s.epoch⟩]⟩ ∧
      (s.videoClock ≥ 1 || Presentation.videoEnded s.stage) = false :=
    ⟨_, _, ⟨rehearsalStage, .operation .start .refl rfl⟩, rfl, rfl, by decide +kernel⟩
  obtain ⟨deeds, s, plays, waits, alone, short⟩ := plays
  have spins : s.Spins game 0 := spins_of_short rfl waits (Nat.le_refl 0) (by decide) alone short
  exact ⟨by decide +kernel, deeds, s, plays, by rw [waits]; rfl, never_returns_of_spins .here spins⟩

end VisualNovel
