import VisualNovel.Proofs.Session.Idle
import VisualNovel.Proofs.Session.Moves

/-!
# The end is final

A session that is finished has nothing that could make it go on. Timers may still be pending, set before
the script came to its end: those of an older epoch do nothing when they come due, and the check of the
last video only notes when it failed.

* `Session.Lingers`     a session at a later moment, if it has done nothing since;
* `Session.Ended`       a finished session, with its timers in step;
* `Ended.opened`, `Ended.pressed`, `Ended.chosen`, `Ended.turn`, `Ended.fired`   what it makes of the
                        player, of an advance and of its timers;
* `Since`, `since_keeps`   what holds from the end on, and that every move keeps it;
* `Ended.runUntil`      a run of the clock has a result;
* `end_is_final`        what this means for a session that operations bring about.
-/

set_option linter.unusedSectionVars false

namespace VisualNovel

open Session

variable {σ : Type} [Presentation σ] [Audio σ]

/-- `s'` is `s` at a later moment, when some of its timers are out of the queue and its video may have
failed -/
structure Session.Lingers (s s' : Session σ) : Prop where
  same : s' = { s with timers := s'.timers, videoFailedAt := s'.videoFailedAt }
  dropped : s'.timers.pending <:+ s.timers.pending
  later : s.now ≤ s'.now
  failed : s.videoFailedAt.isSome → s'.videoFailedAt = s.videoFailedAt

namespace Session.Lingers

variable {s s₁ s₂ : Session σ}

theorem refl (s : Session σ) : s.Lingers s := ⟨rfl, List.suffix_rfl, Nat.le_refl _, fun _ => rfl⟩

theorem trans (h : s.Lingers s₁) (h' : s₁.Lingers s₂) : s.Lingers s₂ where
  same := by
    have same := h'.same
    rw [h.same] at same
    exact same
  dropped := h'.dropped.trans h.dropped
  later := Nat.le_trans h.later h'.later
  failed isSome := by
    have first := h.failed isSome
    rw [← first] at isSome ⊢
    exact h'.failed isSome

theorem popped {limit : Nat} {t : Timer} {timers : Timers}
    (due : s.timers.popDue? limit = some (t, timers)) : s.Lingers { s with timers := timers } := by
  obtain ⟨first, -, now⟩ := Timers.popDue?_eq_some_iff.1 due
  refine ⟨rfl, ?_, ?_, fun _ => rfl⟩
  · rw [first]
    exact List.suffix_cons t timers.pending
  · show s.timers.now ≤ timers.now
    omega

theorem setNow (s : Session σ) (limit : Nat) :
    s.Lingers { s with timers := s.timers.setNow limit } :=
  ⟨rfl, List.suffix_rfl, Nat.le_max_left _ _, fun _ => rfl⟩

theorem checkVideo (s : Session σ) : s.Lingers s.checkVideo := by
  rw [checkVideo_eq]
  refine ⟨rfl, List.suffix_rfl, Nat.le_refl _, fun isSome => ?_⟩
  obtain ⟨moment, failed⟩ := Option.isSome_iff_exists.1 isSome
  rw [failed, Option.some_or]

end Session.Lingers

/-! ## What a finished session makes of its host -/

variable {game : Game} {s s₀ : Session σ}

theorem isFinished_iff :
    s.isFinished game = true ↔
      s.started = true ∧ game.script.size ≤ s.position ∧ s.isBusy = false ∧
        s.waitingForInput = false ∧ s.deferred = [] := by
  simp [isFinished, and_assoc]

structure Session.Ended (game : Game) (s : Session σ) : Prop where
  finished : s.isFinished game = true
  inStep : s.InStep

namespace Session.Ended

theorem started (h : s.Ended game) : s.started = true := (isFinished_iff.1 h.finished).1

theorem free (h : s.Ended game) : s.isBusy = false := (isFinished_iff.1 h.finished).2.2.1

theorem suspension (h : s.Ended game) : s.suspension = none := suspension_of_free h.free

theorem opened (h : s.Ended game) : s.opened game = .rests s := by
  rw [Session.opened, if_pos h.started]

theorem pressed (h : s.Ended game) : s.pressed game = .rests s := by
  have noMenu : s.isChoosing = false := by rw [isChoosing, h.suspension]
  have typing : s.typing = false := (Bool.or_eq_false_iff.1 h.free).1
  obtain ⟨-, -, -, waiting, -⟩ := isFinished_iff.1 h.finished
  simp [Session.pressed, noMenu, typing, waiting]

theorem chosen (h : s.Ended game) (index : Nat) : s.chosen game index = .rests s := by
  rw [Session.chosen, h.suspension]

theorem turn (h : s.Ended game) : s.turn game = .rests s ∧ s.turnDeeds game = [] := by
  obtain ⟨-, last, free, -, held⟩ := isFinished_iff.1 h.finished
  have none : game.script.events[s.position]? = none := Array.getElem?_eq_none_iff.2 last
  simp [Session.turn, turnDeeds, free, held, none]

theorem advance (h : s.Ended game) : s.advance game = some s := by
  rw [Session.advance, if_pos h.started, turns, advanceWithin, h.turn.1]

theorem popped {limit : Nat} {t : Timer} {timers : Timers} (h : s.Ended game)
    (due : s.timers.popDue? limit = some (t, timers)) :
    ({ s with timers := timers } : Session σ).Ended game :=
  ⟨h.finished, inStep_popped h.inStep due⟩

theorem fired {limit : Nat} {t : Timer} {timers : Timers} (h : s.Ended game)
    (due : s.timers.popDue? limit = some (t, timers)) (live : isLive { s with timers := timers } t) :
    t.kind = .videoCheck ∧
      { s with timers := timers }.fire game t.kind =
        .rests (checkVideo { s with timers := timers }) := by
  rcases inStep_live h.inStep due live with ⟨-, awaits, -⟩ | ⟨-, kind⟩
  · rw [awaits_none_of_suspension (.inl h.suspension)] at awaits
    cases awaits
  · rw [kind]
    exact ⟨rfl, rfl⟩

theorem checkVideo (h : s.Ended game) : s.checkVideo.Ended game := by
  rw [checkVideo_eq]
  exact ⟨h.finished, h.inStep⟩

end Session.Ended

/-! ## From the end on -/

structure Since (game : Game) (s₀ : Session σ) (deeds : List Deed) (turn : Turn σ) : Prop where
  ended : turn.session.Ended game
  lingers : s₀.Lingers turn.session
  checks : ∀ deed ∈ deeds, ∃ t ∈ s₀.timers.pending, deed = .fires t ∧ t.kind = .videoCheck

namespace Since

variable {deeds : List Deed}

theorem refl (h : s₀.Ended game) : Since game s₀ [] (.rests s₀) := ⟨h, .refl s₀, nofun⟩

theorem lingered {turn : Turn σ} {s' : Session σ} (h : Since game s₀ deeds turn)
    (ended : s'.Ended game) (lingers : turn.session.Lingers s') :
    Since game s₀ deeds (.rests s') :=
  ⟨ended, h.lingers.trans lingers, h.checks⟩

end Since

theorem since_keeps (game : Game) (s₀ : Session σ) :
    Keeps game (fun o => ∀ f, o ≠ .stage f) (Since game s₀) where
  turn {_ s} _ h := by
    obtain ⟨rests, deeds⟩ := Ended.turn (s := s) h.ended
    rw [rests, deeds, List.append_nil]
    exact h.lingered h.ended (.refl s)
  idle {_ s} idle h := by
    have started : s.started = true := h.ended.started
    rw [idle] at started
    cases started
  fired {_ s _ t timers} due live h := by
    have ended : s.Ended game := h.ended
    obtain ⟨kind, fires⟩ := ended.fired due live
    obtain ⟨first, -⟩ := Timers.popDue?_eq_some_iff.1 due
    obtain ⟨ended, lingers, checks⟩ :=
      h.lingered (ended.popped due).checkVideo ((Lingers.popped due).trans (.checkVideo _))
    have pending : t ∈ s₀.timers.pending := by
      refine h.lingers.dropped.subset ?_
      rw [Turn.session_rests, first]
      exact List.mem_cons_self
    rw [fires]
    refine ⟨ended, lingers, fun deed m => ?_⟩
    rcases List.mem_append.1 m with m | m
    · exact checks deed m
    · exact ⟨t, pending, List.mem_singleton.1 m, kind⟩
  dropped {_ s _ _ _} due _ h := h.lingered (Ended.popped (s := s) h.ended due) (.popped due)
  clock {_ s limit} _ _ h := h.lingered ⟨h.ended.finished, h.ended.inStep⟩ (.setNow s limit)
  opened {_ s} h := by
    rw [Ended.opened (s := s) h.ended]
    exact h
  pressed {_ s} _ _ h := by
    rw [Ended.pressed (s := s) h.ended]
    exact h
  chosen {_ s} index h := by
    rw [Ended.chosen (s := s) h.ended]
    exact h
  advanced _ _ h := ⟨h.ended, h.lingers, h.checks⟩
  stage allowed _ := absurd rfl (allowed _)

/-! ## Every move has a result -/

theorem Session.Ended.runUntil (h : s.Ended game) (limit : Nat) {fuel : Nat}
    (enough : s.timers.pending.length < fuel) : ∃ s', s.runUntil game limit fuel = some s' := by
  induction fuel generalizing s with
  | zero => exact absurd enough (Nat.not_lt_zero _)
  | succ fuel ih =>
    cases due : s.timers.popDue? limit with
    | none => exact ⟨_, runUntil_of_none due fuel⟩
    | some popped =>
      obtain ⟨t, timers⟩ := popped
      obtain ⟨first, -⟩ := Timers.popDue?_eq_some_iff.1 due
      have fewer : timers.pending.length < fuel := by
        rw [first, List.length_cons] at enough
        omega
      have ended := h.popped due
      rw [runUntil_of_some due, act]
      split
      · rename_i live
        have same : (Session.checkVideo { s with timers := timers }).timers = timers := by
          rw [checkVideo_eq]
        rw [(h.fired due live).2, Turn.settle, Option.bind_some]
        exact ih ended.checkVideo (by rw [same]; exact fewer)
      · exact ih ended fewer

theorem Session.Ended.move (h : s.Ended game) (move : Move)
    (enough : ∀ limit fuel, move = .runUntil limit fuel → s.timers.pending.length < fuel) :
    ∃ s', move.operation.perform game s = some s' := by
  cases move with
  | start => exact ⟨s, by rw [Move.operation, Operation.perform, start, h.opened, Turn.settle]⟩
  | activate =>
    exact ⟨s, by rw [Move.operation, Operation.perform, activate, if_pos h.started, h.pressed,
      Turn.settle]⟩
  | choose index =>
    exact ⟨s, by rw [Move.operation, Operation.perform, choose, h.chosen, Turn.settle]⟩
  | advance => exact ⟨s, h.advance⟩
  | runUntil limit fuel => exact h.runUntil limit.toNat (enough limit fuel rfl)

theorem Session.Ended.follow (h : s.Ended game) (moves : List Move)
    (enough : ∀ limit fuel, .runUntil limit fuel ∈ moves → s.timers.pending.length < fuel) :
    ∃ s', s.follow game moves = some s' := by
  induction moves generalizing s with
  | nil => exact ⟨s, rfl⟩
  | cons move moves ih =>
    obtain ⟨s₁, made⟩ := h.move move fun limit fuel e => enough limit fuel (e ▸ List.mem_cons_self)
    have since : Since game s ([] ++ move.operation.deeds game s) (.rests s₁) :=
      (since_keeps game s).perform move.operation (by cases move <;> nofun) (.refl h) made
    have ended : s₁.Ended game := since.ended
    obtain ⟨s', rest⟩ := ih ended fun limit fuel m =>
      Nat.lt_of_le_of_lt since.lingers.dropped.length_le (enough limit fuel (List.mem_cons_of_mem _ m))
    exact ⟨s', by rw [Session.follow, made, Option.bind_some, rest]⟩

/-- **The end is final.** Whatever a host does with a finished session, starting it, pressing the key,
choosing, advancing it or moving its clock, it stays finished, and all of it stays as it is, with its
stage: only its clock moves on, pending timers come out of the queue, and a video may be found to have
failed. No event is taken and no cue carried out, and no timer fires but checks of the last video. Every
such sequence of moves has a result, as long as each run of the clock may go through all timers that are
pending. -/
theorem end_is_final (game : Game) {deeds : List Deed} {s : Session σ} (h : Plays game deeds s)
    (finished : s.isFinished game = true) (moves : List Move) :
    (∀ s', s.follow game moves = some s' →
      s'.isFinished game = true ∧ s.Lingers s' ∧
        ∀ deed ∈ s.followed game moves,
          ∃ t ∈ s.timers.pending, deed = .fires t ∧ t.kind = .videoCheck) ∧
    ((∀ limit fuel, .runUntil limit fuel ∈ moves → s.timers.pending.length < fuel) →
      ∃ s', s.follow game moves = some s') := by
  obtain ⟨stage, run⟩ := h
  have ended : s.Ended game := ⟨finished, run.reaches.inStep (inStep_new stage)⟩
  refine ⟨fun s' result => ?_, ended.follow moves⟩
  have since : Since game s ([] ++ s.followed game moves) (.rests s') :=
    (since_keeps game s).follow (fun move => by cases move <;> nofun) (.refl ended) result
  exact ⟨since.ended.finished, since.lingers, since.checks⟩

/-- a line that was skipped and a video that never started have left their timers behind at the end; the
one does nothing, and the other finds that the video has failed -/
theorem video_fails_after_the_end :
    let game : Game :=
      { script := .ofEvents [.single (.video "clip"), .single (.dialogue ⟨"Bye", none, false, false⟩)]
        assets := .ofList [("clip", "clip.mp4")] }
    let moves : List Move := [.activate, .runUntil 9000 3, .choose 0, .start, .advance]
    ∃ (deeds : List Deed) (s s' : Session RecordingStage), Plays game deeds s ∧
      s.timers.pending.map Timer.kind = [.typeTick, .videoCheck] ∧ s.videoFailedAt = none ∧
      s.follow game moves = some s' ∧ s'.videoFailedAt.isSome = true ∧
      s'.isFinished game = true ∧ s.Lingers s' := by
  intro game moves
  have plays : ∃ (deeds : List Deed) (s : Session RecordingStage), Plays game deeds s ∧
      s.isFinished game = true ∧ s.timers.pending.map Timer.kind = [.typeTick, .videoCheck] ∧
      s.videoFailedAt = none ∧
      (s.follow game moves).all (fun s' => s'.videoFailedAt.isSome) = true := by
    refine ⟨_, _, ⟨{ screen := { videoBehavior := .stalls } },
      .operation .activate (.operation .activate (.operation .start .refl rfl) rfl) rfl⟩, ?_⟩
    decide +kernel
  obtain ⟨deeds, s, plays, finished, pending, none, fails⟩ := plays
  obtain ⟨stays, follows⟩ := end_is_final game plays finished moves
  have size : s.timers.pending.length = 2 := by
    rw [← List.length_map Timer.kind, pending]
    rfl
  obtain ⟨s', result⟩ := follows fun limit fuel m => by
    obtain ⟨-, rfl⟩ : limit = 9000 ∧ fuel = 3 := by simpa [moves] using m
    omega
  obtain ⟨finished', lingers, -⟩ := stays s' result
  refine ⟨deeds, s, s', plays, pending, none, result, ?_, finished', lingers⟩
  rw [result] at fails
  exact fails

end VisualNovel
