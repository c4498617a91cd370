import VisualNovel.Proofs.Session.Deeds
import VisualNovel.Session.Rehearsal

/-!
# Superseded timers never act

Every suspension and every end of one starts a new epoch, and so does a jump. A pending timer is of
the present epoch or of an older one, at most one is of the present one, and that one is the timer
that the present suspension waits for.

* `InStep`                   the pending timers are in step with the epoch and the suspension;
* `InStep.bump`, `InStep.enter_epoch`, `InStep.enter_video`, `InStep.tail`   what happens to a queue;
* `Reaches.inStep`           playback keeps its timers in step;
* `Reaches.epoch_le`         epochs only grow;
* `firings_epochs`           the timers that fire are of one epoch after the other;
* `superseded_timers_never_act`   what this means for a session that operations bring about.
-/

set_option linter.unusedSectionVars false

namespace VisualNovel

open Session

/-! ## The queue -/

/-- the pending timers at some epoch, after so many videos, while one kind of timer is awaited or
none -/
structure InStep (pending : List Timer) (epoch generation : Nat) (awaits : Option TimerKind) :
    Prop where
  epoch_le : ∀ t ∈ pending, ∀ n, t.guard = .epoch n → n ≤ epoch
  video_le : ∀ t ∈ pending, ∀ n, t.guard = .video n → n ≤ generation ∧ t.kind = .videoCheck
  unique : pending.countP (fun t => t.guard = .epoch epoch) ≤ 1
  awaited : ∀ t ∈ pending, t.guard = .epoch epoch → awaits = some t.kind

namespace InStep

variable {pending : List Timer} {epoch generation : Nat} {awaits : Option TimerKind}

theorem nil (epoch generation : Nat) (awaits : Option TimerKind) :
    InStep [] epoch generation awaits :=
  ⟨nofun, nofun, Nat.zero_le _, nofun⟩

theorem perm {pending' : List Timer} (h : InStep pending epoch generation awaits)
    (p : pending'.Perm pending) :
    InStep pending' epoch generation awaits where
  epoch_le t m := h.epoch_le t (p.mem_iff.1 m)
  video_le t m := h.video_le t (p.mem_iff.1 m)
  unique := p.countP_eq _ ▸ h.unique
  awaited t m := h.awaited t (p.mem_iff.1 m)

def Stale (pending : List Timer) (epoch : Nat) : Prop := ∀ t ∈ pending, t.guard ≠ .epoch epoch

theorem stale_of_awaits_none (h : InStep pending epoch generation none) : Stale pending epoch := by
  intro t m e
  cases h.awaited t m e

theorem stale_of_lt (h : InStep pending epoch generation awaits) {epoch' : Nat}
    (lt : epoch < epoch') :
    Stale pending epoch' := by
  intro t m e
  have := h.epoch_le t m epoch' e
  omega

theorem bump (h : InStep pending epoch generation awaits) {epoch' : Nat} (lt : epoch < epoch')
    (awaits' : Option TimerKind) : InStep pending epoch' generation awaits' where
  epoch_le t m n e := Nat.le_of_lt (Nat.lt_of_le_of_lt (h.epoch_le t m n e) lt)
  video_le := h.video_le
  unique := by
    have none : pending.countP (fun t => t.guard = .epoch epoch') = 0 := by
      rw [List.countP_eq_zero]
      intro t m e
      exact h.stale_of_lt lt t m (by simpa using e)
    omega
  awaited t m e := absurd e (h.stale_of_lt lt t m)

theorem enter_epoch (h : InStep pending epoch generation awaits) (stale : Stale pending epoch)
    (due : Nat)
    (kind : TimerKind) :
    InStep (Timers.enter ⟨due, kind, .epoch epoch⟩ pending) epoch generation (some kind) := by
  refine perm ?_ (Timers.enter_perm _ _)
  refine ⟨?_, ?_, ?_, ?_⟩
  · rintro t (_ | ⟨_, m⟩) n e
    · cases e
      exact Nat.le_refl _
    · exact h.epoch_le t m n e
  · rintro t (_ | ⟨_, m⟩) n e
    · cases e
    · exact h.video_le t m n e
  · have none : pending.countP (fun t => t.guard = .epoch epoch) = 0 := by
      rw [List.countP_eq_zero]
      intro t m e
      exact stale t m (by simpa using e)
    rw [List.countP_cons, none]
    split <;> omega
  · rintro t (_ | ⟨_, m⟩) e
    · rfl
    · exact absurd e (stale t m)

theorem enter_video (h : InStep pending epoch generation awaits) (due : Nat) :
    InStep (Timers.enter ⟨due, .videoCheck, .video (generation + 1)⟩ pending) epoch
      (generation + 1) awaits := by
  refine perm ?_ (Timers.enter_perm _ _)
  refine ⟨?_, ?_, ?_, ?_⟩
  · rintro t (_ | ⟨_, m⟩) n e
    · cases e
    · exact h.epoch_le t m n e
  · rintro t (_ | ⟨_, m⟩) n e
    · cases e
      exact ⟨Nat.le_refl _, rfl⟩
    · have := h.video_le t m n e
      exact ⟨by omega, this.2⟩
  · rw [List.countP_cons_of_neg (by simp)]
    exact h.unique
  · rintro t (_ | ⟨_, m⟩) e
    · cases e
    · exact h.awaited t m e

theorem nextVideo (h : InStep pending epoch generation awaits) :
    InStep pending epoch (generation + 1) awaits :=
  { h with video_le := fun t m n e =>
    ⟨Nat.le_succ_of_le (h.video_le t m n e).1, (h.video_le t m n e).2⟩ }

theorem tail {t : Timer} (h : InStep (t :: pending) epoch generation awaits) :
    InStep pending epoch generation awaits where
  epoch_le u m := h.epoch_le u (List.mem_cons_of_mem _ m)
  video_le u m := h.video_le u (List.mem_cons_of_mem _ m)
  unique := Nat.le_trans (List.sublist_cons_self _ _).countP_le h.unique
  awaited u m := h.awaited u (List.mem_cons_of_mem _ m)

/-- once the timer of the present epoch is out, none is left -/
theorem stale_tail {t : Timer} (h : InStep (t :: pending) epoch generation awaits)
    (e : t.guard = .epoch epoch) :
    Stale pending epoch := by
  have one := h.unique
  rw [List.countP_cons_of_pos (by simpa using e)] at one
  intro u m eu
  have pos : 0 < pending.countP (fun t => t.guard = .epoch epoch) :=
    List.countP_pos_iff.2 ⟨u, m, by simpa using eu⟩
  omega

end InStep

variable {σ : Type} [Presentation σ] [Audio σ]

def Session.InStep (s : Session σ) : Prop :=
  VisualNovel.InStep s.timers.pending s.epoch s.videoGeneration s.awaits?

/-! ## Playback keeps its timers in step -/

section
variable {s : Session σ} (game : Game)

theorem inStep_suspend (h : s.InStep) (why : Suspension) : (s.suspend why).InStep := by
  show VisualNovel.InStep s.timers.pending (s.epoch + 1) s.videoGeneration why.timer?
  exact h.bump (Nat.lt_succ_self _) _

theorem inStep_resume (h : s.InStep) : s.resume.InStep := by
  show VisualNovel.InStep s.timers.pending (s.epoch + 1) s.videoGeneration none
  exact h.bump (Nat.lt_succ_self _) _

theorem inStep_schedule {kind : TimerKind} (h : s.InStep)
    (stale : InStep.Stale s.timers.pending s.epoch)
    (awaits : s.awaits? = some kind) (delay : Nat) : (s.schedule delay kind).InStep := by
  have h' := InStep.enter_epoch h stale (later s.now delay) kind
  rw [← awaits] at h'
  exact h'

/-- a suspension is set together with the timer that ends it -/
theorem inStep_suspend_schedule (h : s.InStep) {why : Suspension} {kind : TimerKind}
    (ends : why.timer? = some kind) (delay : Nat) : ((s.suspend why).schedule delay kind).InStep :=
  inStep_schedule (inStep_suspend h why) (h.stale_of_lt (Nat.lt_succ_self _)) ends delay

theorem inStep_completeLine (h : s.InStep) (completion : Completion) :
    (s.completeLine game completion).InStep := by
  cases completion with
  | autoAdvance => exact inStep_suspend_schedule (s := { s with typing := false }) h rfl _
  | waitForInput => exact inStep_resume h

theorem inStep_execute (cue : Cue) (h : s.InStep) : (s.execute game cue).2.InStep := by
  have outcome := execute_outcome game cue s
  generalize (s.execute game cue).1 = flow at outcome
  generalize (s.execute game cue).2 = s' at outcome ⊢
  cases outcome with
  | quiet _ d =>
    obtain ⟨_, _, _, _, rfl⟩ := d
    exact h
  | video name scene failed => exact h.nextVideo
  | videoStarted name scene delay => exact h.enter_video _
  | jumped found =>
    show VisualNovel.InStep s.timers.pending (s.epoch + 1) s.videoGeneration s.awaits?
    exact h.bump (Nat.lt_succ_self _) _
  | noMenu => exact h
  | menu option options scene => exact inStep_suspend (s := { s with scene := scene }) h _
  | wait seconds delay => exact inStep_suspend_schedule h rfl delay
  | waitVideo seconds failed delay =>
    exact inStep_suspend_schedule (s := { s with videoFailedAt := failed }) h rfl delay
  | line line scene delay =>
    exact inStep_suspend_schedule (s := { s with
      scene := scene, waitingForInput := false, typing := true
      reveal := .revealing line 0 }) h rfl delay
  | card line lines scene card delay =>
    exact inStep_suspend_schedule (s := { s with
      scene := scene, waitingForInput := false, typing := true, introMode := true, cardShown := true
      card := some card }) h rfl delay
  | noCard scene =>
    -- the card suspends the session and is done at once
    show VisualNovel.InStep s.timers.pending (s.epoch + 2) s.videoGeneration none
    exact h.bump (by omega) _
  | sequence frames fps keepLast scene delay =>
    exact inStep_suspend_schedule (s := { s with
      scene := scene, flipbook := some ⟨frames, delay, keepLast⟩ }) h rfl delay

theorem inStep_opened (h : s.InStep) : (s.opened game).session.InStep := by
  obtain ⟨scene, started, e, -⟩ := opened_session game s
  rw [e]
  exact h

theorem inStep_pressed (h : s.InStep) : (s.pressed game).session.InStep := by
  have pressed := pressed_pressed game s
  generalize s.pressed game = turn at pressed ⊢
  cases pressed with
  | idle => exact h
  | goesOn => exact h
  | skipped _ scene completion =>
    exact inStep_completeLine (s := { s with scene := scene, reveal := .done _ }) game h completion

theorem inStep_chosen (index : Nat) (h : s.InStep) : (s.chosen game index).session.InStep := by
  have chosen := chosen_chosen game index s
  generalize s.chosen game index = turn at chosen ⊢
  cases chosen with
  | idle => exact h
  | taken => exact inStep_resume h
  | jumped =>
    show VisualNovel.InStep s.timers.pending (s.epoch + 2) s.videoGeneration none
    exact h.bump (by omega) _

theorem stale_of_free (h : s.InStep) (free : s.awaits? = none) :
    InStep.Stale s.timers.pending s.epoch := by
  unfold Session.InStep at h
  rw [free] at h
  exact h.stale_of_awaits_none

/-- the timer that the session waits for may act, and after it none of the present epoch is left -/
theorem inStep_fire {kind : TimerKind} (h : s.InStep) (stale : InStep.Stale s.timers.pending s.epoch)
    (awaits : s.awaits? = some kind) : (s.fire game kind).session.InStep := by
  have fired := fire_fired game kind s
  generalize s.fire game kind = turn at fired ⊢
  cases fired with
  | advance => exact inStep_resume h
  | noLine | noCard | noFrames | noVideo => exact h
  | typed _ scene delay =>
    exact inStep_schedule (s := { s with scene := scene, reveal := .revealing _ _ }) h stale awaits
      delay
  | lineDone _ scene completion =>
    exact inStep_completeLine (s := { s with scene := scene, reveal := .done _ }) game h completion
  | carded _ scene card delay =>
    exact inStep_schedule (s := { s with scene := scene, card := some card }) h stale awaits delay
  | cardDone | framesDone | videoReached => exact inStep_resume h
  | frame _ scene flipbook delay =>
    exact inStep_schedule (s := { s with scene := scene, flipbook := some flipbook }) h stale awaits
      delay
  | polled _ delay => exact inStep_schedule h stale awaits delay
  | checked => exact h

/-- what a live timer finds once it is out of the queue: it is the one that is awaited, or the check
of the last video -/
theorem inStep_live {limit : Nat} {t : Timer} {timers : Timers} (h : s.InStep)
    (due : s.timers.popDue? limit = some (t, timers)) (live : isLive { s with timers := timers } t) :
    t.guard = .epoch s.epoch ∧ s.awaits? = some t.kind ∧ InStep.Stale timers.pending s.epoch ∨
      t.guard = .video s.videoGeneration ∧ t.kind = .videoCheck := by
  obtain ⟨e, -, -⟩ := Timers.popDue?_eq_some_iff.1 due
  have h : InStep (t :: timers.pending) s.epoch s.videoGeneration s.awaits? := e ▸ h
  cases g : t.guard with
  | epoch n =>
    have n_eq : n = s.epoch := by simpa [isLive, g] using live
    subst n_eq
    exact .inl ⟨rfl, h.awaited t List.mem_cons_self g, h.stale_tail g⟩
  | video n =>
    have n_eq : n = s.videoGeneration := by simpa [isLive, g] using live
    subst n_eq
    exact .inr ⟨rfl, (h.video_le t List.mem_cons_self _ g).2⟩

theorem inStep_popped {limit : Nat} {t : Timer} {timers : Timers} (h : s.InStep)
    (due : s.timers.popDue? limit = some (t, timers)) :
    ({ s with timers := timers } : Session σ).InStep := by
  obtain ⟨e, -, -⟩ := Timers.popDue?_eq_some_iff.1 due
  have h : VisualNovel.InStep (t :: timers.pending) s.epoch s.videoGeneration s.awaits? := e ▸ h
  exact h.tail

theorem inStep_turn (h : s.InStep) : (s.turn game).session.InStep :=
  turn_keeps game (P := Session.InStep) (fun _ cue _ h => inStep_execute game cue h) (fun _ _ h => h)
    (fun _ _ h => h) s h

end

variable {game : Game}

theorem inStep_new (stage : σ) : (Session.ofStage stage).InStep := .nil _ _ _

theorem Reaches.inStep {s₀ : Session σ} {deeds : List Deed} {turn : Turn σ}
    (h : Reaches game s₀ deeds turn)
    (h₀ : s₀.InStep) : turn.session.InStep := by
  induction h with
  | refl => exact h₀
  | stage _ _ ih => exact ih
  | opened _ ih => exact inStep_opened game ih
  | pressed _ _ ih => exact inStep_pressed game ih
  | chosen index _ ih => exact inStep_chosen game index ih
  | advanced _ _ ih => exact ih
  | turn _ _ ih => exact inStep_turn game ih
  | idle _ _ ih => exact ih
  | @fired _ s _ timer timers due live _ ih =>
    have popped := inStep_popped (s := s) ih due
    rcases inStep_live ih due live with ⟨-, awaits, stale⟩ | ⟨-, kind⟩
    · exact inStep_fire game popped stale awaits
    · obtain ⟨failed, e⟩ := fire_videoCheck game { s with timers := timers }
      rw [kind, e]
      exact popped
  | @dropped _ s _ _ _ due _ _ ih => exact inStep_popped (s := s) ih due
  | clock _ _ _ ih => exact ih

/-! ## Epochs only grow -/

section
variable {s : Session σ} (game : Game)

theorem epoch_completeLine (completion : Completion) :
    (s.completeLine game completion).epoch = s.epoch + 1 := by
  cases completion <;> rfl

theorem epoch_le_execute (cue : Cue) (s : Session σ) : s.epoch ≤ (s.execute game cue).2.epoch := by
  have outcome := execute_outcome game cue s
  generalize (s.execute game cue).1 = flow at outcome
  generalize (s.execute game cue).2 = s' at outcome ⊢
  cases outcome with
  | quiet _ d =>
    obtain ⟨_, _, _, _, rfl⟩ := d
    exact Nat.le_refl _
  | video | videoStarted | noMenu => exact Nat.le_refl _
  | noCard => exact Nat.le_add_right _ 2
  | _ => exact Nat.le_succ _

theorem epoch_le_turn (s : Session σ) : s.epoch ≤ (s.turn game).session.epoch :=
  turn_keeps game (P := fun s' => s.epoch ≤ s'.epoch)
    (fun s' cue _ h => Nat.le_trans h (epoch_le_execute game cue s'))
    (fun _ _ h => h) (fun _ _ h => h) s (Nat.le_refl _)

theorem epoch_le_pressed (s : Session σ) : s.epoch ≤ (s.pressed game).session.epoch := by
  have pressed := pressed_pressed game s
  generalize s.pressed game = turn at pressed ⊢
  cases pressed with
  | idle | goesOn => exact Nat.le_refl _
  | skipped =>
    rw [Turn.session_rests, epoch_completeLine]
    exact Nat.le_succ _

theorem epoch_le_chosen (index : Nat) (s : Session σ) :
    s.epoch ≤ (s.chosen game index).session.epoch := by
  have chosen := chosen_chosen game index s
  generalize s.chosen game index = turn at chosen ⊢
  cases chosen with
  | idle => exact Nat.le_refl _
  | taken => exact Nat.le_succ _
  | jumped => exact Nat.le_add_right _ 2

/-- a timer never lowers the epoch, and one that makes playback go on ends its suspension and its
epoch -/
theorem epoch_fire (kind : TimerKind) (s : Session σ) :
    s.epoch ≤ (s.fire game kind).session.epoch ∧
      ∀ s', s.fire game kind = .goesOn s' → s'.suspension = none ∧ s.epoch < s'.epoch := by
  have fired := fire_fired game kind s
  generalize s.fire game kind = turn at fired ⊢
  cases fired with
  | advance | framesDone | videoReached =>
    refine ⟨Nat.le_succ _, fun s' e => ?_⟩
    cases e
    exact ⟨rfl, Nat.lt_succ_self _⟩
  | noLine | noCard | noFrames | noVideo | typed | carded | frame | polled | checked =>
    exact ⟨Nat.le_refl _, fun _ e => by cases e⟩
  | cardDone => exact ⟨Nat.le_succ _, fun _ e => by cases e⟩
  | lineDone =>
    rw [Turn.session_rests, epoch_completeLine]
    exact ⟨Nat.le_succ _, fun _ e => by cases e⟩

end

theorem Reaches.epoch_le {s₀ : Session σ} {deeds : List Deed} {turn : Turn σ}
    (h : Reaches game s₀ deeds turn) :
    s₀.epoch ≤ turn.session.epoch := by
  induction h with
  | refl => exact Nat.le_refl _
  | stage _ _ ih => exact ih
  | @opened _ s _ ih =>
    obtain ⟨scene, started, e, -⟩ := opened_session game s
    rw [e]
    exact ih
  | pressed _ _ ih => exact Nat.le_trans ih (epoch_le_pressed game _)
  | chosen index _ ih => exact Nat.le_trans ih (epoch_le_chosen game index _)
  | advanced _ _ ih => exact ih
  | turn _ _ ih => exact Nat.le_trans ih (epoch_le_turn game _)
  | idle _ _ ih => exact ih
  | @fired _ s _ timer timers _ _ _ ih =>
    exact Nat.le_trans ih (epoch_fire game timer.kind { s with timers := timers }).1
  | dropped _ _ _ ih => exact ih
  | clock _ _ _ ih => exact ih

theorem epoch_le_advanceWithin {n : Nat} {s s' : Session σ}
    (result : s.advanceWithin game n = some s') :
    s.epoch ≤ s'.epoch := by
  induction n generalizing s with
  | zero => cases result
  | succ n ih =>
    have le := epoch_le_turn game s
    simp only [advanceWithin] at result
    cases e : s.turn game with
    | rests s₁ =>
      rw [e] at result le
      cases result
      exact le
    | goesOn s₁ =>
      rw [e] at result le
      exact Nat.le_trans le (ih result)

theorem epoch_le_settle {turn : Turn σ} {s' : Session σ} (result : turn.settle game = some s') :
    turn.session.epoch ≤ s'.epoch := by
  cases turn with
  | rests s =>
    cases result
    exact Nat.le_refl _
  | goesOn s =>
    simp only [Turn.settle, advance] at result
    split at result
    · exact epoch_le_advanceWithin result
    · cases result
      exact Nat.le_refl _

/-! ## Timers that fire -/

/-- an epoch timer that fires is of the epoch of the session that it finds -/
theorem epoch_of_live {s : Session σ} {t : Timer} {n : Nat} (live : s.isLive t)
    (g : t.guard = .epoch n) :
    s.epoch = n := by
  have n_eq : n = s.epoch := by simpa [isLive, g] using live
  exact n_eq.symm

/-- the epoch timers that fire after `s` are of its epoch or of a later one -/
theorem epoch_le_of_mem_firings {s₀ s : Session σ} {deeds : List Deed}
    (h : Reaches game s₀ deeds (.rests s))
    {limit fuel : Nat} {f : Timer × Session σ} (m : f ∈ s.firings game limit fuel) {n : Nat}
    (g : f.1.guard = .epoch n) : s₀.epoch ≤ n := by
  obtain ⟨_, s₁, timers, h₁, -, found, live⟩ := h.of_mem_firings m
  have e : f.2.epoch = n := epoch_of_live live g
  have le : s₀.epoch ≤ s₁.epoch := h₁.epoch_le
  rw [found] at e
  exact e ▸ le

/-- of two epoch timers that fire, the later one is of no earlier epoch, and of a later one if the
first has made playback go on -/
theorem firings_epochs (game : Game) (limit fuel : Nat) (s : Session σ) :
    (s.firings game limit fuel).Pairwise fun f g =>
      ∀ m n, f.1.guard = .epoch m → g.1.guard = .epoch n →
        m ≤ n ∧ ((∃ s', f.2.fire game f.1.kind = .goesOn s') → m < n) := by
  induction fuel generalizing s with
  | zero => exact .nil
  | succ fuel ih =>
    simp only [firings]
    split
    · exact .nil
    rename_i timer timers due
    split
    · rename_i live
      cases settled : ({ s with timers := timers }.fire game timer.kind).settle game with
      | none => exact List.pairwise_singleton _ _
      | some s₁ =>
        refine List.pairwise_cons.2 ⟨fun g mem m n gm gn => ?_, ih s₁⟩
        have found : s.epoch = m := epoch_of_live (s := { s with timers := timers }) live gm
        obtain ⟨le, lt⟩ := epoch_fire game timer.kind { s with timers := timers }
        have settles := epoch_le_settle settled
        have later := epoch_le_of_mem_firings .refl mem gn
        subst found
        refine ⟨Nat.le_trans (Nat.le_trans le settles) later, ?_⟩
        rintro ⟨s', e⟩
        rw [e] at settles
        exact Nat.lt_of_lt_of_le (lt s' e).2 (Nat.le_trans settles later)
    · exact ih _

/-- while nothing or a menu holds playback, no timer is awaited -/
theorem awaits_none_of_suspension {s : Session σ} (h : s.suspension = none ∨ s.isChoosing) :
    s.awaits? = none := by
  rcases h with free | choosing
  · rw [awaits?, free]
    rfl
  · unfold isChoosing at choosing
    split at choosing
    · rename_i menu
      rw [awaits?, menu]
      rfl
    · cases choosing

/-- an epoch timer that fires is of the epoch that it finds, and is the one that is awaited; if
playback goes on after it, then nothing holds it, and no timer of its new epoch is pending -/
theorem awaited_of_mem_firings {s₀ s : Session σ} {deeds : List Deed}
    (h : Reaches game s₀ deeds (.rests s)) (h₀ : s₀.InStep) {limit fuel : Nat}
    {f : Timer × Session σ} (m : f ∈ s.firings game limit fuel) {n : Nat}
    (g : f.1.guard = .epoch n) :
    f.2.epoch = n ∧ f.2.awaits? = some f.1.kind ∧
      ∀ s', f.2.fire game f.1.kind = .goesOn s' →
        s'.suspension = none ∧ InStep.Stale s'.timers.pending s'.epoch := by
  obtain ⟨_, s₁, timers, h₁, due, found, live⟩ := h.of_mem_firings m
  have inStep₁ : s₁.InStep := h₁.inStep h₀
  have epoch : f.2.epoch = n := epoch_of_live live g
  rw [found] at live
  rcases inStep_live inStep₁ due live with ⟨-, awaits, stale⟩ | ⟨video, -⟩
  · have popped := inStep_popped inStep₁ due
    rw [← found] at popped
    have awaits' : f.2.awaits? = some f.1.kind := by
      rw [found]
      exact awaits
    have stale' : InStep.Stale f.2.timers.pending f.2.epoch := by
      rw [found]
      exact stale
    refine ⟨epoch, awaits', fun s' e => ?_⟩
    have inStep' := inStep_fire game popped stale' awaits'
    obtain ⟨ended, -⟩ := (epoch_fire game f.1.kind f.2).2 s' e
    rw [e] at inStep'
    exact ⟨ended, stale_of_free inStep' (awaits_none_of_suspension (.inl ended))⟩
  · rw [g] at video
    cases video

/-- **Superseded timers never act.** No pending timer is of an epoch or a video to come, at most one
is of the present epoch, and none is while nothing or a menu holds playback. An epoch timer that
fires is the one that the suspension of its moment waits for; if it makes playback go on, then that
suspension is over, and later timers are of later epochs. No timer of an epoch before the present
one fires any more. -/
theorem superseded_timers_never_act (game : Game) {deeds : List Deed} {s : Session σ}
    (h : Plays game deeds s) :
    (∀ t ∈ s.timers.pending,
      (∃ n ≤ s.epoch, t.guard = .epoch n) ∨ ∃ n ≤ s.videoGeneration, t.guard = .video n) ∧
    s.timers.pending.countP (fun t => t.guard = .epoch s.epoch) ≤ 1 ∧
    (s.suspension = none ∨ s.isChoosing → ∀ t ∈ s.timers.pending, t.guard ≠ .epoch s.epoch) ∧
    ∀ limit fuel,
      (∀ f ∈ s.firings game limit fuel, ∀ n, f.1.guard = .epoch n →
        f.2.epoch = n ∧ f.2.awaits? = some f.1.kind ∧
          ∀ s', f.2.fire game f.1.kind = .goesOn s' →
            s'.suspension = none ∧ ∀ t ∈ s'.timers.pending, t.guard ≠ .epoch s'.epoch) ∧
      ((s.firings game limit fuel).Pairwise fun f g =>
        ∀ m n, f.1.guard = .epoch m → g.1.guard = .epoch n →
          m ≤ n ∧ ((∃ s', f.2.fire game f.1.kind = .goesOn s') → m < n)) ∧
      ∀ deeds' s', Continues game s deeds' s' →
        ∀ f ∈ s'.firings game limit fuel, ∀ n, f.1.guard = .epoch n → s.epoch ≤ n := by
  obtain ⟨stage, run⟩ := h
  have reached := run.reaches
  have inStep : s.InStep := reached.inStep (inStep_new stage)
  refine ⟨fun t m => ?_, inStep.unique, fun free => ?_, fun limit fuel => ⟨fun f m n g => ?_, ?_, ?_⟩⟩
  · cases g : t.guard with
    | epoch n => exact .inl ⟨n, inStep.epoch_le t m n g, rfl⟩
    | video n => exact .inr ⟨n, (inStep.video_le t m n g).1, rfl⟩
  · exact stale_of_free inStep (awaits_none_of_suspension free)
  · exact awaited_of_mem_firings reached (inStep_new stage) m g
  · exact firings_epochs game limit fuel s
  · intro deeds' s' later f m n g
    exact epoch_le_of_mem_firings later.reaches m g

/-- a skipped line leaves its timer behind when the next one is set -/
theorem one_live_timer_after_a_skip :
    let game : Game := { script := .ofEvents [.single (.dialogue ⟨"Hi", none, false, true⟩)] }
    ∃ (deeds : List Deed) (s : Session RecordingStage), Plays game deeds s ∧
      s.timers.pending.length = 2 ∧
      s.timers.pending.countP (fun t => t.guard = .epoch s.epoch) ≤ 1 := by
  intro game
  have plays : ∃ (deeds : List Deed) (s : Session RecordingStage), Plays game deeds s ∧
      s.timers.pending.length = 2 := by
    refine ⟨_, _, ⟨rehearsalStage, .operation .activate (.operation .start .refl rfl) rfl⟩, ?_⟩
    decide +kernel
  obtain ⟨deeds, s, plays, two⟩ := plays
  exact ⟨deeds, s, plays, two, (superseded_timers_never_act game plays).2.1⟩

end VisualNovel
