import VisualNovel.Proofs.Session.Blocks
import VisualNovel.Proofs.Stage.Entrances
import VisualNovel.Proofs.Stage.Overlays

/-!
# Whether characters on stage are seen

A sequence sends everybody off when it begins, and switches the sprites off when it ends, without
looking who has come meanwhile. Only cues of its own block are carried out in between. So characters
that are on stage and are not seen have entered beside a sequence, and nobody has entered since.

* `SwitchedOff`             a sequence has switched the sprites off, and nobody has entered since;
* `Session.Leafing`         a sequence is being shown, beside some deeds;
* `Session.Leafing.step`    a step leafs on, or comes to the end of the sequence;
* `Session.Path.leafing`, `Session.Path.switchedOff`   what has been done, by the state of a session;
* `SwitchedOff.hidden`      and the state of a session, by what has been done;
* `Session.Seen`, `seen_keeps`   the stage shows the sprites unless they are switched off;
* `Game.EntersBesideAt`     a block where somebody enters beside a sequence;
* `unseen_iff`              which characters on stage are not seen.
-/

set_option linter.unusedSectionVars false

namespace VisualNovel

open Session Presentation

/-! ## Sequences under way -/

def framesIn (deeds : List Deed) : Nat := (firedIn deeds).countP fun timer => timer.kind = .frame

@[simp] theorem framesIn_append (deeds deeds' : List Deed) :
    framesIn (deeds ++ deeds') = framesIn deeds + framesIn deeds' := by
  rw [framesIn, firedIn_append, List.countP_append, framesIn, framesIn]

theorem framesIn_fires (timer : Timer) :
    framesIn [.fires timer] = if timer.kind = .frame then 1 else 0 := by
  rw [framesIn, firedIn_fires, List.countP_singleton]
  simp

/-- a sequence has come to its end and switched the sprites off, and nobody has entered since; `beside`
is what was done while it was shown -/
def SwitchedOff (game : Game) (beside deeds : List Deed) : Prop :=
  ∃ before frames fps timer after,
    deeds = before ++ .does (.sequence frames fps false) :: (beside ++ .fires timer :: after) ∧
    timer.kind = .frame ∧ framesIn beside = frames.length ∧
    (∀ cue, .does cue ∈ beside → cue.suspends = false) ∧ placesIn beside = [] ∧
    entrances game after = []

variable {σ : Type} [Presentation σ] [Audio σ]

/-- a sequence is being shown: its timers have taken as many pictures as have fired, nothing else has
held playback since it began, and unless somebody has entered nobody is on stage -/
structure Session.Leafing (game : Game) (frames : List String) (keepLast : Bool) (beside : List Deed)
    (s : Session σ) : Prop where
  suspended : s.suspension = some .sequence
  flipbook : ∃ interval, s.flipbook = some ⟨frames.drop (framesIn beside), interval, keepLast⟩
  shown : framesIn beside ≤ frames.length
  quiet : ∀ cue, .does cue ∈ beside → cue.suspends = false
  inside : placesIn beside = []
  empty : entrances game beside = [] → s.scene.cast = []

namespace Session

variable {game : Game} {s s' : Session σ} {more : List (Deed × Session σ)}

theorem flipbook_execute {cue : Cue} (quiet : cue.suspends = false) :
    (s.execute game cue).2.flipbook = s.flipbook := by
  have outcome := execute_outcome game cue s
  generalize (s.execute game cue).1 = flow at outcome
  generalize (s.execute game cue).2 = s' at outcome ⊢
  cases outcome with
  | quiet _ d =>
    obtain ⟨_, _, _, _, rfl⟩ := d
    rfl
  | video | videoStarted | jumped | noMenu => rfl
  | menu | wait | waitVideo | line | card | noCard | sequence => cases quiet

namespace Leafing

variable {frames : List String} {keepLast : Bool} {beside deeds : List Deed}

theorem begun (frames : List String) (fps : Float) (keepLast : Bool) (s : Session σ) :
    (s.execute game (.sequence frames fps keepLast)).2.Leafing game frames keepLast [] where
  suspended := rfl
  flipbook := ⟨_, rfl⟩
  shown := Nat.zero_le _
  quiet := nofun
  inside := rfl
  empty _ := rfl

theorem busy (h : s.Leafing game frames keepLast beside) : s.isBusy = true := by
  rw [isBusy, h.suspended]
  exact Bool.or_true _

theorem retimed (h : s.Leafing game frames keepLast beside) (timers : Timers) :
    Leafing game frames keepLast beside { s with timers := timers } :=
  ⟨h.suspended, h.flipbook, h.shown, h.quiet, h.inside, h.empty⟩

theorem later (h : s.Leafing game frames keepLast beside) (suspension : s'.suspension = s.suspension)
    (flipbook : s'.flipbook = s.flipbook) (noFrame : framesIn deeds = 0)
    (quiet : ∀ cue, .does cue ∈ deeds → cue.suspends = false) (inside : placesIn deeds = [])
    (comes : entrances game deeds = [] → s.NobodyComes s') :
    s'.Leafing game frames keepLast (beside ++ deeds) where
  suspended := suspension.trans h.suspended
  flipbook := by
    rw [flipbook, framesIn_append, noFrame, Nat.add_zero]
    exact h.flipbook
  shown := by
    rw [framesIn_append, noFrame, Nat.add_zero]
    exact h.shown
  quiet cue mem := (List.mem_append.1 mem).elim (h.quiet cue) (quiet cue)
  inside := by rw [placesIn_append, h.inside, inside, List.append_nil]
  empty none := by
    rw [entrances_append, List.append_eq_nil_iff] at none
    exact (comes none.2).empty (h.empty none.1)

theorem still (h : s.Leafing game frames keepLast beside) (suspension : s'.suspension = s.suspension)
    (flipbook : s'.flipbook = s.flipbook) (comes : s.NobodyComes s') :
    s'.Leafing game frames keepLast (beside ++ []) :=
  h.later suspension flipbook rfl nofun rfl fun _ => comes

/-- the next picture is taken, if there is one, or else the sequence is over -/
theorem fire_frame (h : s.Leafing game frames keepLast beside) {timer : Timer}
    (kind : timer.kind = .frame) :
    (s.fire game timer.kind).session.Leafing game frames keepLast (beside ++ [.fires timer]) ∨
      framesIn beside = frames.length ∧ (s.fire game timer.kind).session.suspension = none ∧
        (keepLast = false → (s.fire game timer.kind).session.scene.spritesHidden = true) := by
  obtain ⟨interval, flipbook⟩ := h.flipbook
  rcases Nat.lt_or_eq_of_le h.shown with lt | all
  · have next := List.drop_eq_getElem_cons lt
    have stays : ¬ s.Hides timer.kind := by
      rintro ⟨-, _, shown⟩
      rw [flipbook, next] at shown
      cases shown
    have comes : s.NobodyComes (s.fire game timer.kind).session := .fire stays
    have one : framesIn (beside ++ [.fires timer]) = framesIn beside + 1 := by
      rw [framesIn_append, framesIn_fires, if_pos kind]
    left
    rw [kind] at comes ⊢
    have fired : ∃ scene timers, (s.fire game .frame).session = { s with
        scene := scene, timers := timers
        flipbook := some ⟨frames.drop (framesIn beside + 1), interval, keepLast⟩ } := by
      simp only [fire, nextFrame, flipbook, next]
      split
      · exact ⟨_, _, rfl⟩
      · exact ⟨s.scene, _, rfl⟩
    obtain ⟨scene, timers, e⟩ := fired
    rw [e] at comes ⊢
    refine ⟨h.suspended, ⟨interval, by rw [one]⟩, by rw [one]; exact lt, fun cue mem => ?_, ?_, ?_⟩
    · refine h.quiet cue ((List.mem_append.1 mem).resolve_right fun mem => ?_)
      cases List.mem_singleton.1 mem
    · rw [placesIn_append, h.inside, placesIn_fires, List.append_nil]
    · intro none
      rw [entrances_append, List.append_eq_nil_iff] at none
      exact comes.empty (h.empty none.1)
  · rw [all, List.drop_length] at flipbook
    refine .inr ⟨all, ?_⟩
    rw [kind]
    simp only [fire, nextFrame, flipbook]
    cases keepLast with
    | true => exact ⟨rfl, fun thrownAway => absurd thrownAway (by decide)⟩
    | false => exact ⟨rfl, fun _ => rfl⟩

/-- **A step leafs on, or comes to the end of the sequence.** -/
theorem step (h : s.Leafing game frames keepLast beside) (inStep : s.InStep) (inMode : s.InMode)
    (step : s.Step game more s') :
    s'.Leafing game frames keepLast (beside ++ more.map Prod.fst) ∨
      ∃ timer timers, more = [(.fires timer, { s with timers := timers })] ∧ timer.kind = .frame ∧
        framesIn beside = frames.length ∧ s'.suspension = none ∧
        (keepLast = false → s'.scene.spritesHidden = true) := by
  cases step with
  | takes free => exact absurd (free.symm.trans h.busy) nofun
  | unholds free => exact absurd (free.symm.trans h.busy) nofun
  | holds | drops | clock => exact .inl (h.still rfl rfl (Scene.NobodyComes.refl s.scene))
  | stage f => exact .inl (h.still rfl rfl (.direct f s))
  | opens =>
    have comes : s.NobodyComes (s.opened game).session := .opened s
    obtain ⟨scene, started, e, -⟩ := opened_session game s
    rw [e] at comes ⊢
    exact .inl (h.still rfl rfl comes)
  | presses =>
    have comes : s.NobodyComes (s.pressed game).session := .pressed s
    have pressed := pressed_pressed game s
    generalize s.pressed game = turn at comes pressed ⊢
    cases pressed with
    | idle | goesOn => exact .inl (h.still rfl rfl comes)
    | skipped revealing =>
      have typing := inMode.reveal.1 (by rw [revealing]; rfl)
      exact absurd (h.suspended.symm.trans typing) nofun
  | chooses index =>
    have comes : s.NobodyComes (s.chosen game index).session := .chosen index s
    have chosen := chosen_chosen game index s
    generalize s.chosen game index = turn at comes chosen ⊢
    cases chosen with
    | idle => exact .inl (h.still rfl rfl comes)
    | taken menu | jumped menu => exact absurd (h.suspended.symm.trans menu) nofun
  | does cue may =>
    have quiet := may h.busy
    refine .inl (h.later (suspension_execute game quiet).1 (flipbook_execute quiet) rfl ?_ rfl ?_)
    · intro other mem
      cases List.mem_singleton.1 mem
      exact quiet
    · intro none
      refine .execute ?_ s
      cases enters : (Deed.does cue).entrance? game with
      | none => rfl
      | some name =>
        rw [List.map_singleton, entrances, List.filterMap_cons_some enters] at none
        cases none
  | @fires _ limit timer timers due live =>
    rcases inStep_live inStep due live with ⟨-, awaits, -⟩ | ⟨-, kind⟩
    · have kind : timer.kind = .frame := by
        rw [awaits?, h.suspended] at awaits
        exact (Option.some.inj awaits).symm
      rcases (h.retimed timers).fire_frame kind with leafs | ends
      · exact .inl leafs
      · exact .inr ⟨timer, timers, rfl, kind, ends⟩
    · obtain ⟨failed, e⟩ := fire_videoCheck game { s with timers := timers }
      rw [kind, e]
      refine .inl (h.later rfl rfl ?_ ?_ rfl fun _ => Scene.NobodyComes.refl s.scene)
      · rw [List.map_singleton, framesIn_fires, kind]
        rfl
      · intro cue mem
        cases List.mem_singleton.1 mem

end Leafing

/-- a step after which a sequence is shown that was not has begun it -/
theorem Step.begins (step : s.Step game more s') (other : s.suspension ≠ some .sequence)
    (shown : s'.suspension = some .sequence) :
    ∃ frames fps keepLast, more = [(.does (.sequence frames fps keepLast), s)] ∧
      s' = (s.execute game (.sequence frames fps keepLast)).2 := by
  rcases step.does_or_fires with ⟨cue, rfl, rfl⟩ | ⟨timer, timers, -, rfl⟩ | stirred
  · have outcome := execute_outcome game cue s
    generalize (s.execute game cue).1 = flow at outcome
    generalize same : (s.execute game cue).2 = s' at outcome shown ⊢
    cases outcome with
    | quiet _ d =>
      obtain ⟨_, _, _, _, rfl⟩ := d
      exact absurd shown other
    | video | videoStarted | jumped | noMenu => exact absurd shown other
    | menu | wait | waitVideo | line | card | noCard => cases shown
    | sequence frames fps keepLast => exact ⟨frames, fps, keepLast, rfl, same.symm⟩
  · have fired := fire_fired game timer.kind { s with timers := timers }
    generalize timer.kind = kind at fired shown
    generalize Session.fire game kind ({ s with timers := timers } : Session σ) = turn at fired shown
    cases fired with
    | advance | cardDone | framesDone | videoReached => cases shown
    | lineDone _ _ completion => cases completion <;> cases shown
    | _ => exact absurd shown other
  · cases stirred with
    | moved => exact absurd shown other
    | skipped _ _ completion => cases completion <;> cases shown
    | chosen => cases shown

/-! ## What has been done, and the state of the session -/

namespace Path

variable {stage : σ} {entries : List (Deed × Session σ)}

theorem leafing (h : Path game (.ofStage stage) entries s) (shown : s.suspension = some .sequence) :
    ∃ before frames fps keepLast beside,
      entries.map Prod.fst = before ++ .does (.sequence frames fps keepLast) :: beside ∧
        s.Leafing game frames keepLast beside := by
  induction h with
  | refl => cases shown
  | @step entries more s s' h step ih =>
    obtain ⟨inStep, inMode⟩ := h.inMode (inStep_new stage) (inMode_new stage)
    by_cases already : s.suspension = some .sequence
    · obtain ⟨before, frames, fps, keepLast, beside, split, leafing⟩ := ih already
      rcases leafing.step inStep inMode step with leafs | ⟨_, _, -, -, -, ends, -⟩
      · exact ⟨before, frames, fps, keepLast, _, by rw [List.map_append, split]; simp, leafs⟩
      · exact absurd (ends.symm.trans shown) nofun
    · obtain ⟨frames, fps, keepLast, rfl, rfl⟩ := step.begins already shown
      exact ⟨entries.map Prod.fst, frames, fps, keepLast, [], by rw [List.map_append]; rfl,
        .begun frames fps keepLast s⟩

/-- if the sprites are off, then a sequence has switched them off and nobody has entered since; if
nobody entered beside it, then nobody is on stage -/
theorem switchedOff (h : Path game (.ofStage stage) entries s)
    (hidden : s.scene.spritesHidden = true) :
    ∃ beside, SwitchedOff game beside (entries.map Prod.fst) ∧
      (entrances game beside = [] → s.scene.cast = []) := by
  induction h with
  | refl => cases hidden
  | @step entries more s s' h step ih =>
    rcases step.comes with ⟨none, comes⟩ | ⟨-, seen⟩ |
      ⟨limit, timer, timers, due, live, rfl, hides, -, -, cast⟩
    · obtain ⟨beside, ⟨before, frames, fps, timer, after, split, off⟩, empty⟩ :=
        ih (comes.hidden.symm.trans hidden)
      obtain ⟨kind, all, quiet, inside, noEntrance⟩ := off
      refine ⟨beside, ⟨before, frames, fps, timer, after ++ more.map Prod.fst, ?_, kind, all, quiet,
        inside, ?_⟩, fun alone => comes.empty (empty alone)⟩
      · rw [List.map_append, split]
        simp
      · rw [entrances_append, noEntrance, none, List.append_nil]
    · exact absurd (seen.symm.trans hidden) nofun
    · obtain ⟨inStep, inMode⟩ := h.inMode (inStep_new stage) (inMode_new stage)
      obtain ⟨kind, interval, flipbook⟩ := hides
      -- the timer is that of the sequence that is being shown
      have shown : s.suspension = some .sequence := inMode.flipbook.1 (by rw [flipbook]; rfl)
      obtain ⟨before, frames, fps, keepLast, beside, split, leafing⟩ := h.leafing shown
      obtain ⟨_, book⟩ := leafing.flipbook
      have same := Option.some.inj (flipbook.symm.trans book)
      have last : keepLast = false := (congrArg Flipbook.keepLast same).symm
      subst last
      have all : framesIn beside = frames.length := by
        have none := congrArg (List.length ∘ Flipbook.frames) same
        simp only [Function.comp_apply, List.length_nil, List.length_drop] at none
        have := leafing.shown
        omega
      refine ⟨beside, ⟨before, frames, fps, timer, [], ?_, kind, all, leafing.quiet, leafing.inside,
        rfl⟩, fun alone => cast.trans (leafing.empty alone)⟩
      rw [List.map_append, split]
      simp

end Path

end Session

/-- a history that has been switched off in, with the sessions beside the deeds -/
theorem SwitchedOff.entries {game : Game} {beside : List Deed} {entries : List (Deed × Session σ)}
    (off : SwitchedOff game beside (entries.map Prod.fst)) :
    ∃ first frames fps s₁ second timer s₂ last,
      entries = first ++ (.does (.sequence frames fps false), s₁) ::
        (second ++ (.fires timer, s₂) :: last) ∧
      beside = second.map Prod.fst ∧ timer.kind = .frame ∧ framesIn beside = frames.length ∧
      (∀ cue, .does cue ∈ beside → cue.suspends = false) ∧
      entrances game (last.map Prod.fst) = [] := by
  obtain ⟨before, frames, fps, timer, after, split, kind, all, quiet, -, none⟩ := off
  obtain ⟨first, later, rfl, -, split₁⟩ := List.map_eq_append_iff.1 split
  obtain ⟨⟨_, s₁⟩, later, rfl, rfl, split₂⟩ := List.map_eq_cons_iff.1 split₁
  obtain ⟨second, later, rfl, rfl, split₃⟩ := List.map_eq_append_iff.1 split₂
  obtain ⟨⟨_, s₂⟩, last, rfl, rfl, rfl⟩ := List.map_eq_cons_iff.1 split₃
  exact ⟨first, frames, fps, s₁, second, timer, s₂, last, rfl, rfl, kind, all, quiet, none⟩

namespace Session

variable {game : Game} {s s' : Session σ}

/-- a sequence goes on as long as its timers have pictures to take -/
theorem Path.leafs {frames : List String} {keepLast : Bool} {entries : List (Deed × Session σ)}
    (h : Path game s entries s') (inStep : s.InStep) (inMode : s.InMode)
    (leafing : s.Leafing game frames keepLast [])
    (enough : framesIn (entries.map Prod.fst) ≤ frames.length) :
    s'.Leafing game frames keepLast (entries.map Prod.fst) := by
  induction h with
  | refl => exact leafing
  | @step entries more s₁ s₂ h step ih =>
    rw [List.map_append, framesIn_append] at enough
    have before := ih (by omega)
    obtain ⟨inStep₁, inMode₁⟩ := h.inMode inStep inMode
    rw [List.map_append]
    rcases before.step inStep₁ inMode₁ step with leafs | ⟨timer, timers, rfl, kind, all, -⟩
    · exact leafs
    · -- one timer more than there are pictures
      rw [List.map_singleton, framesIn_fires, if_pos kind] at enough
      omega

theorem Path.hidden {entries : List (Deed × Session σ)} (h : Path game s entries s')
    (none : entrances game (entries.map Prod.fst) = []) (hidden : s.scene.spritesHidden = true) :
    s'.scene.spritesHidden = true := by
  induction h with
  | refl => exact hidden
  | step _ step ih =>
    rw [List.map_append, entrances_append, List.append_eq_nil_iff] at none
    rcases step.comes with ⟨-, comes⟩ | ⟨enters, -⟩ | ⟨_, _, _, -, -, -, -, -, off, -⟩
    · exact comes.hidden.trans (ih none.1)
    · exact absurd none.2 enters
    · exact off

end Session

theorem SwitchedOff.hidden {game : Game} {stage : σ} {entries : List (Deed × Session σ)}
    {s : Session σ} {beside : List Deed} (off : SwitchedOff game beside (entries.map Prod.fst))
    (h : Path game (.ofStage stage) entries s) : s.scene.spritesHidden = true := by
  obtain ⟨first, frames, fps, s₁, second, timer, s₂, last, rfl, rfl, kind, all, -, none⟩ := off.entries
  obtain ⟨way, may, rest⟩ := h.at_does
  obtain ⟨inStep, inMode⟩ := (way.step (.does _ may)).inMode (inStep_new stage) (inMode_new stage)
  obtain ⟨s₃, limit, shown, -, same, -, after⟩ := rest.at_fires
  have leafing := shown.leafs inStep inMode (.begun frames fps false s₁) (Nat.le_of_eq all)
  have popped : Leafing game frames false (second.map Prod.fst) s₂ := by
    rw [same]
    exact leafing.retimed _
  refine after.hidden none ?_
  rcases popped.fire_frame kind with leafs | ⟨-, -, off⟩
  · have one := leafs.shown
    rw [framesIn_append, framesIn_fires, if_pos kind] at one
    omega
  · exact off rfl

/-! ## What the stage shows -/

def Scene.Seen (a : Scene RecordingStage) : Prop :=
  a.stage.screen.spritesVisible = !a.spritesHidden

namespace Scene.Seen

variable {game : Game} {a : Scene RecordingStage}

theorem overlaid (h : a.Seen) : a.Overlaid a.stage.overlays := ⟨rfl, h⟩

theorem finish (h : a.Seen) (line : Line) : (LineReveal.finish game line a).2.Seen := by
  have talked : (LineReveal.talk game line false a).Seen := (h.overlaid.talk game line false).sprites
  simp only [LineReveal.finish]
  split
  · exact talked
  · exact talked

theorem tick (h : a.Seen) (r : LineReveal) : (LineReveal.tick game r a).2.2.Seen := by
  unfold LineReveal.tick
  split
  · split
    · exact h.finish _
    · rename_i line _ _ c _
      have pushed : Scene.Seen { a with stage := pushChar a.stage c } := h
      exact (pushed.overlaid.voice line c).sprites
  · exact h

theorem skip (h : a.Seen) (r : LineReveal) : (LineReveal.skip game r a).2.2.Seen := by
  unfold LineReveal.skip
  split
  · rename_i line _
    have filled : Scene.Seen { a with stage := setText a.stage line.text } := h
    exact filled.finish line
  · exact h

end Scene.Seen

namespace Session

def Seen (s : Session RecordingStage) : Prop := s.scene.Seen

namespace Seen

variable {game : Game} {s : Session RecordingStage}

theorem overlaid (h : s.Seen) : s.Overlaid s.stage.overlays := Scene.Seen.overlaid h

theorem completeLine (h : s.Seen) (completion : Completion) : (s.completeLine game completion).Seen := by
  cases completion <;> exact h

theorem typeTick (h : s.Seen) : (s.typeTick game).Seen := by
  have ticked : (LineReveal.tick game s.reveal s.scene).2.2.Seen := Scene.Seen.tick h s.reveal
  unfold Session.typeTick
  split
  · split
    · rename_i completion reveal scene e
      rw [e] at ticked
      have revealed : Session.Seen { s with reveal := reveal, scene := scene } := ticked
      exact revealed.completeLine completion
    · rename_i reveal scene e
      rw [e] at ticked
      exact ticked
  · exact h

theorem fire (h : s.Seen) (kind : TimerKind) : (s.fire game kind).session.Seen := by
  by_cases typing : kind = .typeTick
  · subst typing
    exact h.typeTick
  · exact (h.overlaid.fire game typing).sprites

theorem pressed (h : s.Seen) : (s.pressed game).session.Seen := by
  have skipped : (LineReveal.skip game s.reveal s.scene).2.2.Seen := Scene.Seen.skip h s.reveal
  unfold Session.pressed
  split
  · exact h
  split
  · dsimp only
    split
    · exact h
    · exact h
  split
  · split
    · rename_i completion reveal scene e
      rw [e] at skipped
      have revealed : Session.Seen { s with reveal := reveal, scene := scene } := skipped
      exact revealed.completeLine completion
    · rename_i reveal scene e
      rw [e] at skipped
      exact skipped
  · exact h

theorem chosen (h : s.Seen) (index : Nat) : (s.chosen game index).session.Seen := by
  rcases h.overlaid.chosen game index with rests | overlaid
  · rw [rests]
    exact h
  · exact overlaid.sprites

end Seen

end Session

/-- the host may do anything but switch the sprites on stage on or off by itself -/
def Operation.LeavesSprites : Operation RecordingStage → Prop
  | .stage f => ∀ p : RecordingStage, (f p).screen.spritesVisible = p.screen.spritesVisible
  | _ => True

theorem seen_keeps (game : Game) :
    Keeps game Operation.LeavesSprites fun _ turn => turn.session.Seen where
  turn _ h := turn_keeps game (P := Session.Seen) (fun _ cue _ h => (h.overlaid.execute game cue).sprites)
    (fun _ _ h => h) (fun _ _ h => h) _ h
  idle _ h := h
  fired {_ s _ timer timers} _ _ h := Session.Seen.fire (s := { s with timers := timers }) h timer.kind
  dropped _ _ h := h
  clock _ _ h := h
  opened h := (h.overlaid.opened game).sprites
  pressed _ _ h := h.pressed
  chosen index h := h.chosen index
  advanced _ _ h := h
  stage {_ s _} leaves h := (leaves s.stage).trans h

/-! ## Entrances beside a sequence -/

/-- the event at the place is a block in which, behind a sequence that does not keep its last picture
and before anything else that suspends, somebody enters -/
def Game.EntersBesideAt (game : Game) (place : Nat) : Prop :=
  ∃ before frames fps beside after,
    game.script.events[place]? =
      some (.together (before ++ .sequence frames fps false :: (beside ++ after))) ∧
    (∀ cue ∈ beside, cue.suspends = false) ∧ entrances game (beside.map .does) ≠ []

section
variable {game : Game}

/-- cues that follow each other without a place being taken belong to one visit -/
theorem visit_of_run {places : List Nat} {before after : List Deed} {cue : Cue} {cues : List Cue}
    (h : before ++ .does cue :: (cues.map .does ++ after) = places.flatMap game.visit) :
    ∃ place ∈ places, ∃ first last,
      game.visit place = first ++ .does cue :: (cues.map .does ++ last) := by
  induction places generalizing before with
  | nil => cases (List.append_eq_nil_iff.1 h).2
  | cons place places ih =>
    rw [List.flatMap_cons] at h
    rcases List.append_eq_append_iff.1 h with ⟨here, visited, later⟩ | ⟨rest, -, later⟩
    · cases here with
      | nil =>
        obtain ⟨p, mem, whole⟩ := @ih [] later
        exact ⟨p, List.mem_cons_of_mem _ mem, whole⟩
      | cons deed here =>
        rw [List.cons_append, List.cons.injEq] at later
        obtain ⟨rfl, later⟩ := later
        refine ⟨place, List.mem_cons_self, before, ?_⟩
        rcases List.append_eq_append_iff.1 later with ⟨last, all, -⟩ | ⟨others, some, next⟩
        · exact ⟨last, by rw [visited, all]⟩
        · cases others with
          | nil =>
            rw [List.append_nil] at some
            exact ⟨[], by rw [visited, some, List.append_nil]⟩
          | cons other others =>
            -- the next visit takes its place first
            obtain ⟨c, -, rfl⟩ : ∃ c ∈ cues, .does c = other :=
              List.mem_map.1 (some ▸ List.mem_append_right here List.mem_cons_self)
            cases places with
            | nil => cases next
            | cons => cases next
    · obtain ⟨p, mem, whole⟩ := ih later.symm
      exact ⟨p, List.mem_cons_of_mem _ mem, whole⟩

/-- cues that follow each other in a visit belong to the event -/
theorem event_of_run {place : Nat} {first last : List Deed} {cue : Cue} {cues : List Cue}
    (h : game.visit place = first ++ .does cue :: (cues.map .does ++ last)) :
    ∃ event before after, game.script.events[place]? = some event ∧
      event.cues = before ++ cue :: (cues ++ after) := by
  cases first with
  | nil => cases h
  | cons deed first =>
    rw [Game.visit, List.cons_append, List.cons.injEq] at h
    obtain ⟨-, h⟩ := h
    cases found : game.script.events[place]? with
    | none =>
      rw [found] at h
      cases (List.append_eq_nil_iff.1 h.symm).2
    | some event =>
      rw [found, Option.elim_some] at h
      obtain ⟨before, later, split, -, split₁⟩ := List.map_eq_append_iff.1 h
      obtain ⟨_, later, rfl, same, split₂⟩ := List.map_eq_cons_iff.1 split₁
      cases same
      obtain ⟨run, after, rfl, same, -⟩ := List.map_eq_append_iff.1 split₂
      have run : run = cues := List.map_injective_iff.2 (fun _ _ => Deed.does.inj) same
      exact ⟨event, before, after, rfl, by rw [split, run]⟩

/-- where no place is taken, what playback does by itself is carry out cues -/
theorem actsIn_eq_map {deeds : List Deed} (inside : placesIn deeds = []) :
    ∃ cues : List Cue, actsIn deeds = cues.map .does := by
  induction deeds with
  | nil => exact ⟨[], rfl⟩
  | cons deed deeds ih =>
    cases deed with
    | takes => cases inside
    | does cue =>
      obtain ⟨cues, all⟩ := ih inside
      exact ⟨cue :: cues, congrArg (Deed.does cue :: ·) all⟩
    | fires timer =>
      obtain ⟨cues, all⟩ := ih inside
      exact ⟨cues, all⟩

theorem entrances_actsIn (deeds : List Deed) : entrances game (actsIn deeds) = entrances game deeds := by
  induction deeds with
  | nil => rfl
  | cons deed deeds ih =>
    cases deed with
    | takes | fires => exact ih
    | does cue =>
      have here : entrances game [.does cue] ++ entrances game (actsIn deeds) =
          entrances game [.does cue] ++ entrances game deeds := by rw [ih]
      rw [← entrances_append, ← entrances_append] at here
      exact here

/-- who enters beside a sequence does so by a cue behind it in its block -/
theorem InBlocks.entersBeside {beside deeds : List Deed} {held : List Cue} (h : InBlocks game deeds held)
    (off : SwitchedOff game beside deeds) (enters : entrances game beside ≠ []) :
    ∃ place ∈ placesIn deeds, game.EntersBesideAt place := by
  obtain ⟨before, frames, fps, timer, after, rfl, -, -, quiet, inside, -⟩ := off
  obtain ⟨cues, acts⟩ := actsIn_eq_map inside
  have acts₂ : actsIn (.does (.sequence frames fps false) :: (beside ++ .fires timer :: after)) =
      .does (.sequence frames fps false) :: (cues.map .does ++ actsIn after) := by
    rw [← acts]
    exact congrArg (Deed.does _ :: ·) (actsIn_append beside (.fires timer :: after))
  have whole := h.whole
  rw [actsIn_append, acts₂, List.append_assoc, List.cons_append, List.append_assoc] at whole
  obtain ⟨place, taken, _, _, visit⟩ := visit_of_run whole
  obtain ⟨event, first, last, found, run⟩ := event_of_run visit
  have entered : entrances game (cues.map .does) ≠ [] := by
    rw [← acts, entrances_actsIn]
    exact enters
  refine ⟨place, taken, first, frames, fps, cues, last, ?_, fun cue mem => ?_, entered⟩
  · cases event with
    | single cue =>
      -- nothing stands beside a sequence that is an event of its own
      have short := congrArg List.length run
      simp only [Event.cues, List.length_append, List.length_cons, List.length_nil] at short
      have none : cues = [] := List.eq_nil_of_length_eq_zero (by omega)
      rw [none] at entered
      exact absurd rfl entered
    | together all => exact run ▸ found
  · refine quiet cue (List.mem_of_mem_filter (p := fun d : Deed => d.timer?.isNone) ?_)
    show Deed.does cue ∈ actsIn beside
    rw [acts]
    exact List.mem_map_of_mem mem

/-- **Characters on stage are seen, unless they have come beside a sequence.** If a stage shows the
sprites at first, and the host does not switch them by itself, then they are hidden just if a sequence
that does not keep its last picture has come to its end, and nobody has entered since. While somebody is
on stage they are hidden just if, besides, somebody has entered while that sequence was being shown. So
unless a block has been taken in which somebody enters beside a sequence, whoever is on stage is seen. -/
theorem unseen_iff (game : Game) {stage : RecordingStage} {deeds : List Deed}
    {s : Session RecordingStage} (seen : stage.screen.spritesVisible = true)
    (h : ContinuesWithin Operation.LeavesSprites game (.ofStage stage) deeds s) :
    (s.stage.screen.spritesVisible = false ↔ ∃ beside, SwitchedOff game beside deeds) ∧
    (s.scene.cast ≠ [] → (s.stage.screen.spritesVisible = false ↔
      ∃ beside, SwitchedOff game beside deeds ∧ entrances game beside ≠ [])) ∧
    ((∀ place ∈ placesIn deeds, ¬ game.EntersBesideAt place) → s.scene.cast ≠ [] →
      s.stage.screen.spritesVisible = true) := by
  have shows : s.stage.screen.spritesVisible = !s.scene.spritesHidden :=
    h.keeps (seen_keeps game) (show stage.screen.spritesVisible = !false from seen)
  have inBlocks : InBlocks game deeds s.deferred := h.continues.reaches.inBlocks rfl
  obtain ⟨entries, recalls, rfl⟩ := h.continues.recalls
  have path := recalls.path
  have hidden : s.stage.screen.spritesVisible = false ↔ s.scene.spritesHidden = true := by
    rw [shows, Bool.not_eq_false']
  have someone (cast : s.scene.cast ≠ []) (off : s.stage.screen.spritesVisible = false) :
      ∃ beside, SwitchedOff game beside (entries.map Prod.fst) ∧ entrances game beside ≠ [] := by
    obtain ⟨beside, off, alone⟩ := path.switchedOff (hidden.1 off)
    exact ⟨beside, off, mt alone cast⟩
  refine ⟨⟨fun off => ?_, fun ⟨_, off⟩ => ?_⟩, fun cast => ⟨someone cast, fun ⟨_, off, _⟩ => ?_⟩,
    fun none cast => ?_⟩
  · obtain ⟨beside, off, -⟩ := path.switchedOff (hidden.1 off)
    exact ⟨beside, off⟩
  · exact hidden.2 (off.hidden path)
  · exact hidden.2 (off.hidden path)
  · rw [← Bool.not_eq_false]
    intro off
    obtain ⟨beside, off, enters⟩ := someone cast off
    obtain ⟨place, taken, entersBeside⟩ := inBlocks.entersBeside off enters
    exact none place taken entersBeside

/-- the last timer that is pending fires, and none is scheduled after it -/
theorem runUntil_of_single {s s' : Session σ} {timer : Timer} (pending : s.timers.pending = [timer])
    (due : timer.due ≤ endOfTime)
    (acted : { s with timers := ⟨max s.now timer.due, []⟩ }.act game timer = some s')
    (none : s'.timers.pending = []) :
    s.runUntil game endOfTime 2 = some { s' with timers := s'.timers.setNow endOfTime } := by
  have popped : s.timers.popDue? endOfTime = some (timer, ⟨max s.now timer.due, []⟩) :=
    Timers.popDue?_eq_some_iff.2 ⟨pending, due, rfl⟩
  rw [runUntil_of_some popped, acted, Option.bind_some, runUntil_of_none]
  rw [Timers.popDue?, none]

/-- whoever comes after a sequence is seen -/
theorem seen_after_a_sequence :
    let game : Game :=
      { script := .ofEvents [.single (.sequence [] 10 false), .single (.character (some "Bob") .show)]
        assets := .ofList [("Bob", "b.png")] }
    ∃ deeds, ∃ s : Session RecordingStage,
      ContinuesWithin Operation.LeavesSprites game (.ofStage {}) deeds s ∧ s.now = endOfTime ∧
        s.scene.cast.map Actor.name = ["Bob"] ∧ s.stage.screen.spritesVisible = true := by
  intro game
  have plays : ∃ deeds, ∃ s : Session RecordingStage,
      ContinuesWithin Operation.LeavesSprites game (.ofStage {}) deeds s ∧ s.now = endOfTime ∧
        s.scene.cast.map Actor.name = ["Bob"] := by
    refine ⟨_, _, .operation (.runUntil (.ofNat endOfTime) 2) trivial
      (.operation .start trivial .refl rfl)
      (runUntil_of_single rfl (later_le_endOfTime _ _) rfl rfl), ?_, rfl⟩
    exact Nat.max_eq_right (later_le_endOfTime _ _)
  obtain ⟨deeds, s, host, atEnd, bob⟩ := plays
  obtain ⟨-, -, seen⟩ := unseen_iff game rfl host
  refine ⟨deeds, s, host, atEnd, bob, seen (fun place _ beside => ?_) fun nobody => ?_⟩
  · -- no event of the script is a block
    obtain ⟨before, frames, fps, others, after, found, -⟩ := beside
    match place, found with
    | 0, found => cases found
    | 1, found => cases found
    | _ + 2, found => cases found
  · rw [nobody] at bob
    cases bob

/-- Bob comes beside a sequence, and is not seen when it is over -/
theorem unseen_beside_a_sequence :
    let game : Game :=
      { script := .ofEvents [.together [.sequence [] 10 false, .character (some "Bob") .show]]
        assets := .ofList [("Bob", "b.png")] }
    ∃ deeds, ∃ s : Session RecordingStage,
      ContinuesWithin Operation.LeavesSprites game (.ofStage {}) deeds s ∧
        s.scene.cast.map Actor.name = ["Bob"] ∧ s.stage.screen.spritesVisible = false :=
  ⟨_, _, .operation (.runUntil (.ofNat endOfTime) 2) trivial (.operation .start trivial .refl rfl)
    (runUntil_of_single rfl (later_le_endOfTime _ _) rfl rfl), rfl, rfl⟩

end

end VisualNovel
