import VisualNovel.Proofs.Session.Beats
import VisualNovel.Proofs.Session.Lookups
import VisualNovel.Stage.Recording

/-!
# Sequences are shown on time

A sequence shows its pictures one after the other, each for the same time, and the last one for as long
again. A picture without an asset is passed over, and takes its time all the same.

* `lookedUp`               what a history looks up, and when;
* `pictureTimes`           the pictures of a sequence with their times;
* `leafed`                 the stage once some pictures have been shown;
* `Session.bookRhythm`     each timer shows a picture;
* `sequences_are_shown_on_time`   what this means for a session that comes to a sequence.
-/

set_option linter.unusedSectionVars false

namespace VisualNovel

open Session Presentation

/-! ## Lookups with their times -/

/-- what a history looks up, and when -/
def lookedUp {σ : Type} (game : Game) (history : List (Deed × Session σ)) : List (Nat × Lookup) :=
  history.flatMap fun entry => (lookups game entry).map (entry.2.now, ·)

/-- pictures that are an interval apart, the first an interval after the start -/
def pictureTimes (start interval : Nat) (frames : List String) : List (Nat × Lookup) :=
  frames.zipIdx.map fun (frame, k) => (start + (k + 1) * interval, .asset frame)

theorem pictureTimes_take (start interval : Nat) (frames : List String) (n : Nat) :
    pictureTimes start interval (frames.take n) =
      (List.range' 0 n).flatMap fun k =>
        frames[k]?.toList.map fun frame => (start + (k + 1) * interval, .asset frame) := by
  induction n with
  | zero => rfl
  | succ n ih =>
    rw [List.range'_1_concat, List.flatMap_append, ← ih, List.flatMap_singleton, Nat.zero_add,
      List.take_add_one, pictureTimes, List.zipIdx_append, List.map_append]
    congr 1
    cases next : frames[n]? with
    | none => rfl
    | some frame =>
      obtain ⟨lt, -⟩ := List.getElem?_eq_some_iff.1 next
      have length : (frames.take n).length = n := List.length_take_of_le (Nat.le_of_lt lt)
      rw [length, Option.toList_some, List.zipIdx_singleton, Nat.zero_add]
      rfl

/-! ## The stage -/

section
variable {σ : Type} [Presentation σ]

def leafed (game : Game) (frames : List String) (p : σ) : σ :=
  frames.foldl (fun p frame => (game.assets.get? frame).elim p fun locator =>
    setBackground p (some locator)) p

theorem leafed_concat (game : Game) (frames : List String) (frame : String) (p : σ) :
    leafed game (frames ++ [frame]) p = (game.assets.get? frame).elim (leafed game frames p)
      fun locator => setBackground (leafed game frames p) (some locator) := by
  rw [leafed, List.foldl_append]
  rfl

end

/-- the last picture that has an asset is the background, and nothing happens to the sprites -/
theorem leafed_screen (game : Game) (frames : List String) (p : RecordingStage) :
    (leafed game frames p).screen.background =
        (frames.filterMap game.assets.get?).getLast?.or p.screen.background ∧
      (leafed game frames p).screen.spritesVisible = p.screen.spritesVisible := by
  induction frames using List.reverseRecOn with
  | nil => exact ⟨rfl, rfl⟩
  | append_singleton frames frame ih =>
    obtain ⟨background, sprites⟩ := ih
    rw [leafed_concat, List.filterMap_append]
    cases found : game.assets.get? frame with
    | none =>
      rw [Option.elim_none, List.filterMap_cons_none found, List.filterMap_nil, List.append_nil]
      exact ⟨background, sprites⟩
    | some locator =>
      rw [Option.elim_some, List.filterMap_cons_some found, List.filterMap_nil,
        List.getLast?_concat, Option.some_or]
      exact ⟨rfl, sprites⟩

/-! ## The beats of a sequence -/

namespace Session

variable {σ : Type} [Presentation σ] [Audio σ]

def sequenceBegun (frames : List String) (fps : Float) (keepLast : Bool) (s : Session σ) : Session σ :=
  { s.clearCast with flipbook := some ⟨frames, frameInterval fps, keepLast⟩ }.suspend .sequence

def leafedTo (game : Game) (book : Flipbook) (s : Session σ) (n : Nat) : Session σ :=
  { s with
    flipbook := some { book with frames := book.frames.drop n }
    scene := { s.scene with stage := leafed game (book.frames.take n) s.scene.stage } }

def bookRhythm (game : Game) (book : Flipbook) (s : Session σ) : Rhythm σ :=
  .even .frame s.now book.interval book.frames.length (s.leafedTo game book)

variable {game : Game} {book : Flipbook} {s : Session σ}

theorem lawful_bookRhythm (within : s.now + (book.frames.length + 1) * book.interval ≤ endOfTime) :
    (s.bookRhythm game book).Lawful game := by
  refine Rhythm.lawful_even within (fun _ => rfl) fun k more timers failed => ?_
  have next : book.frames.drop k = book.frames[k] :: book.frames.drop (k + 1) :=
    List.drop_eq_getElem_cons more
  have shown : book.frames.take (k + 1) = book.frames.take k ++ [book.frames[k]] :=
    List.take_succ_eq_append_getElem more
  simp only [fire, nextFrame, clocked, leafedTo, next, shown, leafed_concat]
  cases game.assets.get? book.frames[k] <;> rfl

theorem follows_bookRhythm (within : s.now + (book.frames.length + 1) * book.interval ≤ endOfTime)
    (begun : s.flipbook = some book) (h : (s.schedule book.interval .frame).Brought game) :
    (s.bookRhythm game book).Follows game 0 (s.schedule book.interval .frame) := by
  have same : s.leafedTo game book 0 = s := by
    rw [leafedTo, List.drop_zero, ← begun]
    rfl
  have follows : (s.bookRhythm game book).Follows game 0
      ((s.leafedTo game book 0).schedule book.interval .frame) :=
    Rhythm.follows_even within (by rw [same]) (by rwa [same])
  rwa [same] at follows

/-- after the last picture the sequence is over, and the sprites are switched off unless it is kept -/
theorem fire_of_leafed (game : Game) (book : Flipbook) (s : Session σ) (timers : Timers)
    (failed : Option Nat) :
    ((s.leafedTo game book book.frames.length).clocked timers failed).fire game .frame =
      .goesOn (resume { s.clocked timers failed with
        flipbook := none
        scene := { s.scene with
          stage :=
            if book.keepLast then leafed game book.frames s.scene.stage
            else setSpritesVisible (leafed game book.frames s.scene.stage) false
          spritesHidden := if book.keepLast then s.scene.spritesHidden else true } }) := by
  simp only [fire, nextFrame, clocked, leafedTo, List.drop_length, List.take_length]
  cases book.keepLast <;> rfl

theorem lookedUp_of_told {k j : Nat} {history : List (Deed × Session σ)}
    (h : (s.bookRhythm game book).Told k history j) :
    lookedUp game history = (List.range' k (j - k)).flatMap fun i =>
      book.frames[i]?.toList.map fun frame => (s.now + (i + 1) * book.interval, .asset frame) := by
  refine h.flatMap (fun t x kind => ?_) fun i x found => ?_
  · rw [lookups, kind]
    rfl
  · obtain ⟨⟨timers, failed, rfl⟩, now⟩ := found
    rw [now]
    show ((book.frames.drop i).head?.toList.map Lookup.asset).map _ = _
    rw [List.head?_drop, List.map_map]
    rfl

/-- in the end all pictures have been looked up, and the last timer looks nothing up -/
theorem lookedUp_at_end {history : List (Deed × Session σ)}
    (h : (s.bookRhythm game book).Told 0 history book.frames.length) (timers : Timers)
    (failed : Option Nat) :
    lookedUp game (history ++ [(.fires ((s.bookRhythm game book).timer book.frames.length),
      (s.leafedTo game book book.frames.length).clocked timers failed)]) =
      pictureTimes s.now book.interval book.frames := by
  have last : lookups game (.fires ((s.bookRhythm game book).timer book.frames.length),
      (s.leafedTo game book book.frames.length).clocked timers failed) = [] := by
    show (book.frames.drop book.frames.length).head?.toList.map Lookup.asset = []
    rw [List.drop_length]
    rfl
  have pictures := pictureTimes_take s.now book.interval book.frames book.frames.length
  rw [List.take_length] at pictures
  rw [lookedUp, List.flatMap_append, ← lookedUp, lookedUp_of_told h, List.flatMap_singleton, last,
    List.map_nil, List.append_nil, pictures, Nat.sub_zero]

end Session

/-! ## Playback -/

/-- **Sequences are shown on time.** Let playback go on with a sequence of `n` pictures at some moment.
However the host splits the time from then on, as long as it stops before `n + 1` intervals have passed,
one picture has been looked up for each interval that has passed, at the end of the interval, and the
background is the last of them that has an asset. After `n + 1` intervals, and not before, events go on:
all runs that get there come by the same session, where all pictures have been looked up, and the
sprites are switched off unless the last picture is kept. -/
theorem sequences_are_shown_on_time (game : Game) {stage : RecordingStage} {deeds : List Deed}
    {s : Session RecordingStage} (reached : Reaches game (.ofStage stage) deeds (.goesOn s))
    {frames : List String} {fps : Float} {keepLast : Bool}
    (takes : s.Takes game (.sequence frames fps keepLast))
    (within : s.now + (frames.length + 1) * frameInterval fps ≤ endOfTime) :
    ∃ s₁, s.turn game = .rests s₁ ∧
      (∀ limits : List UInt64,
        (∀ limit ∈ limits, limit.toNat < s.now + (frames.length + 1) * frameInterval fps) →
        ∃ history s' shown, s₁.RunsTo game limits history s' ∧ s'.now = max s.now (latest limits) ∧
          s'.suspension = some .sequence ∧
          shown = frames.take ((s'.now - s.now) / frameInterval fps) ∧
          lookedUp game history = pictureTimes s.now (frameInterval fps) shown ∧
          s'.stage.screen.background =
            (shown.filterMap game.assets.get?).getLast?.or s.stage.screen.background ∧
          s'.stage.screen.spritesVisible = s.stage.screen.spritesVisible) ∧
      ∃ history c, s₁.Resumes game (s.now + (frames.length + 1) * frameInterval fps) history c ∧
        c.now = s.now + (frames.length + 1) * frameInterval fps ∧ c.suspension = none ∧
        lookedUp game history = pictureTimes s.now (frameInterval fps) frames ∧
        c.stage.screen.background =
          (frames.filterMap game.assets.get?).getLast?.or s.stage.screen.background ∧
        c.stage.screen.spritesVisible = (if keepLast then s.stage.screen.spritesVisible else false) := by
  have rests : s.turn game = .rests (({ s with position := s.position + 1 }.sequenceBegun frames fps
      keepLast).schedule (frameInterval fps) .frame) := takes.turn
  have brought := takes.brought reached rests
  let book : Flipbook := ⟨frames, frameInterval fps, keepLast⟩
  obtain ⟨b, begun⟩ : ∃ b, b = ({ s with position := s.position + 1 } : Session RecordingStage).sequenceBegun
      frames fps keepLast := ⟨_, rfl⟩
  rw [← begun] at rests brought
  have now : b.now = s.now := by rw [begun]; rfl
  have why : b.suspension = some .sequence := by rw [begun]; rfl
  have flipbook : b.flipbook = some book := by rw [begun]; rfl
  have background : b.scene.stage.screen.background = s.stage.screen.background := by rw [begun]; rfl
  have visible : b.scene.stage.screen.spritesVisible = s.stage.screen.spritesVisible := by
    rw [begun]; rfl
  rw [← now] at within ⊢
  rw [← background, ← visible]
  have lawful : (b.bookRhythm game book).Lawful game := lawful_bookRhythm within
  have follows := follows_bookRhythm within flipbook brought
  refine ⟨_, rests, fun limits early => ?_, ?_⟩
  · obtain ⟨history, s', n, run, now', beats, follows', told⟩ :=
      Rhythm.Follows.even_within lawful follows rfl (frameInterval_pos fps) early
    obtain ⟨timers, failed, rfl⟩ := follows'.shown
    obtain ⟨shows, seen⟩ := leafed_screen game (frames.take n) b.scene.stage
    refine ⟨history, _, frames.take n, run, now', why, ?_, ?_, shows, seen⟩
    · exact congrArg (frames.take ·) beats
    · rw [lookedUp_of_told told, pictureTimes_take]
      rfl
  · obtain ⟨-, entries, x, found, told, -, fires⟩ := follows.ends lawful
    obtain ⟨timers, failed, rfl⟩ := found.shown
    have goesOn := fire_of_leafed game book b timers failed
    obtain ⟨shows, seen⟩ := leafed_screen game frames b.scene.stage
    refine ⟨_, _, fires.resumes goesOn, found.now, rfl, ?_, ?_, ?_⟩
    · exact lookedUp_at_end told timers failed
    · cases keepLast <;> exact shows
    · cases keepLast
      · rfl
      · exact seen

theorem frameInterval_le (fps : Float) : frameInterval fps ≤ endOfTime :=
  Nat.max_le.2 ⟨by decide, Nat.le_of_lt_succ (UInt64.toNat_lt _)⟩

/-- a sequence without pictures takes the time of one, and switches the sprites off -/
theorem empty_sequence_hides_sprites :
    let game : Game :=
      { script := .ofEvents [.single (.background "room"), .single (.sequence [] 24 false)]
        assets := .ofList [("room", "room.png")] }
    ∃ (deeds : List Deed) (s s₁ : Session RecordingStage),
      Reaches game (.ofStage {}) deeds (.goesOn s) ∧ s.Takes game (.sequence [] 24 false) ∧
        s.now + (0 + 1) * frameInterval 24 ≤ endOfTime ∧ s.turn game = .rests s₁ ∧
        s₁.suspension.isSome ∧ s.stage.screen.spritesVisible = true ∧
        ∃ history c, s₁.Resumes game (frameInterval 24) history c ∧ c.now = frameInterval 24 ∧
          c.stage.screen.background = some "room.png" ∧ c.stage.screen.spritesVisible = false := by
  intro game
  have playing : ∃ (deeds : List Deed) (s : Session RecordingStage),
      Reaches game (.ofStage {}) deeds (.goesOn s) ∧ s.Takes game (.sequence [] 24 false) ∧
        s.now = 0 ∧ s.stage.screen.background = some "room.png" ∧
        s.stage.screen.spritesVisible = true := by
    have opened : Reaches game (.ofStage ({} : RecordingStage)) [] (.goesOn _) := .opened .refl
    exact ⟨_, _, opened.turn rfl, ⟨rfl, rfl, rfl, rfl⟩, rfl, rfl, rfl⟩
  obtain ⟨deeds, s, reached, takes, now, room, visible⟩ := playing
  have ends : s.now + (0 + 1) * frameInterval 24 = frameInterval 24 := by rw [now]; omega
  have within : s.now + (0 + 1) * frameInterval 24 ≤ endOfTime := by
    rw [ends]
    exact frameInterval_le 24
  obtain ⟨s₁, turn, early, history, c, resumes, here, -, -, shown, hidden⟩ :=
    sequences_are_shown_on_time game reached takes within
  obtain ⟨_, s', _, run, -, why, -⟩ := early [] nofun
  obtain ⟨-, rfl⟩ := runsTo_nil.1 run
  have suspended : s'.suspension.isSome := by
    rw [why]
    rfl
  rw [List.length_nil, ends] at resumes here
  exact ⟨deeds, s, s', reached, takes, within, turn, suspended, visible, history, c, resumes, here,
    shown.trans room, hidden⟩

end VisualNovel
