import Mathlib.Data.List.Nodup
import VisualNovel.Proofs.Review.Course
import VisualNovel.Proofs.Review.Labels

/-!
# References to labels

A jump refers to a label, and so does an option of a menu that has a target. A review goes through all
references of a script, inside blocks and out of them, and has an error for each one that dangles. What
playback carries out stands in the script, so that nothing in a script without such errors leads nowhere.

* `Reference`, `Occurrence`          what refers to a label, and where it stands;
* `Script.reference?`                the reference at such a place, if there is one;
* `Script.references`                all of them, each once (`mem_references_iff`, `nodup_occurrences`);
* `targetIssues_eq`                  a review has an error for each of them whose label is not found;
* `Script.Resolves`                  a label is found, and it stands there;
* `OnCourse.menu_mem`                a menu that is open stands in the script;
* `jump_resolves`, `option_resolves`   without such errors, playback finds the labels that it looks for;
* `target_errors_are_exact`          what the errors mean for playback, and what they do not miss.
-/

set_option linter.unusedSectionVars false

namespace VisualNovel

open Session Review

/-! ## References and where they stand -/

inductive Reference
  | jump (target : String)
  | option (text target : String)

def Reference.target : Reference → String
  | jump target => target
  | option _ target => target

/-- what a review finds if the label is not defined -/
def Reference.finding : Reference → Finding
  | jump target => .undefinedJump target
  | option text target => .undefinedChoice text target

structure Occurrence where
  place : Nat
  /-- the number of the cue among those of its event -/
  cue : Nat
  /-- the number of the option, if the cue is a menu -/
  option : Option Nat

def ChoiceOption.reference? (o : ChoiceOption) : Option Reference := o.target.map (.option o.text)

def Cue.reference? : Cue → Option Nat → Option Reference
  | .jump target, none => some (.jump target)
  | .choice options, some index => options[index]?.bind ChoiceOption.reference?
  | _, _ => none

def Event.reference? (event : Event) (cue : Nat) (option : Option Nat) : Option Reference :=
  event.cues[cue]?.bind (·.reference? option)

def Script.reference? (script : Script) (o : Occurrence) : Option Reference :=
  script.events[o.place]?.bind (·.reference? o.cue o.option)

/-! ## All references -/

section
variable {α β γ δ : Type} {f : α → List β} {g : Nat → β → γ} {l : List α}

def numbered (f : α → List β) (g : Nat → β → γ) (l : List α) : List γ :=
  l.zipIdx.flatMap fun x => (f x.1).map (g x.2)

theorem mem_numbered_iff {z : γ} :
    z ∈ numbered f g l ↔ ∃ n x y, l[n]? = some x ∧ y ∈ f x ∧ g n y = z := by
  simp only [numbered, List.mem_flatMap, List.mem_map, Prod.exists, List.mem_zipIdx_iff_getElem?]
  constructor
  · rintro ⟨x, n, found, y, m, e⟩
    exact ⟨n, x, y, found, m, e⟩
  · rintro ⟨n, x, y, found, m, e⟩
    exact ⟨x, n, found, y, m, e⟩

/-- what is entered under different numbers is different, and so is what is entered under one -/
theorem nodup_numbered (apart : ∀ m n y z, g m y = g n z → m = n ∧ y = z)
    (each : ∀ x ∈ l, (f x).Nodup) : (numbered f g l).Nodup := by
  rw [numbered, List.nodup_flatMap]
  constructor
  · rintro ⟨x, n⟩ m
    exact (each x (List.fst_mem_of_mem_zipIdx m)).map fun y z e => (apart n n y z e).2
  · have numbers : (l.zipIdx.map Prod.snd).Nodup := by
      rw [List.zipIdx_map_snd]
      exact List.nodup_range'
    refine (List.pairwise_map.1 numbers).imp fun {a b} ne z m m' => ?_
    obtain ⟨y, -, e⟩ := List.mem_map.1 m
    obtain ⟨y', -, e'⟩ := List.mem_map.1 m'
    exact ne (apart a.2 b.2 y y' (e.trans e'.symm)).1

theorem map_filter_numbered (p : γ → Bool) (q : γ → δ) :
    ((numbered f g l).filter p).map q =
      l.zipIdx.flatMap fun x => ((f x.1).filter fun y => p (g x.2 y)).map fun y => q (g x.2 y) := by
  rw [numbered, List.filter_flatMap, List.map_flatMap]
  refine congrArg (List.flatMap · _) (funext fun x => ?_)
  rw [List.filter_map, List.map_map]
  rfl

theorem flatMap_zipIdx (h : α → List δ) : (l.zipIdx.flatMap fun x => h x.1) = l.flatMap h := by
  conv_rhs => rw [← List.zipIdx_map_fst 0 l, List.flatMap_map]

end

def Cue.references : Cue → List (Option Nat × Reference)
  | .jump target => [(none, .jump target)]
  | .choice options => numbered (·.reference?.toList) (fun index r => (some index, r)) options
  | _ => []

def Event.references (event : Event) : List (Nat × Option Nat × Reference) :=
  numbered Cue.references Prod.mk event.cues

def Script.references (script : Script) : List (Occurrence × Reference) :=
  numbered Event.references (fun place x => (⟨place, x.1, x.2.1⟩, x.2.2)) script.events.toList

variable {script : Script} {event : Event} {cue : Cue} {r : Reference}

theorem Cue.mem_references_iff {option : Option Nat} :
    (option, r) ∈ cue.references ↔ cue.reference? option = some r := by
  cases cue with
  | jump target =>
    cases option with
    | none => simp [references, reference?, eq_comm]
    | some index => simp [references, reference?]
  | choice options =>
    rw [references, mem_numbered_iff]
    cases option with
    | none => simp [reference?]
    | some index => simp [reference?, Option.bind_eq_some_iff]
  | _ => cases option <;> simp [references, reference?]

theorem Event.mem_references_iff {number : Nat} {option : Option Nat} :
    (number, option, r) ∈ event.references ↔ event.reference? number option = some r := by
  rw [references, mem_numbered_iff, reference?, Option.bind_eq_some_iff]
  simp [Cue.mem_references_iff]

theorem Script.mem_references_iff {o : Occurrence} :
    (o, r) ∈ script.references ↔ script.reference? o = some r := by
  obtain ⟨place, number, option⟩ := o
  rw [references, mem_numbered_iff, reference?, Option.bind_eq_some_iff]
  simp [Event.mem_references_iff]

theorem Cue.nodup_references (cue : Cue) : cue.references.Nodup := by
  cases cue with
  | jump => exact List.nodup_singleton _
  | choice options =>
    rw [references]
    refine nodup_numbered (fun m n y z e => ?_) fun o _ => ?_
    · cases e
      exact ⟨rfl, rfl⟩
    · cases o.reference? with
      | none => exact List.nodup_nil
      | some r => exact List.nodup_singleton r
  | _ => exact List.nodup_nil

theorem Event.nodup_references (event : Event) : event.references.Nodup := by
  refine nodup_numbered (fun m n y z e => ?_) fun cue _ => cue.nodup_references
  cases e
  exact ⟨rfl, rfl⟩

theorem Script.nodup_references (script : Script) : script.references.Nodup := by
  refine nodup_numbered ?_ fun event _ => event.nodup_references
  rintro m n ⟨cue, option, r⟩ ⟨cue', option', r'⟩ e
  cases e
  exact ⟨rfl, rfl⟩

theorem Script.nodup_occurrences (script : Script) : (script.references.map Prod.fst).Nodup := by
  refine script.nodup_references.map_on ?_
  rintro ⟨o, r⟩ m ⟨o', r'⟩ m' rfl
  have same := (mem_references_iff.1 m).symm.trans (mem_references_iff.1 m')
  rw [Option.some.inj same]

/-! ## The review -/

def Script.dangles (script : Script) (r : Reference) : Bool := (script.find? r.target).isNone

theorem targetFindings_single (script : Script) (cue : Cue) :
    targetFindings script (.single cue) =
      (cue.references.filter (script.dangles ·.2)).map (·.2.finding) := by
  cases cue with
  | jump target =>
    simp only [targetFindings, Cue.references, List.filter_cons, List.filter_nil, Script.dangles,
      Reference.target]
    cases (script.find? target).isNone <;> rfl
  | choice options =>
    rw [Cue.references, map_filter_numbered, flatMap_zipIdx fun o : ChoiceOption =>
        (o.reference?.toList.filter script.dangles).map Reference.finding,
      targetFindings, List.filterMap_eq_flatMap_toList]
    refine congrArg (List.flatMap · _) (funext fun o => ?_)
    rw [ChoiceOption.reference?]
    cases o.target with
    | none => rfl
    | some target =>
      simp only [Option.map_some, Option.toList_some, List.filter_cons, List.filter_nil,
        Script.dangles, Reference.target]
      by_cases undefined : (script.find? target).isNone <;> simp [undefined, Reference.finding]
  | _ => rfl

theorem targetIssues_event (script : Script) (event : Event) (place : Nat) :
    ((event.references.filter (script.dangles ·.2.2)).map fun x =>
      (⟨x.2.2.finding, some place⟩ : Issue)) =
      event.cues.flatMap fun cue => (targetFindings script (.single cue)).map (⟨·, some place⟩) := by
  rw [Event.references, map_filter_numbered, flatMap_zipIdx fun cue : Cue => (cue.references.filter (script.dangles ·.2)).map fun x =>
      (⟨x.2.finding, some place⟩ : Issue)]
  refine congrArg (List.flatMap · _) (funext fun cue => ?_)
  rw [targetFindings_single, List.map_map]
  rfl

theorem targetIssues_eq (script : Script) :
    targetIssues script = (script.references.filter (script.dangles ·.2)).map fun x =>
      ⟨x.2.finding, some x.1.place⟩ := by
  rw [Script.references, map_filter_numbered, targetIssues,
    Script.walk, List.flatMap_assoc]
  refine congrArg (List.flatMap · _) (funext fun ⟨event, place⟩ => ?_)
  refine Eq.trans ?_ (targetIssues_event script event place).symm
  cases event with
  | single cue => rfl
  | together cues =>
    show (targetFindings script (.together cues)).map _ ++ (cues.map _).flatMap _ = _
    rw [List.flatMap_map]
    rfl

theorem dangles_iff : script.dangles r = true ↔ script.find? r.target = none :=
  Option.isNone_iff_eq_none

/-- the errors of a review, with the references that they are about: one for each that dangles -/
theorem exact_targetIssues (script : Script) :
    ∃ found : List (Occurrence × Reference), (found.map Prod.fst).Nodup ∧
      (∀ o r, (o, r) ∈ found ↔ script.reference? o = some r ∧
        ∀ place : Nat, script.events[place]? ≠ some (.single (.label r.target))) ∧
      targetIssues script = found.map fun x => ⟨x.2.finding, some x.1.place⟩ := by
  refine ⟨script.references.filter (script.dangles ·.2), ?_, fun o r => ?_, targetIssues_eq script⟩
  · exact script.nodup_occurrences.sublist (List.filter_sublist.map Prod.fst)
  · rw [List.mem_filter, Script.mem_references_iff, dangles_iff, Script.find?_eq_none_iff]

theorem level_of_mem_targetIssues {issue : Issue} (m : issue ∈ targetIssues script) :
    issue.level = .error := by
  rw [targetIssues_eq] at m
  obtain ⟨⟨o, r⟩, -, rfl⟩ := List.mem_map.1 m
  cases r <;> rfl

theorem find?_of_reference? (clean : ∀ issue ∈ targetIssues script, issue.level ≠ .error)
    {o : Occurrence} (refers : script.reference? o = some r) :
    ∃ place, script.find? r.target = some place := by
  cases found : script.find? r.target with
  | some place => exact ⟨place, rfl⟩
  | none =>
    have m : (⟨r.finding, some o.place⟩ : Issue) ∈ targetIssues script := by
      rw [targetIssues_eq]
      refine List.mem_map.2 ⟨(o, r), List.mem_filter.2 ⟨?_, ?_⟩, rfl⟩
      · exact Script.mem_references_iff.2 refers
      · exact dangles_iff.2 found
    exact absurd (level_of_mem_targetIssues m) (clean _ m)

/-! ## Playback -/

/-- a label is found, and it stands there -/
def Script.Resolves (script : Script) (target : String) (place : Nat) : Prop :=
  script.find? target = some place ∧ script.events[place]? = some (.single (.label target))

/-- what a cue of the script refers to resolves if the script has no such errors -/
theorem resolves_of_clean (clean : ∀ issue ∈ targetIssues script, issue.level ≠ .error)
    {place : Nat} (found : script.events[place]? = some event) (m : cue ∈ event.cues)
    {option : Option Nat} (refers : cue.reference? option = some r) :
    ∃ label, script.Resolves r.target label := by
  obtain ⟨number, there⟩ := List.mem_iff_getElem?.1 m
  have occurs : script.reference? ⟨place, number, option⟩ = some r := by
    rw [Script.reference?, found, Option.bind_some, Event.reference?, there, Option.bind_some, refers]
  obtain ⟨label, found⟩ := find?_of_reference? clean occurs
  exact ⟨label, found, (Script.find?_eq_some_iff.1 found).1⟩

theorem OnCourse.menu_mem {places : List Nat} {held : List Cue} {options : List ChoiceOption}
    {position : Nat} (h : OnCourse script places held (some options) position) :
    ∃ (place : Nat) (event : Event), script.events[place]? = some event ∧
      .choice options ∈ event.cues := by
  cases h with
  | @after places place _ event done _ _ chain first found split stands =>
    refine ⟨place, event, found, ?_⟩
    rw [split]
    apply List.mem_append_left
    cases stands with
    | asks => exact List.mem_singleton_self _
    | block asked => exact asked options rfl

section
variable {σ : Type} [Presentation σ] [Audio σ] {game : Game} {s : Session σ} {deeds : List Deed}
  {turn : Turn σ} {options : List ChoiceOption} {index : Nat} {option : ChoiceOption} {target : String}

theorem jump_resolves (clean : ∀ issue ∈ targetIssues game.script, issue.level ≠ .error)
    {stage : σ} (run : Reaches game (.ofStage stage) deeds turn) (m : .does (.jump target) ∈ deeds) :
    ∃ place, game.script.Resolves target place ∧
      ∀ s : Session σ, (s.execute game (.jump target)).2.position = place := by
  have inBlocks : InBlocks game deeds turn.session.deferred := run.inBlocks rfl
  obtain ⟨place, -, event, found, m⟩ := inBlocks.of_mem_does m
  have refers : (Cue.jump target).reference? none = some (.jump target) := rfl
  obtain ⟨label, there⟩ := resolves_of_clean clean found m refers
  refine ⟨label, there, fun s => ?_⟩
  rw [position_execute]
  exact congrArg (Option.getD · s.position) there.1

theorem option_resolves (clean : ∀ issue ∈ targetIssues game.script, issue.level ≠ .error)
    {stage : σ} (run : Reaches game (.ofStage stage) deeds turn)
    (asks : turn.session.suspension = some (.choice options)) (found : options[index]? = some option)
    (leads : option.target = some target) :
    ∃ place, game.script.Resolves target place ∧
      (turn.session.chosen game index).session.position = place := by
  have onCourse := run.onCourse (inStep_new stage) (inMode_new stage) (onCourse_new _ stage)
  rw [menu_eq_some_iff.2 asks] at onCourse
  obtain ⟨place, event, there, m⟩ := onCourse.menu_mem
  have refers : (Cue.choice options).reference? (some index) = some (.option option.text target) := by
    rw [Cue.reference?, found, Option.bind_some, ChoiceOption.reference?, leads]
    rfl
  obtain ⟨label, resolves⟩ := resolves_of_clean clean there m refers
  obtain ⟨s', e, -, position⟩ := chosen_of_option game asks found
  refine ⟨label, resolves, ?_⟩
  rw [e, Turn.session_goesOn, position, ChoiceOption.place?, leads]
  exact congrArg (Option.getD · _) resolves.1

/-- an option whose label is not found does not change the place -/
theorem position_of_dangling (dangles : game.script.find? target = none)
    (asks : s.suspension = some (.choice options)) (found : options[index]? = some option)
    (leads : option.target = some target) :
    ∃ s', s.chosen game index = .goesOn s' ∧ s'.position = s.position := by
  obtain ⟨s', e, -, position⟩ := chosen_of_option game asks found
  refine ⟨s', e, ?_⟩
  rw [position, ChoiceOption.place?, leads, Option.bind_some, dangles]
  rfl

/-- **Errors about targets are exact for playback.** In a script for which a review has none, each jump
that is carried out finds its label, and each option that is chosen and has a target leads where its label
stands, whatever the host does. And a review has one error for each jump and for each option whose label
stands nowhere but in blocks, at the place of its event, and no other ones; such a jump changes nothing,
and such an option does not change the place. -/
theorem target_errors_are_exact (game : Game) :
    ((∀ issue ∈ targetIssues game.script, issue.level ≠ .error) →
      ∀ (stage : σ) deeds turn, Reaches game (.ofStage stage) deeds turn →
        (∀ target, .does (.jump target) ∈ deeds → ∃ place, game.script.Resolves target place ∧
          ∀ s : Session σ, (s.execute game (.jump target)).2.position = place) ∧
        ∀ options index option target, turn.session.suspension = some (.choice options) →
          options[index]? = some option → option.target = some target →
          ∃ place, game.script.Resolves target place ∧
            (turn.session.chosen game index).session.position = place) ∧
    (∃ found : List (Occurrence × Reference), (found.map Prod.fst).Nodup ∧
      (∀ o r, (o, r) ∈ found ↔ game.script.reference? o = some r ∧
        ∀ place : Nat, game.script.events[place]? ≠ some (.single (.label r.target))) ∧
      targetIssues game.script = found.map fun x => ⟨x.2.finding, some x.1.place⟩) ∧
    (∀ issue ∈ targetIssues game.script, issue.level = .error) ∧
    ∀ target, (∀ place : Nat, game.script.events[place]? ≠ some (.single (.label target))) →
      ∀ s : Session σ, s.execute game (.jump target) = (.goOn, s) ∧
        ∀ options index option, s.suspension = some (.choice options) →
          options[index]? = some option → option.target = some target →
          ∃ s', s.chosen game index = .goesOn s' ∧ s'.position = s.position := by
  refine ⟨fun clean stage deeds turn run => ⟨fun target m => jump_resolves clean run m,
    fun options index option target asks found leads => option_resolves clean run asks found leads⟩,
    exact_targetIssues game.script, fun issue m => level_of_mem_targetIssues m,
    fun target nowhere s => ?_⟩
  have dangles : game.script.find? target = none := Script.find?_eq_none_iff.2 nowhere
  constructor
  · rw [execute, jump, dangles]
  · intro options index option asks found leads
    exact position_of_dangling dangles asks found leads

/-- an option of a menu and the jump of a block lead to one label; where it stands in a block only, a
jump to it does nothing -/
theorem menu_and_jump_resolve :
    let menu : Cue := .choice [⟨"Stay", none⟩, ⟨"Go", some "end"⟩]
    let block : Event := .together [.sound "ding", .jump "end"]
    let game : Game :=
      { script := .ofEvents [.single menu, block, .single (.background "black"),
          .single (.label "end")] }
    let hidden : Game := { script := .ofEvents [.together [.label "end"], .single (.jump "end")] }
    (∃ deeds, ∃ s : Session RecordingStage, Plays game deeds s ∧ .does (.jump "end") ∈ deeds ∧
      ∃ place, game.script.Resolves "end" place) ∧
    (∃ deeds, ∃ s : Session RecordingStage, Plays game deeds s ∧ s.isChoosing = true ∧
      ∃ place, game.script.Resolves "end" place ∧ (s.chosen game 1).session.position = place) ∧
    ∀ s : Session RecordingStage, s.execute hidden (.jump "end") = (.goOn, s) := by
  intro menu block game hidden
  have clean : ∀ issue ∈ targetIssues game.script, issue.level ≠ .error := by
    have empty : targetIssues game.script = [] := List.isEmpty_iff.1 (by decide +kernel)
    rw [empty]
    nofun
  obtain ⟨resolves, -⟩ := target_errors_are_exact (σ := RecordingStage) game
  refine ⟨?_, ?_, fun s => ?_⟩
  · have plays : ∃ deeds, ∃ s : Session RecordingStage, Plays game deeds s ∧
        placesIn deeds = [0, 1, 3] ∧ s.deferred.isEmpty := by
      refine ⟨_, _, ⟨rehearsalStage, .operation (.choose 0) (.operation .start .refl rfl) rfl⟩, ?_⟩
      decide +kernel
    obtain ⟨deeds, s, plays, places, none⟩ := plays
    obtain ⟨stage, run⟩ := plays
    have inBlocks := run.reaches.inBlocks rfl
    rw [Turn.session_rests, List.isEmpty_iff.1 none] at inBlocks
    have taken : 1 ∈ placesIn deeds := by
      rw [places]
      decide
    have m : .does (.jump "end") ∈ deeds :=
      inBlocks.does_of_mem taken rfl (List.mem_cons_of_mem _ (List.mem_singleton_self _))
    obtain ⟨place, there, -⟩ := (resolves clean stage deeds _ run.reaches).1 "end" m
    exact ⟨deeds, s, ⟨stage, run⟩, m, place, there⟩
  · have plays : ∃ deeds, ∃ s : Session RecordingStage, Plays game deeds s ∧ s.isChoosing = true ∧
        ((s.menu?.bind (·[1]?)).bind ChoiceOption.target) = some "end" := by
      refine ⟨_, _, ⟨rehearsalStage, .operation .start .refl rfl⟩, ?_⟩
      decide +kernel
    obtain ⟨deeds, s, plays, choosing, second⟩ := plays
    obtain ⟨option, second, leads⟩ := Option.bind_eq_some_iff.1 second
    obtain ⟨options, open?, found⟩ := Option.bind_eq_some_iff.1 second
    obtain ⟨stage, run⟩ := plays
    have chosen := (resolves clean stage deeds _ run.reaches).2 options 1 option "end"
      (menu_eq_some_iff.1 open?) found leads
    exact ⟨deeds, s, ⟨stage, run⟩, choosing, chosen⟩
  · have nowhere := Script.find?_eq_none_iff.1
      (show hidden.script.find? "end" = none from Option.isNone_iff_eq_none.1 (by decide +kernel))
    obtain ⟨-, -, -, dangling⟩ := target_errors_are_exact (σ := RecordingStage) hidden
    exact (dangling "end" nowhere s).1

end

end VisualNovel
