import VisualNovel.Proofs.Json.RoundTrip
import VisualNovel.Script.Reader
import VisualNovel.Script.Writer

/-!
# Scripts are read as they are written

An event is written as an object with a member to each of its fields. The reader finds the fields again
by their keys, and what it does not understand it would take for an unknown cue without a word; of an
event without numbers it understands all.

* `Cue.hasNumber`            the cues with a field that is a number;
* `Event.tidy_toValue`       without one, what is written of an event is tidy;
* `Cue.read?_fields`         the fields of a cue are read as the cue;
* `Entry.read?_event`        what is written of an event is read as the event;
* `Script.parse_renderEvents`   and so are all events of a script.
-/

namespace VisualNovel

open Json (Value Record mapM_map_eq_some mapM_map_eq_self)

/-! ## What is written is tidy -/

def Cue.hasNumber : Cue → Bool
  | wait _ | waitVideo _ | sequence _ _ _ => true
  | _ => false

theorem tidy_textOrNull (n : Nat) (text : Option String) : (textOrNull text).Tidy n := by
  cases text with
  | none => exact .null
  | some text => exact .text text

theorem tidy_texts (n : Nat) (lines : List String) : (texts lines).Tidy (n + 1) := by
  refine .array fun v m => ?_
  obtain ⟨line, -, rfl⟩ := List.mem_map.1 m
  exact .text line

theorem ChoiceOption.tidy_toValue (n : Nat) (option : ChoiceOption) : option.toValue.Tidy (n + 1) := by
  refine .object (by simp) ?_
  simp only [List.forall_mem_cons]
  exact ⟨.text _, tidy_textOrNull n _, nofun⟩

theorem Cue.tidy_fields {cue : Cue} (wordy : cue.hasNumber = false) : ∀ m ∈ cue.fields, m.2.Tidy 2 := by
  cases cue with
  | wait | waitVideo | sequence => cases wordy
  | background | view | sound | video | label | jump =>
    simp only [Cue.fields, List.forall_mem_cons]
    exact ⟨.text _, nofun⟩
  | music action name =>
    simp only [Cue.fields, List.forall_mem_cons]
    exact ⟨.text _, tidy_textOrNull 2 name, nofun⟩
  | character name action =>
    simp only [Cue.fields, List.forall_mem_cons]
    exact ⟨tidy_textOrNull 2 name, .text _, nofun⟩
  | dialogue line =>
    simp only [Cue.fields, List.forall_mem_cons]
    exact ⟨.text _, tidy_textOrNull 2 _, .bool _, .bool _, nofun⟩
  | introStart | introEnd | unknown => exact nofun
  | introCard lines =>
    simp only [Cue.fields, List.forall_mem_cons]
    exact ⟨tidy_texts 1 lines, nofun⟩
  | choice options =>
    simp only [Cue.fields, List.forall_mem_cons]
    refine ⟨.array fun v m => ?_, nofun⟩
    obtain ⟨option, -, rfl⟩ := List.mem_map.1 m
    exact option.tidy_toValue 0

theorem Cue.tidy_toValue {cue : Cue} (wordy : cue.hasNumber = false) : cue.toValue.Tidy 3 := by
  refine .object ?_ ?_
  · cases cue <;> simp [Cue.fields]
  · rw [List.forall_mem_cons]
    exact ⟨.text _, Cue.tidy_fields wordy⟩

theorem Event.tidy_toValue {event : Event} (wordy : ∀ cue ∈ event.cues, cue.hasNumber = false) :
    event.toValue.Tidy 5 := by
  cases event with
  | single cue => exact (Cue.tidy_toValue (wordy cue List.mem_cons_self)).mono (by decide)
  | together cues =>
    refine .object (by simp) ?_
    simp only [List.forall_mem_cons]
    refine ⟨.text _, .array fun v written => ?_, nofun⟩
    obtain ⟨cue, m, rfl⟩ := List.mem_map.1 written
    exact Cue.tidy_toValue (wordy cue m)

/-! ## Cues -/

theorem text?_texts (lines : List String) : (texts lines).list? Value.text? = some lines :=
  mapM_map_eq_self fun _ _ => rfl

theorem ChoiceOption.read?_toValue (option : ChoiceOption) :
    ChoiceOption.read? option.toValue = some option := by
  obtain ⟨text, target⟩ := option
  cases target <;> rfl

theorem Cue.read?_fields {cue : Cue} (wordy : cue.hasNumber = false) :
    Cue.read? cue.kind (.named (("type", .text cue.kind) :: cue.fields)) = some cue := by
  cases cue with
  | wait | waitVideo | sequence => cases wordy
  | background | view | sound | video | label | jump | introStart | introEnd | unknown => rfl
  | music action name => cases action <;> cases name <;> rfl
  | character name action => cases name <;> cases action <;> rfl
  | dialogue line =>
    obtain ⟨text, speaker, thought, autoAdvance⟩ := line
    cases speaker <;> rfl
  | introCard lines => exact congrArg (Option.map Cue.introCard) (text?_texts lines)
  | choice options =>
    have read : (Value.array (options.map ChoiceOption.toValue)).list? ChoiceOption.read? =
        some options :=
      mapM_map_eq_self fun option _ => option.read?_toValue
    exact congrArg (Option.map Cue.choice) read

theorem Cue.kind_ne_simultaneous (cue : Cue) : cue.kind ≠ "simultaneous" := by
  cases cue <;> simp [Cue.kind]

/-! ## Events -/

theorem Entry.read?_cue (room : Nat) (inner : Bool) {cue : Cue} (wordy : cue.hasNumber = false) :
    Entry.read? room inner cue.toValue = some (.event (.single cue)) := by
  have head : readHead? inner cue.toValue =
      some (cue.kind, .named (("type", .text cue.kind) :: cue.fields)) := rfl
  rw [Entry.read?, head]
  simp only [Option.bind_eq_bind, Option.bind_some, if_neg cue.kind_ne_simultaneous,
    Cue.read?_fields wordy, Option.map_some]

theorem Entry.block_cues (cues : List Cue) :
    Entry.block (cues.map fun cue => .event (.single cue)) = .event (.together cues) := by
  rw [Entry.block, mapM_map_eq_self]
  exact fun _ _ => rfl

theorem Entry.read?_event (room : Nat) {event : Event}
    (wordy : ∀ cue ∈ event.cues, cue.hasNumber = false) :
    Entry.read? (room + 1) false event.toValue = some (.event event) := by
  cases event with
  | single cue => exact Entry.read?_cue _ _ (wordy cue List.mem_cons_self)
  | together cues =>
    have head : readHead? false (Event.together cues).toValue = some ("simultaneous", .named
        [("type", .text "simultaneous"), ("events", .array (cues.map Cue.toValue))]) := rfl
    have children : (Value.array (cues.map Cue.toValue)).list? (Entry.read? room true) =
        some (cues.map fun cue => .event (.single cue)) :=
      mapM_map_eq_some fun cue m => Entry.read?_cue room true (wordy cue m)
    rw [← Entry.block_cues]
    rw [Entry.read?, head]
    exact congrArg (Option.map Entry.block) children

/-! ## Scripts -/

/-- events make a script, as long as no block stands inside a block -/
theorem Script.ofEntries_event (events : List Event) :
    Script.ofEntries (events.map .event) = .ok (.ofEvents events) := by
  rw [Script.ofEntries, List.findIdx?_eq_none_iff.2]
  · rw [List.filterMap_map]
    exact congrArg (fun events => Except.ok (Script.ofEvents events)) List.filterMap_some
  · intro entry m
    obtain ⟨event, -, rfl⟩ := List.mem_map.1 m
    rfl

theorem tidy_events {events : List Event}
    (wordy : ∀ event ∈ events, ∀ cue ∈ event.cues, cue.hasNumber = false) :
    (Value.array (events.map Event.toValue)).Tidy scriptDepth := by
  have shallow : (Value.array (events.map Event.toValue)).Tidy 6 := by
    refine .array fun v written => ?_
    obtain ⟨event, m, rfl⟩ := List.mem_map.1 written
    exact Event.tidy_toValue (wordy event m)
  exact shallow.mono (by decide)

/-- **A script is read back from the text that is written of its events**, with blanks after it or
without, if no cue has a field that is a number. -/
theorem Script.parse_renderEvents {events : List Event} {blank : List Char}
    (wordy : ∀ event ∈ events, ∀ cue ∈ event.cues, cue.hasNumber = false)
    (spaces : ∀ c ∈ blank, Json.isSpace c = true) :
    Script.parse (renderEvents events ++ String.ofList blank) = .ok (.ofEvents events) := by
  have read : (events.map Event.toValue).map (fun v =>
      (Entry.read? scriptDepth false v).getD (.event (.single .unknown))) = events.map .event := by
    rw [List.map_map]
    refine List.map_congr_left fun event m => ?_
    have found : Entry.read? scriptDepth false event.toValue = some (.event event) :=
      Entry.read?_event 126 (wordy event m)
    rw [Function.comp_apply, found, Option.getD_some]
  rw [Script.parse, renderEvents, (tidy_events wordy).read_back spaces]
  dsimp only
  rw [read, Script.ofEntries_event]

end VisualNovel
