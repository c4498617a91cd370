import Mathlib.Data.List.Induction
import VisualNovel.Proofs.Stage.Sprites

/-!
# Sprites stop talking when the line is done

Who talks is found out from the names that the sprites have at the moment, and a name changes with its
sprite. The name of a talking sprite still holds all of the name before it, so whoever has begun to
talk is found again at the end of the line, and stops.

* `Stem`                     a name without some of its suffixes;
* `Game.LowersByLetter`      the names of the sprites are lowered letter by letter;
* `Worn`                     the name that an actor has, by the name under which it has entered;
* `Named`                    each actor on stage has such a name;
* `recent`, `putOn`          the log since the last line began, and the sprites of one handle in it;
* `OncePerLine`              in a line a sprite starts talking once at most, and stops once at most;
* `Staged.named`, `Staged.turns`   every step keeps it so;
* `talking_never_leaks`      what this means for a session that operations bring about.
-/

set_option linter.unusedSectionVars false

namespace VisualNovel

open Session Presentation

/-! ## Names and their suffixes -/

/-- `name` is `base` with the suffix put behind it some times -/
def Stem (suffix base name : String) : Prop :=
  ∃ m, name.toList = base.toList ++ (List.replicate m suffix.toList).flatten

theorem Stem.refl (suffix name : String) : Stem suffix name name := by
  refine ⟨0, ?_⟩
  rw [List.replicate_zero, List.flatten_nil, List.append_nil]

@[simp] theorem baseName_append (suffix base : String) : baseName suffix (base ++ suffix) = base := by
  have ends : Text.dropEnd? suffix.toList (base ++ suffix).toList = some base.toList := by
    rw [Text.dropEnd?_iff, String.toList_append]
  rw [baseName, ends]
  exact String.ofList_toList

theorem baseName_cases (suffix name : String) :
    name = baseName suffix name ++ suffix ∨
      baseName suffix name = name ∧ ¬ suffix.toList <:+ name.toList := by
  unfold baseName
  cases ends : Text.dropEnd? suffix.toList name.toList with
  | some base =>
    left
    rw [← String.toList_inj, String.toList_append, String.toList_ofList]
    exact Text.dropEnd?_iff.1 ends
  | none =>
    refine .inr ⟨rfl, ?_⟩
    rintro ⟨base, e⟩
    rw [Text.dropEnd?_iff.2 e.symm] at ends
    cases ends

theorem baseName_of_not_suffix {suffix name : String} (h : ¬ suffix.toList <:+ name.toList) :
    baseName suffix name = name := by
  rcases baseName_cases suffix name with e | e
  · refine absurd ⟨(baseName suffix name).toList, ?_⟩ h
    rw [← String.toList_append, ← e]
  · exact e.1

theorem Stem.baseName {suffix base name : String} (h : Stem suffix base name) :
    Stem suffix (VisualNovel.baseName suffix base) name := by
  rcases baseName_cases suffix base with e | e
  · obtain ⟨m, h⟩ := h
    refine ⟨m + 1, ?_⟩
    rw [List.replicate_succ, List.flatten_cons, ← List.append_assoc, ← String.toList_append, ← e]
    exact h
  · rw [e.1]
    exact h

/-! ## Who talks -/

/-- in lower case the names of the assets are what their letters are -/
def Game.LowersByLetter (game : Game) : Prop :=
  ∀ name, game.assets.contains name = true →
    Text.lower name.toList = name.toList.flatMap Text.lowerChar

/-- only a capital sigma is lowered by its place in the word -/
theorem lowersByLetter_of_no_sigma {game : Game}
    (none : ∀ name ∈ game.assets.keys, 'Σ' ∉ name.toList) : game.LowersByLetter := by
  intro name found
  obtain ⟨locator, found⟩ := Option.isSome_iff_exists.1 found
  exact Text.lower_of_not_mem (none name (List.mem_map_of_mem (Table.get?_iff.1 found)))

variable {game : Game}

theorem contains_of_get? {name locator : String} (found : game.assets.get? name = some locator) :
    game.assets.contains name = true := by
  rw [Table.contains, found, Option.isSome_some]

/-- whoever a sprite belongs to, the talking sprite belongs to as well -/
theorem belongs_talking (lowers : game.LowersByLetter) {keywords : List (List Char)} {base : String}
    (idle : game.assets.contains base = true)
    (talking : game.assets.contains (base ++ game.config.talkSuffix) = true)
    (h : belongs keywords base = true) :
    belongs keywords (base ++ game.config.talkSuffix) = true := by
  obtain ⟨keyword, m, held⟩ := List.any_eq_true.1 h
  refine List.any_eq_true.2 ⟨keyword, m, ?_⟩
  have longer : lowerCase base <+: lowerCase (base ++ game.config.talkSuffix) := by
    rw [lowerCase, lowerCase, lowers _ idle, lowers _ talking, String.toList_append,
      List.flatMap_append]
    exact List.prefix_append _ _
  exact Text.holds_iff.2 ((Text.holds_iff.1 held).trans longer.isInfix)

/-- the name of an actor that has entered under `name`. It talks at most while a line of its speaker
is being revealed -/
structure Worn (game : Game) (r : LineReveal) (name shown : String) : Prop where
  stem : Stem game.config.talkSuffix (baseName game.config.talkSuffix shown) name
  idle : ¬ game.config.talkSuffix.toList <:+ name.toList → shown = name ∨
    ∃ line n speaker, r = .revealing line n ∧ line.speaker = some speaker ∧
      belongs (keywords speaker game.config.aliases) shown = true ∧
      shown = name ++ game.config.talkSuffix

namespace Worn

variable {r : LineReveal} {line : Line} {n : Nat} {name : String} {a : Actor}

theorem entered (game : Game) (r : LineReveal) (name : String) : Worn game r name name :=
  ⟨(Stem.refl _ _).baseName, fun _ => .inl rfl⟩

theorem eq_of_done (h : Worn game r name a.name) (done : r.isRevealing = false)
    (plain : ¬ game.config.talkSuffix.toList <:+ name.toList) : a.name = name := by
  rcases h.idle plain with e | ⟨line, n, _, rfl, _⟩
  · exact e
  · cases done

theorem begun (h : Worn game r name a.name) (done : r.isRevealing = false) (line : Line) :
    Worn game (.revealing line 0) name a.name :=
  ⟨h.stem, fun plain => .inl (h.eq_of_done done plain)⟩

theorem shown (h : Worn game (.revealing line n) name a.name) (m : Nat) :
    Worn game (.revealing line m) name a.name := by
  refine ⟨h.stem, fun plain => (h.idle plain).imp_right ?_⟩
  rintro ⟨_, _, speaker, ⟨⟩, rest⟩
  exact ⟨line, m, speaker, rfl, rest⟩

theorem talked (lowers : game.LowersByLetter) (found : game.assets.contains name = true)
    (h : Worn game (.revealing line n) name a.name) :
    Worn game (.revealing line n) name (game.switched line true a).name := by
  cases change : game.switch? line true a with
  | none =>
    rw [switched_of_none change]
    exact h
  | some target =>
    obtain ⟨talking, locator⟩ := target
    rw [switched_of_some change]
    obtain ⟨speaker, said, speaks, rfl, other, talks⟩ := switch?_eq_some_iff.1 change
    simp only [talkTarget, if_true] at other talks ⊢
    refine ⟨?_, fun plain => .inr ⟨line, n, speaker, rfl, said, ?_⟩⟩
    · rw [baseName_append]
      exact h.stem
    · rcases h.idle plain with e | ⟨_, _, _, _, _, _, e⟩
      · rw [e, baseName_of_not_suffix plain] at talks ⊢
        rw [e] at speaks
        exact ⟨belongs_talking lowers found (contains_of_get? talks) speaks, rfl⟩
      · rw [e, baseName_append] at other
        exact absurd rfl other

theorem completed (found : game.assets.contains name = true)
    (h : Worn game (.revealing line n) name a.name) :
    Worn game (.done line) name (game.switched line false a).name := by
  cases change : game.switch? line false a with
  | none =>
    rw [switched_of_none change]
    refine ⟨h.stem, fun plain => .inl ?_⟩
    rcases h.idle plain with e | ⟨_, _, speaker, ⟨⟩, said, speaks, e⟩
    · exact e
    · obtain ⟨locator, base⟩ := Option.isSome_iff_exists.1 found
      have ne : name ≠ a.name := by
        rw [e]
        intro same
        have ends : game.config.talkSuffix.toList <:+ name.toList := by
          rw [same, String.toList_append]
          exact List.suffix_append _ _
        exact plain ends
      have again : game.switch? line false a = some (name, locator) := by
        refine switch?_eq_some_iff.2 ⟨speaker, said, speaks, ?_, ne, base⟩
        rw [e, talkTarget, if_neg Bool.false_ne_true, baseName_append]
      rw [change] at again
      cases again
  | some target =>
    obtain ⟨idle, locator⟩ := target
    rw [switched_of_some change]
    obtain ⟨speaker, said, speaks, rfl, other, present⟩ := switch?_eq_some_iff.1 change
    simp only [talkTarget, Bool.false_eq_true, if_false] at other ⊢
    refine ⟨h.stem.baseName, fun plain => .inl ?_⟩
    rcases h.idle plain with e | ⟨_, _, _, _, _, _, e⟩
    · rw [e, baseName_of_not_suffix plain]
    · rw [e, baseName_append]

end Worn

/-! ## The names on stage -/

/-- a stage on which nothing has been done -/
structure RecordingStage.IsNew (p : RecordingStage) : Prop where
  sprites : p.screen.sprites = .empty
  lastHandle : p.screen.lastHandle = 0
  calls : p.screen.calls = #[]

theorem log_push (calls : Array Call) (call : Call) : calls.toList ⊆ (calls.push call).toList := by
  rw [Array.toList_push]
  exact List.subset_append_left _ _

/-- each sprite has been added under the name that has entered, in the order of the handles, and each
actor on stage wears the name under which it has entered -/
structure Named (game : Game) (names : List String) (r : LineReveal) (a : Scene RecordingStage) :
    Prop where
  count : a.stage.screen.lastHandle = names.length
  added : ∀ k name, names[k]? = some name → ∃ locator, game.assets.get? name = some locator ∧
    .addSprite ⟨k + 1⟩ locator ∈ a.stage.screen.calls.toList
  worn : ∀ actor ∈ a.cast, ∃ k name, actor.handle.id = k + 1 ∧ names[k]? = some name ∧
    Worn game r name actor.name

namespace Named

variable {names : List String} {r r' : LineReveal} {a b : Scene RecordingStage}

theorem contains (h : Named game names r a) {k : Nat} {name : String}
    (entered : names[k]? = some name) : game.assets.contains name = true := by
  obtain ⟨locator, found, -⟩ := h.added k name entered
  exact contains_of_get? found

theorem step (h : Named game names r a)
    (lastHandle : b.stage.screen.lastHandle = a.stage.screen.lastHandle)
    (log : a.stage.screen.calls.toList ⊆ b.stage.screen.calls.toList)
    (cast : ∀ actor ∈ b.cast, ∃ actor₀ ∈ a.cast, actor.handle = actor₀.handle ∧
      ∀ name, game.assets.contains name = true → Worn game r name actor₀.name →
        Worn game r' name actor.name) :
    Named game names r' b := by
  refine ⟨lastHandle.trans h.count, fun k name entered => ?_, fun actor m => ?_⟩
  · obtain ⟨locator, found, m⟩ := h.added k name entered
    exact ⟨locator, found, log m⟩
  · obtain ⟨actor₀, m₀, handle, wears⟩ := cast actor m
    obtain ⟨k, name, id, entered, worn⟩ := h.worn actor₀ m₀
    exact ⟨k, name, by rw [handle, id], entered, wears name (h.contains entered) worn⟩

theorem enter {name locator : String} (h : Named game names r a)
    (found : game.assets.get? name = some locator) (seen : a.spritesHidden = false) :
    Named game (names ++ [name]) r (a.enter name locator) := by
  rw [Scene.enter_of_seen seen]
  refine ⟨?_, fun k known at_k => ?_, fun actor m => ?_⟩
  · show a.stage.screen.lastHandle + 1 = _
    rw [h.count, List.length_append, List.length_singleton]
  · show ∃ locator', _ ∧ _ ∈ (a.stage.screen.calls.push _).toList
    rw [Array.toList_push]
    rcases Nat.lt_or_ge k names.length with lt | ge
    · rw [List.getElem?_append_left lt] at at_k
      obtain ⟨locator', found', m⟩ := h.added k known at_k
      exact ⟨locator', found', List.mem_append_left _ m⟩
    · rw [List.getElem?_append_right ge, List.getElem?_singleton] at at_k
      split at at_k
      · cases at_k
        have last : names.length = k := by omega
        refine ⟨locator, found, List.mem_append_right _ (List.mem_singleton.2 ?_)⟩
        rw [h.count, last]
      · cases at_k
  · rcases List.mem_append.1 m with m | m
    · obtain ⟨k, known, id, at_k, worn⟩ := h.worn actor m
      have lt : k < names.length := (List.getElem?_eq_some_iff.1 at_k).1
      exact ⟨k, known, id, by rw [List.getElem?_append_left lt, at_k], worn⟩
    · rw [List.mem_singleton.1 m]
      refine ⟨names.length, name, ?_, List.getElem?_concat_length, .entered game r name⟩
      rw [h.count]

theorem talk {line : Line} {talking : Bool} (h : Named game names r a)
    (wears : ∀ (actor : Actor) name, game.assets.contains name = true → Worn game r name actor.name →
      Worn game r' name (game.switched line talking actor).name) :
    Named game names r' (LineReveal.talk game line talking a) := by
  have log := calls_switchSprites game line talking a.cast a.stage
  obtain ⟨sprites, calls, same⟩ := switchSprites_eq game line talking a.cast a.stage
  rw [talk_eq]
  refine h.step (by rw [same]) ?_ fun actor m => ?_
  · rw [log]
    exact List.subset_append_left _ _
  · obtain ⟨actor₀, m₀, rfl⟩ := List.mem_map.1 m
    exact ⟨actor₀, m₀, switched_handle _ _ _ _, wears actor₀⟩

end Named

theorem Staged.named {stage : RecordingStage} {names : List String} {r : LineReveal}
    {a : Scene RecordingStage} (lowers : game.LowersByLetter) (handles : stage.screen.lastHandle = 0)
    (h : Staged game stage names r a) : Named game names r a := by
  induction h with
  | new => exact ⟨handles, nofun, nofun⟩
  | @quiet _ _ a b cast quiet _ ih =>
    obtain ⟨calls, log, -⟩ := quiet.calls
    refine ih.step quiet.lastHandle ?_ fun actor m => ⟨actor, cast ▸ m, rfl, fun _ _ => id⟩
    rw [log]
    exact List.subset_append_left _ _
  | cleared _ ih =>
    refine ih.step rfl ?_ nofun
    exact log_push _ _
  | entered found seen _ ih => exact ih.enter found seen
  | left split _ ih =>
    refine ih.step rfl (log_push _ _) fun actor m => ⟨actor, ?_, rfl, fun _ _ => id⟩
    rw [split]
    exact ((List.sublist_cons_self _ _).append_left _).subset m
  | begun line style done _ ih =>
    exact ih.step rfl (log_push _ _) fun actor m =>
      ⟨actor, m, rfl, fun _ _ worn => worn.begun done line⟩
  | pushed _ _ ih =>
    exact ih.step rfl (log_push _ _) fun actor m => ⟨actor, m, rfl, fun _ _ worn => worn.shown _⟩
  | filled _ ih =>
    exact ih.step rfl (log_push _ _) fun actor m => ⟨actor, m, rfl, fun _ _ worn => worn.shown _⟩
  | talked _ ih => exact ih.talk fun _ _ found worn => worn.talked lowers found
  | completed _ _ ih => exact ih.talk fun _ _ found worn => worn.completed found

/-! ## The log of a line -/

/-- a new line begins with the call -/
def Call.beginsLine : Call → Bool
  | .clearText _ => true
  | _ => false

def Call.putOn? (handle : Handle) : Call → Option String
  | .replaceSprite other locator => if other = handle then some locator else none
  | _ => none

/-- the locators that replace one another at a handle -/
def putOn (handle : Handle) (calls : List Call) : List String := calls.filterMap (Call.putOn? handle)

def recent (calls : List Call) : List Call :=
  calls.foldl (fun line call => if call.beginsLine then [] else line ++ [call]) []

@[simp] theorem putOn_append (handle : Handle) (calls calls' : List Call) :
    putOn handle (calls ++ calls') = putOn handle calls ++ putOn handle calls' :=
  List.filterMap_append

theorem putOn_sublist {handle : Handle} {calls calls' : List Call} (h : calls.Sublist calls') :
    (putOn handle calls).Sublist (putOn handle calls') :=
  h.filterMap _

theorem putOn_nil_of_sublist {handle : Handle} {calls calls' : List Call} (h : calls.Sublist calls')
    (absent : putOn handle calls' = []) : putOn handle calls = [] := by
  have less : (putOn handle calls).Sublist (putOn handle calls') := putOn_sublist h
  rw [absent] at less
  exact List.sublist_nil.1 less

theorem recent_concat (calls : List Call) (call : Call) :
    recent (calls ++ [call]) = if call.beginsLine then [] else recent calls ++ [call] := by
  rw [recent, List.foldl_append]
  rfl

theorem recent_append {calls calls' : List Call} (within : ∀ call ∈ calls', call.beginsLine = false) :
    recent (calls ++ calls') = recent calls ++ calls' := by
  induction calls' using List.reverseRecOn with
  | nil => rw [List.append_nil, List.append_nil]
  | append_singleton calls' call ih =>
    have last : call.beginsLine = false := within call (List.mem_append_right _ (List.mem_singleton_self _))
    rw [← List.append_assoc, recent_concat, last, if_neg Bool.false_ne_true,
      ih fun call m => within call (List.mem_append_left _ m), List.append_assoc]

theorem recent_sublist (calls : List Call) : (recent calls).Sublist calls := by
  induction calls using List.reverseRecOn with
  | nil => exact List.Sublist.refl _
  | append_singleton calls call ih =>
    rw [recent_concat]
    split
    · exact List.nil_sublist _
    · exact ih.append_right _

/-- the sprite of an actor that has entered under `name` starts talking once at most and then stops
once at most -/
def TalksOnce (game : Game) (name : String) (locators : List String) : Prop :=
  ∃ base, Stem game.config.talkSuffix base name ∧
    (locators.map some).Sublist
      [game.assets.get? (base ++ game.config.talkSuffix), game.assets.get? base]

theorem TalksOnce.sublist {name : String} {locators locators' : List String}
    (h : TalksOnce game name locators) (le : locators'.Sublist locators) : TalksOnce game name locators' := by
  obtain ⟨base, stem, once⟩ := h
  exact ⟨base, stem, (le.map some).trans once⟩

theorem TalksOnce.nil (game : Game) (name : String) : TalksOnce game name [] :=
  ⟨name, .refl _ name, List.nil_sublist _⟩

/-- each sprite does so in the line at every place of the log -/
def OncePerLine (game : Game) (names : List String) (calls : List Call) : Prop :=
  ∀ before, before <+: calls → ∀ k name, names[k]? = some name →
    TalksOnce game name (putOn ⟨k + 1⟩ (recent before))

theorem OncePerLine.append {names : List String} {calls calls' : List Call}
    (h : OncePerLine game names calls) (within : ∀ call ∈ calls', call.beginsLine = false)
    (whole : ∀ k name, names[k]? = some name →
      TalksOnce game name (putOn ⟨k + 1⟩ (recent calls ++ calls'))) :
    OncePerLine game names (calls ++ calls') := by
  intro before le k name entered
  rcases List.prefix_or_prefix_of_prefix le (List.prefix_append calls calls') with inside | outside
  · exact h before inside k name entered
  · obtain ⟨more, rfl⟩ := outside
    have le : more <+: calls' := (List.prefix_append_right_inj calls).1 le
    rw [recent_append fun call m => within call (le.subset m)]
    exact (whole k name entered).sublist (putOn_sublist (le.sublist.append_left _))

theorem OncePerLine.begin {names : List String} {calls : List Call} (h : OncePerLine game names calls)
    (style : TextStyle) : OncePerLine game names (calls ++ [.clearText style]) := by
  intro before le k name entered
  rcases List.prefix_concat_iff.1 le with rfl | inside
  · rw [recent_concat]
    exact .nil game name
  · exact h before inside k name entered

/-! ## The sprites in the log -/

def Call.IsPlain (call : Call) : Prop := call.beginsLine = false ∧ ∀ handle, call.putOn? handle = none

theorem Call.isPlain_of_isQuiet {call : Call} (quiet : call.isQuiet = true) : call.IsPlain := by
  cases call <;> first | exact ⟨rfl, fun _ => rfl⟩ | cases quiet

theorem putOn_of_plain {calls : List Call} (plain : ∀ call ∈ calls, call.IsPlain) (handle : Handle) :
    putOn handle calls = [] :=
  List.filterMap_eq_nil_iff.2 fun call m => (plain call m).2 handle

theorem beginsLine_switchCalls (game : Game) (line : Line) (talking : Bool) (cast : List Actor) :
    ∀ call ∈ game.switchCalls line talking cast, call.beginsLine = false := by
  intro call m
  obtain ⟨a, -, change⟩ := List.mem_filterMap.1 m
  obtain ⟨target, -, rfl⟩ := Option.map_eq_some_iff.1 change
  rfl

theorem putOn_switchCalls_of_not_mem {line : Line} {talking : Bool} {cast : List Actor}
    {handle : Handle} (absent : ∀ a ∈ cast, a.handle ≠ handle) :
    putOn handle (game.switchCalls line talking cast) = [] := by
  refine List.filterMap_eq_nil_iff.2 fun call m => ?_
  obtain ⟨a, present, change⟩ := List.mem_filterMap.1 m
  obtain ⟨target, -, rfl⟩ := Option.map_eq_some_iff.1 change
  exact if_neg (absent a present)

theorem putOn_switchCalls {line : Line} {talking : Bool} {cast : List Actor}
    (increasing : cast.Pairwise fun a b => a.handle.id < b.handle.id) {a : Actor} (m : a ∈ cast) :
    putOn a.handle (game.switchCalls line talking cast) =
      ((game.switch? line talking a).map Prod.snd).toList := by
  obtain ⟨before, after, rfl⟩ := List.append_of_mem m
  have apart := List.pairwise_append.1 increasing
  have earlier : ∀ b ∈ before, b.handle ≠ a.handle := fun b mb same =>
    absurd (apart.2.2 b mb a List.mem_cons_self) (by rw [same]; exact Nat.lt_irrefl _)
  have later : ∀ b ∈ after, b.handle ≠ a.handle := fun b mb same =>
    absurd ((List.pairwise_cons.1 apart.2.1).1 b mb) (by rw [same]; exact Nat.lt_irrefl _)
  have split : game.switchCalls line talking (before ++ a :: after) =
      game.switchCalls line talking before ++
        (game.switchCalls line talking [a] ++ game.switchCalls line talking after) := by
    simp only [Game.switchCalls]
    rw [← List.filterMap_append, ← List.filterMap_append, List.singleton_append]
  rw [split, putOn_append, putOn_append, putOn_switchCalls_of_not_mem earlier,
    putOn_switchCalls_of_not_mem later, List.nil_append, List.append_nil]
  cases change : game.switch? line talking a with
  | none => simp [Game.switchCalls, change, putOn]
  | some target => simp [Game.switchCalls, change, putOn, Call.putOn?]

structure Turns (game : Game) (names : List String) (r : LineReveal) (a : Scene RecordingStage) :
    Prop where
  once : OncePerLine game names a.stage.screen.calls.toList
  fresh : ∀ k, names.length ≤ k → putOn ⟨k + 1⟩ a.stage.screen.calls.toList = []
  talking : r.isRevealing = true → ∀ k name, names[k]? = some name →
    ∃ base, Stem game.config.talkSuffix base name ∧
      ((putOn ⟨k + 1⟩ (recent a.stage.screen.calls.toList)).map some).Sublist
        [game.assets.get? (base ++ game.config.talkSuffix)]
  cast : r.isRevealing = true → ∀ actor ∈ a.cast,
    putOn actor.handle (recent a.stage.screen.calls.toList) = [] ∨
      baseName game.config.talkSuffix actor.name ++ game.config.talkSuffix = actor.name ∧
        (putOn actor.handle (recent a.stage.screen.calls.toList)).map some =
          [game.assets.get? actor.name]

namespace Turns

variable {names : List String} {r r' : LineReveal} {a b : Scene RecordingStage}

theorem step (h : Turns game names r a) {calls : List Call}
    (log : b.stage.screen.calls.toList = a.stage.screen.calls.toList ++ calls)
    (plain : ∀ call ∈ calls, call.IsPlain)
    (cast : ∀ actor ∈ b.cast, actor ∈ a.cast ∨
      putOn actor.handle a.stage.screen.calls.toList = [])
    (revealing : r'.isRevealing = true → r.isRevealing = true) : Turns game names r' b := by
  have within : ∀ call ∈ calls, call.beginsLine = false := fun call m => (plain call m).1
  have same (handle : Handle) : putOn handle (recent b.stage.screen.calls.toList) =
      putOn handle (recent a.stage.screen.calls.toList) := by
    rw [log, recent_append within, putOn_append, putOn_of_plain plain, List.append_nil]
  refine ⟨?_, fun k ge => ?_, fun reveals k name entered => ?_, fun reveals actor m => ?_⟩
  · rw [log]
    refine h.once.append within fun k name entered => ?_
    rw [putOn_append, putOn_of_plain plain, List.append_nil]
    exact h.once _ (List.prefix_refl _) k name entered
  · rw [log, putOn_append, h.fresh k ge, putOn_of_plain plain, List.append_nil]
  · rw [same]
    exact h.talking (revealing reveals) k name entered
  · rw [same]
    rcases cast actor m with m | absent
    · exact h.cast (revealing reveals) actor m
    · left
      exact putOn_nil_of_sublist (recent_sublist _) absent

theorem widen (h : Turns game names r a) (name : String) : Turns game (names ++ [name]) r a := by
  have next (k : Nat) (known : String) (at_k : (names ++ [name])[k]? = some known) :
      names[k]? = some known ∨ putOn ⟨k + 1⟩ a.stage.screen.calls.toList = [] := by
    rcases Nat.lt_or_ge k names.length with lt | ge
    · rw [List.getElem?_append_left lt] at at_k
      exact .inl at_k
    · exact .inr (h.fresh k ge)
  refine ⟨fun before le k known at_k => ?_, fun k ge => h.fresh k ?_, fun reveals k known at_k => ?_,
    h.cast⟩
  · rcases next k known at_k with entered | absent
    · exact h.once before le k known entered
    · rw [putOn_nil_of_sublist ((recent_sublist before).trans le.sublist) absent]
      exact .nil game known
  · rw [List.length_append] at ge
    omega
  · rcases next k known at_k with entered | absent
    · exact h.talking reveals k known entered
    · rw [putOn_nil_of_sublist (recent_sublist _) absent]
      exact ⟨known, .refl _ known, List.nil_sublist _⟩

theorem enter {name locator : String} (h : Turns game names r a) (named : Named game names r a)
    (seen : a.spritesHidden = false) : Turns game (names ++ [name]) r (a.enter name locator) := by
  rw [Scene.enter_of_seen seen]
  refine (h.widen name).step Array.toList_push ?_ ?_ id
  · intro call m
    rw [List.mem_singleton.1 m]
    exact ⟨rfl, fun _ => rfl⟩
  · intro actor m
    rcases List.mem_append.1 m with m | m
    · exact .inl m
    · rw [List.mem_singleton.1 m, named.count]
      exact .inr (h.fresh _ (Nat.le_refl _))

theorem begin (h : Turns game names r a) (line : Line) (style : TextStyle) :
    Turns game names (.revealing line 0) (a.onStage (clearText · style)) := by
  have log : (a.onStage (clearText · style)).stage.screen.calls.toList =
      a.stage.screen.calls.toList ++ [.clearText style] := Array.toList_push
  have nothing : recent (a.onStage (clearText · style)).stage.screen.calls.toList = [] := by
    rw [log, recent_concat]
    rfl
  refine ⟨?_, fun k ge => ?_, fun _ k name _ => ?_, fun _ actor _ => ?_⟩
  · rw [log]
    exact h.once.begin style
  · rw [log, putOn_append, h.fresh k ge]
    rfl
  · rw [nothing]
    exact ⟨name, .refl _ name, List.nil_sublist _⟩
  · rw [nothing]
    exact .inl rfl

/-- an actor of the cast has the handle of the `k`-th entrance, or none has -/
theorem actor_or_none (named : Named game names r a) {k : Nat} {name : String}
    (entered : names[k]? = some name) :
    (∃ actor ∈ a.cast, actor.handle = ⟨k + 1⟩ ∧ Worn game r name actor.name) ∨
      ∀ actor ∈ a.cast, actor.handle ≠ ⟨k + 1⟩ := by
  by_cases present : ∃ actor ∈ a.cast, actor.handle = ⟨k + 1⟩
  · obtain ⟨actor, m, handle⟩ := present
    obtain ⟨j, other, id, at_j, worn⟩ := named.worn actor m
    rw [handle] at id
    have same : j = k := (Nat.succ.inj id).symm
    rw [same, entered, Option.some.injEq] at at_j
    exact .inl ⟨actor, m, handle, at_j ▸ worn⟩
  · exact .inr fun actor m handle => present ⟨actor, m, handle⟩

theorem absent_of_le (named : Named game names r a) {k : Nat} (ge : names.length ≤ k) :
    ∀ actor ∈ a.cast, actor.handle ≠ ⟨k + 1⟩ := by
  intro actor m handle
  obtain ⟨j, other, id, at_j, -⟩ := named.worn actor m
  rw [handle] at id
  have lt : j < names.length := (List.getElem?_eq_some_iff.1 at_j).1
  have same : j = k := (Nat.succ.inj id).symm
  omega

theorem talk {line : Line} {n : Nat} (h : Turns game names (.revealing line n) a)
    (named : Named game names (.revealing line n) a)
    (named' : Named game names (.revealing line n) (LineReveal.talk game line true a))
    (increasing : a.cast.Pairwise fun a b => a.handle.id < b.handle.id) :
    Turns game names (.revealing line n) (LineReveal.talk game line true a) := by
  rw [talk_eq] at named' ⊢
  have log := calls_switchSprites game line true a.cast a.stage
  have within := beginsLine_switchCalls game line true a.cast
  have cast : ∀ actor ∈ a.cast,
      putOn actor.handle (recent a.stage.screen.calls.toList ++ game.switchCalls line true a.cast) =
          [] ∨
        baseName game.config.talkSuffix (game.switched line true actor).name ++
            game.config.talkSuffix = (game.switched line true actor).name ∧
          (putOn actor.handle (recent a.stage.screen.calls.toList ++
              game.switchCalls line true a.cast)).map some =
            [game.assets.get? (game.switched line true actor).name] := by
    intro actor m
    rw [putOn_append, putOn_switchCalls increasing m]
    cases change : game.switch? line true actor with
    | none =>
      rw [switched_of_none change, Option.map_none, Option.toList_none, List.append_nil]
      exact h.cast rfl actor m
    | some target =>
      obtain ⟨talking, locator⟩ := target
      rw [switched_of_some change]
      obtain ⟨-, -, -, rfl, other, talks⟩ := switch?_eq_some_iff.1 change
      simp only [talkTarget, if_true] at other talks ⊢
      rcases h.cast rfl actor m with nothing | ⟨already, -⟩
      · rw [nothing, baseName_append, talks]
        exact .inr ⟨rfl, rfl⟩
      · exact absurd already other
  have talking : ∀ k name, names[k]? = some name → ∃ base, Stem game.config.talkSuffix base name ∧
      ((putOn ⟨k + 1⟩ (recent a.stage.screen.calls.toList ++
        game.switchCalls line true a.cast)).map some).Sublist
          [game.assets.get? (base ++ game.config.talkSuffix)] := by
    intro k name entered
    rcases actor_or_none named' entered with ⟨actor', m, handle, worn⟩ | absent
    · obtain ⟨actor, present, rfl⟩ := List.mem_map.1 m
      rw [switched_handle] at handle
      refine ⟨_, worn.stem, ?_⟩
      rw [← handle]
      rcases cast actor present with nothing | ⟨talks, puts⟩
      · rw [nothing]
        exact List.nil_sublist _
      · rw [puts, talks]
    · have absent : ∀ actor ∈ a.cast, actor.handle ≠ ⟨k + 1⟩ := fun actor m => by
        rw [← switched_handle game line true actor]
        exact absent _ (List.mem_map_of_mem m)
      rw [putOn_append, putOn_switchCalls_of_not_mem absent, List.append_nil]
      exact h.talking rfl k name entered
  refine ⟨?_, fun k ge => ?_, fun _ k name entered => ?_, fun _ actor' m => ?_⟩
  · dsimp only
    rw [log]
    refine h.once.append within fun k name entered => ?_
    obtain ⟨base, stem, once⟩ := talking k name entered
    exact ⟨base, stem, once.trans ((List.nil_sublist _).cons_cons _)⟩
  · dsimp only
    rw [log, putOn_append, h.fresh k ge, putOn_switchCalls_of_not_mem (absent_of_le named ge)]
    rfl
  · dsimp only
    rw [log, recent_append within]
    exact talking k name entered
  · obtain ⟨actor, present, rfl⟩ := List.mem_map.1 m
    dsimp only
    rw [log, recent_append within, switched_handle]
    exact cast actor present

theorem complete {line : Line} {n : Nat} (h : Turns game names (.revealing line n) a)
    (named : Named game names (.revealing line n) a)
    (increasing : a.cast.Pairwise fun a b => a.handle.id < b.handle.id) :
    Turns game names (.done line) (LineReveal.talk game line false a) := by
  rw [talk_eq]
  have log := calls_switchSprites game line false a.cast a.stage
  have within := beginsLine_switchCalls game line false a.cast
  refine ⟨?_, fun k ge => ?_, nofun, nofun⟩
  · dsimp only
    rw [log]
    refine h.once.append within fun k name entered => ?_
    rw [putOn_append]
    rcases actor_or_none named entered with ⟨actor, m, handle, worn⟩ | absent
    · refine ⟨_, worn.stem, ?_⟩
      rw [← handle, putOn_switchCalls increasing m, List.map_append]
      -- the sprite talks or it does not, and then it is or is not replaced
      have talked : ((putOn actor.handle (recent a.stage.screen.calls.toList)).map some).Sublist
          [game.assets.get? (baseName game.config.talkSuffix actor.name ++
            game.config.talkSuffix)] := by
        rcases h.cast rfl actor m with nothing | ⟨talks, puts⟩
        · rw [nothing]
          exact List.nil_sublist _
        · rw [puts, talks]
      have idle : ((((game.switch? line false actor).map Prod.snd).toList).map some).Sublist
          [game.assets.get? (baseName game.config.talkSuffix actor.name)] := by
        cases change : game.switch? line false actor with
        | none => exact List.nil_sublist _
        | some target =>
          obtain ⟨name, locator⟩ := target
          obtain ⟨-, -, -, rfl, -, found⟩ := switch?_eq_some_iff.1 change
          rw [talkTarget, if_neg Bool.false_ne_true] at found
          rw [found]
          exact List.Sublist.refl _
      exact talked.append idle
    · rw [putOn_switchCalls_of_not_mem absent, List.append_nil]
      obtain ⟨base, stem, once⟩ := h.talking rfl k name entered
      exact ⟨base, stem, once.trans ((List.nil_sublist _).cons_cons _)⟩
  · dsimp only
    rw [log, putOn_append, h.fresh k ge, putOn_switchCalls_of_not_mem (absent_of_le named ge)]
    rfl

end Turns

theorem Staged.turns {stage : RecordingStage} {names : List String} {r : LineReveal}
    {a : Scene RecordingStage} (lowers : game.LowersByLetter) (new : stage.IsNew)
    (h : Staged game stage names r a) : Turns game names r a := by
  have plain_one {call : Call} (plain : call.IsPlain) : ∀ other ∈ [call], other.IsPlain := by
    intro other m
    rw [List.mem_singleton.1 m]
    exact plain
  induction h with
  | new =>
    have nothing : stage.screen.calls.toList = [] := by rw [new.calls]
    refine ⟨fun before le k name entered => ?_, fun k _ => ?_, nofun, nofun⟩
    · cases entered
    · rw [nothing]
      rfl
  | quiet cast quiet _ ih =>
    obtain ⟨calls, log, quiet⟩ := quiet.calls
    exact ih.step log (fun call m => Call.isPlain_of_isQuiet (quiet call m))
      (fun actor m => .inl (cast ▸ m)) id
  | cleared _ ih => exact ih.step Array.toList_push (plain_one ⟨rfl, fun _ => rfl⟩) nofun id
  | entered _ seen h ih => exact ih.enter (h.named lowers new.lastHandle) seen
  | left split _ ih =>
    refine ih.step Array.toList_push (plain_one ⟨rfl, fun _ => rfl⟩) (fun actor m => .inl ?_) id
    rw [split]
    exact ((List.sublist_cons_self _ _).append_left _).subset m
  | begun line style _ _ ih => exact ih.begin line style
  | pushed _ _ ih =>
    exact ih.step Array.toList_push (plain_one ⟨rfl, fun _ => rfl⟩) (fun _ => .inl) fun _ => rfl
  | filled _ ih =>
    exact ih.step Array.toList_push (plain_one ⟨rfl, fun _ => rfl⟩) (fun _ => .inl) fun _ => rfl
  | talked h ih =>
    exact ih.talk (h.named lowers new.lastHandle) (h.talked.named lowers new.lastHandle)
      (h.agrees new.sprites).increasing
  | completed _ h ih =>
    exact ih.complete (h.named lowers new.lastHandle) (h.agrees new.sprites).increasing

/-! ## Playback -/

/-- **Sprites stop talking when the line is done.** Let a session play on a new recording stage, and
let its host do anything but change sprites or text by itself. Suppose that the names of the sprites
are lowered letter by letter. Then each character on stage has the handle of one of the entrances, and
unless a line is being revealed or the name of the entrance ends with the suffix of talking sprites, it
has just this name and shows its sprite. In every stretch of the log in which no line begins, the
sprite of each entrance is first replaced by a talking one at most once, and then by the idle one of
the same name at most once. -/
theorem talking_never_leaks (game : Game) (lowers : game.LowersByLetter) {stage : RecordingStage}
    (new : stage.IsNew) {deeds : List Deed} {s : Session RecordingStage}
    (h : ContinuesWithin Operation.Gentle game (.ofStage stage) deeds s) :
    (∀ actor ∈ s.scene.cast, ∃ k name, actor.handle = ⟨k + 1⟩ ∧
      (entrances game deeds)[k]? = some name ∧
      (s.reveal.isRevealing = false → ¬ game.config.talkSuffix.toList <:+ name.toList →
        actor.name = name ∧
          s.stage.screen.sprites.get? actor.handle.id = game.assets.get? name)) ∧
    ∀ k name, (entrances game deeds)[k]? = some name →
      (∃ locator, game.assets.get? name = some locator ∧
        .addSprite ⟨k + 1⟩ locator ∈ s.stage.screen.calls.toList) ∧
      ∀ stretch, stretch <:+: s.stage.screen.calls.toList →
        (∀ call ∈ stretch, call.beginsLine = false) →
        ∃ base, Stem game.config.talkSuffix base name ∧
          ((putOn ⟨k + 1⟩ stretch).map some).Sublist
            [game.assets.get? (base ++ game.config.talkSuffix), game.assets.get? base] := by
  have named := h.staged.named lowers new.lastHandle
  have agrees := h.staged.agrees new.sprites
  have turns := h.staged.turns lowers new
  refine ⟨fun actor m => ?_, fun k name entered => ⟨named.added k name entered, ?_⟩⟩
  · obtain ⟨k, name, id, entered, worn⟩ := named.worn actor m
    refine ⟨k, name, congrArg Handle.mk id, entered, fun done plain => ?_⟩
    have back : actor.name = name := worn.eq_of_done done plain
    obtain ⟨locator, found, displayed⟩ := agrees.shown actor m
    rw [back] at found
    exact ⟨back, displayed.trans found.symm⟩
  · rintro stretch ⟨before, after, split⟩ within
    have le : before ++ stretch <+: s.stage.screen.calls.toList := ⟨after, split⟩
    refine (turns.once _ le k name entered).sublist (putOn_sublist ?_)
    rw [recent_append within]
    exact List.sublist_append_right _ _

/-- a character talks while its line is revealed, and no longer when the line is done -/
theorem character_falls_silent :
    let line : Cue := .dialogue ⟨"Hi", some "bob", false, false⟩
    let game : Game :=
      { script := .ofEvents [.single (.character (some "Bob") .show), .single line]
        assets := .ofList [("Bob", "b.png"), ("Bob_Talk", "t.png")] }
    ∃ deeds, ∃ s : Session RecordingStage,
      ContinuesWithin Operation.Gentle game (.ofStage {}) deeds s ∧
        putOn ⟨1⟩ s.stage.screen.calls.toList = ["t.png", "b.png"] ∧
        ∀ actor ∈ s.scene.cast, actor.name = "Bob" := by
  intro line game
  have plays : ∃ deeds, ∃ s : Session RecordingStage,
      ContinuesWithin Operation.Gentle game (.ofStage {}) deeds s ∧
        putOn ⟨1⟩ s.stage.screen.calls.toList = ["t.png", "b.png"] ∧
        s.reveal.isRevealing = false ∧ entrances game deeds = ["Bob"] := by
    refine ⟨_, _, .operation (.runUntil 100 10) trivial (.operation .start trivial .refl rfl) rfl, ?_⟩
    decide +kernel
  obtain ⟨deeds, s, host, log, done, names⟩ := plays
  refine ⟨deeds, s, host, log, fun actor m => ?_⟩
  have lowers : game.LowersByLetter := lowersByLetter_of_no_sigma (by decide +kernel)
  obtain ⟨k, name, -, entered, back⟩ :=
    (talking_never_leaks game lowers ⟨rfl, rfl, rfl⟩ host).1 actor m
  rw [names, List.getElem?_singleton] at entered
  split at entered
  · cases entered
    exact (back done (by decide +kernel)).1
  · cases entered

end VisualNovel
