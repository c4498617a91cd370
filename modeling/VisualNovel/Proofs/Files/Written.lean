import Mathlib.Tactic.SplitIfs
import VisualNovel.Files.Tree

/-!
# A file is read as it was written

The place of a file that can be written is a new one, or that of another file. No path leads through
it, so every path leads where it led before, and the path of the file leads to the new text.

* `Tree.resolve_cons_iff`  what a step asks for, and where it leads;
* `Tree.resolve_insert`    a file where no folder is stands in nobody's way;
* `Tree.write_inv`         what writing a file asks for, and what it does;
* `Tree.read_written`      what is read after a file has been written.
-/

set_option linter.unusedSectionVars false

namespace VisualNovel

def Place.step? (place : Place) (step : String) : Option Place :=
  if step = "." then some place
  else if step = ".." then some place.parent
  else if fits nameLimit step then some (place ++ [step])
  else none

namespace Tree

variable {t t' : Tree} {place target : Place}

/-! ## Steps -/

theorem resolve_cons_iff {step : String} {steps : List String} :
    t.resolve place (step :: steps) = .ok target ↔ t.node? place = some .folder ∧
      ∃ next, place.step? step = some next ∧ t.resolve next steps = .ok target := by
  rw [resolve]
  rcases t.node? place with _ | (_ | _)
  · simp
  · simp
  · simp only [Place.step?, true_and]
    split_ifs <;> simp

theorem resolve_concat_iff {steps : List String} {step : String} :
    t.resolve place (steps ++ [step]) = .ok target ↔ ∃ folder, t.resolve place steps = .ok folder ∧
      t.node? folder = some .folder ∧ folder.step? step = some target := by
  induction steps generalizing place with
  | nil =>
    rw [List.nil_append, resolve_cons_iff]
    simp [resolve]
  | cons first steps ih =>
    simp only [List.cons_append, resolve_cons_iff, ih]
    grind

/-- what is known of a place outside the tree, no entry can change -/
theorem node?_insert {new : Place} {node : Node} (inside : t.node? new ≠ some .folder)
    (place : Place) : (Tree.mk (t.nodes.insert new node)).node? place =
      if place = new then some node else t.node? place := by
  by_cases outside : (place.isAbove || place = Place.outermost) = true
  · have elsewhere : place ≠ new := by
      rintro rfl
      exact inside (by rw [node?, if_pos outside])
    rw [node?, node?, if_pos outside, if_pos outside, if_neg elsewhere]
  · rw [node?, node?, if_neg outside, if_neg outside, Table.get?_insert]

theorem resolve_insert {new : Place} {bytes : ByteArray} (inside : t.node? new ≠ some .folder)
    {steps : List String} (found : t.resolve place steps = .ok target) :
    (Tree.mk (t.nodes.insert new (.file bytes))).resolve place steps = .ok target := by
  induction steps generalizing place with
  | nil => exact found
  | cons step steps ih =>
    obtain ⟨passable, next, leads, rest⟩ := resolve_cons_iff.1 found
    have elsewhere : place ≠ new := fun same => inside (same ▸ passable)
    refine resolve_cons_iff.2 ⟨?_, next, leads, ih rest⟩
    rw [node?_insert inside, if_neg elsewhere, passable]

/-! ## Reading and writing -/

theorem read_of_file {path : String} {bytes : ByteArray} (found : t.find path = .ok place)
    (node : t.node? place = some (.file bytes)) :
    t.exists? path = true ∧ t.read path = .ok bytes := by
  constructor
  · simp only [exists?, found, node, Option.isSome_some]
  · simp only [read, found, bind, Except.bind, node]

theorem writeIn_inv {folder : Place} {name text : String}
    (written : t.writeIn folder name text = .ok t') :
    fits nameLimit name = true ∧ t.node? (folder ++ [name]) ≠ some .folder ∧
      t' = ⟨t.nodes.insert (folder ++ [name]) (.file text.toUTF8)⟩ := by
  rw [writeIn] at written
  split_ifs at written with short
  split at written
  · cases written
  · next inside => exact ⟨short, inside, (Except.ok.inj written).symm⟩

theorem write_inv {path text : String} (written : t.write path text = .ok t') :
    pathFault? path = none ∧ ∃ steps name folder, pathSteps path = steps ++ [name] ∧
      t.resolve (Place.start path) steps = .ok folder ∧ t.node? folder = some .folder ∧
      folder.step? name = some (folder ++ [name]) ∧ t.node? (folder ++ [name]) ≠ some .folder ∧
      t' = ⟨t.nodes.insert (folder ++ [name]) (.file text.toUTF8)⟩ := by
  rw [write] at written
  split at written
  · cases written
  next faultless =>
  refine ⟨faultless, ?_⟩
  simp only [bind, Except.bind] at written
  split at written
  · cases written
  next folder found =>
  split at written
  · cases written
  · cases written
  next passable =>
  split at written
  · cases written
  next name last =>
  split_ifs at written with names_no_file
  simp only [Bool.or_eq_true, decide_eq_true_eq, not_or, Bool.not_eq_true] at names_no_file
  obtain ⟨⟨no_dot, no_dots⟩, no_slash⟩ := names_no_file
  obtain ⟨short, inside, result⟩ := writeIn_inv written
  have way : pathSteps path = (pieces path).dropLast ++ [name] := by
    obtain ⟨steps, all⟩ := List.getLast?_eq_some_iff.1 last
    rw [pathSteps, no_slash, if_neg Bool.false_ne_true, all, List.dropLast_concat]
  have leads : folder.step? name = some (folder ++ [name]) := by
    rw [Place.step?, if_neg no_dot, if_neg no_dots, if_pos short]
  exact ⟨_, name, folder, way, found, passable, leads, inside, result⟩

/-- **A file is read as it was written.** -/
theorem read_written {path text : String} (written : t.write path text = .ok t') :
    t'.exists? path = true ∧ t'.read path = .ok text.toUTF8 := by
  obtain ⟨faultless, steps, name, folder, way, found, passable, leads, inside, rfl⟩ :=
    write_inv written
  have elsewhere : folder ≠ folder ++ [name] := by simp
  have there : (Tree.mk (t.nodes.insert (folder ++ [name]) (.file text.toUTF8))).find path =
      .ok (folder ++ [name]) := by
    rw [find, faultless, way]
    refine resolve_concat_iff.2 ⟨folder, resolve_insert inside found, ?_, leads⟩
    rw [node?_insert inside, if_neg elsewhere, passable]
  exact read_of_file there (by rw [node?_insert inside, if_pos rfl])

end Tree

end VisualNovel
