import VisualNovel.Game.Store
import VisualNovel.Proofs.Files.Written
import VisualNovel.Proofs.Json.RoundTrip
import VisualNovel.Proofs.Tables
import VisualNovel.Proofs.Text.Bytes

/-!
# Asset tables are read as they are written

* `AssetTable.parse?_render`    a table is read from its document;
* `AssetTable.line`, `AssetTable.toList_render`   the document, line by line;
* `GameStore.runOn`             an operation on a tree of files;
* `GameStore.save_then_load`    a saved table is what a load brings;
* `asset_tables_survive`        what this means for a table.
-/

namespace VisualNovel

open Json

namespace AssetTable

theorem tidy_toValue (t : AssetTable) : t.toValue.Tidy 1 := by
  refine .object ?_ fun m mem => ?_
  · rw [List.map_map]
    exact t.nodup_keys
  · obtain ⟨entry, -, rfl⟩ := List.mem_map.1 mem
    exact .text _

theorem table?_toValue (t : AssetTable) : t.toValue.table? Value.text? = some t := by
  have texts : (t.entries.map fun e => (e.1, Value.text e.2)).mapM
      (fun m => m.2.text?.map (m.1, ·)) = some t.entries := mapM_map_eq_self fun _ _ => rfl
  have read : t.toValue.table? Value.text? = (some t.entries).bind (some ∘ Table.ofList) :=
    congrArg (·.bind (some ∘ Table.ofList)) texts
  rw [read, Option.bind_some, Function.comp_apply, Table.ofList_entries]

theorem parse?_render (t : AssetTable) : parse? t.render = some t := by
  have read : Json.parse? t.render = some t.toValue := by
    have whole := t.tidy_toValue.parse?_render (List.forall_mem_nil (isSpace · = true))
    rw [String.ofList_nil, String.append_empty] at whole
    exact whole
  rw [parse?, read, Option.bind_eq_bind, Option.bind_some, table?_toValue]

/-! ## Lines -/

/-- a name and its locator, on a line of their own -/
def line (entry : String × String) : List Char :=
  newLine 1 ++ quote entry.1.toList ++ [':', ' '] ++ quote entry.2.toList

theorem prettyMembers_entries (entries : List (String × String)) :
    prettyMembers 1 (entries.map fun (n, l) => (n, .text l)) =
      (entries.map line).flatMap (',' :: ·) := by
  induction entries with
  | nil => rfl
  | cons entry entries ih =>
    rw [List.map_cons, prettyMembers, ih, List.map_cons, List.flatMap_cons]
    simp only [line, Value.pretty, List.cons_append, List.append_assoc]

theorem intercalate_cons {α : Type} (sep first : List α) (rest : List (List α)) :
    List.intercalate sep (first :: rest) = first ++ rest.flatMap (sep ++ ·) := by
  induction rest generalizing first with
  | nil => simp
  | cons second rest ih => rw [List.intercalate_cons_cons, ih, List.flatMap_cons]; simp

theorem toList_render (t : AssetTable) : t.render.toList =
    '{' :: List.intercalate [','] (t.entries.map line) ++
      (if t.isEmpty then [] else newLine 0) ++ ['}'] := by
  rw [render, Json.render, String.toList_ofList, toValue]
  obtain ⟨_ | ⟨entry, entries⟩, sorted⟩ := t
  · rfl
  · rw [List.map_cons, List.map_cons, Value.pretty, prettyMembers_entries, intercalate_cons]
    simp [line, Value.pretty, Table.isEmpty]

end AssetTable

/-! ## Directories -/

theorem fromUTF8?_toUTF8 (s : String) : String.fromUTF8? s.toUTF8 = some s := dif_pos s.isValidUTF8

namespace GameStore

variable {α β : Type} {base file : String} {tree tree' : Tree} {t : AssetTable}

/-- what an operation on a tree of files answers, and the tree after it -/
def runOn (tree : Tree) (x : ExceptT GameError (StateM Tree) α) : Except GameError α × Tree :=
  x.run.run tree

theorem runOn_bind {x : ExceptT GameError (StateM Tree) α} {a : α}
    (done : runOn tree x = (.ok a, tree')) (f : α → ExceptT GameError (StateM Tree) β) :
    runOn tree (x >>= f) = runOn tree' (f a) := by
  have run : x.run.run tree = pure (.ok a, tree') := done
  rw [runOn, ExceptT.run_bind, StateT.run_bind, run, pure_bind]
  rfl

theorem runOn_bind_of_error {x : ExceptT GameError (StateM Tree) α} {e : GameError}
    (failed : runOn tree x = (.error e, tree')) (f : α → ExceptT GameError (StateM Tree) β) :
    runOn tree (x >>= f) = (.error e, tree') := by
  have run : x.run.run tree = pure (.error e, tree') := failed
  rw [runOn, ExceptT.run_bind, StateT.run_bind, run, pure_bind]
  rfl

theorem runOn_readFile {kind : GameFile} {path text : String} (there : tree.exists? path = true)
    (read : tree.read path = .ok text.toUTF8) : runOn tree (readFile kind path) = (.ok text, tree) := by
  have found : runOn tree (FileSystem.pathExists path) = (.ok true, tree) := by
    rw [← there]
    rfl
  have bytes : runOn tree (FileSystem.readBytes path) = (.ok (.ok text.toUTF8), tree) := by
    rw [← read]
    rfl
  rw [readFile, runOn_bind found, if_pos rfl, readText, bind_assoc, runOn_bind bytes]
  simp only [fromUTF8?_toUTF8]
  rfl

theorem runOn_loadAssets (there : tree.exists? (assetsPath base) = true)
    (read : tree.read (assetsPath base) = .ok t.render.toUTF8) :
    runOn tree (loadAssets (.directory base file)) = (.ok t, tree) := by
  rw [loadAssets, runOn_bind (runOn_readFile there read)]
  simp only [AssetTable.parse?_render]
  rfl

theorem runOn_writeText (path text : String) (tree : Tree) :
    runOn tree (FileSystem.writeText path text) =
      match tree.write path text with
      | .ok tree' => (.ok (.ok ()), tree')
      | .error e => (.ok (.error e), tree) := by
  have lifted : runOn tree (FileSystem.writeText path text) =
      Prod.map .ok id ((FileSystem.writeText path text : StateM Tree _).run tree) := rfl
  rw [lifted]
  simp only [FileSystem.writeText, StateT.run_bind, StateT.run_get, pure_bind]
  cases tree.write path text with
  | error e => rfl
  | ok tree' => rfl

theorem runOn_saveAssets (base file : String) (t : AssetTable) (tree : Tree) :
    runOn tree (saveAssets t (.directory base file)) =
      match tree.write (assetsPath base) t.render with
      | .ok tree' => (.ok (), tree')
      | .error e => (.error (.unwritable (assetsPath base) e), tree) := by
  have answer := runOn_writeText (assetsPath base) t.render tree
  rw [saveAssets]
  cases written : tree.write (assetsPath base) t.render with
  | error e =>
    rw [written] at answer
    rw [runOn_bind answer]
    rfl
  | ok tree' =>
    rw [written] at answer
    rw [runOn_bind answer]
    rfl

/-- once a tree has taken the file of a table, the table is loaded from it -/
theorem runOn_saved (file : String) (written : tree.write (assetsPath base) t.render = .ok tree') :
    runOn tree (saveAssets t (.directory base file)) = (.ok (), tree') ∧
      runOn tree' (loadAssets (.directory base file)) = (.ok t, tree') := by
  obtain ⟨there, read⟩ := Tree.read_written written
  exact ⟨by rw [runOn_saveAssets, written], runOn_loadAssets there read⟩

theorem save_then_load (store : GameStore) (t : AssetTable) (tree : Tree) :
    runOn tree (do store.saveAssets t; store.loadAssets) =
      runOn tree (do store.saveAssets t; return t) := by
  cases store with
  | memory script assets config => rfl
  | directory base file =>
    cases written : tree.write (assetsPath base) t.render with
    | error e =>
      have failed := runOn_saveAssets base file t tree
      rw [written] at failed
      rw [runOn_bind_of_error failed, runOn_bind_of_error failed]
    | ok tree' =>
      obtain ⟨saved, loaded⟩ := runOn_saved file written
      rw [runOn_bind saved, runOn_bind saved, loaded]
      rfl

end GameStore

/-- **Asset tables survive saving and loading.** The document of a table is read as the table, and so
is the file that a game directory keeps of it: the table is saved if the tree of files takes the
document, and then it is what a load brings. The document has a line for each name that is bound, in
the order of the bytes of the names, with what it is bound to. Of the insertions that made the table, it
shows the last one of each name and nothing else. -/
theorem asset_tables_survive (t : AssetTable) :
    AssetTable.parse? t.render = some t ∧
    (∀ (store : GameStore) (tree : Tree),
      GameStore.runOn tree (do store.saveAssets t; store.loadAssets) =
        GameStore.runOn tree (do store.saveAssets t; return t)) ∧
    (∀ (base file : String) (tree tree' : Tree),
      tree.write (GameStore.assetsPath base) t.render = .ok tree' →
        GameStore.runOn tree (GameStore.saveAssets t (.directory base file)) = (.ok (), tree') ∧
          GameStore.runOn tree' (GameStore.loadAssets (.directory base file)) = (.ok t, tree')) ∧
    t.render.toList = '{' :: List.intercalate [','] (t.entries.map AssetTable.line) ++
      (if t.isEmpty then [] else newLine 0) ++ ['}'] ∧
    t.entries.Pairwise (fun entry later => utf8Bytes entry.1 < utf8Bytes later.1) ∧
    (∀ name locator, (name, locator) ∈ t.entries ↔ t.get? name = some locator) ∧
    ∀ pairs pairs' : List (String × String),
      AssetTable.render (.ofList pairs) = AssetTable.render (.ofList pairs') ↔
        ∀ name, pairs.reverse.lookup name = pairs'.reverse.lookup name := by
  refine ⟨t.parse?_render, fun store tree => store.save_then_load t tree,
    fun _ file _ _ written => GameStore.runOn_saved file written, t.toList_render,
    t.sorted.imp lt_iff_utf8Bytes_lt.1, fun _ _ => Table.get?_iff.symm, fun pairs pairs' => ?_⟩
  rw [← Table.ofList_eq_iff]
  refine ⟨fun same => ?_, congrArg AssetTable.render⟩
  have read := AssetTable.parse?_render (.ofList pairs)
  rw [same, AssetTable.parse?_render] at read
  exact (Option.some.inj read).symm

end VisualNovel
