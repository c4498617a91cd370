import VisualNovel.Asset.Table
import VisualNovel.Files.Path
import VisualNovel.Files.System

/-!
# Finding assets

* `assetFolders`      the folders of a game directory that hold assets;
* `assetName`         a picture is named by the stem of its file, anything else by its file;
* `AssetTable.scan`   the assets found below some folders; of one name the last one counts.
-/

namespace VisualNovel

def assetFolders : List String := ["Backgrounds", "Characters", "Cutscenes", "Music", "SFX", "blips"]

def assetName (file : String) : String :=
  if AssetKind.ofPath file = .image then stem file else file

/-- names the file at the end of a way from the game directory, unless it is hidden -/
def asset? (way : List String) : Option (String × String) :=
  match way.getLast? with
  | some file => if file.toList.head? == some '.' then none else some (assetName file, "/".intercalate way)
  | none => none

variable {m : Type → Type} [Monad m] [FileSystem m]

/-- a folder that does not exist has no files -/
def AssetTable.scan (root : String) (folders : List String) : m AssetTable := do
  let found ← folders.mapM fun folder => do
    let files ← FileSystem.filesBelow (joinPath root folder)
    return files.filterMap fun way => asset? (pathNames folder ++ way)
  return Table.ofList found.flatten

end VisualNovel
