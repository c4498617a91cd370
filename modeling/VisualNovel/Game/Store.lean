import VisualNovel.Config.Reader
import VisualNovel.Files.Path
import VisualNovel.Files.System
import VisualNovel.Game
import VisualNovel.Script.Reader

/-!
# Where games are kept

A game directory holds its script, its asset table and, if it has one, its configuration. A game can
also be given as it is; then it cannot be saved.

* `GameError`                               why a game cannot be loaded or saved;
* `GameStore.loadScript`, `loadAssets`, `loadConfig`, `load`   the parts of a game, and all of it;
* `GameStore.saveAssets`                    writes the asset table.
-/

namespace VisualNovel

/-- a document of a game directory -/
inductive GameFile
  | script
  | assets
  | config
deriving DecidableEq

def GameFile.name : GameFile → String
  | script => "script"
  | assets => "asset table"
  | config => "config"

def ScriptError.message : ScriptError → String
  | notADocument => "invalid script JSON: malformed document"
  | nestedBlock position =>
    s!"simultaneous block at position {position} contains a nested simultaneous block"

inductive GameError
  | notFound (file : GameFile) (path : String)
  | unreadable (file : GameFile) (path : String) (cause : FileError)
  | unwritable (path : String) (cause : FileError)
  | malformed (file : GameFile)
  | badScript (cause : ScriptError)
  | readOnly
deriving DecidableEq

namespace GameError

def message : GameError → String
  | notFound file path => s!"{file.name} not found at {path}"
  | unreadable file path cause => s!"IO error: Failed to read {file.name} {path}: {cause.message}"
  | unwritable path cause => s!"IO error: Failed to write asset table {path}: {cause.message}"
  | malformed file => s!"Invalid {file.name}: malformed document"
  | badScript cause => s!"Invalid script: {cause.message}"
  | readOnly => "Repository unavailable: In-memory repository is read-only"

/-- what lies behind an error -/
def reasons : GameError → List String
  | malformed _ => ["malformed document"]
  | badScript .notADocument => [ScriptError.notADocument.message, "malformed document"]
  | badScript cause => [cause.message]
  | _ => []

end GameError

inductive GameStore
  | directory (base : String) (scriptFile : String)
  | memory (script : String) (assets : AssetTable) (config : Option PlayerConfig)

namespace GameStore

variable {m : Type → Type} [Monad m] [FileSystem m]

def ofDirectory (base : String) : GameStore := directory base "script.json"

def assetsPath (base : String) : String := joinPath base "assets.json"

/-- the text of a document of a game directory -/
def readFile (file : GameFile) (path : String) : ExceptT GameError m String := do
  if ← FileSystem.pathExists path then
    match ← readText path with
    | .ok text => return text
    | .error cause => throw (.unreadable file path cause)
  else throw (.notFound file path)

def parseScript (text : String) : Except GameError Script := (Script.parse text).mapError .badScript

def loadScript : GameStore → ExceptT GameError m Script
  | directory base file => do ofExcept (parseScript (← readFile .script (joinPath base file)))
  | memory text _ _ => ofExcept (parseScript text)

def loadAssets : GameStore → ExceptT GameError m AssetTable
  | directory base _ => do
    match AssetTable.parse? (← readFile .assets (assetsPath base)) with
    | some assets => return assets
    | none => throw (.malformed .assets)
  | memory _ assets _ => return assets

/-- the default configuration if there is none -/
def loadConfig : GameStore → ExceptT GameError m PlayerConfig
  | directory base _ => do
    let path := joinPath base "config.json"
    if ← FileSystem.pathExists path then
      match PlayerConfig.parse? (← readFile .config path) with
      | some config => return config
      | none => throw (.malformed .config)
    else return {}
  | memory _ _ config => return config.getD {}

def load (store : GameStore) : ExceptT GameError m Game := do
  let script ← store.loadScript
  let assets ← store.loadAssets
  let config ← store.loadConfig
  return { script, assets, config }

def saveAssets (assets : AssetTable) : GameStore → ExceptT GameError m Unit
  | directory base _ => do
    match ← FileSystem.writeText (assetsPath base) assets.render with
    | .ok () => return
    | .error cause => throw (.unwritable (assetsPath base) cause)
  | memory _ _ _ => throw .readOnly

end GameStore

end VisualNovel
