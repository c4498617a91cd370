import VisualNovel.Asset.Table
import VisualNovel.Config.Basic
import VisualNovel.Script.Basic
import VisualNovel.Text.Fragment
import VisualNovel.Text.LowerCase

/-!
# Games

A game is a script with the assets it names and the configuration it is played with. The names in a
script are not always those of the asset table:

* `isBlack`         the background that is no picture;
* `musicKey`        the name of a piece of music is what follows its last slash;
* `Game.soundKey`   a blip without an asset is the default blip.
-/

namespace VisualNovel

structure Game where
  script : Script := .ofEvents []
  assets : AssetTable := .empty
  config : PlayerConfig := {}

/-- `black` and `none`, in letters of any case, stand for an empty background -/
def isBlack (name : String) : Bool :=
  Text.sameLetters name.toList ['b', 'l', 'a', 'c', 'k'] || Text.sameLetters name.toList ['n', 'o', 'n', 'e']

def musicKey (name : String) : String := String.ofList (Text.afterLast '/' name.toList)

def namesBlip (name : String) : Bool := Text.holds ['b', 'l', 'i', 'p'] name.toList

def Game.soundKey (g : Game) (name : String) : String :=
  if namesBlip name && !g.assets.contains name then g.config.audio.defaultBlip else name

end VisualNovel
