import VisualNovel.Stage.Basic
import VisualNovel.Table
import VisualNovel.Text.Fragment

/-!
# What a player would see

The terminal draws no pictures; it keeps track of what would be on screen and tells what changes.

* `View`              the picture behind the text;
* `View.setBackground`, `View.setDesk`, `View.setLayer`   the new view and the news of it, if any;
* `View.unprinted`    the part of a line that has not been printed yet;
* `View.describe`     a summary in one line.
-/

namespace VisualNovel

structure View where
  background : Option String := none
  desk : Option String := none
  layer : Layer := .background
  sprites : Table Nat String := .empty
  spritesVisible : Bool := true
  speaker : Option String := none
  /-- what has been printed of the current line -/
  text : String := ""
  lastHandle : Nat := 0

namespace View

def setBackground (v : View) (locator : Option String) : Option String × View :=
  if v.background = locator then (none, v)
  else (some ("Background: " ++ locator.getD "black"), { v with background := locator })

def setDesk (v : View) (locator : Option String) : Option String × View :=
  if v.desk = locator then (none, v)
  else (locator.map fun l => s!"Desk: {l}", { v with desk := locator })

def setLayer (v : View) (layer : Layer) : Option String × View :=
  if v.layer = layer then (none, v)
  else
    (some (match layer with | .background => "Layer: background" | .video => "Layer: video"),
      { v with layer := layer })

def addSprite (v : View) (locator : String) : Handle × View :=
  let handle := v.lastHandle + 1
  (⟨handle⟩, { v with lastHandle := handle, sprites := v.sprites.insert handle locator })

/-- changes the sprite of a handle, if there is one -/
def replaceSprite (v : View) (handle : Handle) (locator : String) : View :=
  { v with sprites := v.sprites.replace handle.id locator }

/-- the locator of the sprite that is gone -/
def removeSprite (v : View) (handle : Handle) : Option String × View :=
  (v.sprites.get? handle.id, { v with sprites := v.sprites.erase handle.id })

/-- whether there were sprites -/
def clearSprites (v : View) : Bool × View := (!v.sprites.isEmpty, { v with sprites := .empty })

/-- what follows the printed part of a line; all of it if the line starts otherwise -/
def unprinted (v : View) (text : String) : String :=
  match Text.dropStart? v.text.toList text.toList with
  | some rest => String.ofList rest
  | none => text

def describe (v : View) : String :=
  let desk := match v.desk with | some d => s!" + {d}" | none => ""
  let sprites := if v.spritesVisible then v.sprites.values else []
  "[" ++ v.background.getD "black" ++ desk ++ "] " ++ ", ".intercalate sprites

end View

end VisualNovel
