import VisualNovel.Asset.Kind
import VisualNovel.Json.Reader
import VisualNovel.Json.Record
import VisualNovel.Json.Writer

/-!
# The asset table

A script names its pictures, sounds and videos; the asset table gives each name a locator, a path
below the game directory.

* `AssetTable.parse?`   the table of a document;
* `AssetTable.render`   the document of a table, in the order of the names;
* `AssetTable.images`   the locators of the pictures, in the order of their names.
-/

namespace VisualNovel

/-- names and locators -/
abbrev AssetTable := Table String String

namespace AssetTable

def parse? (text : String) : Option AssetTable := do
  (← Json.parse? text).table? Json.Value.text?

def toValue (t : AssetTable) : Json.Value := .object (t.entries.map fun (n, l) => (n, .text l))

def render (t : AssetTable) : String := Json.render t.toValue

def images (t : AssetTable) : List String := t.values.filter (AssetKind.ofPath · = .image)

end AssetTable

end VisualNovel
