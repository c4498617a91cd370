import VisualNovel.Text.Fragment

/-!
# Kinds of assets

What follows the last point of a path tells a picture, a sound and a video apart.

* `AssetKind.ofPath`   the kind of a path;
* `stem`               the part of a file name before its last point.
-/

namespace VisualNovel

inductive AssetKind
  | image
  | audio
  | video
  | other
deriving DecidableEq

namespace AssetKind

def ofExtension : List Char → AssetKind
  | ['j', 'p', 'g'] | ['j', 'p', 'e', 'g'] | ['p', 'n', 'g'] | ['g', 'i', 'f'] | ['w', 'e', 'b', 'p'] => image
  | ['o', 'g', 'g'] | ['w', 'a', 'v'] | ['m', 'p', '3'] => audio
  | ['m', 'p', '4'] | ['w', 'e', 'b', 'm'] => video
  | _ => other

/-- a path without a point is of no known kind; the case of the letters a to z does not matter -/
def ofPath (path : String) : AssetKind :=
  let cs := path.toList
  if cs.contains '.' then ofExtension ((Text.afterLast '.' cs).map Char.toLower) else other

def name : AssetKind → String
  | image => "image"
  | audio => "audio"
  | video => "video"
  | other => "other"

end AssetKind

/-- a file name up to its last point; all of it if nothing stands before that point -/
def stem (file : String) : String :=
  match (file.toList.reverse.dropWhile (· != '.')).drop 1 with
  | [] => file
  | before => String.ofList before.reverse

end VisualNovel
