/-!
# Paths

* `joinPath`     a path below another one; a path that starts with a slash stays as it is;
* `pathSteps`    the names of a path, and the dots that stand for a folder itself or the one above it;
* `pathNames`    the steps without those that lead nowhere.
-/

namespace VisualNovel

def isAbsolute (path : String) : Bool := path.toList.head? == some '/'

def endsWithSlash (path : String) : Bool := path.toList.getLast? == some '/'

/-- one slash between the two, if there is a first part -/
def joinPath (base path : String) : String :=
  if isAbsolute path || base.isEmpty then path
  else if endsWithSlash base then base ++ path
  else base ++ "/" ++ path

/-- the pieces of a text between slashes; `piece` (backwards) has been read of the first one -/
def splitSlashes (piece : List Char) : List Char → List String
  | [] => [String.ofList piece.reverse]
  | c :: cs =>
    if c = '/' then String.ofList piece.reverse :: splitSlashes [] cs else splitSlashes (c :: piece) cs

/-- what stands between the slashes of a path -/
def pieces (path : String) : List String := (splitSlashes [] path.toList).filter (· ≠ "")

/-- a path that ends with a slash has to be a folder, which a last dot stands for -/
def pathSteps (path : String) : List String :=
  if endsWithSlash path then pieces path ++ ["."] else pieces path

def pathNames (path : String) : List String := (pathSteps path).filter (· ≠ ".")

end VisualNovel
