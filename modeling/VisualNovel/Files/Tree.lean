import VisualNovel.Files.Path
import VisualNovel.Files.System
import VisualNovel.Table

/-!
# A tree of files

Files and folders by the names on the way to them. The order of the table lists a folder before what it
holds, and the contents of a folder in the order of their names. A place outside the tree starts with the
dots that lead up from it, or with the slash of the outermost folder.

* `Place`          what lies around a place;
* `pathFault?`     what is wrong with the text of a path, wherever it leads;
* `Tree.resolve`   the place that the steps of a path lead to;
* `Tree.read`, `Tree.write`, `Tree.filesBelow`   the operations of a file system;
* `Tree.place`     puts a file or a folder into the tree, with the folders on the way to it.
-/

namespace VisualNovel

inductive Node
  | file (bytes : ByteArray)
  | folder

/-- the names on the way to a file or a folder -/
abbrev Place : Type := List String

structure Tree where
  nodes : Table Place Node := .empty

/-! ## Paths and places -/

/-- the bytes that a name can have -/
def nameLimit : Nat := 255

/-- the bytes that a path can have -/
def pathLimit : Nat := 4095

def fits (limit : Nat) (text : String) : Bool := text.utf8ByteSize ≤ limit

def pathFault? (path : String) : Option FileError :=
  if path.toList.contains '\x00' then some .nulInPath
  else if path.isEmpty then some .notFound
  else if fits pathLimit path then none
  else some .nameTooLong

namespace Place

/-- the folder that holds everything -/
def outermost : Place := ["/"]

/-- where the steps of a path begin -/
def start (path : String) : Place := if isAbsolute path then outermost else []

/-- the folders from the tree upwards -/
def isAbove (place : Place) : Bool := place.all (· = "..")

/-- the folder that holds a place -/
def parent (place : Place) : Place :=
  if place.isAbove then place ++ [".."]
  else if place = outermost then outermost
  else place.dropLast

/-- the rest of a place below another one -/
def below? : Place → Place → Option Place
  | [], place => some place
  | f :: folder, p :: place => if f = p then below? folder place else none
  | _ :: _, [] => none

/-- the folders on the way to a place, from the outermost one on -/
def folders (place : Place) : List Place := (List.range place.length).map fun n => place.take n

end Place

namespace Tree

/-- nothing but folders is known outside the tree -/
def node? (t : Tree) (place : Place) : Option Node :=
  if place.isAbove || place = Place.outermost then some .folder else t.nodes.get? place

/-! ## Operations -/

/-- a step can only be taken from a folder -/
def resolve (t : Tree) (place : Place) : List String → Except FileError Place
  | [] => .ok place
  | step :: steps =>
    match t.node? place with
    | none => .error .notFound
    | some (.file _) => .error .notAFolder
    | some .folder =>
      if step = "." then resolve t place steps
      else if step = ".." then resolve t place.parent steps
      else if fits nameLimit step then resolve t (place ++ [step]) steps
      else .error .nameTooLong

/-- the place of a path -/
def find (t : Tree) (path : String) : Except FileError Place :=
  match pathFault? path with
  | some e => .error e
  | none => t.resolve (Place.start path) (pathSteps path)

def exists? (t : Tree) (path : String) : Bool :=
  match t.find path with
  | .ok place => (t.node? place).isSome
  | .error _ => false

def read (t : Tree) (path : String) : Except FileError ByteArray := do
  match t.node? (← t.find path) with
  | none => .error .notFound
  | some .folder => .error .isAFolder
  | some (.file bytes) => .ok bytes

/-- a file in a folder -/
def writeIn (t : Tree) (folder : Place) (name text : String) : Except FileError Tree :=
  let place := folder ++ [name]
  if fits nameLimit name then
    match t.node? place with
    | some .folder => .error .isAFolder
    | _ => .ok ⟨t.nodes.insert place (.file text.toUTF8)⟩
  else .error .nameTooLong

/-- a file is written into a folder that exists; a path that ends with a slash or a dot names no file -/
def write (t : Tree) (path text : String) : Except FileError Tree :=
  match pathFault? path with
  | some e => .error e
  | none => do
    let steps := pieces path
    let folder ← t.resolve (Place.start path) steps.dropLast
    match t.node? folder with
    | none => .error .notFound
    | some (.file _) => .error .notAFolder
    | some .folder =>
      match steps.getLast? with
      | none => .error .isAFolder
      | some name =>
        if name = "." || name = ".." || endsWithSlash path then .error .isAFolder
        else t.writeIn folder name text

/-- a folder cannot be listed if the path to it is too long -/
def canList (path : String) (way : Place) : Bool := fits pathLimit (way.dropLast.foldl joinPath path)

def filesBelow (t : Tree) (path : String) : List Place :=
  match t.find path with
  | .error _ => []
  | .ok folder =>
    t.nodes.entries.filterMap fun (place, node) =>
      match node with
      | .file _ => (Place.below? folder place).filter (canList path)
      | .folder => none

def place (t : Tree) (names : Place) (node : Node) : Tree :=
  let nodes := names.folders.foldl (fun ns f => if f.isEmpty then ns else ns.insert f .folder) t.nodes
  ⟨nodes.insert names node⟩

end Tree

instance : FileSystem (StateM Tree) where
  pathExists path := return (← get).exists? path
  readBytes path := return (← get).read path
  writeText path text := do
    match (← get).write path text with
    | .ok t => set t; return .ok ()
    | .error e => return .error e
  filesBelow path := return (← get).filesBelow path

end VisualNovel
