import BuildDialect.Files.Fault

/-!
A tree of directories and files. Paths are followed one name at a time; a failed operation
leaves the files as they were, and what a successful one changes is one location.
-/
namespace BuildDialect

/-- A place in the tree: the names from the root down, as the system knows them. -/
abbrev Location := List (List UInt8)

inductive FileItem where
  | file (content : List UInt8)
  /-- A file that may not be opened. -/
  | sealed
  | directory
  deriving DecidableEq, Repr

/-- The items below the root, and the directory in which relative paths start. -/
structure FileTree where
  items : List (Location × FileItem)
  home : Location
  deriving DecidableEq, Repr

namespace FileTree

def locate (names : List RawText) : Location :=
  names.map RawText.bytes

def fresh : FileTree where
  items := [(locate ["work"], .directory), (locate ["work", "home"], .directory)]
  home := locate ["work", "home"]

def item? (tree : FileTree) (place : Location) : Option FileItem :=
  if place.isEmpty then some .directory else tree.items.lookup place

def put (tree : FileTree) (place : Location) (item : FileItem) : FileTree :=
  { tree with items := (place, item) :: tree.items.filter fun entry => entry.1 != place }

def erase (tree : FileTree) (place : Location) : FileTree :=
  { tree with items := tree.items.filter fun entry => entry.1 != place }

def nameLimit : Nat := 255

def pathLimit : Nat := 4095

/-- Follows names from a location. Each step starts in a directory. -/
def walk (tree : FileTree) : Location → List RawText → Except FileCause Location
  | here, [] => .ok here
  | here, name :: rest =>
    match tree.item? here with
    | none => .error .missing
    | some (.file _) | some .sealed => .error .notDirectory
    | some .directory =>
      if name = "." then walk tree here rest
      else if name = ".." then walk tree here.dropLast rest
      else if nameLimit < name.bytes.length then .error .nameTooLong
      else walk tree (here ++ [name.bytes]) rest

def start (tree : FileTree) (p : Path) : Except FileCause Location :=
  match p.barred? with
  | some cause => .error cause
  | none =>
    if p.text.isEmpty then .error .missing
    else if pathLimit < p.text.bytes.length then .error .nameTooLong
    else if p.isAbsolute then .ok []
    else .ok tree.home

def find (tree : FileTree) (p : Path) : Except FileCause FileItem := do
  let place ← tree.walk (← tree.start p) p.steps
  match tree.item? place with
  | none => .error .missing
  | some item => .ok item

def read (tree : FileTree) (p : Path) : Except FileCause (List UInt8) := do
  match ← tree.find p with
  | .file content => .ok content
  | .sealed => .error .denied
  | .directory => .error .isDirectory

/-- Whether a path leads anywhere. Only a name that is too long is an error. -/
def holds (tree : FileTree) (p : Path) : Except FileCause Bool :=
  match tree.find p with
  | .ok _ => .ok true
  | .error .nameTooLong => .error .nameTooLong
  | .error _ => .ok false

def holdsDirectory (tree : FileTree) (p : Path) : Except FileCause Bool :=
  match tree.find p with
  | .ok .directory => .ok true
  | .ok (.file _) | .ok .sealed => .ok false
  | .error .nameTooLong => .error .nameTooLong
  | .error _ => .ok false

/-- The place for a new item of the last name of a path. The last step has to be a name; `none`
stands for one that stays or goes up, which only a directory can have. -/
def slot (tree : FileTree) (p : Path) : Except FileCause (Option Location) := do
  let origin ← tree.start p
  match p.steps.getLast? with
  | none => .ok none
  | some last =>
    let parent ← tree.walk origin p.steps.dropLast
    match tree.item? parent with
    | none => .error .missing
    | some (.file _) | some .sealed => .error .notDirectory
    | some .directory =>
      if last = "." ∨ last = ".." then .ok none
      else if nameLimit < last.bytes.length then .error .nameTooLong
      else .ok (some (parent ++ [last.bytes]))

def write (tree : FileTree) (p : Path) (content : List UInt8) : Except FileCause FileTree := do
  match ← tree.slot p with
  | none => .error .isDirectory
  | some place =>
    match tree.item? place with
    | some .directory => .error .isDirectory
    | some .sealed => .error .denied
    | _ => .ok (tree.put place (.file content))

def remove (tree : FileTree) (p : Path) : Except FileCause FileTree := do
  match ← tree.slot p with
  | none => .error .isDirectory
  | some place =>
    match tree.item? place with
    | none => .error .missing
    | some .directory => .error .isDirectory
    | some (.file _) | some .sealed => .ok (tree.erase place)

def makeDirectory (tree : FileTree) (p : Path) : Except FileCause FileTree := do
  match ← tree.slot p with
  | none => .error .taken
  | some place =>
    match tree.item? place with
    | some _ => .error .taken
    | none => .ok (tree.put place .directory)

/-- A directory that could not be made is no fault if there is one already. -/
def excuse (tree : FileTree) (p : Path) (cause : FileCause) : Except FileFault Unit :=
  if !cause.isSystem then .error ⟨cause, p⟩
  else match tree.holdsDirectory p with
    | .ok true => .ok ()
    | .ok false => .error ⟨cause, p⟩
    | .error other => .error ⟨other, p⟩

/-- Makes the first directory of a lineage. Its parents are made first if it lacks one; they stay
when a later step fails. -/
def makeLineage : List Path → FileTree → Except FileFault Unit × FileTree
  | [], tree => (.ok (), tree)
  | p :: parents, tree =>
    match tree.makeDirectory p with
    | .ok made => (.ok (), made)
    | .error .missing =>
      if parents.isEmpty then (.error ⟨.missing, p⟩, tree)
      else match makeLineage parents tree with
        | (.error fault, made) => (.error fault, made)
        | (.ok (), made) =>
          match made.makeDirectory p with
          | .ok made => (.ok (), made)
          | .error .missing => (.error ⟨.missing, p⟩, made)
          | .error cause => (made.excuse p cause, made)
    | .error cause => (tree.excuse p cause, tree)

def makeDirectories (tree : FileTree) (p : PlainPath) : Except FileFault Unit × FileTree :=
  makeLineage (p.lineage.map PlainPath.toPath) tree

end FileTree
end BuildDialect
