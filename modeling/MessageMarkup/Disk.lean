/-!
# Disks

What a run of the program can see besides its arguments and its standard input: folders, files and
links, each at its place on a disk, and the folder in which the program runs. A path starts at the
root of the disk or in that folder. It leads on by one name after another, back out of a folder by
two dots, and where a link stands by the names of its target. So one file has many paths.

Whatever is on a disk can be read; places where nothing can be written are listed.
-/

namespace MessageMarkup

/-- Where something is on a disk: the names of the folders around it, from the root on, and its own
name. -/
abbrev Place := List String

/-- Something on a disk. -/
inductive Disk.Entry where
  /-- A folder. -/
  | folder
  /-- A file with its bytes. -/
  | file (bytes : List UInt8)
  /-- A link, with the path that stands for it, which starts in the folder around the link. -/
  | link (target : String)
  deriving DecidableEq, Repr, Inhabited

/-- Folders, files and links by their places. -/
structure Disk where
  /-- What there is. The root is there without an entry. -/
  entries : List (Place × Disk.Entry) := []
  /-- The places where nothing can be written, for want of rights or of room. -/
  locked : List Place := []
  deriving DecidableEq, Repr, Inhabited

namespace Disk

/-- What is at a place. -/
def entryAt? (d : Disk) (place : Place) : Option Entry :=
  if place.isEmpty then some .folder else (d.entries.find? (·.1 == place)).map (·.2)

/-- Whether there is a folder at a place. -/
def isFolder (d : Disk) (place : Place) : Bool :=
  d.entryAt? place == some .folder

/-- The bytes of the file at a place. -/
def fileAt? (d : Disk) (place : Place) : Option (List UInt8) :=
  match d.entryAt? place with
  | some (.file bytes) => some bytes
  | _ => none

/-- The target of the link at a place. -/
def linkAt? (d : Disk) (place : Place) : Option String :=
  match d.entryAt? place with
  | some (.link target) => some target
  | _ => none

/-- The disk with some bytes in the file at a place. -/
def put (d : Disk) (place : Place) (bytes : List UInt8) : Disk :=
  { d with entries := (place, .file bytes) :: d.entries.filter (·.1 != place) }

/-! ## Paths -/

/-- The names that a path leads through; names may be empty. -/
def names (path : String) : List String :=
  (path.toList.splitOn '/').map String.ofList

/-- Where a path starts that is looked up in a folder. -/
def start (folder : Place) (path : String) : Place :=
  if path.toList.head? = some '/' then [] else folder

/-- Where some names lead. -/
inductive Way where
  /-- They lead to no file: through something that is no folder, or to a folder by no name of its
  own. -/
  | nowhere
  /-- They lead to a place in a folder, at which there is no link. -/
  | to (place : Place)
  /-- They lead to a link in a folder, with some of the names behind it. -/
  | link (folder : Place) (target : String) (rest : List String)
  deriving DecidableEq, Repr, Inhabited

/-- Where some names lead from a place, up to the first link. -/
def follow (d : Disk) (place : Place) : List String → Way
  | [] => .nowhere
  | name :: rest =>
    if !d.isFolder place then .nowhere
    else if name == "" || name == "." then d.follow place rest
    else if name == ".." then d.follow place.dropLast rest
    else
      match d.linkAt? (place ++ [name]) with
      | some target => .link place target rest
      | none => if rest.isEmpty then .to (place ++ [name]) else d.follow (place ++ [name]) rest

/-- The place to which some names lead from a place, through so many links at most. -/
def reach (d : Disk) : Nat → Place → List String → Option Place
  | links, place, names =>
    match d.follow place names with
    | .nowhere => none
    | .to place => some place
    | .link folder target rest =>
      match links with
      | 0 => none
      | links + 1 => d.reach links (start folder target) (Disk.names target ++ rest)

/-- The greatest number of links that a path may lead through. -/
def linkLimit : Nat := 40

end Disk

/-! ## Working folders -/

/-- A folder on a disk, in which the program runs. -/
structure WorkingFolder where
  /-- The disk. -/
  disk : Disk
  /-- Where the folder is on it. -/
  place : Place
  deriving DecidableEq, Repr, Inhabited

namespace WorkingFolder

/-- The path of the folder from the root on. -/
def path (f : WorkingFolder) : String :=
  "/" ++ String.intercalate "/" f.place

/-- The place in a folder to which a path leads. There may be a file, another folder or nothing. -/
def resolve? (f : WorkingFolder) (path : String) : Option Place :=
  f.disk.reach Disk.linkLimit (Disk.start f.place path) (Disk.names path)

/-- The bytes of the file at a path. -/
def read? (f : WorkingFolder) (path : String) : Option (List UInt8) :=
  (f.resolve? path).bind f.disk.fileAt?

/-- What there is after some bytes have been written to the file at a path, if that can be done. The
file need not have been there, but the folder around it must. -/
def write? (f : WorkingFolder) (path : String) (bytes : List UInt8) : Option WorkingFolder := do
  let place ← f.resolve? path
  if f.disk.isFolder place || f.disk.locked.contains place then none
  else some { f with disk := f.disk.put place bytes }

end WorkingFolder

end MessageMarkup
