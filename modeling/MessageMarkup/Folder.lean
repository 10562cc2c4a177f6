import MessageMarkup.Disk

/-!
# A folder of files

Files by their names in a folder, which may lead into folders inside it, as the starting point of a
run: the folder is put on a disk that has nothing else.
-/

namespace MessageMarkup

/-- Files by their names. -/
structure Folder where
  /-- Each file with its bytes. -/
  files : List (String × List UInt8) := []
  deriving DecidableEq, Repr, Inhabited

namespace Folder

/-- The place in a folder of a file with some name. -/
def placeOf (folder : Place) (name : String) : Place :=
  folder ++ (Disk.names name).filter fun n => n != "" && n != "."

/-- The places of the folders around something. -/
def above (place : Place) : List Place :=
  (List.range place.length).map place.take

/-- The folder at a place of a disk that has nothing but what is in it and the folders around. -/
def onDisk (f : Folder) (place : Place) : WorkingFolder :=
  let files := f.files.map fun (name, bytes) => (placeOf place name, bytes)
  let folders := above place ++ place :: files.flatMap fun (file, _) => above file
  { disk :=
      { entries := folders.eraseDups.map (·, .folder) ++
          files.map fun (file, bytes) => (file, .file bytes) }
    place }

end Folder

end MessageMarkup
