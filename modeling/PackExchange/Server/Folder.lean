import PackExchange.Bytes

/-!
# Folders

Settings name the files of packs by paths relative to a folder.

* `Folder` — files held in memory, by their paths below the folder;
* `Folder.read?` — the bytes of the file at a path.

A path is followed step by step.  A single dot stays where it is and two dots lead one step up, but
only folders can be stepped through, and nothing outside of the folder can be reached.
-/

namespace PackExchange

/-- The steps of a path, which slashes set apart. -/
def pathSteps (path : String) : List String :=
  path.toList.foldr (fun c steps =>
    if c = '/' then [] :: steps
    else
      match steps with
      | [] => [[c]]
      | step :: steps => (c :: step) :: steps) [[]] |>.map String.ofList

/-- Files held in memory, by the steps of their paths. -/
structure Folder where
  files : List (List String × Bytes) := []
  deriving Repr

namespace Folder

/-- The folder of some files, by their paths. -/
def ofFiles (files : List (String × Bytes)) : Folder :=
  ⟨files.map fun (path, data) => (pathSteps path, data)⟩

/-- Is there a folder at this place?  A folder is there as soon as it has a file. -/
def hasFolder (d : Folder) (place : List String) : Bool :=
  place.isEmpty || d.files.any fun (steps, _) => place.isPrefixOf steps && place != steps

/-- Follows the steps of a path from a place.  Only the last step may lead to a file, and it has to
name one. -/
def follow? (d : Folder) (place : List String) : List String → Option Bytes
  | [] => none
  | [name] => if ["", ".", ".."].contains name then none else d.files.lookup (place ++ [name])
  | name :: steps =>
    if ["", "."].contains name then follow? d place steps
    else if name = ".." then
      if place.isEmpty then none else follow? d place.dropLast steps
    else if d.hasFolder (place ++ [name]) then follow? d (place ++ [name]) steps
    else none

/-- The bytes of the file at a path.  A path that begins with a slash leads out of the folder. -/
def read? (d : Folder) (path : String) : Option Bytes :=
  match pathSteps path with
  | "" :: _ => none
  | steps => d.follow? [] steps

end Folder

end PackExchange
