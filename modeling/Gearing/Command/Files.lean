/-!
A closed tree of files, read by path.

Paths are relative to the root of the tree. A single point stands for the directory itself and two
points for the one above, both only inside a directory that is there. Absolute paths lead out of the
tree and are read only as they are given.
-/
namespace Gearing.Command

/-- The text of a file, if the file can be read. -/
abbrev Files := String → Option String

namespace Files

/-- Where a path leads, from a directory on. Places are paths read backwards. -/
def walk (isDirectory : List String → Bool) : List String → List String → Option (List String)
  | place, [] => some place
  | place, step :: steps =>
    if !isDirectory place then none
    else if step = "" ∨ step = "." then walk isDirectory place steps
    else if step = ".." then
      match place with
      | [] => none
      | _ :: above => walk isDirectory above steps
    else walk isDirectory (step :: place) steps

def steps (path : String) : List String := path.splitOn "/"

def ofList (files : List (String × String)) : Files := fun path =>
  let placed := files.map fun (p, text) => ((steps p).reverse, text)
  let isDirectory (place : List String) : Bool :=
    place.isEmpty || placed.any fun (p, _) => place.isSuffixOf p && place.length < p.length
  if path.toList.head? = some '/' then files.lookup path
  else (walk isDirectory [] (steps path)).bind fun place => placed.lookup place

end Files
end Gearing.Command
