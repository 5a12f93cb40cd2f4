import Signpost.OrderedMap

namespace Signpost.Cli

/-- The contents of files by their names.  A file written twice has its last content. -/
structure Directory where
  files : OrderedMap (List UInt8)

namespace Directory

/-- A path from inside the directory, without the dots that stand for the directory
itself. -/
def within : List Char → List Char
  | '.' :: '/' :: '/' :: rest => within ('.' :: '/' :: rest)
  | '.' :: '/' :: rest => within rest
  | path => path
termination_by path => path.length

def nameOf (path : String) : String := String.ofList (within path.toList)

def ofList (files : List (String × List UInt8)) : Directory :=
  ⟨OrderedMap.ofList (files.map fun (path, content) => (nameOf path, content))⟩

def nullDevice : String := "/dev/null"

/-- What a path leads to.  The null device can be read from every directory, and is
empty. -/
def read? (directory : Directory) (path : String) : Option (List UInt8) :=
  if path = nullDevice then some [] else directory.files.get? (nameOf path)

end Directory

end Signpost.Cli
