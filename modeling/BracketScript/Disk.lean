import BracketScript.LoadError
import BracketScript.Path

/-!
# File trees as values

A `Disk` lists the files and directories below a working directory, so that looking at a path is a
function. Above the working directory there are only directories, and nothing else is in them. A
path from the root meets the usual directories there and the device that holds nothing.

A name takes at most 255 bytes and a path at most 4095. A path that is longer leads nowhere at all,
while a name that is longer is only met once the directories in front of it have been found.
-/

namespace BracketScript

inductive Node where
  | file (content : Except ReadError String)
  | directory

/-- The files and directories below a working directory, by their components. -/
structure Disk where
  nodes : List (List String × Node)

namespace Disk

def empty : Disk := ⟨[]⟩

/-- The components of a path that lead somewhere. -/
def names (path : String) : List String :=
  (Path.components path).filter fun name => name != "" && name != "."

def above (names : List String) : List (List String) :=
  (List.range names.length).map names.take

def addDirectory (disk : Disk) (path : String) : Disk :=
  let names := names path
  ⟨disk.nodes ++ (above names ++ [names]).map fun names => (names, .directory)⟩

/-- Add a file together with the directories above it, in place of an earlier file. -/
def addFile (disk : Disk) (path : String) (content : Except ReadError String) : Disk :=
  let names := names path
  ⟨(names, .file content) :: disk.nodes ++ (above names).map fun names => (names, .directory)⟩

def node? (disk : Disk) (names : List String) : Option Node :=
  if names.isEmpty then some .directory else disk.nodes.lookup names

def nameLimit : Nat := 255

def pathLimit : Nat := 4095

def absence (name : String) : ReadError :=
  if nameLimit < name.utf8ByteSize then .nameTooLong else .notFound

def rootDirectories : List String :=
  ["bin", "boot", "dev", "etc", "home", "lib", "lib64", "media", "mnt", "opt", "proc", "root",
    "run", "sbin", "srv", "sys", "tmp", "usr", "var"]

/-- Go on from the directory with the reversed components `reversed` below the root. -/
def walkFromRoot (reversed : List String) : List String → Entry
  | [] => .directory
  | name :: names =>
    if name = "" || name = "." then walkFromRoot reversed names
    else if name = ".." then walkFromRoot (reversed.drop 1) names
    else if reversed = ["dev"] && name = "null" then
      if names.isEmpty then .device "" else .missing .notDirectory
    else if reversed.isEmpty && rootDirectories.contains name then walkFromRoot [name] names
    else .missing (absence name)

/-- Go on from the directory with the reversed components `place`, or from outside of the working
directory. -/
def walk (disk : Disk) (place : Option (List String)) : List String → Entry
  | [] => .directory
  | name :: names =>
    if name = "" || name = "." then disk.walk place names
    else
      match place with
      | none => if name = ".." then disk.walk none names else .missing (absence name)
      | some reversed =>
        if name = ".." then
          match reversed with
          | [] => disk.walk none names
          | _ :: outer => disk.walk (some outer) names
        else
          match disk.node? (name :: reversed).reverse with
          | none => .missing (absence name)
          | some .directory => disk.walk (some (name :: reversed)) names
          | some (.file content) => if names.isEmpty then .file content else .missing .notDirectory

def entry (disk : Disk) (path : String) : Entry :=
  if path.isEmpty then .missing .notFound
  else if pathLimit < path.utf8ByteSize then .missing .nameTooLong
  else if Path.isAbsolute path then walkFromRoot [] (Path.components path)
  else disk.walk (some []) (Path.components path)

end Disk

end BracketScript
