import WireAgent.Number.Digits
import WireAgent.Text.Line
import WireAgent.Text.Quoted

/-!
# Files

A path is a list of names, from the working directory or from the root. `open?` finds the content of
a file or says why there is none, and `append` adds to a file, which it makes if need be.
-/

namespace WireAgent

/-- The names of a path, without the empty ones and those that stay in place. -/
structure FilePath where
  isAbsolute : Bool
  names : List String
  deriving DecidableEq, Repr

namespace FilePath

/-- The path that a text denotes. -/
def ofString (text : String) : FilePath where
  isAbsolute := text.startsWith "/"
  names := (text.splitOn "/").filter fun name => name ≠ "" && name ≠ "."

/-- The text of a path. -/
def toString (path : FilePath) : String :=
  if path.isAbsolute then "/" ++ Text.join "/" path.names
  else if path.names.isEmpty then "." else Text.join "/" path.names

end FilePath

/-- What a path leads to. -/
inductive FileEntry where
  | file (content : ByteArray)
  | directory
  deriving Inhabited

/-- Files and directories below one directory, by their paths from it. -/
abbrev Folder := List (List String × FileEntry)

/-- Why a file cannot be opened. -/
inductive FileError where
  | notFound
  | notDirectory
  | isDirectory
  | nameTooLong
  | nullCharacter
  deriving DecidableEq, Repr

namespace FileError

/-- The number of an error, if the operating system raises it. -/
def number? : FileError → Option Int
  | .notFound => some 2
  | .notDirectory => some 20
  | .isDirectory => some 21
  | .nameTooLong => some 36
  | .nullCharacter => none

/-- What an error says. -/
def reason : FileError → String
  | .notFound => "No such file or directory"
  | .notDirectory => "Not a directory"
  | .isDirectory => "Is a directory"
  | .nameTooLong => "File name too long"
  | .nullCharacter => "embedded null byte"

/-- The text of an error on opening a path. -/
def message (e : FileError) (path : String) : String :=
  match e.number? with
  | none => e.reason
  | some number =>
    "[Errno " ++ Number.ofInt number ++ "] " ++ e.reason ++ ": " ++ Text.quoted path

/-- Is the file missing, rather than out of reach? -/
def isMissing : FileError → Bool
  | .notFound | .notDirectory | .nullCharacter => true
  | _ => false

end FileError

namespace Folder

/-- What stands at a path that has no steps upward. A directory exists if anything is in it. -/
def entry? (folder : Folder) (names : List String) : Option FileEntry :=
  match folder.find? fun entry => entry.1 == names with
  | some (_, entry) => some entry
  | none =>
    if names.isEmpty || folder.any fun entry => names.isPrefixOf entry.1 then some .directory
    else none

/-- The longest name of a file, in bytes. -/
def longestName : Nat := 255

/-- Follows a path from a directory. All but the last name must be directories; a step upward from
the top stays there. -/
def follow (folder : Folder) (here : List String) :
    List String → Except FileError (List String × Option FileEntry)
  | [] => .ok (here, folder.entry? here)
  | name :: rest =>
    if name = ".." then folder.follow here.dropLast rest
    else if longestName < name.utf8ByteSize then .error .nameTooLong
    else
      let next := here ++ [name]
      match rest, folder.entry? next with
      | [], entry => .ok (next, entry)
      | _, some .directory => folder.follow next rest
      | _, some (.file _) => .error .notDirectory
      | _, none => .error .notFound

/-- Replaces what stands at a path. -/
def put (folder : Folder) (names : List String) (entry : FileEntry) : Folder :=
  folder.filter (fun entry => entry.1 ≠ names) ++ [(names, entry)]

end Folder

/-- All files: those below the working directory, and those that absolute paths lead to. -/
structure FileTree where
  /-- The names of the absolute path of the working directory. -/
  place : List String := []
  working : Folder := []
  root : Folder := []
  deriving Inhabited

namespace FileTree

/-- The longest path, in bytes. -/
def longestPath : Nat := 4095

/-- The folder that a path begins at. -/
def start (tree : FileTree) (path : FilePath) : Folder :=
  if path.isAbsolute then tree.root else tree.working

/-- Where a path leads. -/
def resolve (tree : FileTree) (path : FilePath) :
    Except FileError (List String × Option FileEntry) :=
  if path.toString.contains '\x00' then .error .nullCharacter
  else if longestPath < path.toString.utf8ByteSize then .error .nameTooLong
  else (tree.start path).follow [] path.names

/-- The content of the file at a path. -/
def open? (tree : FileTree) (path : FilePath) : Except FileError ByteArray := do
  match ← tree.resolve path with
  | (_, some (.file content)) => return content
  | (_, some .directory) => throw .isDirectory
  | (_, none) => throw .notFound

/-- Does something stand at a path? It is an error if that cannot be told. -/
def exists? (tree : FileTree) (path : FilePath) : Except FileError Bool :=
  match tree.resolve path with
  | .ok (_, entry) => .ok entry.isSome
  | .error e => if e.isMissing then .ok false else .error e

/-- Replaces what stands at a path without steps upward. -/
def put (tree : FileTree) (path : FilePath) (names : List String) (entry : FileEntry) : FileTree :=
  if path.isAbsolute then { tree with root := tree.root.put names entry }
  else { tree with working := tree.working.put names entry }

/-- Adds to the end of the file at a path, which is made if it is missing. -/
def append (tree : FileTree) (path : FilePath) (content : ByteArray) :
    Except FileError FileTree := do
  match ← tree.resolve path with
  | (names, some (.file old)) => return tree.put path names (.file (old ++ content))
  | (_, some .directory) => throw .isDirectory
  | (names, none) => return tree.put path names (.file content)

/-- The names of an absolute path without steps upward, which are taken by the text alone. -/
def flatten (names : List String) : List String :=
  names.foldl (fun flat name => if name = ".." then flat.dropLast else flat ++ [name]) []

/-- The absolute path that a path stands for. -/
def absolute (tree : FileTree) (path : FilePath) : FilePath :=
  ⟨true, flatten (if path.isAbsolute then path.names else tree.place ++ path.names)⟩

/-- The path from the working directory that an absolute path stands for, if it is below it. -/
def relative (tree : FileTree) (path : FilePath) : FilePath :=
  if path.isAbsolute && tree.place.isPrefixOf path.names then
    ⟨false, path.names.drop tree.place.length⟩
  else path

end FileTree

/-- The text of a file's bytes with unified line breaks; none if they are not UTF-8. -/
def fileText? (content : ByteArray) : Option (List Char) :=
  (String.fromUTF8? content).map fun text => Text.unifyBreaks text.toList

end WireAgent
