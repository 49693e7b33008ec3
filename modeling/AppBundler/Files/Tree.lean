import AppBundler.Text.Parts
/-!
# File trees

A tree holds files under paths of names; a directory is there as soon as a file lies below it. A path is
followed name by name, as a file system does: a name after a file is refused, a point stays, two points step
up.
-/

namespace AppBundler

/-- Why a file cannot be used. -/
inductive FileFault where
  | notFound
  | isDirectory
  | notADirectory
  | invalidText
  | nameTooLong
  | invalidName
  | denied
deriving DecidableEq

/-- The kind of a fault. -/
def FileFault.kind : FileFault → String
  | .notFound => "entity not found"
  | .isDirectory => "is a directory"
  | .notADirectory => "not a directory"
  | .invalidText => "invalid data"
  | .nameTooLong => "invalid filename"
  | .invalidName => "invalid input parameter"
  | .denied => "permission denied"

/-- The wording of the system for a fault. -/
def FileFault.message : FileFault → String
  | .notFound => "No such file or directory (os error 2)"
  | .isDirectory => "Is a directory (os error 21)"
  | .notADirectory => "Not a directory (os error 20)"
  | .invalidText => "stream did not contain valid UTF-8"
  | .nameTooLong => "File name too long (os error 36)"
  | .invalidName => "file name contained an unexpected NUL byte"
  | .denied => "Permission denied (os error 13)"

/-- Files by their paths. -/
structure FileTree where
  files : List (List String × List UInt8)
deriving Inhabited

/-- What lies under a path. -/
inductive FileEntry where
  | file (bytes : List UInt8)
  | directory
deriving DecidableEq

namespace FileTree

/-- What lies under a path of names. The root is always a directory. -/
def entry? (t : FileTree) (path : List String) : Option FileEntry :=
  match t.files.find? fun f => f.1 = path with
  | some (_, bytes) => some (.file bytes)
  | none =>
    if path.isEmpty || t.files.any fun f => path.isPrefixOf f.1 then some .directory else none

/-- The names of a path. -/
def names (path : String) : List String := (Text.splitAtChar '/' path.toList).map String.ofList

/-- The most bytes that a name may have. -/
def nameLimit : Nat := 255

/-- The directory or file where the steps of a path lead. -/
def follow (t : FileTree) : (here : List String) → List String → Except FileFault (List String)
  | here, [] => .ok here
  | here, name :: r =>
    match t.entry? here with
    | none => .error .notFound
    | some (.file _) => .error .notADirectory
    | some .directory =>
      if name = "" || name = "." then follow t here r
      else if name = ".." then follow t here.dropLast r
      else if nameLimit < name.utf8ByteSize then .error .nameTooLong
      else follow t (here ++ [name]) r

/-- The place that a path names, whether or not something lies there. -/
def locate (t : FileTree) (path : String) : Except FileFault (List String) :=
  if path.toList.contains (Char.ofNat 0) then .error .invalidName
  else if path = "" || Text.beginsWith ['/'] path.toList then .error .notFound
  else follow t [] (names path)

/-- The bytes of a file. -/
def read (t : FileTree) (path : String) : Except FileFault (List UInt8) := do
  let place ← t.locate path
  match t.entry? place with
  | none => .error .notFound
  | some .directory => .error .isDirectory
  | some (.file bytes) => .ok bytes

/-- The text of bytes in UTF-8. -/
def textOf (bytes : List UInt8) : Except FileFault String :=
  match String.fromUTF8? (ByteArray.mk bytes.toArray) with
  | some s => .ok s
  | none => .error .invalidText

/-- The text of a file. -/
def readText (t : FileTree) (path : String) : Except FileFault String := (t.read path).bind textOf

/-- Puts a file in place of what lay at a path of names. -/
def put (t : FileTree) (path : List String) (bytes : List UInt8) : FileTree :=
  ⟨t.files.filter (fun f => f.1 ≠ path) ++ [(path, bytes)]⟩

/-- Writes a file whose directory is there. -/
def write (t : FileTree) (path : String) (bytes : List UInt8) : Except FileFault FileTree := do
  let place ← t.locate path
  if t.entry? place = some .directory then .error .isDirectory
  else if t.entry? place.dropLast = some .directory then .ok (t.put place bytes)
  else .error .notFound

/-- The names that a path has when it is followed without looking at what is there. -/
def plainNames (path : String) : List String :=
  (names path).foldl (fun here name =>
    if name = "" || name = "." then here else if name = ".." then here.dropLast else here ++ [name]) []

/-- Whether some file stands where a path needs a directory. -/
def isBlocked (t : FileTree) (path : List String) : Bool :=
  t.files.any fun f => f.1.isPrefixOf path && f.1.length < path.length

/-- The files below a directory, by their paths in it. -/
def below (t : FileTree) (directory : List String) : FileTree :=
  ⟨t.files.filterMap fun (path, bytes) =>
    if directory.isPrefixOf path then some (path.drop directory.length, bytes) else none⟩

/-- The text of a path of names. -/
def pathText (path : List String) : String := "/".intercalate path

/-- The paths of all files, in order. -/
def paths (t : FileTree) : List String := (t.files.map fun f => pathText f.1).mergeSort fun a b => decide (a ≤ b)

end FileTree

end AppBundler
