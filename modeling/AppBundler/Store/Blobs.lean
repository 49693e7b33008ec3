import AppBundler.Store.Error
/-!
# Stores of content

Content is kept under its digest. It can be kept in memory, or in files, where the first two digits name a
directory and the others a file in it. A file is written under another name first and then given its own, so
that a reader never meets a part of it.
-/

namespace AppBundler

/-- Content in memory, under digests each of which stands there once. -/
structure BlobMemory where
  blobs : List (ContentDigest × List UInt8)
deriving Inhabited

namespace BlobMemory

/-- The content under a digest. -/
def find? (s : BlobMemory) (d : ContentDigest) : Option (List UInt8) := (s.blobs.find? fun b => b.1 = d).map (·.2)

/-- Keeps content; says under which digest. -/
def put (s : BlobMemory) (bytes : List UInt8) : ContentDigest × BlobMemory :=
  let d := ContentDigest.ofBytes bytes
  (d, ⟨(d, bytes) :: s.blobs.filter fun b => b.1 ≠ d⟩)

/-- The content under a digest, or an error. -/
def get (s : BlobMemory) (d : ContentDigest) : Except StorageError (List UInt8) :=
  match s.find? d with
  | some bytes => .ok bytes
  | none => .error (.notFound d)

/-- Whether there is content under a digest. -/
def contains (s : BlobMemory) (d : ContentDigest) : Bool := (s.find? d).isSome

/-- Drops the content under a digest. -/
def evict (s : BlobMemory) (d : ContentDigest) : BlobMemory := ⟨s.blobs.filter fun b => b.1 ≠ d⟩

/-- The number of contents. -/
def size (s : BlobMemory) : Nat := s.blobs.length

end BlobMemory

/-- Content in files below a directory. -/
structure BlobFiles where
  tree : FileTree
deriving Inhabited

namespace BlobFiles

/-- The directory of a digest. -/
def directory (d : ContentDigest) : List String := ["objects", String.ofList (d.hex.toList.take 2)]

/-- The file of a digest. -/
def path (d : ContentDigest) : List String := directory d ++ [String.ofList (d.hex.toList.drop 2)]

/-- A name in the directory of a digest for a file that is being written. -/
def draftPath (d : ContentDigest) (tag : String) : List String := directory d ++ [".tmp" ++ tag]

/-- Whether there is content under a digest. -/
def contains (s : BlobFiles) (d : ContentDigest) : Bool := (s.tree.entry? (path d)).isSome

/-- Writes content under the name for a file that is being written. -/
def writeDraft (s : BlobFiles) (d : ContentDigest) (tag : String) (bytes : List UInt8) : BlobFiles :=
  ⟨s.tree.put (draftPath d tag) bytes⟩

/-- Gives a file that has been written its own name. -/
def publishDraft (s : BlobFiles) (d : ContentDigest) (tag : String) : BlobFiles :=
  match s.tree.files.find? fun f => f.1 = draftPath d tag with
  | none => s
  | some (_, bytes) => ⟨(FileTree.mk (s.tree.files.filter fun f => f.1 ≠ draftPath d tag)).put (path d) bytes⟩

/-- Keeps content unless it is there already; says under which digest. -/
def put (s : BlobFiles) (tag : String) (bytes : List UInt8) : ContentDigest × BlobFiles :=
  let d := ContentDigest.ofBytes bytes
  (d, if s.contains d then s else (s.writeDraft d tag bytes).publishDraft d tag)

/-- The content under a digest, or an error. -/
def get (s : BlobFiles) (d : ContentDigest) : Except StorageError (List UInt8) :=
  match s.tree.entry? (path d) with
  | some (.file bytes) => .ok bytes
  | some .directory => .error (.file .isDirectory)
  | none => .error (.notFound d)

end BlobFiles

end AppBundler
