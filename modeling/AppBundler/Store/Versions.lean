import AppBundler.Digest.Content
import AppBundler.Json.Value
/-!
# Records of versions

There is one record for each app and hash; a new one takes the place of the old one. The records are kept by
app and hash, or under an id made of the two. The id tells the length of the app's own id, so that it can be
taken apart in one way only.
-/

namespace AppBundler

/-- A version of an app and where its artifact is. -/
structure VersionRecord where
  appId : String
  hash : String
  version : String
  isPublished : Bool
  artifact : ContentDigest
  /-- Milliseconds of the calendar. -/
  createdAt : Int
deriving DecidableEq

/-- Whether a record belongs to an app and a hash. -/
def VersionRecord.isFor (r : VersionRecord) (appId hash : String) : Bool := r.appId = appId && r.hash = hash

/-- The records of an app, newest first. -/
def newestFirst (appId : String) (records : List VersionRecord) : List VersionRecord :=
  (records.filter fun r => r.appId = appId).mergeSort fun a b => b.createdAt ≤ a.createdAt

/-- Records by app and hash. -/
structure VersionMemory where
  records : List VersionRecord
deriving Inhabited

namespace VersionMemory

/-- The record of an app and a hash. -/
def find? (s : VersionMemory) (appId hash : String) : Option VersionRecord :=
  s.records.find? fun r => r.isFor appId hash

/-- Puts a record in place of the one of its app and hash. -/
def upsert (s : VersionMemory) (r : VersionRecord) : VersionMemory :=
  ⟨r :: s.records.filter fun old => !old.isFor r.appId r.hash⟩

/-- The records of an app, newest first. -/
def list (s : VersionMemory) (appId : String) : List VersionRecord := newestFirst appId s.records

end VersionMemory

/-- The id of the record of an app and a hash. -/
def versionId (appId hash : String) : String :=
  toString appId.utf8ByteSize ++ "_" ++ appId ++ "_" ++ hash

/-- Records under ids. -/
structure VersionTable where
  rows : List (String × VersionRecord)
deriving Inhabited

namespace VersionTable

/-- The record of an app and a hash. -/
def find? (s : VersionTable) (appId hash : String) : Option VersionRecord :=
  (s.rows.find? fun row => row.1 = versionId appId hash).map (·.2)

/-- Whether a record of the same app and hash stands under another id. -/
def violates (s : VersionTable) (r : VersionRecord) : Bool :=
  s.rows.any fun row => row.1 ≠ versionId r.appId r.hash && row.2.isFor r.appId r.hash

/-- Puts a record in place of the one under its id, unless its app and hash stand under another id. -/
def upsert? (s : VersionTable) (r : VersionRecord) : Option VersionTable :=
  if s.violates r then none
  else some ⟨(versionId r.appId r.hash, r) :: s.rows.filter fun row => row.1 ≠ versionId r.appId r.hash⟩

/-- The records of an app, newest first. -/
def list (s : VersionTable) (appId : String) : List VersionRecord := newestFirst appId (s.rows.map (·.2))

end VersionTable

end AppBundler
