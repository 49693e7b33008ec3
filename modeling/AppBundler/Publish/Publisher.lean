import AppBundler.App.Validation
import AppBundler.App.Version
import AppBundler.Bundle.Graph
import AppBundler.Store.Blobs
import AppBundler.Store.Versions
/-!
# Publishing

An app is validated and hashed first. When there is a record for the hash and its artifact is still stored, the
record is reused. Otherwise the app is built, a record is written, and the artifact is stored afterwards, on its
own, so that the record may be there before the artifact is.
-/

namespace AppBundler

/-- A store of artifacts, as far as publishing needs it. -/
structure BlobAccess (β : Type) where
  contains : β → ContentDigest → Except StorageError Bool
  /-- Stores content; none when the store never answers. -/
  put : β → List UInt8 → Option (Except StorageError ContentDigest) × β

namespace BlobAccess

/-- Content in memory. -/
def memory : BlobAccess BlobMemory where
  contains s d := .ok (s.contains d)
  put s bytes := let (d, s) := s.put bytes; (some (.ok d), s)

/-- Content in files. -/
def files : BlobAccess BlobFiles where
  contains s d := .ok (s.contains d)
  put s bytes := let (d, s) := s.put "" bytes; (some (.ok d), s)

end BlobAccess

/-- A record to be written and an artifact to be stored for it. -/
structure PendingUpload where
  digest : ContentDigest
  bytes : List UInt8

/-- What publishing did before the artifact is stored. -/
structure PublishOutcome where
  record : VersionRecord
  /-- None when the record was reused. -/
  upload : Option PendingUpload

/-- Whether an existing record was reused and nothing was built. -/
def PublishOutcome.reused (o : PublishOutcome) : Bool := o.upload.isNone

/-- What publishing changes besides the stored artifacts. -/
structure PublishState where
  versions : VersionMemory
  loading : LoadState
  counts : BuildCounts
deriving Inhabited

/-- The state at a time that was waited for. -/
def PublishState.waitUntil (s : PublishState) (now : Nat) : PublishState :=
  { s with loading := { s.loading with remote := { s.loading.remote with now := now } } }

/-- What is asked of a publisher. -/
structure PublishRequest where
  app : App
  target : String
  baseUrl : Option String

/-- The settings and surroundings of a publisher. -/
structure Publisher where
  config : BuildConfig
  cache : ModuleCache
  around : Surroundings

namespace Publisher

/-- The hash of an app whose scripts can all be described. -/
def hash (p : Publisher) (app : App) : Built String :=
  match app.schemas with
  | .error e => .error (.extract e)
  | .ok _ => .ok (app.hash p.config.frameworkVersion)

/-- The record of a hash whose artifact is stored. A store that fails counts as one without the artifact. -/
def reusable? {β : Type} (access : BlobAccess β) (blobs : β) (versions : VersionMemory) (appId hash : String) :
    Option VersionRecord :=
  (versions.find? appId hash).filter fun r =>
    match access.contains blobs r.artifact with
    | .ok found => found
    | .error _ => false

/-- The build that a request asks for. -/
def buildRequest (request : PublishRequest) (hash : String) : BuildRequest :=
  ⟨request.app, request.target, versionOfHash hash, request.baseUrl⟩

/-- What is to be stored of an artifact. -/
def uploadOf (a : Artifact) : PendingUpload :=
  let bytes := utf8Bytes a.text
  ⟨ContentDigest.ofBytes bytes, bytes⟩

/-- The record of an artifact that was built. -/
def recordOf (appId hash : String) (createdAt : Int) (upload : PendingUpload) : VersionRecord :=
  ⟨appId, hash, versionOfHash hash, true, upload.digest, createdAt⟩

/-- Publishes an app up to the storing of its artifact. -/
def publish {β : Type} (p : Publisher) (access : BlobAccess β) (blobs : β) (createdAt : Int)
    (request : PublishRequest) (s : PublishState) : Built PublishOutcome × PublishState :=
  match p.hash request.app with
  | .error e => (.error e, s)
  | .ok hash =>
    match reusable? access blobs s.versions request.app.id hash with
    | some record => (.ok ⟨record, none⟩, { s with counts := { s.counts with reused := s.counts.reused + 1 } })
    | none =>
      let (built, loading) := buildArtifact p.config p.cache p.around (buildRequest request hash) s.loading
      let s := { s with loading := loading, counts := s.counts.addBuild built }
      match built with
      | .error e => (.error e, s)
      | .ok artifact =>
        let upload := uploadOf artifact
        let record := recordOf request.app.id hash createdAt upload
        (.ok ⟨record, some upload⟩, { s with versions := s.versions.upsert record })

/-- Stores an artifact, which must be answered in time. -/
def store {β : Type} (p : Publisher) (access : BlobAccess β) (blobs : β) (upload : PendingUpload) (now : Nat) :
    Built ContentDigest × β × Nat :=
  match access.put blobs upload.bytes with
  | (some (.ok d), blobs) => (.ok d, blobs, now)
  | (some (.error e), blobs) => (.error (.storage e), blobs, now)
  | (none, blobs) =>
    (.error (.storage (.writeTimedOut p.config.networkTimeout)), blobs, now + p.config.networkTimeout)

/-- The record of an outcome after its artifact has been stored. -/
def finish {β : Type} (p : Publisher) (access : BlobAccess β) (blobs : β) (outcome : PublishOutcome)
    (s : PublishState) : Built VersionRecord × β × PublishState :=
  match outcome.upload with
  | none => (.ok outcome.record, blobs, s)
  | some upload =>
    let (stored, blobs, now) := p.store access blobs upload s.loading.remote.now
    (stored.map fun _ => outcome.record, blobs, s.waitUntil now)

end Publisher

end AppBundler
