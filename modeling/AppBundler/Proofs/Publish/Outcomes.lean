import AppBundler.Publish.Publisher
/-!
# What publishing can come to

With artifacts in memory, publishing ends in one of four ways. They are told apart once, by `Publishes`: no later
proof opens `Publisher.publish`.
-/

namespace AppBundler

namespace Publisher

/-- What is uploaded is the text of the artifact. -/
theorem uploadOf_bytes (a : Artifact) : (uploadOf a).bytes = utf8Bytes a.text := by
  simp only [uploadOf]

/-- A record tells the digest of what is uploaded. -/
theorem artifact_recordOf (appId hash : String) (createdAt : Int) (a : Artifact) :
    (recordOf appId hash createdAt (uploadOf a)).artifact = .ofBytes (uploadOf a).bytes := by
  simp only [recordOf, uploadOf]

/-- The ways in which publishing can end, and what it leaves behind. -/
inductive Publishes (p : Publisher) (blobs : BlobMemory) (createdAt : Int) (request : PublishRequest)
    (s : PublishState) : Built PublishOutcome → PublishState → Prop
  /-- The app has no hash, because one of its scripts cannot be described. -/
  | refused {e} (hhash : p.hash request.app = .error e) : Publishes p blobs createdAt request s (.error e) s
  /-- There is a record of the hash, and its artifact is there. -/
  | reused {hash record} (hhash : p.hash request.app = .ok hash)
      (hfind : s.versions.find? request.app.id hash = some record) (hpresent : blobs.contains record.artifact = true) :
      Publishes p blobs createdAt request s (.ok ⟨record, none⟩)
        { s with counts := { s.counts with reused := s.counts.reused + 1 } }
  /-- The app cannot be built. -/
  | notBuilt {hash e loading} (hhash : p.hash request.app = .ok hash)
      (hbuild : buildArtifact p.config p.cache p.around (buildRequest request hash) s.loading = (.error e, loading)) :
      Publishes p blobs createdAt request s (.error e)
        { s with loading := loading, counts := s.counts.addBuild (.error e) }
  /-- The app was built, and a record of its artifact was written. -/
  | built {hash a loading} (hhash : p.hash request.app = .ok hash)
      (hbuild : buildArtifact p.config p.cache p.around (buildRequest request hash) s.loading = (.ok a, loading)) :
      Publishes p blobs createdAt request s (.ok ⟨recordOf request.app.id hash createdAt (uploadOf a), some (uploadOf a)⟩)
        { s with
          loading := loading
          counts := s.counts.addBuild (.ok a)
          versions := s.versions.upsert (recordOf request.app.id hash createdAt (uploadOf a)) }

variable {p : Publisher} {blobs : BlobMemory} {createdAt : Int} {request : PublishRequest} {s s' : PublishState}

/-- A record whose artifact is there is reused. -/
theorem reusable?_eq_some_iff {appId hash : String} {record : VersionRecord} :
    reusable? .memory blobs s.versions appId hash = some record ↔
      s.versions.find? appId hash = some record ∧ blobs.contains record.artifact = true :=
  Option.filter_eq_some_iff

/-- **The ways in which publishing ends are told apart by `Publishes`.** -/
theorem publishes_of_publish {outcome : Built PublishOutcome}
    (h : p.publish .memory blobs createdAt request s = (outcome, s')) :
    p.Publishes blobs createdAt request s outcome s' := by
  rw [publish] at h
  cases hhash : p.hash request.app with
  | error e =>
    rw [hhash] at h
    obtain ⟨rfl, rfl⟩ := Prod.mk.inj h
    exact .refused hhash
  | ok hash =>
    simp only [hhash] at h
    cases hreusable : reusable? .memory blobs s.versions request.app.id hash with
    | some record =>
      rw [hreusable] at h
      obtain ⟨rfl, rfl⟩ := Prod.mk.inj h
      obtain ⟨hfind, hpresent⟩ := reusable?_eq_some_iff.mp hreusable
      exact .reused hhash hfind hpresent
    | none =>
      simp only [hreusable] at h
      cases hbuild : buildArtifact p.config p.cache p.around (buildRequest request hash) s.loading with
      | mk result loading =>
        rw [hbuild] at h
        cases result with
        | error e =>
          obtain ⟨rfl, rfl⟩ := Prod.mk.inj h
          exact .notBuilt hhash hbuild
        | ok a =>
          obtain ⟨rfl, rfl⟩ := Prod.mk.inj h
          exact .built hhash hbuild

/-- **What is built is stored**: an app without a record of its hash is built, and a record of its artifact is
written. -/
theorem publish_of_absent {hash : String} {a : Artifact} (hhash : p.hash request.app = .ok hash)
    (habsent : s.versions.find? request.app.id hash = none)
    (hbuild : (buildArtifact p.config p.cache p.around (buildRequest request hash) s.loading).1 = .ok a) :
    (p.publish .memory blobs createdAt request s).1 =
      .ok ⟨recordOf request.app.id hash createdAt (uploadOf a), some (uploadOf a)⟩ := by
  have hreusable : reusable? .memory blobs s.versions request.app.id hash = none := by
    rw [reusable?, habsent, Option.filter_none]
  simp only [publish, hhash, hreusable, hbuild]

/-- **What is stored is reused**: the record of a hash is given out again while its artifact is there. -/
theorem publish_of_present {hash : String} {record : VersionRecord} (hhash : p.hash request.app = .ok hash)
    (hfind : s.versions.find? request.app.id hash = some record) (hpresent : blobs.contains record.artifact = true) :
    (p.publish .memory blobs createdAt request s).1 = .ok ⟨record, none⟩ := by
  have hreusable := reusable?_eq_some_iff.mpr ⟨hfind, hpresent⟩
  simp only [publish, hhash, hreusable]

end Publisher

end AppBundler
