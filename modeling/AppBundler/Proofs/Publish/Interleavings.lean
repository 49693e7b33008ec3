import Mathlib.Data.Set.Basic
import AppBundler.Proofs.Bundle.Texts
import AppBundler.Proofs.Publish.Outcomes
/-!
# Publishing side by side

Any number of apps are published at the same time, their artifacts are stored on their own, and stored content may
be dropped at any moment. Every call to a store is a step of its own, and so is every load of a build; between any
two steps of one publication those of all others may come. A call to a store may fail, and storing an artifact may
fail or take too long, whether or not the content was written.

Files may change and the network may answer differently from one load to the next: each load meets one of some
possible surroundings.
-/

namespace AppBundler

namespace Publishing

/-- A publisher and all surroundings that its loads may meet. What is fetched in them is tidy. -/
structure System where
  publisher : Publisher
  possible : Surroundings → Prop
  tidy : ∀ around, possible around → around.remote.fetch.IsTidy

/-- How far a publication has come. -/
inductive Phase where
  /-- The app is to be validated and hashed. -/
  | asked
  /-- The record of the hash is to be looked up. -/
  | hashed (hash : String)
  /-- The artifact of the record is to be looked for. -/
  | found (hash : String) (record : VersionRecord)
  /-- There is no artifact, so the app is to be built. -/
  | missing (hash : String)
  /-- The modules of the app are being loaded. -/
  | building (hash : String) (c : BuildContext) (s : Resolution)
  /-- The record of the artifact is to be written. -/
  | built (hash : String) (a : Artifact)
  /-- The artifact is to be stored. -/
  | recorded (record : VersionRecord) (upload : PendingUpload)
  /-- The artifact was there or has been stored: whoever waits for the publication gets the record. -/
  | stored (record : VersionRecord)
  /-- The artifact could not be stored. -/
  | unstored (record : VersionRecord) (e : BuildError)
  /-- Nothing was published. -/
  | failed (e : BuildError)

/-- A publication. -/
structure Task where
  request : PublishRequest
  phase : Phase

/-- The records and the stored artifacts. -/
structure Stores where
  versions : VersionMemory
  blobs : BlobMemory

/-- The stores and all publications, in the order in which they were asked for. -/
structure World where
  stores : Stores
  tasks : List Task

/-- Nothing has been published. -/
def World.initial : World := ⟨⟨⟨[]⟩, ⟨[]⟩⟩, []⟩

namespace System

variable (sys : System)

/-- What loading a URL can bring. -/
def Brings (c : BuildContext) (url : Url) (loaded : Loaded) : Prop :=
  ∃ around, sys.possible around ∧ c.Brings around url loaded

/-- One step of a publication. -/
inductive Advance (request : PublishRequest) (st : Stores) : Phase → Stores → Phase → Prop
  | refused {e} (h : sys.publisher.hash request.app = .error e) : Advance request st .asked st (.failed e)
  | hashed {hash} (h : sys.publisher.hash request.app = .ok hash) : Advance request st .asked st (.hashed hash)
  | found {hash record} (h : st.versions.find? request.app.id hash = some record) :
      Advance request st (.hashed hash) st (.found hash record)
  | notFound {hash} (h : st.versions.find? request.app.id hash = none) :
      Advance request st (.hashed hash) st (.missing hash)
  | lookupFailed {hash} (e : StorageError) : Advance request st (.hashed hash) st (.failed (.storage e))
  | present {hash record} (h : st.blobs.contains record.artifact = true) :
      Advance request st (.found hash record) st (.stored record)
  /-- A store that fails counts as one without the artifact. -/
  | absent {hash record} : Advance request st (.found hash record) st (.missing hash)
  | started {hash c s}
      (hc : BuildContext.ofRequest sys.publisher.config sys.publisher.cache (Publisher.buildRequest request hash) = .ok c)
      (hs : Resolution.ofRoots c.roots = .ok s) : Advance request st (.missing hash) st (.building hash c s)
  | notStarted {hash} (e : BuildError) : Advance request st (.missing hash) st (.failed e)
  | loaded {hash c s s'} (h : Resolution.Step (sys.Brings c) s s') :
      Advance request st (.building hash c s) st (.building hash c s')
  | notLoaded {hash c s} (e : BuildError) : Advance request st (.building hash c s) st (.failed e)
  | built {hash c s} (h : s.pending = []) :
      Advance request st (.building hash c s) st (.built hash (Artifact.ofModules c.roots s.records))
  | recorded {hash a} (createdAt : Int) :
      Advance request st (.built hash a)
        { st with versions :=
            st.versions.upsert (Publisher.recordOf request.app.id hash createdAt (Publisher.uploadOf a)) }
        (.recorded (Publisher.recordOf request.app.id hash createdAt (Publisher.uploadOf a)) (Publisher.uploadOf a))
  | notRecorded {hash a} (e : StorageError) : Advance request st (.built hash a) st (.failed (.storage e))
  | stored {record upload} :
      Advance request st (.recorded record upload) { st with blobs := (st.blobs.put upload.bytes).2 } (.stored record)
  | notStored {record upload} (e : BuildError) :
      Advance request st (.recorded record upload) st (.unstored record e)
  /-- The content was written, but the answer did not come or came too late. -/
  | storedUnnoticed {record upload} (e : BuildError) :
      Advance request st (.recorded record upload) { st with blobs := (st.blobs.put upload.bytes).2 }
        (.unstored record e)

end System

/-- Who makes a step. -/
inductive Actor where
  /-- Whoever wants an app to be published. -/
  | client
  /-- The publication at a place in the list. -/
  | task (i : Nat)
  /-- Whoever drops the content under a digest. -/
  | evictor (digest : ContentDigest)

/-- One step of anyone. -/
inductive Step (sys : System) (w : World) : Actor → World → Prop
  | asks (request : PublishRequest) : Step sys w .client { w with tasks := w.tasks ++ [⟨request, .asked⟩] }
  | advances {i task st phase} (htask : w.tasks[i]? = some task)
      (h : sys.Advance task.request w.stores task.phase st phase) :
      Step sys w (.task i) ⟨st, w.tasks.set i ⟨task.request, phase⟩⟩
  | evicts (digest : ContentDigest) :
      Step sys w (.evictor digest) { w with stores := { w.stores with blobs := w.stores.blobs.evict digest } }

/-- A step that was made. -/
structure Transition where
  before : World
  actor : Actor
  after : World

/-- A run from the beginning: all steps that were made, and the world after them. -/
inductive Run (sys : System) : List Transition → World → Prop
  | start : Run sys [] World.initial
  | step {trace w actor w'} (h : Run sys trace w) (hstep : Step sys w actor w') :
      Run sys (trace ++ [⟨w, actor, w'⟩]) w'

/-- The content that is about to be stored. -/
def Phase.uploads : Phase → Set (List UInt8)
  | .recorded _ upload => {upload.bytes}
  | _ => ∅

/-- All contents for which a record was written. -/
def uploads (trace : List Transition) : Set (List UInt8) :=
  {bytes | ∃ t ∈ trace, ∃ i task, t.actor = .task i ∧ t.after.tasks[i]? = some task ∧ bytes ∈ task.phase.uploads}

/-- What is uploaded in a trace is uploaded in one of its parts. -/
theorem uploads_append (front back : List Transition) : uploads (front ++ back) = uploads front ∪ uploads back := by
  ext bytes
  constructor
  · rintro ⟨t, ht, hbytes⟩
    exact (List.mem_append.mp ht).imp (fun ht => ⟨t, ht, hbytes⟩) fun ht => ⟨t, ht, hbytes⟩
  · rintro (⟨t, ht, hbytes⟩ | ⟨t, ht, hbytes⟩)
    · exact ⟨t, List.mem_append_left _ ht, hbytes⟩
    · exact ⟨t, List.mem_append_right _ ht, hbytes⟩

/-- What is uploaded in the beginning of a trace is uploaded in the trace. -/
theorem uploads_subset_append (front back : List Transition) : uploads front ⊆ uploads (front ++ back) := by
  rw [uploads_append]
  exact Set.subset_union_left

/-- Whoever asks for a publication uploads nothing. -/
theorem uploads_client (before after : World) : uploads [⟨before, .client, after⟩] = ∅ := by
  refine Set.eq_empty_of_forall_notMem ?_
  rintro bytes ⟨t, ht, i, task, hactor, -⟩
  obtain rfl := List.mem_singleton.mp ht
  cases hactor

/-- What a step of a publication uploads is what the publication holds after it. -/
theorem uploads_task {before after : World} {i : Nat} {task : Task} (htask : after.tasks[i]? = some task) :
    uploads [⟨before, .task i, after⟩] = task.phase.uploads := by
  ext bytes
  constructor
  · rintro ⟨t, ht, j, other, hactor, hother, hbytes⟩
    obtain rfl := List.mem_singleton.mp ht
    obtain rfl : i = j := Actor.task.inj hactor
    obtain rfl : task = other := Option.some.inj (htask.symm.trans hother)
    exact hbytes
  · exact fun hbytes => ⟨_, List.mem_cons_self, i, task, rfl, htask, hbytes⟩

/-! ## One publication after another

What `Publisher.publish` and `Publisher.finish` do at once, without anyone coming between, is a run. -/

/-- How far a publication has come when nothing waits for its artifact yet. -/
def Phase.ofOutcome : Built PublishOutcome → Phase
  | .error e => .failed e
  | .ok ⟨record, none⟩ => .stored record
  | .ok ⟨record, some upload⟩ => .recorded record upload

section Sequential

variable {sys : System} {trace : List Transition} {st st' : Stores} {tasks : List Task} {request : PublishRequest}
  {phase phase' : Phase} {contents : Set (List UInt8)}

/-- The last publication makes a step. -/
theorem Run.advance (h : Run sys trace ⟨st, tasks ++ [⟨request, phase⟩]⟩)
    (hadvance : sys.Advance request st phase st' phase') :
    Run sys (trace ++ [⟨⟨st, tasks ++ [⟨request, phase⟩]⟩, .task tasks.length, ⟨st', tasks ++ [⟨request, phase'⟩]⟩⟩])
      ⟨st', tasks ++ [⟨request, phase'⟩]⟩ := by
  have hstep := h.step (.advances List.getElem?_concat_length hadvance)
  rwa [List.set_append_right _ _ (Nat.le_refl _), Nat.sub_self] at hstep

/-- What the last publication uploads in a step is what it holds after it. -/
theorem uploads_advance : uploads [⟨⟨st, tasks ++ [⟨request, phase⟩]⟩, .task tasks.length,
    ⟨st', tasks ++ [⟨request, phase'⟩]⟩⟩] = phase'.uploads := by
  rw [uploads_task List.getElem?_concat_length]

/-- Steps can be made that lead to a world and upload nothing but some contents. -/
def Run.Leads (sys : System) (trace : List Transition) (contents : Set (List UInt8)) (w : World) : Prop :=
  ∃ more, Run sys (trace ++ more) w ∧ uploads more ⊆ contents

/-- The last publication goes on. -/
theorem Run.Leads.advance (h : Run.Leads sys trace contents ⟨st, tasks ++ [⟨request, phase⟩]⟩)
    (hadvance : sys.Advance request st phase st' phase') (hcontents : phase'.uploads ⊆ contents) :
    Run.Leads sys trace contents ⟨st', tasks ++ [⟨request, phase'⟩]⟩ := by
  obtain ⟨more, hrun, hmore⟩ := h
  have hnext := hrun.advance hadvance
  rw [List.append_assoc] at hnext
  refine ⟨_, hnext, ?_⟩
  rw [uploads_append, uploads_advance]
  exact Set.union_subset hmore hcontents

/-- The last publication goes on without a content to be stored. -/
theorem Run.Leads.proceed (h : Run.Leads sys trace contents ⟨st, tasks ++ [⟨request, phase⟩]⟩)
    (hadvance : sys.Advance request st phase st' phase') (hcontents : phase'.uploads = ∅) :
    Run.Leads sys trace contents ⟨st', tasks ++ [⟨request, phase'⟩]⟩ :=
  h.advance hadvance (hcontents ▸ Set.empty_subset contents)

/-- The last publication loads modules. -/
theorem Run.Leads.load {hash : String} {c : BuildContext} {s s' : Resolution}
    (h : Run.Leads sys trace contents ⟨st, tasks ++ [⟨request, .building hash c s⟩]⟩)
    (hsteps : Resolution.Steps (sys.Brings c) s s') :
    Run.Leads sys trace contents ⟨st, tasks ++ [⟨request, .building hash c s'⟩]⟩ := by
  induction hsteps with
  | refl => exact h
  | tail _ hstep ih => exact ih.proceed (.loaded hstep) rfl

/-- The last publication builds its artifact. -/
theorem Run.Leads.build {around : Surroundings} {hash : String} {w w' : LoadState} {a : Artifact}
    (hpossible : sys.possible around) (h : Run.Leads sys trace contents ⟨st, tasks ++ [⟨request, .missing hash⟩]⟩)
    (hbuild : buildArtifact sys.publisher.config sys.publisher.cache around (Publisher.buildRequest request hash) w =
      (.ok a, w')) :
    Run.Leads sys trace contents ⟨st, tasks ++ [⟨request, .built hash a⟩]⟩ := by
  obtain ⟨c, hc, hcan⟩ := BuildContext.exists_canBuild_of_buildArtifact hbuild
  obtain ⟨start, s, hstart, hsteps, hdone, rfl⟩ := hcan.completes
  have hloaded := (h.proceed (.started hc hstart) rfl).load
    (hsteps.mono fun _ _ hbrings => ⟨around, hpossible, hbrings⟩)
  exact hloaded.proceed (.built hdone) rfl

/-- **Publishing is a run**: what `publish` makes of the stores, and its outcome, come about step by step. -/
theorem Run.publish (hpossible : sys.possible sys.publisher.around) (h : Run sys trace ⟨st, tasks⟩)
    {createdAt : Int} {s s' : PublishState} {outcome : Built PublishOutcome} (hs : s.versions = st.versions)
    (hpublish : sys.publisher.publish .memory st.blobs createdAt request s = (outcome, s')) :
    Run.Leads sys trace (Phase.ofOutcome outcome).uploads
      ⟨⟨s'.versions, st.blobs⟩, tasks ++ [⟨request, .ofOutcome outcome⟩]⟩ := by
  have hasked : Run.Leads sys trace (Phase.ofOutcome outcome).uploads ⟨st, tasks ++ [⟨request, .asked⟩]⟩ := by
    exact ⟨_, h.step (.asks request), uploads_client _ _ ▸ Set.empty_subset _⟩
  -- A build may begin whether or not there is a record: a store that fails counts as one without the artifact.
  have hmissing : ∀ hash, sys.publisher.hash request.app = .ok hash →
      Run.Leads sys trace (Phase.ofOutcome outcome).uploads ⟨st, tasks ++ [⟨request, .missing hash⟩]⟩ := by
    intro hash hhash
    have hhashed := hasked.proceed (.hashed hhash) rfl
    cases hfind : st.versions.find? request.app.id hash with
    | none => exact hhashed.proceed (.notFound hfind) rfl
    | some record => exact (hhashed.proceed (.found hfind) rfl).proceed .absent rfl
  cases Publisher.publishes_of_publish hpublish with
  | refused hhash => exact hs ▸ hasked.proceed (.refused hhash) rfl
  | reused hhash hfind hpresent =>
    have hfound := (hasked.proceed (.hashed hhash) rfl).proceed (.found (hs ▸ hfind)) rfl
    exact hs ▸ hfound.proceed (.present hpresent) rfl
  | notBuilt hhash => exact hs ▸ (hmissing _ hhash).proceed (.notStarted _) rfl
  | built hhash hbuild =>
    have hbuilt := (hmissing _ hhash).build hpossible hbuild
    exact hs ▸ hbuilt.advance (.recorded createdAt) (Set.Subset.refl _)

/-- **Waiting for the artifact is a step**: `finish` gives the record of an outcome after its artifact was stored. -/
theorem Run.finish {record : VersionRecord} {upload : PendingUpload} {s s' : PublishState} {result : Built VersionRecord}
    {blobs : BlobMemory} (h : Run sys trace ⟨st, tasks ++ [⟨request, .recorded record upload⟩]⟩)
    (hfinish : sys.publisher.finish .memory st.blobs ⟨record, some upload⟩ s = (result, blobs, s')) :
    result = .ok record ∧ Run.Leads sys trace ∅ ⟨{ st with blobs := blobs }, tasks ++ [⟨request, .stored record⟩]⟩ := by
  obtain ⟨rfl, heq⟩ := Prod.mk.inj hfinish
  obtain ⟨rfl, -⟩ := Prod.mk.inj heq
  have hleads : Run.Leads sys trace ∅ ⟨st, tasks ++ [⟨request, .recorded record upload⟩]⟩ := by
    refine ⟨[], by rwa [List.append_nil], ?_⟩
    rintro bytes ⟨t, ht, -⟩
    exact absurd ht List.not_mem_nil
  exact ⟨rfl, hleads.proceed .stored rfl⟩

end Sequential

end Publishing

end AppBundler
