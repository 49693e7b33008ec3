import Mathlib.Data.List.Induction
import AppBundler.Proofs.Bundle.Graph
import AppBundler.Proofs.Digest.Collisions
import AppBundler.Proofs.Publish.Interleavings
import AppBundler.Proofs.Store.Memory
/-!
# Publishing is sound however it is interleaved

A record may be there before its artifact is, and its artifact may be gone again. What holds in between is said by
`Invariant`: every record tells the digest of an artifact that was built for an app with its hash, and what each
publication holds in its hands was made for the app that it publishes. Every step of anyone keeps it.
-/

namespace AppBundler

namespace Publishing

variable {sys : System} {request : PublishRequest} {st st' : Stores} {phase phase' : Phase}
variable {trace earlier later : List Transition} {w w' : World} {actor : Actor} {contents : Set (List UInt8)}

/-! ## What each publication holds -/

namespace System

variable (sys)

/-- The loads of a build bring about a resolution. -/
def Resolves (request : PublishRequest) (hash : String) (c : BuildContext) (s : Resolution) : Prop :=
  BuildContext.ofRequest sys.publisher.config sys.publisher.cache (Publisher.buildRequest request hash) = .ok c ∧
    ∃ start, Resolution.ofRoots c.roots = .ok start ∧ Resolution.Steps (sys.Brings c) start s

/-- An artifact was built for an app that has an id and a hash. -/
def BuiltFor (appId hash : String) (a : Artifact) : Prop :=
  ∃ request c s, request.app.id = appId ∧ sys.publisher.hash request.app = .ok hash ∧
    sys.Resolves request hash c s ∧ s.pending = [] ∧ a = Artifact.ofModules c.roots s.records

/-- A record tells the digest of an artifact that was built for an app with its hash, and whose text is among some
contents. -/
def Backs (contents : Set (List UInt8)) (record : VersionRecord) : Prop :=
  ∃ a, sys.BuiltFor record.appId record.hash a ∧ utf8Bytes a.text ∈ contents ∧
    record.artifact = (Publisher.uploadOf a).digest

/-- A record belongs to the app of a request. -/
def Matches (request : PublishRequest) (record : VersionRecord) : Prop :=
  record.appId = request.app.id ∧ sys.publisher.hash request.app = .ok record.hash

/-- What a publication holds was made for its app. -/
def Allows (contents : Set (List UInt8)) (request : PublishRequest) : Phase → Prop
  | .asked => True
  | .hashed hash => sys.publisher.hash request.app = .ok hash
  | .found hash record =>
    sys.publisher.hash request.app = .ok hash ∧ sys.Matches request record ∧ sys.Backs contents record
  | .missing hash => sys.publisher.hash request.app = .ok hash
  | .building hash c s => sys.publisher.hash request.app = .ok hash ∧ sys.Resolves request hash c s
  | .built hash a => sys.publisher.hash request.app = .ok hash ∧ sys.BuiltFor request.app.id hash a
  | .recorded record upload => sys.Matches request record ∧ sys.Backs contents record ∧
      upload.bytes ∈ contents ∧ record.artifact = ContentDigest.ofBytes upload.bytes
  | .stored record => sys.Matches request record ∧ sys.Backs contents record
  | .unstored record _ => sys.Matches request record ∧ sys.Backs contents record
  | .failed _ => True

variable {sys}

/-- An artifact that was built is tidy, so that its text is read back. -/
theorem BuiltFor.isTidy {appId hash : String} {a : Artifact} (h : sys.BuiltFor appId hash a) : a.IsTidy := by
  obtain ⟨request, c, s, -, -, ⟨-, start, hstart, hsteps⟩, -, rfl⟩ := h
  refine Artifact.isTidy_of_steps ?_ hstart hsteps
  rintro url m ⟨around, hpossible, hbrings⟩
  exact hbrings.isTidy (sys.tidy around hpossible)

end System

/-! ## Every step is sound -/

/-- Stores in which every record tells the digest of an artifact that was built for its app and hash, and in which
nothing but some contents stands. -/
structure Stores.Sound (sys : System) (contents : Set (List UInt8)) (st : Stores) : Prop where
  keyed : st.versions.IsKeyed
  backed : ∀ record ∈ st.versions.records, sys.Backs contents record
  addressed : st.blobs.IsAddressed
  stored : ∀ b ∈ st.blobs.blobs, b.2 ∈ contents

/-- The stores are sound, and every publication holds what was made for its app. -/
structure Invariant (sys : System) (contents : Set (List UInt8)) (w : World) : Prop where
  stores : w.stores.Sound sys contents
  tasks : ∀ task ∈ w.tasks, sys.Allows contents task.request task.phase

/-- Putting one of the contents leaves the stores sound. -/
theorem Stores.Sound.put (h : st.Sound sys contents) {bytes : List UInt8} (hbytes : bytes ∈ contents) :
    ({ st with blobs := (st.blobs.put bytes).2 } : Stores).Sound sys contents := by
  refine ⟨h.keyed, h.backed, h.addressed.put bytes, fun b hb => ?_⟩
  rcases List.mem_cons.mp hb with rfl | hb
  · exact hbytes
  · exact h.stored b (List.mem_of_mem_filter hb)

/-- Evicting content leaves the stores sound. -/
theorem Stores.Sound.evict (h : st.Sound sys contents) (d : ContentDigest) :
    ({ st with blobs := st.blobs.evict d } : Stores).Sound sys contents :=
  ⟨h.keyed, h.backed, h.addressed.evict d, fun b hb => h.stored b (List.mem_of_mem_filter hb)⟩

/-- **A step of a publication keeps the stores sound**, and what the publication holds is made for its app. -/
theorem System.Advance.sound (h : sys.Advance request st phase st' phase') (hcontents : phase'.uploads ⊆ contents)
    (hst : st.Sound sys contents) (hphase : sys.Allows contents request phase) :
    st'.Sound sys contents ∧ sys.Allows contents request phase' := by
  cases h with
  | refused => exact ⟨hst, trivial⟩
  | hashed hhash => exact ⟨hst, hhash⟩
  | found hfind =>
    obtain ⟨hmem, hid, rfl⟩ := VersionMemory.mem_of_find? hfind
    exact ⟨hst, hphase, ⟨hid, hphase⟩, hst.backed _ hmem⟩
  | notFound => exact ⟨hst, hphase⟩
  | lookupFailed => exact ⟨hst, trivial⟩
  | present => exact ⟨hst, hphase.2⟩
  | absent => exact ⟨hst, hphase.1⟩
  | started hc hs => exact ⟨hst, hphase, hc, _, hs, .refl⟩
  | notStarted => exact ⟨hst, trivial⟩
  | loaded hstep =>
    obtain ⟨hhash, hc, start, hstart, hsteps⟩ := hphase
    exact ⟨hst, hhash, hc, start, hstart, hsteps.tail hstep⟩
  | notLoaded => exact ⟨hst, trivial⟩
  | built hdone =>
    obtain ⟨hhash, hresolves⟩ := hphase
    exact ⟨hst, hhash, request, _, _, rfl, hhash, hresolves, hdone, rfl⟩
  | @recorded hash a createdAt =>
    obtain ⟨hhash, hbuilt⟩ := hphase
    have hupload : (Publisher.uploadOf a).bytes ∈ contents := hcontents (Set.mem_singleton _)
    have hbacks : sys.Backs contents (Publisher.recordOf request.app.id hash createdAt (Publisher.uploadOf a)) :=
      ⟨a, hbuilt, Publisher.uploadOf_bytes a ▸ hupload, rfl⟩
    refine ⟨⟨hst.keyed.upsert _, fun record hrecord => ?_, hst.addressed, hst.stored⟩, ⟨rfl, hhash⟩, hbacks, hupload,
      Publisher.artifact_recordOf _ _ _ _⟩
    rcases VersionMemory.mem_of_mem_upsert hrecord with rfl | hrecord
    · exact hbacks
    · exact hst.backed record hrecord
  | notRecorded => exact ⟨hst, trivial⟩
  | stored => exact ⟨hst.put hphase.2.2.1, hphase.1, hphase.2.1⟩
  | notStored => exact ⟨hst, hphase.1, hphase.2.1⟩
  | storedUnnoticed => exact ⟨hst.put hphase.2.2.1, hphase.1, hphase.2.1⟩

/-- **A step of anyone keeps the invariant.** -/
theorem Invariant.step (h : Invariant sys contents w) (hstep : Step sys w actor w')
    (hcontents : uploads [⟨w, actor, w'⟩] ⊆ contents) : Invariant sys contents w' := by
  cases hstep with
  | asks request =>
    refine ⟨h.stores, fun task htask => ?_⟩
    rcases List.mem_append.mp htask with htask | htask
    · exact h.tasks task htask
    · obtain rfl := List.mem_singleton.mp htask
      exact trivial
  | @advances i task st phase htask hadvance =>
    have hmoved : (w.tasks.set i ⟨task.request, phase⟩)[i]? = some ⟨task.request, phase⟩ := by
      simp [(List.getElem?_eq_some_iff.mp htask).1]
    rw [uploads_task hmoved] at hcontents
    obtain ⟨hst, hphase⟩ := hadvance.sound hcontents h.stores (h.tasks task (List.mem_of_getElem? htask))
    refine ⟨hst, fun other hother => ?_⟩
    rcases List.mem_or_eq_of_mem_set hother with hother | rfl
    · exact h.tasks other hother
    · exact hphase
  | evicts d => exact ⟨h.stores.evict d, h.tasks⟩

/-- **The invariant holds after every run**, for any contents among which all are that the run uploads. -/
theorem Run.invariant (h : Run sys trace w) (hcontents : uploads trace ⊆ contents) : Invariant sys contents w := by
  induction h with
  | start => exact ⟨⟨List.nodup_nil, by rintro _ ⟨⟩, by rintro _ ⟨⟩, by rintro _ ⟨⟩⟩, by rintro _ ⟨⟩⟩
  | step _ hstep ih =>
    rw [uploads_append, Set.union_subset_iff] at hcontents
    exact (ih hcontents.1).step hstep hcontents.2

/-! ## Publications that fail -/

/-- Whether a publication has written its record or needs none. -/
def Phase.isSettled : Phase → Bool
  | .recorded _ _ | .stored _ | .unstored _ _ => true
  | _ => false

/-- **A publication that is not settled has not written anything**, and is not settled before. -/
theorem System.Advance.unchanged (h : sys.Advance request st phase st' phase') (hphase : phase'.isSettled = false) :
    phase.isSettled = false ∧ st' = st := by
  cases h <;> first | exact ⟨rfl, rfl⟩ | cases hphase

/-- Whoever made a step is there. -/
theorem Run.task_lt (h : Run sys trace w) : ∀ t ∈ trace, ∀ i, t.actor = .task i → i < w.tasks.length := by
  induction h with
  | start => simp
  | @step trace w actor w' _ hstep ih =>
    intro t ht i hactor
    have hgrows : w.tasks.length ≤ w'.tasks.length := by cases hstep <;> simp
    rcases List.mem_append.mp ht with ht | ht
    · exact (ih t ht i hactor).trans_le hgrows
    · obtain rfl := List.mem_singleton.mp ht
      obtain rfl : actor = .task i := hactor
      cases hstep with
      | advances htask => simpa using (List.getElem?_eq_some_iff.mp htask).1

/-- All steps of a publication that is not settled have left the stores as they were. -/
theorem Run.unchanged_of_not_settled (h : Run sys trace w) {i : Nat} {task : Task} (htask : w.tasks[i]? = some task)
    (hphase : task.phase.isSettled = false) : ∀ t ∈ trace, t.actor = .task i → t.after.stores = t.before.stores := by
  induction h generalizing task with
  | start => simp
  | @step trace w actor w' hrun hstep ih =>
    intro t ht hactor
    -- Unless the last step is one of this publication, the step in question was made before it.
    have hearlier (hother : actor ≠ .task i) : t ∈ trace := by
      rcases List.mem_append.mp ht with ht | ht
      · exact ht
      · obtain rfl := List.mem_singleton.mp ht
        exact absurd hactor hother
    cases hstep with
    | asks request =>
      have ht := hearlier Actor.noConfusion
      rw [List.getElem?_append_left (hrun.task_lt t ht i hactor)] at htask
      exact ih htask hphase t ht hactor
    | @advances j moved st phase hmoved hadvance =>
      by_cases hj : j = i
      · subst hj
        obtain rfl : ⟨moved.request, phase⟩ = task := by
          simpa [(List.getElem?_eq_some_iff.mp hmoved).1] using htask
        obtain ⟨hbefore, rfl⟩ := hadvance.unchanged hphase
        rcases List.mem_append.mp ht with ht | ht
        · exact ih hmoved hbefore t ht hactor
        · obtain rfl := List.mem_singleton.mp ht
          rfl
      · have ht := hearlier fun heq => hj (Actor.task.inj heq)
        exact ih (by simpa [hj] using htask) hphase t ht hactor
    | evicts d => exact ih htask hphase t (hearlier Actor.noConfusion) hactor

/-! ## Artifacts that are stored -/

/-- Content stays in a step of a publication. -/
theorem System.Advance.contains_of_contains {d : ContentDigest} (h : sys.Advance request st phase st' phase')
    (hd : st.blobs.contains d = true) : st'.blobs.contains d = true := by
  cases h with
  | stored => exact BlobMemory.contains_put hd _
  | storedUnnoticed => exact BlobMemory.contains_put hd _
  | _ => exact hd

/-- Content stays unless it is evicted. -/
theorem Step.contains_of_contains {d : ContentDigest} (h : Step sys w actor w') (hactor : actor ≠ .evictor d)
    (hd : w.stores.blobs.contains d = true) : w'.stores.blobs.contains d = true := by
  cases h with
  | asks => exact hd
  | advances _ hadvance => exact hadvance.contains_of_contains hd
  | evicts other => exact BlobMemory.contains_evict hd fun heq => hactor (heq ▸ rfl)

/-- A step of a longer trace is the last one, or one before it. -/
theorem append_cons_eq_concat {t u : Transition} (h : earlier ++ t :: later = trace ++ [u]) :
    earlier = trace ∧ t = u ∧ later = [] ∨ ∃ between, later = between ++ [u] ∧ earlier ++ t :: between = trace := by
  cases later using List.reverseRecOn with
  | nil =>
    obtain ⟨hfront, hlast⟩ := List.append_inj' h rfl
    exact Or.inl ⟨hfront, List.singleton_inj.mp hlast, rfl⟩
  | append_singleton between v =>
    rw [← List.cons_append, ← List.append_assoc] at h
    obtain ⟨hfront, hlast⟩ := List.append_inj' h rfl
    exact Or.inr ⟨between, by rw [hlast], hfront⟩

/-- A run can be taken apart at any of its steps. -/
theorem Run.split {t : Transition} (h : Run sys (earlier ++ t :: later) w) :
    Run sys earlier t.before ∧ Step sys t.before t.actor t.after := by
  generalize htrace : earlier ++ t :: later = trace at h
  induction h generalizing later with
  | start => simp at htrace
  | step hrun hstep ih =>
    rcases append_cons_eq_concat htrace with ⟨rfl, rfl, -⟩ | ⟨between, -, hfront⟩
    · exact ⟨hrun, hstep⟩
    · exact ih hfront

/-- Content that was there after a step of a run and was not evicted later is still there. -/
theorem Run.contains_of_not_evicted {t : Transition} {d : ContentDigest} (h : Run sys (earlier ++ t :: later) w)
    (hd : t.after.stores.blobs.contains d = true) (hlater : ∀ u ∈ later, u.actor ≠ .evictor d) :
    w.stores.blobs.contains d = true := by
  generalize htrace : earlier ++ t :: later = trace at h
  induction h generalizing later with
  | start => simp at htrace
  | step _ hstep ih =>
    rcases append_cons_eq_concat htrace with ⟨-, rfl, -⟩ | ⟨between, rfl, hfront⟩
    · exact hd
    · have hbetween : ∀ u ∈ between, u.actor ≠ .evictor d := fun u hu => hlater u (List.mem_append_left _ hu)
      have hlast := hlater _ (List.mem_append_right _ List.mem_cons_self)
      exact hstep.contains_of_contains hlast (ih hbetween hfront)

/-- The artifact of a publication is there when it gets its record. -/
theorem System.Advance.contains_artifact {record : VersionRecord} (h : sys.Advance request st phase st' (.stored record))
    (hphase : sys.Allows contents request phase) : st'.blobs.contains record.artifact = true := by
  cases h with
  | present hpresent => exact hpresent
  | stored =>
    obtain ⟨-, -, -, hartifact⟩ := hphase
    rw [hartifact]
    exact BlobMemory.contains_put_self _ _

/-- **Publishing is sound in every interleaving**: there is one record for each app and hash; a publication that
fails has left the stores as they were; every content stands under its own digest; and an artifact that has been
stored for a publication, or was there for it, is there for as long as it is not evicted. Unless two contents that
were uploaded collide, what is there is read back as an artifact that was built for an app with the hash of the
record. -/
theorem Run.interleaving_sound (h : Run sys trace w) :
    w.stores.versions.IsKeyed ∧
      (∀ i request e, w.tasks[i]? = some ⟨request, .failed e⟩ →
        ∀ t ∈ trace, t.actor = .task i → t.after.stores = t.before.stores) ∧
      w.stores.blobs.IsAddressed ∧
      (Sha256.IsCollisionFree (uploads trace) → ∀ earlier t later i request record,
        trace = earlier ++ t :: later → t.actor = .task i → t.after.tasks[i]? = some ⟨request, .stored record⟩ →
        (∀ u ∈ later, u.actor ≠ .evictor record.artifact) →
        record.appId = request.app.id ∧ sys.publisher.hash request.app = .ok record.hash ∧
        ∃ a, sys.BuiltFor record.appId record.hash a ∧
          w.stores.blobs.get record.artifact = .ok (utf8Bytes a.text) ∧ Artifact.ofText? a.text = some a) := by
  have hstores := (h.invariant (Set.Subset.refl _)).stores
  refine ⟨hstores.keyed, fun i request e htask => h.unchanged_of_not_settled htask rfl, hstores.addressed, ?_⟩
  rintro hcollision earlier ⟨before, actor, after⟩ later i request record rfl rfl hstored hlater
  obtain ⟨hrun, hstep⟩ : Run sys earlier before ∧ Step sys before (.task i) after := h.split
  have huploads := uploads_subset_append (earlier ++ [⟨before, .task i, after⟩]) later
  rw [← List.append_cons] at huploads
  -- The publication held what was made for its app both before and after it got its record.
  have hbefore := hrun.invariant (uploads_subset_append earlier (⟨before, .task i, after⟩ :: later))
  obtain ⟨⟨hid, hhash⟩, a, hbuilt, htext, hartifact⟩ :=
    ((hrun.step hstep).invariant huploads).tasks _ (List.mem_of_getElem? hstored)
  refine ⟨hid, hhash, a, hbuilt, ?_, Artifact.ofText?_text hbuilt.isTidy⟩
  have hthere : after.stores.blobs.contains record.artifact = true := by
    cases hstep with
    | @advances _ task st phase htask hadvance =>
      obtain ⟨rfl, rfl⟩ : task.request = request ∧ phase = .stored record := by
        simpa [(List.getElem?_eq_some_iff.mp htask).1] using hstored
      exact hadvance.contains_artifact (hbefore.tasks task (List.mem_of_getElem? htask))
  obtain ⟨bytes, hget, hmem⟩ := BlobMemory.exists_get (h.contains_of_not_evicted hthere hlater)
  have hdigest : ContentDigest.ofBytes bytes = (Publisher.uploadOf a).digest :=
    (hstores.addressed _ hmem).symm.trans hartifact
  have hbytes : bytes = utf8Bytes a.text :=
    hcollision (hstores.stored _ hmem) htext (ContentDigest.ofBytes_eq_iff.mp hdigest)
  rw [hget, hbytes]

/-- A publisher under a framework that has nothing but its entry point, on a machine without a network. -/
def System.offline : System where
  publisher := ⟨.default, .default, BuildContext.onlyEntry "import \"node:fs\";"⟩
  possible around := around = BuildContext.onlyEntry "import \"node:fs\";"
  tidy := by
    rintro _ rfl specifier m h
    cases h

/-- The publication of an app without scripts. -/
def emptyRequest : PublishRequest := ⟨⟨"app", "app", none, []⟩, "deno", none⟩

/-- The app is published and its artifact is stored; a second publication of it meets a store that fails. -/
theorem Run.interleaving_sound_emptyRequest :
    ∃ trace w record a, Run .offline trace w ∧
      w.tasks.map Task.phase = [.stored record, .failed (.storage (.backend "offline"))] ∧
      w.stores.versions.IsKeyed ∧ (∀ t ∈ trace, t.actor = .task 1 → t.after.stores = t.before.stores) ∧
      w.stores.blobs.IsAddressed ∧ System.offline.BuiltFor record.appId record.hash a ∧
      w.stores.blobs.get record.artifact = .ok (utf8Bytes a.text) ∧ Artifact.ofText? a.text = some a := by
  have hsome : ((System.offline.publisher.publish .memory ⟨[]⟩ 0 emptyRequest
      ⟨⟨[]⟩, .initial, ⟨0, 0, 0⟩⟩).1.toOption.bind PublishOutcome.upload).isSome = true := by decide +kernel
  have hashed : (System.offline.publisher.hash emptyRequest.app).toOption.isSome = true := by decide +kernel
  obtain ⟨hash, hhash⟩ := Option.isSome_iff_exists.mp hashed
  replace hhash : System.offline.publisher.hash emptyRequest.app = .ok hash := by
    cases h : System.offline.publisher.hash emptyRequest.app <;> simp_all [Except.toOption]
  cases hpublish : System.offline.publisher.publish .memory ⟨[]⟩ 0 emptyRequest ⟨⟨[]⟩, .initial, ⟨0, 0, 0⟩⟩ with
  | mk outcome published =>
  rw [hpublish] at hsome
  cases outcome with
  | error e => cases hsome
  | ok outcome =>
  obtain ⟨record, upload?⟩ := outcome
  cases upload? with
  | none => cases hsome
  | some upload =>
  have hstart : Run .offline [] ⟨⟨⟨[]⟩, ⟨[]⟩⟩, []⟩ := .start
  obtain ⟨trace, hrun, huploads⟩ : ∃ trace, Run .offline trace
      ⟨⟨published.versions, ⟨[]⟩⟩, [] ++ [(⟨emptyRequest, .recorded record upload⟩ : Task)]⟩ ∧
        uploads trace ⊆ {upload.bytes} :=
    hstart.publish rfl rfl hpublish
  generalize (⟨published.versions, ⟨[]⟩⟩ : Stores) = st at hrun
  obtain ⟨st', hstore⟩ : ∃ st', System.offline.Advance emptyRequest st (.recorded record upload) st' (.stored record) :=
    ⟨_, .stored⟩
  have hstored := hrun.advance hstore
  have hasked := hstored.step (.asks emptyRequest)
  have hhashed := hasked.advance (.hashed hhash)
  have hfailed := hhashed.advance (.lookupFailed (.backend "offline"))
  obtain ⟨hkeyed, hunchanged, haddressed, hread⟩ := hfailed.interleaving_sound
  -- One content is uploaded, so there is nothing to collide.
  have hcollision : Sha256.IsCollisionFree {upload.bytes} := Set.injOn_singleton _ _
  obtain ⟨-, -, a, hbuilt, hget, htext⟩ := hread (hcollision.mono (by
    simpa only [uploads_append, uploads_client, uploads_advance, Phase.uploads, Set.union_empty] using huploads))
    trace _ _ 0 emptyRequest record (by simp only [List.append_assoc]; rfl) rfl rfl (by simp)
  exact ⟨_, _, record, a, hfailed, rfl, hkeyed, hunchanged 1 emptyRequest _ rfl, haddressed, hbuilt, hget, htext⟩

end Publishing

end AppBundler
