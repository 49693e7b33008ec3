import Mathlib.Data.List.Induction
import AppBundler.Proofs.App.Identity
import AppBundler.Proofs.Bundle.Graph
import AppBundler.Proofs.Bundle.Rebuilds
import AppBundler.Proofs.Bundle.Texts
import AppBundler.Proofs.Publish.Outcomes
import AppBundler.Proofs.Store.Memory
/-!
# Reuse is not noticed

A publisher that publishes one app after another reuses the record of a hash while its artifact is there, whichever
apps, targets and bases it published in between. The artifact that it then points to is the one that a build would give
for the app at hand, if that app would be built from the same scripts in the same order under the same base. The hash
tells the rest of what a build reads. It does not tell the base of the URLs or the order of the scripts.
-/

namespace AppBundler

/-- What a publisher has loaded and recorded, and the artifacts that were stored. -/
structure Ledger where
  state : PublishState
  blobs : BlobMemory

/-- What happens to a publisher. -/
inductive Event where
  /-- An app is published and its artifact is stored, at a time of the calendar. -/
  | published (calendar : Int64) (createdAt : Int) (request : PublishRequest)
  /-- The clock goes on to a time. -/
  | waited (now : Nat)
  /-- The artifact under a digest is dropped. -/
  | evicted (digest : ContentDigest)

/-- A target that is published for is plain. -/
def Event.IsPlain : Event → Prop
  | .published _ _ request => IsPlainTarget request.target
  | _ => True

namespace Publisher

/-- A publisher at a time of the calendar. -/
def onDate (p : Publisher) (calendar : Int64) : Publisher := { p with around := p.around.onDate calendar.toInt }

/-- What is left behind when something happens. -/
def react (p : Publisher) (l : Ledger) : Event → Ledger
  | .published calendar createdAt request =>
    let (outcome, s) := (p.onDate calendar).publish .memory l.blobs createdAt request l.state
    match outcome with
    | .error _ => ⟨s, l.blobs⟩
    | .ok outcome =>
      let (_, blobs, s) := (p.onDate calendar).finish .memory l.blobs outcome s
      ⟨s, blobs⟩
  | .waited now => { l with state := l.state.waitUntil now }
  | .evicted d => { l with blobs := l.blobs.evict d }

/-- What is left behind by everything that happened, in order, to a publisher that had done nothing. -/
def ledger (p : Publisher) (events : List Event) : Ledger :=
  events.foldl p.react ⟨⟨⟨[]⟩, .initial, ⟨0, 0, 0⟩⟩, ⟨[]⟩⟩

/-- What publishing an app comes to after some events. -/
def publishAfter (p : Publisher) (events : List Event) (calendar : Int64) (createdAt : Int) (request : PublishRequest) :
    Built PublishOutcome :=
  ((p.onDate calendar).publish .memory (p.ledger events).blobs createdAt request (p.ledger events).state).1

/-- What building an app comes to after some events. -/
def buildAfter (p : Publisher) (events : List Event) (calendar : Int64) (request : PublishRequest) (hash : String) :
    Built Artifact :=
  (buildArtifact p.config p.cache (p.onDate calendar).around (buildRequest request hash) (p.ledger events).state.loading).1

/-- Among some events a request was published whose artifact was stored under a record. -/
def StoredBy (p : Publisher) (events : List Event) (record : VersionRecord) (request : PublishRequest)
    (upload : PendingUpload) : Prop :=
  ∃ before calendar createdAt later, events = before ++ .published calendar createdAt request :: later ∧
    p.publishAfter before calendar createdAt request = .ok ⟨record, some upload⟩

variable {p : Publisher} {l : Ledger} {event : Event} {events : List Event} {record : VersionRecord}
variable {request : PublishRequest} {upload : PendingUpload} {s s' : PublishState} {outcome : Built PublishOutcome}

/-! ## What events leave behind -/

/-- The cache holds nothing but what is fetched, every content stands under its own digest, and every record is one of
those under which artifacts were stored. -/
structure Sound (p : Publisher) (stored : VersionRecord → Prop) (l : Ledger) : Prop where
  mirrors : p.cache.Mirrors p.around.remote.fetch l.state.loading.remote.table
  addressed : l.blobs.IsAddressed
  stored : ∀ record ∈ l.state.versions.records, stored record

/-- A calendar of 64 bits can be written down. -/
theorem isDated_onDate (p : Publisher) (calendar : Int64) : (p.onDate calendar).around.remote.IsDated :=
  ⟨calendar.le_toInt, calendar.toInt_lt⟩

/-- **Publishing keeps the cache a mirror**, whatever it ends in. -/
theorem Publishes.mirrors {blobs : BlobMemory} {createdAt : Int} (h : p.Publishes blobs createdAt request s outcome s')
    (hs : p.cache.Mirrors p.around.remote.fetch s.loading.remote.table) (hdated : p.around.remote.IsDated)
    (htidy : p.around.remote.fetch.IsTidy) (htarget : IsPlainTarget request.target) :
    p.cache.Mirrors p.around.remote.fetch s'.loading.remote.table := by
  have hbuilds : ∀ hash, p.cache.Mirrors p.around.remote.fetch
      (buildArtifact p.config p.cache p.around (buildRequest request hash) s.loading).2.remote.table :=
    fun hash => hs.buildArtifact htarget hdated htidy
  cases h with
  | refused => exact hs
  | reused => exact hs
  | @notBuilt hash _ _ _ hbuild =>
    have hafter := hbuilds hash
    rwa [hbuild] at hafter
  | @built hash _ _ _ hbuild =>
    have hafter := hbuilds hash
    rwa [hbuild] at hafter

/-- A record was there before publishing, or an artifact was stored under it. -/
theorem Publishes.records {blobs : BlobMemory} {createdAt : Int} (h : p.Publishes blobs createdAt request s outcome s')
    (hrecord : record ∈ s'.versions.records) :
    record ∈ s.versions.records ∨ ∃ upload, outcome = .ok ⟨record, some upload⟩ := by
  cases h with
  | refused => exact Or.inl hrecord
  | reused => exact Or.inl hrecord
  | notBuilt => exact Or.inl hrecord
  | built =>
    rcases VersionMemory.mem_of_mem_upsert hrecord with rfl | hrecord
    · exact Or.inr ⟨_, rfl⟩
    · exact Or.inl hrecord

theorem ledger_concat (p : Publisher) (events : List Event) (event : Event) :
    p.ledger (events ++ [event]) = p.react (p.ledger events) event := List.foldl_concat ..

/-- What is left behind when an artifact is stored. -/
theorem react_stored {calendar : Int64} {createdAt : Int}
    (h : (p.onDate calendar).publish .memory l.blobs createdAt request l.state = (.ok ⟨record, some upload⟩, s)) :
    p.react l (.published calendar createdAt request) = ⟨s, (l.blobs.put upload.bytes).2⟩ := by
  rw [react, h]
  rfl

/-- The artifacts that are there after publishing: an artifact that was built is among them. -/
theorem react_published {calendar : Int64} {createdAt : Int}
    (h : (p.onDate calendar).publish .memory l.blobs createdAt request l.state = (outcome, s)) :
    p.react l (.published calendar createdAt request) = ⟨s, l.blobs⟩ ∨
      ∃ record upload, outcome = .ok ⟨record, some upload⟩ ∧
        p.react l (.published calendar createdAt request) = ⟨s, (l.blobs.put upload.bytes).2⟩ := by
  cases outcome with
  | error e =>
    rw [react, h]
    exact Or.inl rfl
  | ok outcome =>
    obtain ⟨record, upload?⟩ := outcome
    cases upload? with
    | none =>
      rw [react, h]
      exact Or.inl rfl
    | some upload => exact Or.inr ⟨record, upload, rfl, react_stored h⟩

/-- **Whatever happens leaves a publisher sound.** -/
theorem Sound.react {stored : VersionRecord → Prop} (h : p.Sound stored l) (htidy : p.around.remote.fetch.IsTidy)
    (hevent : event.IsPlain)
    (hstored : ∀ calendar createdAt request record upload, event = .published calendar createdAt request →
      ((p.onDate calendar).publish .memory l.blobs createdAt request l.state).1 = .ok ⟨record, some upload⟩ →
      stored record) : p.Sound stored (p.react l event) := by
  cases event with
  | waited => exact ⟨h.mirrors, h.addressed, h.stored⟩
  | evicted d => exact ⟨h.mirrors, h.addressed.evict d, h.stored⟩
  | published calendar createdAt request =>
    cases hpublish : (p.onDate calendar).publish .memory l.blobs createdAt request l.state with
    | mk outcome s =>
      have hpublishes := publishes_of_publish hpublish
      have hmirrors := hpublishes.mirrors h.mirrors (p.isDated_onDate calendar) htidy hevent
      have hrecords : ∀ record ∈ s.versions.records, stored record := by
        intro record hrecord
        rcases hpublishes.records hrecord with hrecord | ⟨upload, rfl⟩
        · exact h.stored record hrecord
        · exact hstored calendar createdAt request record upload rfl (by rw [hpublish])
      rcases react_published hpublish with hafter | ⟨record, upload, -, hafter⟩
      · rw [hafter]
        exact ⟨hmirrors, h.addressed, hrecords⟩
      · rw [hafter]
        exact ⟨hmirrors, h.addressed.put upload.bytes, hrecords⟩

/-- What was stored among some events was stored among more of them. -/
theorem StoredBy.concat (h : p.StoredBy events record request upload) (event : Event) :
    p.StoredBy (events ++ [event]) record request upload := by
  obtain ⟨before, calendar, createdAt, later, rfl, hstored⟩ := h
  exact ⟨before, calendar, createdAt, later ++ [event], by simp, hstored⟩

/-- **A publisher is sound after any events**, and every record was written for an artifact that was stored. -/
theorem sound_ledger (htidy : p.around.remote.fetch.IsTidy) (hplain : ∀ event ∈ events, event.IsPlain) :
    p.Sound (fun record => ∃ request upload, p.StoredBy events record request upload) (p.ledger events) := by
  induction events using List.reverseRecOn with
  | nil => exact ⟨by rintro _ ⟨⟩, by rintro _ ⟨⟩, by rintro _ ⟨⟩⟩
  | append_singleton events event ih =>
    have hbefore := ih fun event hevent => hplain event (List.mem_append_left _ hevent)
    rw [ledger_concat]
    refine Sound.react ⟨hbefore.mirrors, hbefore.addressed, ?_⟩ htidy (hplain event (by simp)) ?_
    · intro record hrecord
      obtain ⟨request, upload, hstored⟩ := hbefore.stored record hrecord
      exact ⟨request, upload, hstored.concat event⟩
    · rintro calendar createdAt request record upload rfl hpublish
      exact ⟨request, upload, events, calendar, createdAt, [], rfl, hpublish⟩

/-! ## What is reused -/

/-- An app whose scripts can be described has a hash. -/
theorem hash_of_schemas {app : App} (h : app.schemas.toOption.isSome = true) :
    p.hash app = .ok (app.hash p.config.frameworkVersion) := by
  unfold Publisher.hash
  cases hschemas : app.schemas with
  | error e => simp [hschemas, Except.toOption] at h
  | ok schemas => rfl

/-- The hash of an app whose scripts can be described is that of the app. -/
theorem eq_hash_of_hash {app : App} {hash : String} (h : p.hash app = .ok hash) :
    hash = app.hash p.config.frameworkVersion := by
  unfold Publisher.hash at h
  cases hschemas : app.schemas with
  | error e => simp [hschemas] at h
  | ok schemas => simpa [hschemas] using h.symm

/-- What publishing comes to is one of the ways in which it can end. -/
theorem publishes_after {calendar : Int64} {createdAt : Int}
    (h : p.publishAfter events calendar createdAt request = outcome) :
    ∃ s, (p.onDate calendar).Publishes (p.ledger events).blobs createdAt request (p.ledger events).state outcome s :=
  ⟨_, publishes_of_publish (Prod.ext h rfl)⟩

/-- Scripts under the same names, with the same code under each name, are read alike. -/
theorem source_congr {scripts scripts' : List Script} (hnames : scripts'.map Script.filename = scripts.map Script.filename)
    (hcode : ∀ s' ∈ scripts', ∀ s ∈ scripts, s'.filename = s.filename → s'.code = s.code) :
    scripts'.map Script.source = scripts.map Script.source := by
  induction scripts generalizing scripts' with
  | nil => rw [List.map_eq_nil_iff.mp hnames]
  | cons s scripts ih =>
    obtain ⟨s', rest, rfl, hname, hrest⟩ := List.map_eq_cons_iff.mp hnames
    have hhead : s'.source = s.source :=
      Prod.ext hname (hcode s' List.mem_cons_self s List.mem_cons_self hname)
    have htail := ih hrest fun t' ht' t ht => hcode t' (List.mem_cons_of_mem _ ht') t (List.mem_cons_of_mem _ ht)
    rw [List.map_cons, List.map_cons, hhead, htail]

/-- Apps of one hash whose bundled scripts have the same code in the same order are built alike under one base. -/
theorem agrees_of_hash {first : PublishRequest} (hash : String)
    (hcollision : Sha256.IsCollisionFree {utf8Bytes (first.app.hashed p.config.frameworkVersion).canonicalText,
      utf8Bytes (request.app.hashed p.config.frameworkVersion).canonicalText})
    (hhash : first.app.hash p.config.frameworkVersion = request.app.hash p.config.frameworkVersion)
    (hbase : request.baseUrl = first.baseUrl)
    (hscripts : request.app.bundled.map Script.source = first.app.bundled.map Script.source) :
    (buildRequest first hash).Agrees (buildRequest request hash) := by
  obtain ⟨hid, hslug, -⟩ := (App.hash_eq_iff hcollision).mp hhash
  exact ⟨hid.symm, hslug.symm, rfl, hbase, hscripts⟩

/-- What was published before is not noticed by a build. -/
theorem buildAfter_of_buildAfter {events' : List Event} {first : PublishRequest} {calendar calendar' : Int64}
    {hash : String} {a : Artifact} (hagrees : (buildRequest first hash).Agrees (buildRequest request hash))
    (hmirrors : p.cache.Mirrors p.around.remote.fetch (p.ledger events).state.loading.remote.table)
    (hmirrors' : p.cache.Mirrors p.around.remote.fetch (p.ledger events').state.loading.remote.table)
    (htidy : p.around.remote.fetch.IsTidy) (hfirst : IsPlainTarget first.target) (htarget : IsPlainTarget request.target)
    (h : p.buildAfter events calendar first hash = .ok a) :
    p.buildAfter events' calendar' request hash = .ok a ∨
      ¬ p.around.remote.health.IsSteady ∧ ∃ url, p.buildAfter events' calendar' request hash =
        .error (.load url (.timedOut p.config.networkTimeout)) := by
  have hdated : ((p.onDate calendar).around.onDate calendar'.toInt).remote.IsDated := p.isDated_onDate calendar'
  exact buildArtifact_of_buildArtifact (p.onDate calendar).around hagrees hmirrors hmirrors' hfirst htarget
    (p.isDated_onDate calendar) hdated htidy h

/-- What is left behind right after an artifact was stored. -/
theorem ledger_of_stored {calendar : Int64} {createdAt : Int}
    (h : p.publishAfter events calendar createdAt request = .ok ⟨record, some upload⟩) :
    ∃ s, (p.onDate calendar).Publishes (p.ledger events).blobs createdAt request (p.ledger events).state
        (.ok ⟨record, some upload⟩) s ∧
      p.ledger (events ++ [.published calendar createdAt request]) =
        ⟨s, ((p.ledger events).blobs.put upload.bytes).2⟩ := by
  have hpublish : (p.onDate calendar).publish .memory (p.ledger events).blobs createdAt request (p.ledger events).state =
      (.ok ⟨record, some upload⟩, _) := Prod.ext h rfl
  exact ⟨_, publishes_of_publish hpublish, (p.ledger_concat _ _).trans (react_stored hpublish)⟩

/-- **What was stored last is reused** for every app of its id and hash, whatever else is asked for. -/
theorem reused_of_stored {calendar calendar' : Int64} {createdAt createdAt' : Int} {first : PublishRequest}
    (h : p.publishAfter events calendar createdAt first = .ok ⟨record, some upload⟩)
    (hid : request.app.id = first.app.id) (hhash : p.hash request.app = p.hash first.app) :
    p.publishAfter (events ++ [.published calendar createdAt first]) calendar' createdAt' request =
      .ok ⟨record, none⟩ := by
  obtain ⟨s, hpublishes, hledger⟩ := ledger_of_stored h
  rw [publishAfter, hledger]
  cases hpublishes with
  | built hfirst =>
    refine publish_of_present (hhash.trans hfirst) ?_ ?_
    · rw [hid]
      exact VersionMemory.find?_upsert _ _
    · rw [artifact_recordOf]
      exact BlobMemory.contains_put_self _ _

/-- The artifact that was stored last is there. -/
theorem get_of_stored {calendar : Int64} {createdAt : Int}
    (h : p.publishAfter events calendar createdAt request = .ok ⟨record, some upload⟩) :
    (p.ledger (events ++ [.published calendar createdAt request])).blobs.get record.artifact = .ok upload.bytes := by
  obtain ⟨s, hpublishes, hledger⟩ := ledger_of_stored h
  rw [hledger]
  cases hpublishes with
  | built =>
    rw [artifact_recordOf]
    exact BlobMemory.get_put_self _ _

/-- **What reuse gives**: a record of the hash of the app whose artifact is there. -/
theorem mem_of_reused {calendar : Int64} {createdAt : Int}
    (h : p.publishAfter events calendar createdAt request = .ok ⟨record, none⟩) :
    record ∈ (p.ledger events).state.versions.records ∧
      record.hash = request.app.hash p.config.frameworkVersion ∧
      (p.ledger events).blobs.contains record.artifact = true := by
  obtain ⟨s, hpublishes⟩ := publishes_after h
  cases hpublishes with
  | reused hhash hfind hpresent =>
    obtain ⟨hmem, -, rfl⟩ := VersionMemory.mem_of_find? hfind
    exact ⟨hmem, eq_hash_of_hash hhash, hpresent⟩

/-- **What was stored** is what was built at that time for an app with the hash of the record. -/
theorem StoredBy.exists_build (h : p.StoredBy events record request upload) :
    ∃ before calendar createdAt later a, events = before ++ .published calendar createdAt request :: later ∧
      record.hash = request.app.hash p.config.frameworkVersion ∧
      p.buildAfter before calendar request record.hash = .ok a ∧
      upload = uploadOf a ∧ record.artifact = (uploadOf a).digest := by
  obtain ⟨before, calendar, createdAt, later, hevents, hstored⟩ := h
  obtain ⟨s, hpublishes⟩ := publishes_after hstored
  cases hpublishes with
  | @built hash a _ hhash hbuild =>
    exact ⟨before, calendar, createdAt, later, a, hevents, eq_hash_of_hash hhash, congrArg Prod.fst hbuild, rfl, rfl⟩

/-- A publisher whose builds need no network. -/
def offline : Publisher where
  config := { BuildConfig.default with jsxImportSource := "node:r" }
  cache := .default
  around := BuildContext.onlyEntry ""

/-- An app of two scripts that come in the order in which they are named. -/
def twoScripts (first second : String) : App :=
  ⟨"app-1", "demo", none, [.ofCode "app-1" first first "1;" 0, .ofCode "app-1" second second "1;" 1]⟩

/-- Two scripts that are bundled keep their order. -/
theorem bundled_twoScripts {first second : String} (hfirst : (Script.ofCode "app-1" first first "1;" 0).isBundled = true)
    (hsecond : (Script.ofCode "app-1" second second "1;" 1).isBundled = true) :
    (twoScripts first second).bundled = (twoScripts first second).scripts := by
  have hall : (twoScripts first second).scripts.filter Script.isBundled = (twoScripts first second).scripts := by
    simp [twoScripts, hfirst, hsecond]
  rw [App.bundled, hall]
  exact List.mergeSort_of_pairwise (by simp [twoScripts, Script.atOrBefore, Script.ofCode])

/-- What is known of a build by its roots. -/
theorem exists_artifact {built : Built Artifact} {roots : List String}
    (h : built.toOption.map Artifact.roots = some roots) : ∃ a, built = .ok a ∧ a.roots = roots := by
  cases built with
  | error e => cases h
  | ok a => exact ⟨a, rfl, Option.some.inj h⟩

/-- The first publish of an app under the usual base. -/
def firstPublish : PublishRequest := ⟨twoScripts "a.tsx" "b.tsx", "deno", none⟩

/-- The same app under another base. -/
def rebased : PublishRequest := { firstPublish with baseUrl := some "https://a/" }

/-- The same app after its scripts have changed places. -/
def reordered : PublishRequest := { firstPublish with app := twoScripts "b.tsx" "a.tsx" }

/-- The hash of all of them. -/
def firstHash : String := firstPublish.app.hash offline.config.frameworkVersion

theorem bundled_firstPublish : firstPublish.app.bundled = firstPublish.app.scripts :=
  bundled_twoScripts rfl rfl

theorem bundled_reordered : reordered.app.bundled = reordered.app.scripts :=
  bundled_twoScripts rfl rfl

theorem hash_firstPublish : offline.hash firstPublish.app = .ok firstHash := by
  refine hash_of_schemas ?_
  rw [App.schemas, bundled_firstPublish]
  decide +kernel

theorem hash_reordered : offline.hash reordered.app = .ok firstHash := by
  have hsame := App.hashed_congr (a := reordered.app) (b := firstPublish.app)
    (v := offline.config.frameworkVersion) rfl rfl rfl (List.Perm.swap _ _ [])
  rw [firstHash, App.hash, ← hsame]
  refine hash_of_schemas ?_
  rw [App.schemas, bundled_reordered]
  decide +kernel

theorem roots_firstPublish : (offline.buildAfter [] 0 firstPublish firstHash).toOption.map Artifact.roots =
    some ["file:///framework/main.tsx", "file:///src/a.tsx", "file:///src/b.tsx"] := by
  unfold buildAfter buildArtifact BuildContext.ofRequest buildRequest
  simp only [bundled_firstPublish]
  decide +kernel

theorem roots_rebased : (offline.buildAfter [] 0 rebased firstHash).toOption.map Artifact.roots =
    some ["file:///framework/main.tsx", "https://a/a.tsx", "https://a/b.tsx"] := by
  have hbundled : rebased.app.bundled = firstPublish.app.scripts := bundled_firstPublish
  unfold buildAfter buildArtifact BuildContext.ofRequest buildRequest
  simp only [hbundled]
  decide +kernel

theorem roots_reordered : (offline.buildAfter [] 0 reordered firstHash).toOption.map Artifact.roots =
    some ["file:///framework/main.tsx", "file:///src/b.tsx", "file:///src/a.tsx"] := by
  unfold buildAfter buildArtifact BuildContext.ofRequest buildRequest
  simp only [bundled_reordered]
  decide +kernel

/-- What the first publish stores. -/
theorem stored_firstPublish : ∃ a,
    offline.publishAfter [] 0 0 firstPublish = .ok ⟨recordOf "app-1" firstHash 0 (uploadOf a), some (uploadOf a)⟩ ∧
      a.roots = ["file:///framework/main.tsx", "file:///src/a.tsx", "file:///src/b.tsx"] := by
  obtain ⟨a, hbuild, ha⟩ := exists_artifact roots_firstPublish
  exact ⟨a, publish_of_absent hash_firstPublish rfl hbuild, ha⟩

theorem isTidy_offline : offline.around.remote.fetch.IsTidy := by
  rintro specifier m ⟨⟩

/-- A build of the publisher without a network comes out the same after other events. -/
theorem buildAfter_offline {hash : String} {a : Artifact} (hplain : ∀ event ∈ events, event.IsPlain)
    (htarget : IsPlainTarget request.target) (h : offline.buildAfter [] 0 request hash = .ok a) :
    offline.buildAfter events 0 request hash = .ok a := by
  have hagrees : (buildRequest request hash).Agrees (buildRequest request hash) := ⟨rfl, rfl, rfl, rfl, rfl⟩
  have hempty : offline.Sound _ (offline.ledger []) := sound_ledger isTidy_offline (by simp)
  have hafter := sound_ledger isTidy_offline hplain
  rcases buildAfter_of_buildAfter hagrees hempty.mirrors hafter.mirrors isTidy_offline htarget htarget h with
    hagain | ⟨hslow, -⟩
  · exact hagain
  · exact absurd (TableHealth.isSteady_all .sound) hslow

/-- The same app for another target. -/
def retargeted : PublishRequest := { firstPublish with target := "browser" }

theorem isPlainTarget_deno : IsPlainTarget "deno" := by simp [IsPlainTarget]

theorem isPlainTarget_browser : IsPlainTarget "browser" := by simp [IsPlainTarget]

theorem isPlain_firstPublish : ∀ event ∈ [Event.published 0 0 firstPublish], event.IsPlain := by
  have hdeno : (Event.published 0 0 firstPublish).IsPlain := isPlainTarget_deno
  simpa using hdeno

end Publisher

end AppBundler
