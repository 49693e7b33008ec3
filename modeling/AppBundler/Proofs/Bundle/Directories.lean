import AppBundler.Proofs.Bundle.Endings
import AppBundler.Proofs.Bundle.Settings
import AppBundler.Proofs.Url.PlainNames
/-!
# Where the framework lies

A build reads files of the framework under paths that go on from the framework's directory and never step up. What it
comes to follows from the texts found there: neither an artifact nor an error tells where the directory lies.
-/

namespace AppBundler

/-! ## Paths in a directory -/

namespace Framework

variable {directory directory' path : String}

/-- The names of a path that lead from one directory to another. -/
def steps (path : String) : List String := (FileTree.names path).filter fun name => name ≠ "" && name ≠ "."

/-- A path that goes on from that of a directory and never steps up again. -/
structure LiesIn (directory path : String) : Prop where
  root : path.toList.head? = some '/' ↔ directory.toList.head? = some '/'
  below : ∃ rest, steps path = steps directory ++ rest ∧ ".." ∉ rest

/-- Names on both sides of a slash. -/
theorem steps_append (s t : List Char) :
    steps (String.ofList (s ++ '/' :: t)) = steps (String.ofList s) ++ steps (String.ofList t) := by
  simp [steps, FileTree.names, Text.splitAtChar_append]

/-- A path in a directory is put together at a slash, unless the directory has no name. -/
theorem exists_joinPath_eq (hdirectory : directory ≠ "") (path : String) :
    ∃ front, joinPath directory path = String.ofList (front ++ '/' :: path.toList) ∧
      steps directory = steps (String.ofList front) ∧
      (directory.toList.head? = some '/' ↔ (front ++ ['/']).head? = some '/') := by
  have hnonempty : directory.isEmpty = false := by simpa using hdirectory
  cases hslash : Text.endsWith ['/'] directory.toList with
  | true =>
    obtain ⟨front, hfront⟩ := List.isSuffixOf_iff_suffix.mp hslash
    refine ⟨front, ?_, ?_, by rw [← hfront]⟩
    · rw [joinPath, hnonempty, hslash, ← String.toList_inj]
      simp [← hfront]
    · have hnames := steps_append front []
      rw [hfront, String.ofList_toList] at hnames
      simpa [steps, FileTree.names, Text.splitAtChar] using hnames
  | false =>
    refine ⟨directory.toList, ?_, by rw [String.ofList_toList], ?_⟩
    · rw [joinPath, hnonempty, hslash, ← String.toList_inj]
      simp
    · cases hlist : directory.toList with
      | nil => exact absurd (by simpa using hlist) hdirectory
      | cons c r => rfl

/-- **A path that does not leave** lies in the directory that it is followed in. -/
theorem liesIn_joinPath (h : leaves path = false) : LiesIn directory (joinPath directory path) := by
  simp only [leaves, Bool.or_eq_false_iff] at h
  obtain ⟨⟨hempty, hslash⟩, hup⟩ := h
  have hrest : ".." ∉ steps path := by
    intro hmem
    obtain ⟨piece, hpiece, heq⟩ := List.mem_map.mp (List.mem_filter.mp hmem).1
    have hdots : piece = ['.', '.'] := by simpa [← String.toList_inj] using heq
    rw [List.contains_eq_mem, decide_eq_false_iff_not] at hup
    exact hup (hdots ▸ hpiece)
  by_cases hdirectory : directory = ""
  · have hjoin : joinPath directory path = path := by simp [joinPath, hdirectory]
    rw [hjoin, hdirectory]
    have hrelative : path.toList.head? ≠ some '/' := by
      cases hlist : path.toList with
      | nil => simp
      | cons c r =>
        intro hhead
        obtain rfl : c = '/' := by simpa using hhead
        simp [Text.beginsWith, hlist] at hslash
    exact ⟨iff_of_false hrelative (by simp), steps path, rfl, hrest⟩
  · obtain ⟨front, hjoin, hsteps, hroot⟩ := exists_joinPath_eq hdirectory path
    refine ⟨?_, steps path, ?_, hrest⟩
    · rw [hjoin, hroot]
      cases front <;> simp
    · rw [hjoin, steps_append, hsteps, String.ofList_toList]

/-! ## Directories with the same files -/

/-- Two directories hold the same files: under every path that does not leave them the same text is read, or reading
fails with faults of one kind. -/
def SameFiles (directory : String) (readFile : String → Except FileFault String) (directory' : String)
    (readFile' : String → Except FileFault String) : Prop :=
  ∀ path, leaves path = false → (readFile (joinPath directory path)).mapError FileFault.kind =
    (readFile' (joinPath directory' path)).mapError FileFault.kind

/-- Faults are told apart by their kinds. -/
theorem kind_inj {fault fault' : FileFault} (h : fault.kind = fault'.kind) : fault = fault' := by
  cases fault <;> cases fault' <;> first | rfl | exact absurd h (by decide)

/-- The same is read in directories with the same files. -/
theorem SameFiles.readStatic {readFile readFile' : String → Except FileFault String}
    (h : SameFiles directory readFile directory' readFile') (path : String) :
    readStatic readFile directory path = readStatic readFile' directory' path := by
  unfold Framework.readStatic
  cases hleaves : leaves path with
  | true => rfl
  | false =>
    have hkinds := h path hleaves
    cases hread : readFile (joinPath directory path) with
    | error fault =>
      cases hread' : readFile' (joinPath directory' path) with
      | error fault' =>
        simp only [hread, hread', Except.mapError, Except.error.injEq] at hkinds
        rw [kind_inj hkinds]
      | ok text => simp [hread, hread', Except.mapError] at hkinds
    | ok text =>
      cases hread' : readFile' (joinPath directory' path) with
      | error fault => simp [hread, hread', Except.mapError] at hkinds
      | ok text' =>
        simp only [hread, hread', Except.mapError, Except.ok.injEq] at hkinds
        rw [hkinds]

end Framework

/-! ## Loads -/

/-- The same settings for a framework that lies elsewhere. -/
def BuildConfig.inDirectory (config : BuildConfig) (directory : String) : BuildConfig :=
  { config with frameworkDir := directory }

namespace BuildContext

variable {c : BuildContext} {config : BuildConfig} {cache : ModuleCache} {request : BuildRequest}
variable {directory directory' : String} {readFile readFile' : String → Except FileFault String}
variable {url : Url} {w w' : LoadState} {world : RemoteWorld} {around : Surroundings} {ends : List LoadEnd}

/-- The same context for a framework that lies elsewhere. -/
def inDirectory (c : BuildContext) (directory : String) : BuildContext :=
  c.withConfig (c.config.inDirectory directory)

/-- Setting up does not depend on where the framework lies. -/
theorem ofRequest_inDirectory : ofRequest (config.inDirectory directory) cache request =
    (ofRequest config cache request).map (·.inDirectory directory) := by
  have hset : ofRequest (config.inDirectory directory) cache request =
      (ofRequest config cache request).map (·.withConfig (config.inDirectory directory)) :=
    ofRequest_withFramework config directory ⟨config.rpcHost, config.hmacSecret⟩
  rw [hset]
  cases hc : ofRequest config cache request with
  | error e => rfl
  | ok c =>
    obtain ⟨-, -, -, hconfig, -⟩ := ofRequest_eq_ok hc
    simp only [Except.map, inDirectory, hconfig]

/-- What anything but a file of the framework loads as does not depend on the files that were read before. -/
theorem load_congr (h : c.namespaces.classify url ≠ some .framework) (hremote : w.remote = w'.remote) :
    (c.load around url w).1 = (c.load around url w').1 ∧
      (c.load around url w).2.remote = (c.load around url w').2.remote := by
  obtain ⟨remote, files⟩ := w
  obtain ⟨remote', files'⟩ := w'
  obtain rfl : remote = remote' := hremote
  unfold load
  cases hclass : c.namespaces.classify url with
  | none => exact ⟨rfl, rfl⟩
  | some cls =>
    cases cls with
    | framework => exact absurd hclass h
    | external => exact ⟨rfl, rfl⟩
    | app => exact ⟨rfl, rfl⟩
    | platformRemote => exact ⟨rfl, rfl⟩
    | remote => exact ⟨rfl, rfl⟩

/-- **A load does not tell where the framework lies**: it brings the same from directories with the same files, and does
the same to the cache. -/
theorem load_inDirectory (hsame : Framework.SameFiles directory readFile directory' readFile') (c : BuildContext)
    (world : RemoteWorld) (url : Url) (hremote : w.remote = w'.remote) :
    ((c.inDirectory directory).load ⟨readFile, world⟩ url w).1 =
        ((c.inDirectory directory').load ⟨readFile', world⟩ url w').1 ∧
      ((c.inDirectory directory).load ⟨readFile, world⟩ url w).2.remote =
        ((c.inDirectory directory').load ⟨readFile', world⟩ url w').2.remote := by
  by_cases hclass : c.namespaces.classify url = some .framework
  · have htext : (c.inDirectory directory).loadFramework readFile url =
        (c.inDirectory directory').loadFramework readFile' url := by
      refine congrArg (Except.map _) ?_
      unfold frameworkText
      change (if _ then _ else if _ then _ else (Framework.readStatic readFile directory _).map _) =
        (if _ then _ else if _ then _ else (Framework.readStatic readFile' directory' _).map _)
      rw [hsame.readStatic]
      rfl
    rw [load_of_framework (by exact hclass), load_of_framework (by exact hclass), htext]
    exact ⟨rfl, hremote⟩
  · have helsewhere : ∀ directory readFile w, (c.inDirectory directory).load ⟨readFile, world⟩ url w =
        c.load ⟨readFile, world⟩ url w := fun directory readFile w =>
      load_elsewhere ⟨readFile, world⟩ readFile directory ⟨c.config.rpcHost, c.config.hmacSecret⟩ hclass
    have hread : c.load ⟨readFile', world⟩ url w' = c.load ⟨readFile, world⟩ url w' :=
      load_elsewhere ⟨readFile, world⟩ readFile' c.config.frameworkDir ⟨c.config.rpcHost, c.config.hmacSecret⟩ hclass
    rw [helsewhere, helsewhere, hread]
    exact load_congr hclass hremote

/-- **A load reads files of the framework only**, and these lie in its directory. -/
theorem liesIn_of_mem_filesRead_load {path : String} (h : path ∈ (c.load around url w).2.filesRead) :
    path ∈ w.filesRead ∨ Framework.LiesIn c.config.frameworkDir path := by
  by_cases hclass : c.namespaces.classify url = some .framework
  · rw [load_of_framework hclass] at h
    refine (List.mem_append.mp h).imp_right fun hfile => ?_
    have hread : c.fileOf? url = some path := by simpa [eq_comm] using hfile
    simp only [fileOf?, Option.ite_none_left_eq_some, Option.some.injEq, Bool.or_eq_true, not_or,
      Bool.not_eq_true] at hread
    obtain ⟨⟨-, hkept⟩, rfl⟩ := hread
    exact Framework.liesIn_joinPath hkept
  · refine Or.inl ?_
    unfold load at h
    cases hfound : c.namespaces.classify url with
    | none => simpa [hfound] using h
    | some cls =>
      rw [hfound] at h
      cases cls with
      | framework => exact absurd hfound hclass
      | external => exact h
      | app => exact h
      | platformRemote => exact h
      | remote => exact h

/-! ## Builds -/

/-- Runs come to the same when their loads bring the same from states that are alike, and keep these alike. -/
theorem run_congr {σ : Type} (alike : σ → σ → Prop) {load load' : Url → σ → Built Loaded × σ}
    (h : ∀ url w w', alike w w' → (load url w).1 = (load' url w').1 ∧ alike (load url w).2 (load' url w').2)
    {w w' : σ} (hw : alike w w') (fuel : Nat) (s : Resolution) : (s.run load fuel w).1 = (s.run load' fuel w').1 := by
  induction fuel generalizing s w w' with
  | zero => rfl
  | succ fuel ih =>
    unfold Resolution.run
    cases s.pending with
    | nil => rfl
    | cons url rest =>
      obtain ⟨hloaded, hafter⟩ := h url w w' hw
      cases hload : load url w with
      | mk result w₁ =>
      cases hload' : load' url w' with
      | mk result' w₁' =>
      rw [hload, hload'] at hloaded hafter
      obtain rfl : result = result' := hloaded
      dsimp only
      rw [hload, hload']
      cases result with
      | error fault => rfl
      | ok loaded =>
        dsimp only
        cases { s with pending := rest }.arrive url loaded with
        | error fault => rfl
        | ok s₁ => exact ih hafter s₁

/-- A build that ends its loads in the order in which they were asked for comes to the same in directories with the same
files. -/
theorem resolve_inDirectory (hsame : Framework.SameFiles directory readFile directory' readFile') :
    ((c.inDirectory directory).resolve ⟨readFile, world⟩ w).1 =
      ((c.inDirectory directory').resolve ⟨readFile', world⟩ w).1 := by
  have hroots : ∀ directory, (c.inDirectory directory).roots = c.roots := fun _ => rfl
  unfold resolve
  rw [hroots, hroots]
  cases Resolution.ofRoots c.roots with
  | error fault => rfl
  | ok start =>
    have hrun := run_congr (fun w w' : LoadState => w.remote = w'.remote)
      (fun url _ _ hremote => load_inDirectory hsame c world url hremote) (rfl : w.remote = w.remote) moduleLimit start
    dsimp only
    rw [hrun]

/-- Builds that end their loads in the same order come to the same in directories with the same files. -/
theorem endLoads_inDirectory {s : Resolution} (hsame : Framework.SameFiles directory readFile directory' readFile')
    (hremote : w.remote = w'.remote) :
    ((c.inDirectory directory).endLoads readFile ends s w).map Prod.fst =
      ((c.inDirectory directory').endLoads readFile' ends s w').map Prod.fst := by
  -- Both builds are at the same point with the same cache; only the paths that they read differ.
  induction ends generalizing s w w' with
  | nil => rfl
  | cons e rest ih =>
    unfold endLoads
    by_cases hpending : e.url ∈ s.pending
    · rw [if_pos hpending, if_pos hpending]
      have hmeanwhile : ({ w with remote := e.meanwhile w.remote } : LoadState).remote =
          ({ w' with remote := e.meanwhile w'.remote } : LoadState).remote := by rw [hremote]
      obtain ⟨hloaded, hafter⟩ := load_inDirectory hsame c e.world e.url hmeanwhile
      cases hload : (c.inDirectory directory).load ⟨readFile, e.world⟩ e.url
          { w with remote := e.meanwhile w.remote } with
      | mk result w₁ =>
      cases hload' : (c.inDirectory directory').load ⟨readFile', e.world⟩ e.url
          { w' with remote := e.meanwhile w'.remote } with
      | mk result' w₁' =>
      rw [hload, hload'] at hloaded hafter
      obtain rfl : result = result' := hloaded
      cases result with
      | error fault => rfl
      | ok loaded =>
        cases harrive : { s with pending := s.pending.erase e.url }.arrive e.url loaded with
        | error fault => simp only [harrive, Option.map_some]
        | ok s₁ => simpa only [harrive] using ih hafter
    · rw [if_neg hpending, if_neg hpending]

/-- The files that the loads of a build read lie in the directory of the framework. -/
theorem liesIn_of_endLoads {s : Resolution} {result : Built Resolution} {path : String}
    (h : c.endLoads readFile ends s w = some (result, w')) (hpath : path ∈ w'.filesRead) :
    path ∈ w.filesRead ∨ Framework.LiesIn c.config.frameworkDir path := by
  induction ends generalizing s w with
  | nil =>
    obtain ⟨-, rfl⟩ := Prod.mk.inj (Option.some.inj h)
    exact Or.inl hpath
  | cons e rest ih =>
    unfold endLoads at h
    by_cases hpending : e.url ∈ s.pending
    · rw [if_pos hpending] at h
      have hstep : ∀ path, path ∈ (c.load ⟨readFile, e.world⟩ e.url
          { w with remote := e.meanwhile w.remote }).2.filesRead →
          path ∈ w.filesRead ∨ Framework.LiesIn c.config.frameworkDir path :=
        fun _ => liesIn_of_mem_filesRead_load
      cases hload : c.load ⟨readFile, e.world⟩ e.url { w with remote := e.meanwhile w.remote } with
      | mk loaded w₁ =>
      rw [hload] at h hstep
      cases loaded with
      | error fault =>
        obtain ⟨-, rfl⟩ := Prod.mk.inj (Option.some.inj h)
        exact hstep path hpath
      | ok loaded =>
        cases harrive : { s with pending := s.pending.erase e.url }.arrive e.url loaded with
        | error fault =>
          simp only [harrive] at h
          obtain ⟨-, rfl⟩ := Prod.mk.inj (Option.some.inj h)
          exact hstep path hpath
        | ok s₁ =>
          simp only [harrive] at h
          exact (ih h).elim (hstep path) Or.inr
    · rw [if_neg hpending] at h
      cases h

/-- What the loads come to is the same in directories with the same files. -/
theorem resolveInOrder_inDirectory (hsame : Framework.SameFiles directory readFile directory' readFile') :
    ((c.inDirectory directory).resolveInOrder readFile ends w).map Prod.fst =
      ((c.inDirectory directory').resolveInOrder readFile' ends w).map Prod.fst := by
  have houtcome : ∀ (c : BuildContext) readFile start, ((c.endLoads readFile ends start w).bind
      fun came => (c.artifact? came.1).map (·, came.2)).map Prod.fst =
        ((c.endLoads readFile ends start w).map Prod.fst).bind c.artifact? := by
    intro c readFile start
    cases c.endLoads readFile ends start w with
    | none => rfl
    | some comes => cases hartifact : c.artifact? comes.1 <;> simp [hartifact]
  have hroots : ∀ directory, (c.inDirectory directory).roots = c.roots := fun _ => rfl
  unfold resolveInOrder
  rw [hroots, hroots]
  cases Resolution.ofRoots c.roots with
  | error fault => rfl
  | ok start =>
    simp only [houtcome, endLoads_inDirectory hsame rfl]
    rfl

/-- Files that are read until nothing is pending lie in the directory of the framework. -/
theorem liesIn_of_resolveInOrder {result : Built Artifact} {path : String}
    (h : c.resolveInOrder readFile ends w = some (result, w')) (hpath : path ∈ w'.filesRead) :
    path ∈ w.filesRead ∨ Framework.LiesIn c.config.frameworkDir path := by
  unfold resolveInOrder at h
  cases hstart : Resolution.ofRoots c.roots with
  | error fault =>
    simp only [hstart] at h
    obtain ⟨-, rfl⟩ := Prod.mk.inj (Option.some.inj h)
    exact Or.inl hpath
  | ok start =>
    simp only [hstart] at h
    obtain ⟨⟨s, w₁⟩, hends, hartifact⟩ := Option.bind_eq_some_iff.mp h
    obtain ⟨a, -, heq⟩ := Option.map_eq_some_iff.mp hartifact
    obtain ⟨-, rfl⟩ := Prod.mk.inj heq
    exact liesIn_of_endLoads hends hpath

end BuildContext

/-- **Builds do not reveal where the framework lies.** From two directories with the same files and with loads that end
in the same order, which may be that in which they were asked for, a build comes to the same artifact or the same error;
and whatever is loaded, in such an order or on its own, every file that is read lies in the directory. -/
theorem buildInOrder_inDirectory (config : BuildConfig) (cache : ModuleCache) (request : BuildRequest)
    {directory directory' : String} {readFile readFile' : String → Except FileFault String}
    (hsame : Framework.SameFiles directory readFile directory' readFile') (ends : List LoadEnd) (w : LoadState) :
    (buildInOrder (config.inDirectory directory) cache readFile request ends w).map Prod.fst =
        (buildInOrder (config.inDirectory directory') cache readFile' request ends w).map Prod.fst ∧
      (∀ world, (buildArtifact (config.inDirectory directory) cache ⟨readFile, world⟩ request w).1 =
        (buildArtifact (config.inDirectory directory') cache ⟨readFile', world⟩ request w).1) ∧
      (∀ result w', buildInOrder (config.inDirectory directory) cache readFile request ends w = some (result, w') →
        ∀ path ∈ w'.filesRead, path ∈ w.filesRead ∨ Framework.LiesIn directory path) ∧
      ∀ c, BuildContext.ofRequest (config.inDirectory directory) cache request = .ok c → ∀ around url w,
        ∀ path ∈ (c.load around url w).2.filesRead, path ∈ w.filesRead ∨ Framework.LiesIn directory path := by
  unfold buildInOrder buildArtifact
  rw [BuildContext.ofRequest_inDirectory, BuildContext.ofRequest_inDirectory]
  cases BuildContext.ofRequest config cache request with
  | error fault =>
    refine ⟨rfl, fun _ => rfl, ?_, fun c hc => by cases hc⟩
    intro result w' h path hpath
    obtain ⟨-, rfl⟩ := Prod.mk.inj (Option.some.inj h)
    exact Or.inl hpath
  | ok c =>
    refine ⟨BuildContext.resolveInOrder_inDirectory hsame, fun _ => BuildContext.resolve_inDirectory hsame, ?_, ?_⟩
    · intro result w' h path hpath
      exact BuildContext.liesIn_of_resolveInOrder h hpath
    · intro c' hc' around url w path hpath
      obtain rfl : c.inDirectory directory = c' := Except.ok.inj hc'
      exact BuildContext.liesIn_of_mem_filesRead_load hpath

/-- The files of a framework, found under their paths in a directory. -/
def Framework.filesIn (directory : String) (files : String → Except FileFault String) (path : String) :
    Except FileFault String :=
  match Text.dropFront? (joinPath directory "").toList path.toList with
  | some rest => files (String.ofList rest)
  | none => .error .notFound

/-- The files of one framework are the same in all directories. -/
theorem Framework.sameFiles_filesIn (directory directory' : String) (files : String → Except FileFault String) :
    SameFiles directory (filesIn directory files) directory' (filesIn directory' files) := by
  have hread : ∀ directory path, filesIn directory files (joinPath directory path) = files path := by
    intro directory path
    have hfront : Text.dropFront? (joinPath directory "").toList (joinPath directory path).toList = some path.toList := by
      rw [Text.dropFront?_eq_some_iff]
      unfold joinPath
      split <;> simp
    rw [filesIn, hfront]
    exact congrArg files String.ofList_toList
  intro path _
  rw [hread, hread]

/-- A framework of two files, of which the first imports the second and one that is missing. -/
def brokenFramework : String → Except FileFault String
  | "main.tsx" => .ok "import \"./a.ts\";\nimport \"./b.ts\";"
  | "a.ts" => .ok ""
  | _ => .error .notFound

/-- Loads of files of the framework that end one after another. -/
def endsOf (names : List String) : List LoadEnd :=
  names.filterMap fun name => (Url.parse ("file:///framework/" ++ name)).toOption.map
    fun url => ⟨url, ⟨fun _ => .silent, .all .sound, 0⟩, id⟩

/-- The error of a build, and the files that it read. -/
def failure? : Option (Built Artifact × LoadState) → Option (BuildError × List String)
  | some (.error fault, w) => some (fault, w.filesRead)
  | _ => none

/-- The build of a framework with a missing file fails with the same error wherever it lies. -/
theorem buildInOrder_inDirectory_brokenFramework :
    ∃ fault,
      failure? (buildInOrder (BuildConfig.default.inDirectory "framework") .default
        (Framework.filesIn "framework" brokenFramework) .empty (endsOf ["main.tsx", "a.ts", "b.ts"]) .initial) =
        some (fault, ["framework/main.tsx", "framework/a.ts", "framework/b.ts"]) ∧
      failure? (buildInOrder (BuildConfig.default.inDirectory "/srv/") .default
        (Framework.filesIn "/srv/" brokenFramework) .empty (endsOf ["main.tsx", "a.ts", "b.ts"]) .initial) =
        some (fault, ["/srv/main.tsx", "/srv/a.ts", "/srv/b.ts"]) ∧
      fault.message = "failed to load file:///framework/b.ts: File not found" := by
  have hfirst : (failure? (buildInOrder (BuildConfig.default.inDirectory "framework") .default
      (Framework.filesIn "framework" brokenFramework) .empty (endsOf ["main.tsx", "a.ts", "b.ts"]) .initial)).map
      (fun (fault, files) => (fault.message, files)) =
      some ("failed to load file:///framework/b.ts: File not found",
        ["framework/main.tsx", "framework/a.ts", "framework/b.ts"]) := by decide +kernel
  have hread : (failure? (buildInOrder (BuildConfig.default.inDirectory "/srv/") .default
      (Framework.filesIn "/srv/" brokenFramework) .empty (endsOf ["main.tsx", "a.ts", "b.ts"]) .initial)).map
      Prod.snd = some ["/srv/main.tsx", "/srv/a.ts", "/srv/b.ts"] := by decide +kernel
  have hsame := (buildInOrder_inDirectory BuildConfig.default .default .empty
    (Framework.sameFiles_filesIn "framework" "/srv/" brokenFramework) (endsOf ["main.tsx", "a.ts", "b.ts"])
    .initial).1
  generalize buildInOrder (BuildConfig.default.inDirectory "framework") .default
    (Framework.filesIn "framework" brokenFramework) .empty (endsOf ["main.tsx", "a.ts", "b.ts"]) .initial = one
    at hfirst hsame ⊢
  generalize buildInOrder (BuildConfig.default.inDirectory "/srv/") .default
    (Framework.filesIn "/srv/" brokenFramework) .empty (endsOf ["main.tsx", "a.ts", "b.ts"]) .initial = other
    at hread hsame ⊢
  match one, other, hfirst, hread, hsame with
  | some (.error fault, w), some (.error fault', w'), hfirst, hread, hsame =>
    obtain ⟨hmessage, hfiles⟩ := Prod.mk.inj (Option.some.inj hfirst)
    obtain rfl : fault = fault' := by simpa using hsame
    have hfiles' : w'.filesRead = ["/srv/main.tsx", "/srv/a.ts", "/srv/b.ts"] := Option.some.inj hread
    exact ⟨fault, by rw [failure?, hfiles], by rw [failure?, hfiles'], hmessage⟩
  | some (.error _, _), some (.ok _, _), _, hread, _ => cases hread
  | some (.error _, _), none, _, hread, _ => cases hread
  | some (.ok _, _), _, hfirst, _, _ => cases hfirst
  | none, _, hfirst, _, _ => cases hfirst

end AppBundler
