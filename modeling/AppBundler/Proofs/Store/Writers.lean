import Mathlib.Logic.Relation
import AppBundler.Proofs.Digest.Collisions
import AppBundler.Proofs.Store.Files
/-!
# Content is stored side by side

Any number of contents are put into one store of files at the same time. A put looks for the file of its digest, makes
the directory, writes a draft piece by piece and gives it the name of the digest; between any two steps of one put those
of all others may come. Every step may fail, and the process of a put may stop after any of them, so that a draft stays
behind for good.

Reading changes nothing, so what can be read is told by the files of a moment. A file that is being read keeps its
bytes: no draft is written once it has got its name, and giving that name again only replaces the file as a whole.
-/

namespace AppBundler

/-- How far a put has come. -/
inductive PutPhase where
  /-- The content is to be looked for. -/
  | asked
  /-- The directory is to be made. -/
  | absent
  /-- The draft is to be begun. -/
  | prepared
  /-- Some bytes have been written to the draft. -/
  | drafting (tag : String) (written : Nat)
  /-- The content is in the file of its digest. -/
  | kept
  /-- Whoever waits for the put has got its answer. -/
  | answered (answer : Except StorageError ContentDigest)

namespace PutPhase

/-- Whether the content has been found or stored. -/
def isKept : PutPhase → Bool
  | .kept | .answered (.ok _) => true
  | _ => false

/-- One step of a put of some bytes. -/
inductive Advance (bytes : List UInt8) (s : BlobFiles) : PutPhase → BlobFiles → PutPhase → Prop
  | present (h : s.contains (.ofBytes bytes) = true) : Advance bytes s .asked s .kept
  | absent (h : s.contains (.ofBytes bytes) = false) : Advance bytes s .asked s .absent
  | notChecked (e : StorageError) : Advance bytes s .asked s (.answered (.error e))
  /-- A directory in which nothing lies yet is not seen by any read. -/
  | prepared : Advance bytes s .absent s .prepared
  | notPrepared (e : StorageError) : Advance bytes s .absent s (.answered (.error e))
  /-- A draft is made under a name that nothing has. -/
  | begun {tag} (hfree : s.tree.entry? (BlobFiles.draftPath (.ofBytes bytes) tag) = none) :
      Advance bytes s .prepared (s.writeDraft (.ofBytes bytes) tag []) (.drafting tag 0)
  | notBegun (e : StorageError) : Advance bytes s .prepared s (.answered (.error e))
  | wrote {tag n} (more : Nat) (hmore : n + more ≤ bytes.length) :
      Advance bytes s (.drafting tag n) (s.appendDraft (.ofBytes bytes) tag ((bytes.drop n).take more))
        (.drafting tag (n + more))
  | renamed {tag} : Advance bytes s (.drafting tag bytes.length) (s.publishDraft (.ofBytes bytes) tag) .kept
  /-- Writing or renaming fails, and the draft is taken away. -/
  | abandoned {tag n} (e : StorageError) :
      Advance bytes s (.drafting tag n) (s.dropDraft (.ofBytes bytes) tag) (.answered (.error e))
  /-- Writing or renaming fails, and the draft cannot be taken away. -/
  | leftBehind {tag n} (e : StorageError) : Advance bytes s (.drafting tag n) s (.answered (.error e))
  | answered : Advance bytes s .kept s (.answered (.ok (.ofBytes bytes)))

end PutPhase

/-- A put of content. -/
structure BlobPut where
  bytes : List UInt8
  phase : PutPhase
  /-- Whether the process that makes it has not stopped. -/
  running : Bool

/-- The digest of what is put. -/
def BlobPut.digest (p : BlobPut) : ContentDigest := .ofBytes p.bytes

/-- The files and all puts, in the order in which they were asked for. -/
structure BlobWorld where
  files : BlobFiles
  puts : List BlobPut

namespace BlobWorld

/-- Nothing has been put. -/
def initial : BlobWorld := ⟨⟨⟨[]⟩⟩, []⟩

/-- One step of anyone. -/
inductive Step (w : BlobWorld) : BlobWorld → Prop
  | asks (bytes : List UInt8) : Step w { w with puts := w.puts ++ [⟨bytes, .asked, true⟩] }
  | advances {i p files phase} (hp : w.puts[i]? = some p) (hrunning : p.running = true)
      (h : p.phase.Advance p.bytes w.files files phase) :
      Step w ⟨files, w.puts.set i { p with phase := phase }⟩
  | stops {i p} (hp : w.puts[i]? = some p) : Step w { w with puts := w.puts.set i { p with running := false } }

/-- Any number of steps. -/
def Steps : BlobWorld → BlobWorld → Prop := Relation.ReflTransGen Step

/-- What can come about when nothing has been put before. -/
def IsReachable (w : BlobWorld) : Prop := initial.Steps w

/-- All contents that were to be put. -/
def contents (w : BlobWorld) : Set (List UInt8) := {bytes | ∃ p ∈ w.puts, p.bytes = bytes}

/-- The contents that have been found or stored. -/
def keptContents (w : BlobWorld) : List (List UInt8) := (w.puts.filter fun p => p.phase.isKept).map BlobPut.bytes

end BlobWorld

/-! ## What a step does to the files -/

namespace PutPhase

variable {bytes other : List UInt8} {s s' : BlobFiles} {phase phase' : PutPhase} {name : List String}

/-- The name of the draft that a put is writing. -/
def draftName? (bytes : List UInt8) : PutPhase → Option (List String)
  | .drafting tag _ => some (BlobFiles.draftPath (.ofBytes bytes) tag)
  | _ => none

/-- A put is as it should be: what it has written is in its draft, what it has found or stored is there, and its answer
is the digest of its content. -/
structure Holds (bytes : List UInt8) (s : BlobFiles) (phase : PutPhase) : Prop where
  draft : ∀ tag n, phase = .drafting tag n →
    s.tree.file? (BlobFiles.draftPath (.ofBytes bytes) tag) = some (bytes.take n)
  kept : phase.isKept = true → (s.content? (.ofBytes bytes)).isSome = true
  answered : ∀ d, phase = .answered (.ok d) → d = .ofBytes bytes

/-- A put that has no draft and has not stored anything needs nothing. -/
theorem Holds.of_idle (hdraft : phase.draftName? bytes = none) (hkept : phase.isKept = false) : phase.Holds bytes s where
  draft tag n h := by
    subst h
    cases hdraft
  kept h := by
    rw [hkept] at h
    cases h
  answered d h := by
    subst h
    cases hkept

/-- A put that is writing needs its draft only. -/
theorem Holds.of_draft {tag : String} {n : Nat}
    (h : s.tree.file? (BlobFiles.draftPath (.ofBytes bytes) tag) = some (bytes.take n)) :
    (PutPhase.drafting tag n).Holds bytes s where
  draft := by
    rintro _ _ ⟨⟩
    exact h
  kept hkept := nomatch hkept
  answered _ hphase := nomatch hphase

/-- A put that has not been answered yet needs its content only. -/
theorem Holds.of_kept (h : (s.content? (.ofBytes bytes)).isSome = true) : PutPhase.kept.Holds bytes s where
  draft _ _ hphase := nomatch hphase
  kept _ := h
  answered _ hphase := nomatch hphase

/-- A draft that is being written is there. -/
theorem Holds.file?_ne_none (h : phase.Holds bytes s) (hname : phase.draftName? bytes = some name) :
    s.tree.file? name ≠ none := by
  cases phase with
  | drafting tag n =>
    obtain rfl := Option.some.inj hname
    simp [h.draft tag n rfl]
  | _ => cases hname

/-- What a step of a put changes for everyone else. -/
structure Effect (bytes : List UInt8) (s : BlobFiles) (phase : PutPhase) (s' : BlobFiles) (phase' : PutPhase) : Prop where
  sharded : s'.IsSharded
  /-- No content changes but that of the put, which is there as a whole when it comes. -/
  content : ∀ d : ContentDigest, d.IsProper → s'.content? d = s.content? d ∨
    phase'.isKept = true ∧ d = .ofBytes bytes ∧ s'.content? d = some bytes
  /-- No draft changes but that of the put. -/
  others : ∀ d tag, phase.draftName? bytes ≠ some (BlobFiles.draftPath d tag) →
    ∀ piece, s.tree.file? (BlobFiles.draftPath d tag) = some piece →
      s'.tree.file? (BlobFiles.draftPath d tag) = some piece
  /-- A draft is the one that the put has been writing, or a new file. -/
  fresh : ∀ name, phase'.draftName? bytes = some name →
    phase.draftName? bytes = some name ∨ s.tree.file? name = none

/-- A step that leaves the files as they are. -/
theorem Effect.of_same (hs : s.IsSharded) (hphase : phase'.draftName? bytes = none) : Effect bytes s phase s phase' where
  sharded := hs
  content _ _ := Or.inl rfl
  others _ _ _ _ hfile := hfile
  fresh name hname := by
    rw [hphase] at hname
    cases hname

/-- A draft is written that is the put's own or a new file. -/
theorem Effect.of_writeDraft {tag : String} {n : Nat} {piece : List UInt8} (hs : s.IsSharded)
    (hown : phase.draftName? bytes = some (BlobFiles.draftPath (.ofBytes bytes) tag) ∨
      s.tree.file? (BlobFiles.draftPath (.ofBytes bytes) tag) = none) :
    Effect bytes s phase (s.writeDraft (.ofBytes bytes) tag piece) (.drafting tag n) where
  sharded := hs.put rfl
  content _ hd := Or.inl (BlobFiles.content?_writeDraft hd)
  others d tag' hother there hfile := by
    have hne : BlobFiles.draftPath d tag' ≠ BlobFiles.draftPath (.ofBytes bytes) tag := by
      intro heq
      rw [heq] at hother hfile
      rcases hown with hown | hfree
      · exact hother hown
      · rw [hfree] at hfile
        cases hfile
    rwa [BlobFiles.file?_writeDraft, if_neg hne]
  fresh := by
    rintro _ ⟨⟩
    exact hown

/-- The put's own draft is taken away. -/
theorem Effect.of_dropDraft {tag : String} {n : Nat} (hs : s.IsSharded) (hphase : phase'.draftName? bytes = none) :
    Effect bytes s (.drafting tag n) (s.dropDraft (.ofBytes bytes) tag) phase' where
  sharded := hs.dropDraft _ _
  content _ hd := Or.inl (BlobFiles.content?_dropDraft hd)
  others d tag' hother there hfile := by
    rwa [BlobFiles.file?_dropDraft, if_neg fun heq => hother (congrArg some heq.symm)]
  fresh name hname := by
    rw [hphase] at hname
    cases hname

/-- The put's own draft, in which all of its content is, gets the name of the digest. -/
theorem Effect.of_publishDraft {tag : String} {n : Nat} (hs : s.IsSharded)
    (hdraft : s.tree.file? (BlobFiles.draftPath (.ofBytes bytes) tag) = some bytes) :
    Effect bytes s (.drafting tag n) (s.publishDraft (.ofBytes bytes) tag) .kept where
  sharded := by
    rw [BlobFiles.publishDraft_of_file? hdraft]
    exact (hs.dropDraft _ _).put rfl
  content d hd := by
    rw [BlobFiles.content?_publishDraft hd hdraft]
    by_cases hown : d = .ofBytes bytes
    · exact Or.inr ⟨rfl, hown, if_pos hown⟩
    · exact Or.inl (if_neg hown)
  others d tag' hother there hfile := by
    -- The name that is given is that of a digest, so it belongs to no draft.
    have hpath : BlobFiles.path (.ofBytes bytes) ≠ BlobFiles.draftPath d tag' :=
      BlobFiles.path_ne_draftPath (ContentDigest.isProper_ofBytes bytes)
    rwa [BlobFiles.publishDraft_of_file? hdraft, FileTree.file?_put, if_neg hpath.symm, BlobFiles.file?_dropDraft,
      if_neg fun heq => hother (congrArg some heq.symm)]
  fresh _ hname := nomatch hname

/-- **Nobody else is disturbed**: the files have for another put what they had before, unless both write one draft. -/
theorem Effect.holds {phase'' : PutPhase} (h : Effect bytes s phase s' phase') (hother : phase''.Holds other s)
    (hapart : ∀ name, phase''.draftName? other = some name → phase.draftName? bytes ≠ some name) :
    phase''.Holds other s' where
  draft tag n hphase := h.others _ tag (hapart _ (by rw [hphase]; rfl)) _ (hother.draft tag n hphase)
  kept hkept := by
    rcases h.content _ (ContentDigest.isProper_ofBytes other) with hsame | ⟨-, -, hcontent⟩
    · rw [hsame]
      exact hother.kept hkept
    · rw [hcontent]
      rfl
  answered := hother.answered

/-- What has been found or stored stays so. -/
theorem Advance.isKept (h : phase.Advance bytes s s' phase') (hphase : phase.isKept = true) : phase'.isKept = true := by
  cases h with
  | answered => rfl
  | _ => cases hphase

/-- **A step of a put** gives it what it needs in the files and disturbs nobody else. -/
theorem Advance.effect (h : phase.Advance bytes s s' phase') (hs : s.IsSharded) (hholds : phase.Holds bytes s) :
    phase'.Holds bytes s' ∧ Effect bytes s phase s' phase' := by
  -- Only the steps that begin, write, rename or drop a draft change a file.
  cases h with
  | present hthere =>
    rw [BlobFiles.contains_eq hs] at hthere
    exact ⟨.of_kept hthere, .of_same hs rfl⟩
  | answered =>
    refine ⟨⟨fun _ _ hphase => (nomatch hphase), fun _ => hholds.kept rfl, ?_⟩, .of_same hs rfl⟩
    rintro _ ⟨⟩
    rfl
  | absent => exact ⟨.of_idle rfl rfl, .of_same hs rfl⟩
  | notChecked => exact ⟨.of_idle rfl rfl, .of_same hs rfl⟩
  | prepared => exact ⟨.of_idle rfl rfl, .of_same hs rfl⟩
  | notPrepared => exact ⟨.of_idle rfl rfl, .of_same hs rfl⟩
  | notBegun => exact ⟨.of_idle rfl rfl, .of_same hs rfl⟩
  | leftBehind => exact ⟨.of_idle rfl rfl, .of_same hs rfl⟩
  | @begun tag hfree =>
    rw [FileTree.entry?_of_depth hs rfl (by decide), Option.map_eq_none_iff] at hfree
    exact ⟨.of_draft (by simp [BlobFiles.file?_writeDraft]), .of_writeDraft hs (Or.inr hfree)⟩
  | @wrote tag n more =>
    rw [BlobFiles.appendDraft_of_file? (hholds.draft tag n rfl)]
    exact ⟨.of_draft (by simp [BlobFiles.file?_writeDraft, List.take_add]), .of_writeDraft hs (Or.inl rfl)⟩
  | @renamed tag =>
    have hdraft : s.tree.file? (BlobFiles.draftPath (.ofBytes bytes) tag) = some bytes := by
      simpa using hholds.draft tag _ rfl
    have hcontent := BlobFiles.content?_publishDraft (ContentDigest.isProper_ofBytes bytes) hdraft
    rw [if_pos rfl] at hcontent
    exact ⟨.of_kept (by rw [hcontent]; rfl), .of_publishDraft hs hdraft⟩
  | abandoned => exact ⟨.of_idle rfl rfl, .of_dropDraft hs rfl⟩

end PutPhase

/-! ## Every step is sound -/

namespace BlobWorld

variable {w w' : BlobWorld} {i j : Nat} {p q : BlobPut} {bytes : List UInt8} {d : ContentDigest}

theorem mem_keptContents : bytes ∈ w.keptContents ↔ ∃ p ∈ w.puts, p.phase.isKept = true ∧ p.bytes = bytes := by
  simp [keptContents, and_assoc]

/-- What holds between the files and all puts, whichever steps were made. -/
structure Sound (w : BlobWorld) : Prop where
  sharded : w.files.IsSharded
  /-- Every put is as it should be. -/
  holds : ∀ p ∈ w.puts, p.phase.Holds p.bytes w.files
  /-- No two puts write one draft. -/
  apart : ∀ (i j : Nat) (p q : BlobPut) name, w.puts[i]? = some p → w.puts[j]? = some q →
    p.phase.draftName? p.bytes = some name → q.phase.draftName? q.bytes = some name → i = j
  /-- What is under a digest was put there as a whole. -/
  addressed : ∀ d : ContentDigest, d.IsProper → ∀ bytes, w.files.content? d = some bytes →
    d = .ofBytes bytes ∧ bytes ∈ w.keptContents

/-- Nothing is wrong as long as nothing has been put. -/
theorem Sound.initial : initial.Sound := by
  refine ⟨?_, ?_, ?_, ?_⟩ <;> simp [BlobWorld.initial, BlobFiles.IsSharded, BlobFiles.content?, FileTree.file?]

/-- What is at a place of a list after the put at some place was replaced. -/
theorem getElem?_set_cases {puts : List BlobPut} {p' : BlobPut} (h : (puts.set i p')[j]? = some q) :
    j = i ∧ q = p' ∨ j ≠ i ∧ puts[j]? = some q := by
  rw [List.getElem?_set] at h
  split at h
  · rename_i hij
    split at h
    · exact Or.inl ⟨hij.symm, (Option.some.inj h).symm⟩
    · cases h
  · rename_i hij
    exact Or.inr ⟨Ne.symm hij, h⟩

/-- What becomes of a put in a step: it keeps its content, what it has found or stored, and its answer. -/
structure BecomesOf (p q : BlobPut) : Prop where
  bytes : q.bytes = p.bytes
  kept : p.phase.isKept = true → q.phase.isKept = true
  answered : ∀ answer, p.phase = .answered answer → q.phase = .answered answer

theorem BecomesOf.refl (p : BlobPut) : BecomesOf p p := ⟨rfl, id, fun _ => id⟩

theorem BecomesOf.trans {r : BlobPut} (h : BecomesOf p q) (h' : BecomesOf q r) : BecomesOf p r :=
  ⟨h'.bytes.trans h.bytes, h'.kept ∘ h.kept, fun answer => h'.answered answer ∘ h.answered answer⟩

/-- Every put is still there after a step. -/
theorem Step.exists_put (hstep : w.Step w') (hp : w.puts[j]? = some p) :
    ∃ q, w'.puts[j]? = some q ∧ BecomesOf p q := by
  have hlength := (List.getElem?_eq_some_iff.mp hp).1
  cases hstep with
  | asks bytes => exact ⟨p, by rwa [List.getElem?_append_left hlength], .refl p⟩
  | @advances i moved files phase hmoved hrunning hadvance =>
    by_cases hij : i = j
    · subst hij
      obtain rfl : moved = p := Option.some.inj (hmoved.symm.trans hp)
      refine ⟨_, List.getElem?_set_self hlength, rfl, hadvance.isKept, fun answer hanswer => ?_⟩
      -- No step follows an answer.
      rw [hanswer] at hadvance
      cases hadvance
    · exact ⟨p, by rwa [List.getElem?_set_ne hij], .refl p⟩
  | @stops i stopped hstopped =>
    by_cases hij : i = j
    · subst hij
      obtain rfl : stopped = p := Option.some.inj (hstopped.symm.trans hp)
      exact ⟨_, List.getElem?_set_self hlength, rfl, id, fun _ => id⟩
    · exact ⟨p, by rwa [List.getElem?_set_ne hij], .refl p⟩

theorem Step.mem_keptContents (hstep : w.Step w') (hbytes : bytes ∈ w.keptContents) : bytes ∈ w'.keptContents := by
  obtain ⟨p, hp, hkept, rfl⟩ := BlobWorld.mem_keptContents.mp hbytes
  obtain ⟨i, hi⟩ := List.mem_iff_getElem?.mp hp
  obtain ⟨q, hq, hbecomes⟩ := hstep.exists_put hi
  exact BlobWorld.mem_keptContents.mpr ⟨q, List.mem_of_getElem? hq, hbecomes.kept hkept, hbecomes.bytes⟩

/-- A world stays sound when a put is asked for or its process stops. -/
theorem Sound.of_same_files (h : w.Sound) (hstep : w.Step w') (hfiles : w'.files = w.files)
    (hputs : ∀ (j : Nat) (q : BlobPut), w'.puts[j]? = some q → q.phase = .asked ∨
      ∃ p : BlobPut, w.puts[j]? = some p ∧ q.bytes = p.bytes ∧ q.phase = p.phase) : w'.Sound := by
  refine ⟨hfiles ▸ h.sharded, ?_, ?_, ?_⟩
  · intro q hq
    obtain ⟨j, hj⟩ := List.mem_iff_getElem?.mp hq
    rcases hputs j q hj with hasked | ⟨p, hp, hbytes, hphase⟩
    · exact .of_idle (by rw [hasked]; rfl) (by rw [hasked]; rfl)
    · rw [hfiles, hbytes, hphase]
      exact h.holds p (List.mem_of_getElem? hp)
  · intro j k q r name hq hr hqname hrname
    rcases hputs j q hq with hasked | ⟨p, hp, hbytes, hphase⟩
    · rw [hasked] at hqname
      cases hqname
    · rcases hputs k r hr with hasked | ⟨p', hp', hbytes', hphase'⟩
      · rw [hasked] at hrname
        cases hrname
      · rw [hbytes, hphase] at hqname
        rw [hbytes', hphase'] at hrname
        exact h.apart j k p p' name hp hp' hqname hrname
  · intro d hd bytes hcontent
    obtain ⟨hdigest, hkept⟩ := h.addressed d hd bytes (hfiles ▸ hcontent)
    exact ⟨hdigest, hstep.mem_keptContents hkept⟩

/-- **A step of a put keeps the world sound.** -/
theorem Sound.advance (h : w.Sound) {files : BlobFiles} {phase : PutPhase} (hp : w.puts[i]? = some p)
    (hrunning : p.running = true) (hadvance : p.phase.Advance p.bytes w.files files phase) :
    Sound ⟨files, w.puts.set i { p with phase := phase }⟩ := by
  have hstep : w.Step ⟨files, w.puts.set i { p with phase := phase }⟩ := .advances hp hrunning hadvance
  obtain ⟨hholds, heffect⟩ := hadvance.effect h.sharded (h.holds p (List.mem_of_getElem? hp))
  -- The name of a draft that the put writes now belongs to no other put.
  have hapart : ∀ j q name, j ≠ i → w.puts[j]? = some q → q.phase.draftName? q.bytes = some name →
      phase.draftName? p.bytes ≠ some name := by
    intro j q name hj hq hname hown
    rcases heffect.fresh name hown with hsame | hfree
    · exact hj (h.apart j i q p name hq hp hname hsame)
    · exact (h.holds q (List.mem_of_getElem? hq)).file?_ne_none hname hfree
  refine ⟨heffect.sharded, ?_, ?_, ?_⟩
  · -- The put that moved is as it should be, and it has disturbed no other one.
    intro q hq
    obtain ⟨j, hj⟩ := List.mem_iff_getElem?.mp hq
    rcases getElem?_set_cases hj with ⟨rfl, rfl⟩ | ⟨hne, hj⟩
    · exact hholds
    · exact heffect.holds (h.holds q (List.mem_of_getElem? hj)) fun name hname hold =>
        hne (h.apart j i q p name hj hp hname hold)
  · intro j k q r name hq hr hqname hrname
    rcases getElem?_set_cases hq with ⟨rfl, rfl⟩ | ⟨hj, hq'⟩ <;>
      rcases getElem?_set_cases hr with ⟨rfl, rfl⟩ | ⟨hk, hr'⟩
    · rfl
    · exact absurd hqname (hapart k r name hk hr' hrname)
    · exact absurd hrname (hapart j q name hj hq' hqname)
    · exact h.apart j k q r name hq' hr' hqname hrname
  · -- Content that is new is all of what the put was to store.
    intro d hd bytes hcontent
    rcases heffect.content d hd with hsame | ⟨hkept, hdigest, hown⟩
    · obtain ⟨hdigest, hkept⟩ := h.addressed d hd bytes (hsame ▸ hcontent)
      exact ⟨hdigest, hstep.mem_keptContents hkept⟩
    · obtain rfl : p.bytes = bytes := Option.some.inj (hown.symm.trans hcontent)
      refine ⟨hdigest, mem_keptContents.mpr ⟨_, List.mem_of_getElem? (List.getElem?_set_self ?_), hkept, rfl⟩⟩
      exact (List.getElem?_eq_some_iff.mp hp).1

/-- **A step of anyone keeps the world sound.** -/
theorem Sound.step (h : w.Sound) (hstep : w.Step w') : w'.Sound := by
  cases hstep with
  | asks bytes =>
    refine h.of_same_files (.asks bytes) rfl fun j q hq => ?_
    dsimp only at hq
    rw [List.getElem?_append] at hq
    split at hq
    · exact Or.inr ⟨q, hq, rfl, rfl⟩
    · obtain rfl := List.mem_singleton.mp (List.mem_of_getElem? hq)
      exact Or.inl rfl
  | advances hp hrunning hadvance => exact h.advance hp hrunning hadvance
  | @stops i p hp =>
    refine h.of_same_files (.stops hp) rfl fun j q hq => Or.inr ?_
    rcases getElem?_set_cases hq with ⟨rfl, rfl⟩ | ⟨-, hq⟩
    · exact ⟨p, hp, rfl, rfl⟩
    · exact ⟨q, hq, rfl, rfl⟩

/-- **Every world that can come about is sound.** -/
theorem IsReachable.sound (h : w.IsReachable) : w.Sound := by
  induction h with
  | refl => exact .initial
  | tail _ hstep ih => exact ih.step hstep

end BlobWorld

end AppBundler
