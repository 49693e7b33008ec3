import Mathlib.Data.List.Induction
import AppBundler.Proofs.Store.Writers
/-!
# What is read from a store of files

However puts are interleaved, and whatever fails in them, a digest leads to all bytes of a content with that digest or to
nothing. As long as no two contents collide, the store reads like one in memory into which the contents were put that
have been found or stored so far.
-/

namespace AppBundler

namespace BlobMemory

variable {s : BlobMemory} {contents : List (List UInt8)} {bytes : List UInt8} {d : ContentDigest}

/-- A store into which contents were put one after the other. -/
def ofContents (contents : List (List UInt8)) : BlobMemory := contents.foldl (fun s bytes => (s.put bytes).2) ⟨[]⟩

/-- **What was put is found under its digest**, and nothing else. -/
theorem find?_ofContents (hfree : Sha256.IsCollisionFree {bytes | bytes ∈ contents}) :
    (ofContents contents).find? d = some bytes ↔ bytes ∈ contents ∧ d = .ofBytes bytes := by
  induction contents using List.reverseRecOn with
  | nil => simp [ofContents, find?]
  | append_singleton contents last ih =>
    have hlast : (ofContents (contents ++ [last])) = ((ofContents contents).put last).2 := by simp [ofContents]
    have hrest : Sha256.IsCollisionFree {bytes | bytes ∈ contents} :=
      hfree.mono fun bytes hbytes => List.mem_append_left _ hbytes
    rw [hlast, find?_put]
    by_cases hd : d = .ofBytes last
    · rw [if_pos hd, hd, Option.some.injEq]
      constructor
      · rintro rfl
        exact ⟨List.mem_append_right _ (List.mem_singleton_self _), rfl⟩
      · rintro ⟨hbytes, hdigest⟩
        exact hfree (List.mem_append_right _ (List.mem_singleton_self _)) hbytes
          (ContentDigest.ofBytes_eq_iff.mp hdigest)
    · rw [if_neg hd, ih hrest]
      constructor
      · rintro ⟨hbytes, hdigest⟩
        exact ⟨List.mem_append_left _ hbytes, hdigest⟩
      · rintro ⟨hbytes, hdigest⟩
        rcases List.mem_append.mp hbytes with hbytes | hbytes
        · exact ⟨hbytes, hdigest⟩
        · rw [List.mem_singleton.mp hbytes] at hdigest
          exact absurd hdigest hd

end BlobMemory

/-- The answers to a call that reads files: its result, or that the files cannot be read. -/
inductive FileAnswer {α : Type} (result : Except StorageError α) : Except StorageError α → Prop
  | read : FileAnswer result result
  | failed (fault : FileFault) : FileAnswer result (.error (.file fault))

namespace BlobWorld

variable {w w' : BlobWorld} {i : Nat} {p q : BlobPut} {bytes : List UInt8} {d : ContentDigest}

/-- What has been found or stored was to be put. -/
theorem mem_contents_of_mem_keptContents (h : bytes ∈ w.keptContents) : bytes ∈ w.contents := by
  obtain ⟨p, hp, -, rfl⟩ := mem_keptContents.mp h
  exact ⟨p, hp, rfl⟩

/-- Every put is still there later. -/
theorem Steps.exists_put (h : w.Steps w') (hp : w.puts[i]? = some p) : ∃ q, w'.puts[i]? = some q ∧ BecomesOf p q := by
  induction h with
  | refl => exact ⟨p, hp, .refl p⟩
  | tail _ hstep ih =>
    obtain ⟨q, hq, hpq⟩ := ih
    obtain ⟨r, hr, hqr⟩ := hstep.exists_put hq
    exact ⟨r, hr, hpq.trans hqr⟩

/-- **The files hold what has been found or stored**, each content under its digest, and nothing else. -/
theorem Sound.content?_eq_some_iff (h : w.Sound) (hfree : Sha256.IsCollisionFree w.contents) (hd : d.IsProper) :
    w.files.content? d = some bytes ↔ bytes ∈ w.keptContents ∧ d = .ofBytes bytes := by
  constructor
  · intro hcontent
    obtain ⟨hdigest, hkept⟩ := h.addressed d hd bytes hcontent
    exact ⟨hkept, hdigest⟩
  · rintro ⟨hbytes, rfl⟩
    obtain ⟨p, hp, hkept, rfl⟩ := mem_keptContents.mp hbytes
    obtain ⟨found, hfound⟩ := Option.isSome_iff_exists.mp ((h.holds p hp).kept hkept)
    obtain ⟨hdigest, hfoundKept⟩ := h.addressed _ hd found hfound
    have hsame : p.bytes = found :=
      hfree (mem_contents_of_mem_keptContents hbytes) (mem_contents_of_mem_keptContents hfoundKept)
        (ContentDigest.ofBytes_eq_iff.mp hdigest)
    rw [hfound, hsame]

/-- The files hold what a store in memory holds. -/
theorem Sound.content?_eq (h : w.Sound) (hfree : Sha256.IsCollisionFree w.contents) (hd : d.IsProper)
    {puts : List (List UInt8)} (hputs : ∀ bytes, bytes ∈ puts ↔ bytes ∈ w.keptContents) :
    w.files.content? d = (BlobMemory.ofContents puts).find? d := by
  have hfree' : Sha256.IsCollisionFree {bytes | bytes ∈ puts} :=
    hfree.mono fun bytes hbytes => mem_contents_of_mem_keptContents ((hputs bytes).mp hbytes)
  ext bytes
  rw [h.content?_eq_some_iff hfree hd, BlobMemory.find?_ofContents hfree', hputs]

/-- **Content is stored under its digest in every interleaving.** What is read under a digest is all of a content with
that digest, or that there is none, or that files cannot be read. A put that was answered with a digest was answered
with that of its content, and from then on its content is read there. And unless contents collide, the store reads like
one in memory into which, in any order, the contents were put that have been found or stored; those are the contents of
all puts when each has been answered with a digest, and that is what a store in memory answers. -/
theorem IsReachable.stores_content (h : w.IsReachable) :
    (∀ d : ContentDigest, d.IsProper → ∀ answer, FileAnswer (w.files.get d) answer →
      answer = .error (.notFound d) ∨ (∃ fault, answer = .error (.file fault)) ∨
        ∃ bytes, answer = .ok bytes ∧ ContentDigest.ofBytes bytes = d) ∧
    (∀ (i : Nat) (p : BlobPut) d, w.puts[i]? = some p → p.phase = .answered (.ok d) → d = p.digest ∧
      ∀ w', w.Steps w' → Sha256.IsCollisionFree w'.contents → w'.files.get d = .ok p.bytes) ∧
    (Sha256.IsCollisionFree w.contents → ∀ puts : List (List UInt8), (∀ bytes, bytes ∈ puts ↔ bytes ∈ w.keptContents) →
      ∀ d : ContentDigest, d.IsProper → w.files.get d = (BlobMemory.ofContents puts).get d ∧
        w.files.contains d = (BlobMemory.ofContents puts).contains d) ∧
    ((∀ p ∈ w.puts, ∃ d, p.phase = .answered (.ok d)) → w.keptContents = w.puts.map BlobPut.bytes ∧
      ∀ p ∈ w.puts, ∀ memory : BlobMemory, p.phase = .answered (.ok (memory.put p.bytes).1)) := by
  have hsound := h.sound
  refine ⟨fun d hd answer hanswer => ?_, fun i p d hp hphase => ?_, fun hfree puts hputs d hd => ?_, fun hall => ?_⟩
  · cases hanswer with
    | failed fault => exact Or.inr (Or.inl ⟨fault, rfl⟩)
    | read =>
      rw [BlobFiles.get_eq hsound.sharded]
      cases hcontent : w.files.content? d with
      | none => exact Or.inl rfl
      | some bytes => exact Or.inr (Or.inr ⟨bytes, rfl, (hsound.addressed d hd bytes hcontent).1.symm⟩)
  · obtain rfl := (hsound.holds p (List.mem_of_getElem? hp)).answered d hphase
    refine ⟨rfl, fun w' hsteps hfree => ?_⟩
    have hsound' : w'.Sound := IsReachable.sound (h.trans hsteps)
    obtain ⟨q, hq, hbecomes⟩ := hsteps.exists_put hp
    have hkept : p.bytes ∈ w'.keptContents := by
      refine mem_keptContents.mpr ⟨q, List.mem_of_getElem? hq, ?_, hbecomes.bytes⟩
      rw [hbecomes.answered _ hphase]
      rfl
    have hcontent : w'.files.content? (.ofBytes p.bytes) = some p.bytes :=
      (hsound'.content?_eq_some_iff hfree (ContentDigest.isProper_ofBytes _)).mpr ⟨hkept, rfl⟩
    rw [BlobFiles.get_eq hsound'.sharded, hcontent]
  · have hcontent := hsound.content?_eq hfree hd hputs
    rw [BlobFiles.get_eq hsound.sharded, BlobFiles.contains_eq hsound.sharded, hcontent]
    exact ⟨rfl, rfl⟩
  · constructor
    · have hkept : ∀ p ∈ w.puts, p.phase.isKept = true := by
        intro p hp
        obtain ⟨d, hd⟩ := hall p hp
        rw [hd]
        rfl
      rw [keptContents, List.filter_eq_self.mpr hkept]
    · intro p hp memory
      obtain ⟨d, hd⟩ := hall p hp
      rw [hd, (hsound.holds p hp).answered d hd]
      rfl

/-! ## One put after another

What `BlobFiles.put` does at once, without anyone coming between, is what the steps of a put come to. -/

/-- The last put makes a step. -/
theorem Steps.advance {files files' : BlobFiles} {puts : List BlobPut} {phase phase' : PutPhase}
    (h : w.Steps ⟨files, puts ++ [⟨bytes, phase, true⟩]⟩) (hadvance : phase.Advance bytes files files' phase') :
    w.Steps ⟨files', puts ++ [⟨bytes, phase', true⟩]⟩ := by
  have hstep := h.tail (.advances List.getElem?_concat_length rfl hadvance)
  rwa [List.set_append_right _ _ (Nat.le_refl _), Nat.sub_self] at hstep

/-- **Putting is a run**: what `put` makes of the files, and its answer, come about step by step. -/
theorem Steps.put (h : w.Steps w') (bytes : List UInt8) {tag : String}
    (hname : w'.files.tree.entry? (BlobFiles.draftPath (.ofBytes bytes) tag) = none) :
    w.Steps ⟨(w'.files.put tag bytes).2,
      w'.puts ++ [⟨bytes, .answered (.ok (w'.files.put tag bytes).1), true⟩]⟩ := by
  have hasked : w.Steps ⟨w'.files, w'.puts ++ [⟨bytes, .asked, true⟩]⟩ := h.tail (.asks bytes)
  cases hcontains : w'.files.contains (.ofBytes bytes) with
  | true =>
    have hput : w'.files.put tag bytes = (.ofBytes bytes, w'.files) := by simp [BlobFiles.put, hcontains]
    rw [hput]
    exact (hasked.advance (.present hcontains)).advance .answered
  | false =>
    have hput : w'.files.put tag bytes =
        (.ofBytes bytes, (w'.files.writeDraft (.ofBytes bytes) tag bytes).publishDraft (.ofBytes bytes) tag) := by
      simp [BlobFiles.put, hcontains]
    rw [hput]
    have hbegun := ((hasked.advance (.absent hcontains)).advance .prepared).advance (.begun hname)
    have hwrote := hbegun.advance (.wrote bytes.length (by omega))
    have hdraft : (w'.files.writeDraft (.ofBytes bytes) tag []).appendDraft (.ofBytes bytes) tag
        ((bytes.drop 0).take bytes.length) = w'.files.writeDraft (.ofBytes bytes) tag bytes := by
      have hempty : (w'.files.writeDraft (.ofBytes bytes) tag []).tree.file?
          (BlobFiles.draftPath (.ofBytes bytes) tag) = some [] := by simp [BlobFiles.file?_writeDraft]
      rw [BlobFiles.appendDraft_of_file? hempty, List.drop_zero, List.take_length, List.nil_append,
        BlobFiles.writeDraft_writeDraft]
    rw [hdraft, Nat.zero_add] at hwrote
    exact (hwrote.advance .renamed).advance .answered

/-- **Content can always be put**: without failures a put is answered with the digest of its content, whatever the others
have done and wherever they have stopped. -/
theorem IsReachable.exists_put (h : w.IsReachable) (bytes : List UInt8) :
    ∃ files, w.Steps ⟨files, w.puts ++ [⟨bytes, .answered (.ok (.ofBytes bytes)), true⟩]⟩ := by
  obtain ⟨tag, hname⟩ := BlobFiles.exists_free h.sound.sharded (.ofBytes bytes)
  exact ⟨_, Steps.put .refl bytes hname⟩

/-- Content of two bytes. -/
def twoBytes : List UInt8 := [49, 59]

/-- The process that put it stopped after one byte. -/
def halfWritten : BlobWorld where
  files := ⟨⟨[(BlobFiles.draftPath (.ofBytes twoBytes) "a", [49])]⟩⟩
  puts := [⟨twoBytes, .drafting "a" 1, false⟩]

theorem isReachable_halfWritten : halfWritten.IsReachable := by
  have hasked : initial.Steps ⟨⟨⟨[]⟩⟩, [] ++ [⟨twoBytes, .asked, true⟩]⟩ := .single (.asks twoBytes)
  have hbegun := ((hasked.advance (.absent rfl)).advance .prepared).advance (@PutPhase.Advance.begun _ _ "a" rfl)
  have hwrote := hbegun.advance (.wrote 1 (by decide))
  have hstopped := hwrote.tail (.stops (i := 0) rfl)
  have hfiles : (BlobFiles.writeDraft ⟨⟨[]⟩⟩ (.ofBytes twoBytes) "a" []).appendDraft (.ofBytes twoBytes) "a"
      ((twoBytes.drop 0).take 1) = halfWritten.files := by
    have hempty : (BlobFiles.writeDraft ⟨⟨[]⟩⟩ (.ofBytes twoBytes) "a" []).tree.file?
        (BlobFiles.draftPath (.ofBytes twoBytes) "a") = some [] := by simp [BlobFiles.file?_writeDraft]
    rw [BlobFiles.appendDraft_of_file? hempty]
    simp [BlobFiles.writeDraft, FileTree.put, halfWritten, twoBytes]
  rw [hfiles] at hstopped
  exact hstopped

/-- The half of the content is not read; when the content is put once more, all of it is. -/
theorem IsReachable.stores_content_halfWritten :
    halfWritten.files.get (.ofBytes twoBytes) = .error (.notFound (.ofBytes twoBytes)) ∧
      ∃ w : BlobWorld, halfWritten.Steps w ∧
        w.puts[1]? = some ⟨twoBytes, .answered (.ok (.ofBytes twoBytes)), true⟩ ∧
        w.files.get (.ofBytes twoBytes) = .ok twoBytes := by
  -- One content is put, so there is nothing to collide.
  have hone : ∀ w : BlobWorld, (∀ p ∈ w.puts, p.bytes = twoBytes) → Sha256.IsCollisionFree w.contents := by
    intro w hw
    refine (Set.injOn_singleton Sha256.hash twoBytes).mono ?_
    rintro _ ⟨p, hp, rfl⟩
    exact hw p hp
  constructor
  · obtain ⟨-, -, hmemory, -⟩ := isReachable_halfWritten.stores_content
    have hfree := hone halfWritten (by simp [halfWritten])
    exact (hmemory hfree [] (fun _ => Iff.rfl) _ (ContentDigest.isProper_ofBytes twoBytes)).1
  · have hname : halfWritten.files.tree.entry? (BlobFiles.draftPath (.ofBytes twoBytes) "b") = none := by
      rw [FileTree.entry?_of_depth isReachable_halfWritten.sound.sharded rfl (by decide)]
      simp [FileTree.file?, halfWritten, BlobFiles.draftPath]
    have hput : halfWritten.Steps _ := Steps.put .refl twoBytes hname
    obtain ⟨-, hanswered, -, -⟩ := IsReachable.stores_content (isReachable_halfWritten.trans hput)
    obtain ⟨-, hread⟩ := hanswered 1 _ _ rfl rfl
    exact ⟨_, hput, rfl, hread _ .refl (hone _ (by simp [halfWritten]))⟩

end BlobWorld

end AppBundler
