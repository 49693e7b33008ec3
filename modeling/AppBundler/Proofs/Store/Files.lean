import Mathlib.Data.Finset.Dedup
import Mathlib.Data.Set.Finite.Basic
import AppBundler.Proofs.Store.Memory
/-!
# Content in files

A store of files keeps each content under the path of its digest and writes it first as a draft, next to it in the same
directory. Paths tell digests apart, and no path of a digest is that of a draft, as a draft's name begins with a point
and digests have none. So what each call does to the files is told by two facts about a tree: a file that is put is
there, and all others stay.
-/

namespace AppBundler

/-! ## Digests -/

/-- A hash has thirty-two bytes. -/
theorem Sha256.length_hash (message : List UInt8) : (hash message).length = 32 := by
  simp [hash, wordBytes]

namespace ContentDigest

/-- A digest as it is read: hexadecimal digits in lower case. -/
def IsProper (d : ContentDigest) : Prop := ∃ s, ofHex? s = some d

/-- The digits of a byte are hexadecimal ones, and in lower case. -/
theorem digitChar_lower : ∀ n < 16, isHexDigit (Nat.digitChar n) = true ∧ (Nat.digitChar n).toLower = Nat.digitChar n := by
  decide

/-- The digest of content is read back. -/
theorem ofHex?_ofBytes (bytes : List UInt8) : ofHex? (ofBytes bytes).hex = some (ofBytes bytes) := by
  have hdigits : ∀ c ∈ hexChars (Sha256.hash bytes), isHexDigit c = true ∧ c.toLower = c := by
    intro c hc
    obtain ⟨b, -, hc⟩ := List.mem_flatMap.mp hc
    have hb := b.toNat_lt
    rcases List.mem_pair.mp hc with rfl | rfl
    · exact digitChar_lower _ (by omega)
    · exact digitChar_lower _ (Nat.mod_lt _ (by omega))
  have hlength : (hexChars (Sha256.hash bytes)).length = 64 := by
    rw [hexChars, List.length_flatMap]
    simp [Sha256.length_hash]
  have hlower : (hexChars (Sha256.hash bytes)).map Char.toLower = hexChars (Sha256.hash bytes) := by
    rw [List.map_congr_left fun c hc => (hdigits c hc).2, List.map_id']
  have hall : (hexChars (Sha256.hash bytes)).all isHexDigit = true :=
    List.all_eq_true.mpr fun c hc => (hdigits c hc).1
  simp [ofHex?, ofBytes, hlength, hlower, hall]

theorem isProper_ofBytes (bytes : List UInt8) : (ofBytes bytes).IsProper := ⟨_, ofHex?_ofBytes bytes⟩

/-- Only the point itself is a point in lower case. -/
theorem eq_point_of_toLower {c : Char} (h : c.toLower = '.') : c = '.' := by
  delta Char.toLower at h
  split at h
  · rename_i hupper
    have hval : (c.toNat + 32) % 4294967296 = 46 := by simpa using congrArg (fun c => c.val.toNat) h
    have hlow : 65 ≤ c.toNat := UInt32.le_iff_toNat_le.mp hupper.1
    have hhigh : c.toNat ≤ 90 := UInt32.le_iff_toNat_le.mp hupper.2
    omega
  · exact h

/-- There is no point in a digest. -/
theorem IsProper.point_not_mem {d : ContentDigest} (h : d.IsProper) : '.' ∉ d.hex.toList := by
  obtain ⟨s, hs⟩ := h
  unfold ofHex? at hs
  split at hs
  · rename_i hdigits
    obtain rfl := Option.some.inj hs
    intro hpoint
    obtain ⟨c, hc, hlower⟩ := List.mem_map.mp (by simpa using hpoint)
    obtain rfl := eq_point_of_toLower hlower
    have hdigit : isHexDigit '.' = true := List.all_eq_true.mp (Bool.and_eq_true_iff.mp hdigits).2 '.' hc
    cases hdigit
  · cases hs

end ContentDigest

/-! ## Trees -/

namespace FileTree

variable {t : FileTree} {path other : List String} {bytes : List UInt8}

/-- The bytes of the file at a path of names. -/
def file? (t : FileTree) (path : List String) : Option (List UInt8) := (t.files.find? fun f => f.1 = path).map (·.2)

/-- A tree without the file at a path. -/
def without (t : FileTree) (path : List String) : FileTree := ⟨t.files.filter fun f => f.1 ≠ path⟩

theorem file?_without : (t.without path).file? other = if other = path then none else t.file? other := by
  by_cases hother : other = path
  · simp [file?, without, hother]
  · rw [if_neg hother, file?, without, find?_filter_ne Prod.fst hother, file?]

theorem file?_put : (t.put path bytes).file? other = if other = path then some bytes else t.file? other := by
  have hfiles : (t.put path bytes).files = (t.without path).files ++ [(path, bytes)] := rfl
  rw [file?, hfiles, List.find?_append, Option.map_or]
  have hwithout := @file?_without t path other
  rw [file?] at hwithout
  rw [hwithout]
  by_cases hother : other = path
  · simp [hother]
  · simp [hother, Ne.symm hother]

/-- In a tree whose files all lie equally deep there are no directories at that depth. -/
theorem entry?_of_depth {depth : Nat} (h : ∀ f ∈ t.files, f.1.length = depth) (hpath : path.length = depth)
    (hdepth : 0 < depth) : t.entry? path = (t.file? path).map .file := by
  unfold entry? file?
  cases hfind : t.files.find? fun f => f.1 = path with
  | some f => rfl
  | none =>
    have hempty : path.isEmpty = false := by cases path <;> simp_all
    have hbelow : (t.files.any fun f => path.isPrefixOf f.1) = false := by
      rw [List.any_eq_false]
      intro f hf hprefix
      -- A path that is a beginning of one as long is that one.
      have hsame := (List.isPrefixOf_iff_prefix.mp hprefix).eq_of_length (by rw [hpath, h f hf])
      simpa [hsame] using List.find?_eq_none.mp hfind f hf
    simp [hempty, hbelow]

/-- What was put at a path counts no more when something else is put there. -/
theorem put_put {bytes' : List UInt8} : (t.put path bytes).put path bytes' = t.put path bytes' := by
  simp [put, List.filter_append, List.filter_filter]

end FileTree

/-! ## Paths -/

namespace BlobFiles

variable {s : BlobFiles} {d d' : ContentDigest} {tag tag' : String} {bytes piece : List UInt8}

/-- Paths tell digests apart. -/
theorem path_injective (h : path d = path d') : d = d' := by
  have hparts : d.hex.toList.take 2 = d'.hex.toList.take 2 ∧ d.hex.toList.drop 2 = d'.hex.toList.drop 2 := by
    simpa [path, directory, String.ofList_inj] using h
  obtain ⟨htake, hdrop⟩ := hparts
  have hhex : d.hex.toList = d'.hex.toList := by
    rw [← List.take_append_drop 2 d.hex.toList, htake, hdrop, List.take_append_drop]
  exact congrArg ContentDigest.mk (String.toList_inj.mp hhex)

/-- No content has the name of a draft. -/
theorem path_ne_draftPath (h : d.IsProper) : path d ≠ draftPath d' tag := by
  intro heq
  have hname : d.hex.toList.drop 2 = '.' :: "tmp".toList ++ tag.toList := by
    have hnames : String.ofList (d.hex.toList.drop 2) = ".tmp" ++ tag :=
      List.singleton_inj.mp (List.append_inj' heq rfl).2
    rw [← String.toList_inj] at hnames
    simpa using hnames
  refine h.point_not_mem (List.mem_of_mem_drop (i := 2) ?_)
  rw [hname]
  exact List.mem_cons_self

/-! ## What the calls do -/

/-- Every file lies in the directory of a digest. -/
def IsSharded (s : BlobFiles) : Prop := ∀ f ∈ s.tree.files, f.1.length = 3

/-- The bytes in the file of a digest. -/
def content? (s : BlobFiles) (d : ContentDigest) : Option (List UInt8) := s.tree.file? (path d)

/-- There is content under a digest when its file is there. -/
theorem contains_eq (h : s.IsSharded) : s.contains d = (s.content? d).isSome := by
  rw [contains, FileTree.entry?_of_depth h rfl (by decide), Option.isSome_map]
  rfl

/-- **A read gives the bytes of the file** of the digest. -/
theorem get_eq (h : s.IsSharded) : s.get d =
    match s.content? d with
    | some bytes => .ok bytes
    | none => .error (.notFound d) := by
  rw [get, FileTree.entry?_of_depth h rfl (by decide), content?]
  cases s.tree.file? (path d) <;> rfl

/-- Adds bytes to a draft. -/
def appendDraft (s : BlobFiles) (d : ContentDigest) (tag : String) (piece : List UInt8) : BlobFiles :=
  match s.tree.file? (draftPath d tag) with
  | none => s
  | some bytes => s.writeDraft d tag (bytes ++ piece)

/-- Takes a draft away. -/
def dropDraft (s : BlobFiles) (d : ContentDigest) (tag : String) : BlobFiles := ⟨s.tree.without (draftPath d tag)⟩

/-- Bytes that are added come after those that are there. -/
theorem appendDraft_of_file? (h : s.tree.file? (draftPath d tag) = some bytes) :
    s.appendDraft d tag piece = s.writeDraft d tag (bytes ++ piece) := by
  rw [appendDraft, h]

/-- A draft that is there gets the name of its digest. -/
theorem publishDraft_of_file? (h : s.tree.file? (draftPath d tag) = some bytes) :
    s.publishDraft d tag = ⟨(s.dropDraft d tag).tree.put (path d) bytes⟩ := by
  obtain ⟨⟨name, _⟩, hfind, rfl⟩ := Option.map_eq_some_iff.mp h
  rw [publishDraft, hfind]
  rfl

theorem IsSharded.put (h : s.IsSharded) {name : List String} (hname : name.length = 3) :
    IsSharded ⟨s.tree.put name bytes⟩ := by
  intro f hf
  rcases List.mem_append.mp hf with hf | hf
  · exact h f (List.mem_of_mem_filter hf)
  · rw [List.mem_singleton.mp hf, hname]

theorem IsSharded.dropDraft (h : s.IsSharded) (d : ContentDigest) (tag : String) : (s.dropDraft d tag).IsSharded :=
  fun f hf => h f (List.mem_of_mem_filter hf)

theorem file?_writeDraft {name : List String} : (s.writeDraft d tag bytes).tree.file? name =
    if name = draftPath d tag then some bytes else s.tree.file? name :=
  FileTree.file?_put

/-- What was written to a draft counts no more when it is written anew. -/
theorem writeDraft_writeDraft : (s.writeDraft d tag piece).writeDraft d tag bytes = s.writeDraft d tag bytes :=
  congrArg mk FileTree.put_put

theorem file?_dropDraft {name : List String} : (s.dropDraft d tag).tree.file? name =
    if name = draftPath d tag then none else s.tree.file? name :=
  FileTree.file?_without

/-- Writing a draft leaves all content as it is. -/
theorem content?_writeDraft (h : d.IsProper) : (s.writeDraft d' tag bytes).content? d = s.content? d := by
  rw [content?, file?_writeDraft, if_neg (path_ne_draftPath h), content?]

/-- Taking a draft away leaves all content as it is. -/
theorem content?_dropDraft (h : d.IsProper) : (s.dropDraft d' tag).content? d = s.content? d := by
  rw [content?, file?_dropDraft, if_neg (path_ne_draftPath h), content?]

/-- **A draft becomes the content of its digest** all at once, and all other content stays. -/
theorem content?_publishDraft (h : d.IsProper) (hdraft : s.tree.file? (draftPath d' tag) = some bytes) :
    (s.publishDraft d' tag).content? d = if d = d' then some bytes else s.content? d := by
  rw [publishDraft_of_file? hdraft, content?, FileTree.file?_put]
  by_cases hd : d = d'
  · simp [hd]
  · rw [if_neg fun hpath => hd (path_injective hpath), if_neg hd]
    exact content?_dropDraft h

/-- There is always a name for one more draft. -/
theorem exists_free (h : s.IsSharded) (d : ContentDigest) : ∃ tag, s.tree.entry? (draftPath d tag) = none := by
  have htags : Function.Injective fun n => draftPath d (String.ofList (List.replicate n 'x')) := by
    intro m n hmn
    have hnames : List.replicate m 'x' = List.replicate n 'x' := by simpa [draftPath, String.ofList_inj] using hmn
    simpa using congrArg List.length hnames
  obtain ⟨_, ⟨n, rfl⟩, hfree⟩ :=
    (Set.infinite_range_of_injective htags).exists_notMem_finset (s.tree.files.map Prod.fst).toFinset
  refine ⟨String.ofList (List.replicate n 'x'), ?_⟩
  rw [FileTree.entry?_of_depth h rfl (by decide), Option.map_eq_none_iff, FileTree.file?, Option.map_eq_none_iff,
    List.find?_eq_none]
  intro f hf hname
  exact hfree (List.mem_toFinset.mpr (List.mem_map.mpr ⟨f, hf, by simpa using hname⟩))

end BlobFiles

end AppBundler
