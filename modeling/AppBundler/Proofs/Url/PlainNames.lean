import AppBundler.Bundle.Namespaces
import AppBundler.Bundle.FileName
import AppBundler.Proofs.Text.Parts
/-!
# URLs of plainly named files

A file name is *plain* when it is made of the characters that bundled names keep and none of its segments
steps through directories. The reading of paths leaves such a name as it is: joined to a local directory it
gives the URL that one expects, and the text of that URL is read back as the same URL.
-/

namespace AppBundler

/-! ## Plain names -/

/-- No segment of a path steps through directories. -/
def HasNoDots (s : List Char) : Prop := ∀ segment ∈ s.splitOn '/', segment ≠ ['.'] ∧ segment ≠ ['.', '.']

/-- A name that stands in a URL as it is. -/
structure IsPlainName (s : List Char) : Prop where
  kept : ∀ c ∈ s, FileName.isKept c = true
  relative : s.head? ≠ some '/'
  noDots : HasNoDots s

/-- The characters of plain names lie between the hyphen and the last letter. -/
theorem toNat_of_isKept {c : Char} (h : FileName.isKept c = true) : 45 ≤ c.toNat ∧ c.toNat ≤ 122 := by
  simp only [FileName.isKept, Bool.or_eq_true, decide_eq_true_eq] at h
  have hletter : c.isAlphanum = true → 48 ≤ c.toNat ∧ c.toNat ≤ 122 := by
    intro h
    change ((decide (c.val ≥ 65 ∧ c.val ≤ 90) || (decide (c.val ≥ 97) && decide (c.val ≤ 122))) ||
      (decide (c.val ≥ 48) && decide (c.val ≤ 57))) = true at h
    simp only [Bool.or_eq_true, Bool.and_eq_true, decide_eq_true_eq, UInt32.le_iff_toNat_le, ge_iff_le] at h
    change ((65 ≤ c.toNat ∧ c.toNat ≤ 90) ∨ 97 ≤ c.toNat ∧ c.toNat ≤ 122) ∨ 48 ≤ c.toNat ∧ c.toNat ≤ 57 at h
    omega
  rcases h with (((h | rfl) | rfl) | rfl) | rfl
  · exact ⟨by have := (hletter h).1; omega, (hletter h).2⟩
  all_goals decide

/-- A character that is not kept differs from all that are. -/
theorem ne_of_isKept {c d : Char} (h : FileName.isKept c = true) (hd : FileName.isKept d = false) : c ≠ d := by
  rintro rfl
  rw [h] at hd
  cases hd

namespace Url

/-- A character of a plain name stands for itself in a path. -/
theorem encodeChar_of_isKept {c : Char} (h : FileName.isKept c = true) : encodeChar pathSet c = [c] := by
  have hrange := toNat_of_isKept h
  have hreserved : pathSet.contains c = false := by
    rw [← Bool.not_eq_true, List.contains_iff_mem]
    intro hmem
    have hall : (pathSet.all fun d => !FileName.isKept d) = true := by decide
    exact ne_of_isKept h (by simpa using List.all_eq_true.mp hall c hmem) rfl
  have hcontrol : isControl c = false := by
    rw [isControl, Bool.or_eq_false_iff, decide_eq_false_iff_not, decide_eq_false_iff_not]
    omega
  have hascii : ¬ 0x80 ≤ c.toNat := by omega
  rw [encodeChar, hcontrol, hreserved, decide_eq_false hascii]
  rfl

/-- A segment of a plain name is no spelling of points. -/
theorem not_dots {segment : List Char} (hkept : ∀ c ∈ segment, FileName.isKept c = true)
    (hone : segment ≠ ['.']) (htwo : segment ≠ ['.', '.']) :
    doubleDots.contains (String.ofList segment) = false ∧ singleDots.contains (String.ofList segment) = false := by
  -- Every other spelling has a percent sign, which is not kept.
  have hother : ∀ t : String, '%' ∈ t.toList → String.ofList segment ≠ t := by
    rintro t ht rfl
    exact ne_of_isKept (hkept '%' (by simpa using ht)) (by decide) rfl
  have hone' : String.ofList segment ≠ "." := fun h => hone (by simpa using congrArg String.toList h)
  have htwo' : String.ofList segment ≠ ".." := fun h => htwo (by simpa using congrArg String.toList h)
  constructor
  · simp only [doubleDots, List.contains_eq_mem, List.mem_cons, List.not_mem_nil, htwo', false_or, or_false,
      decide_eq_false_iff_not, not_or]
    refine ⟨?_, ?_, ?_, ?_, ?_, ?_, ?_, ?_⟩ <;> exact hother _ (by decide)
  · simp only [singleDots, List.contains_eq_mem, List.mem_cons, List.not_mem_nil, hone', false_or, or_false,
      decide_eq_false_iff_not, not_or]
    exact ⟨hother _ (by decide), hother _ (by decide)⟩

/-- A plain segment is no drive. -/
theorem isDrive_of_isKept {segment : List Char} (hkept : ∀ c ∈ segment, FileName.isKept c = true) :
    isDrive segment = false := by
  unfold isDrive
  split
  · rename_i a b
    have hb := hkept b (by simp)
    simp [ne_of_isKept hb (d := ':') (by decide), ne_of_isKept hb (d := '|') (by decide)]
  · rfl

/-- A plain segment ends as it is. -/
theorem endSegment_plain {rules : PathRules} {path segment : List Char} {drive : Bool}
    (hkept : ∀ c ∈ segment, FileName.isKept c = true) (hone : segment ≠ ['.']) (htwo : segment ≠ ['.', '.']) :
    endSegment rules false ⟨path ++ segment, path.length, drive⟩ = ⟨path ++ segment, path.length, drive⟩ ∧
    endSegment rules true ⟨path ++ segment ++ ['/'], path.length, drive⟩ =
      ⟨path ++ segment ++ ['/'], path.length, drive⟩ := by
  obtain ⟨hdouble, hsingle⟩ := not_dots hkept hone htwo
  have hdrive := isDrive_of_isKept hkept
  constructor
  · simp only [endSegment, Bool.false_eq_true, if_false, List.drop_left, hdouble, hsingle, hdrive, Bool.and_false]
  · simp only [endSegment, if_true, List.append_assoc, List.drop_left, List.dropLast_concat, hdouble, hsingle,
      Bool.false_eq_true, if_false, hdrive, Bool.and_false]

/-- A path without a colon is not closed as a drive. -/
theorem closeDrive_eq_self {rules : PathRules} {s : PathState} (h : ':' ∉ s.path) : closeDrive rules s = s := by
  have hdrive : isNormalDrive (s.path.drop 1) = false := by
    unfold isNormalDrive
    split
    · rename_i a b hd
      have hb : b ∈ s.path := List.mem_of_mem_drop (i := 1) (by rw [hd]; simp)
      have hne : b ≠ ':' := fun hb' => h (hb' ▸ hb)
      simp [hne]
    · rfl
  rw [closeDrive, hdrive, Bool.and_false, if_neg Bool.false_ne_true]

/-- **Reading a plain path appends it.** -/
theorem readPath_plain {rules : PathRules} {drive : Bool} (s : List Char) :
    ∀ path pending : List Char, ':' ∉ path → (∀ c ∈ pending, FileName.isKept c = true ∧ c ≠ '/') →
      (∀ c ∈ s, FileName.isKept c = true) → HasNoDots (pending ++ s) →
      ∃ start, readPath rules ⟨path, path.length, drive⟩ pending s = (⟨path ++ pending ++ s, start, drive⟩, []) := by
  induction s with
  | nil =>
    intro path pending _ hpending _ hdots
    obtain ⟨hone, htwo⟩ := hdots pending (by
      rw [List.append_nil, List.splitOn_eq_singleton fun h => (hpending '/' h).2 rfl]
      exact List.mem_singleton_self _)
    refine ⟨path.length, ?_⟩
    rw [readPath, PathState.add, (endSegment_plain (fun c hc => (hpending c hc).1) hone htwo).1, List.append_nil]
  | cons c r ih =>
    intro path pending hpath hpending hs hdots
    have hc := hs c List.mem_cons_self
    have hbreak : isBreak c = false := by
      simp [isBreak, ne_of_isKept hc (d := '\t') (by decide), ne_of_isKept hc (d := '\n') (by decide),
        ne_of_isKept hc (d := '\r') (by decide)]
    have hquery : c ≠ '?' := ne_of_isKept hc (by decide)
    have hfragment : c ≠ '#' := ne_of_isKept hc (by decide)
    have hback : c ≠ '\\' := ne_of_isKept hc (by decide)
    have hr : ∀ d ∈ r, FileName.isKept d = true := fun d hd => hs d (List.mem_cons_of_mem _ hd)
    by_cases hslash : c = '/'
    · -- The segment that is pending ends here.
      subst hslash
      have hsplit : (pending ++ '/' :: r).splitOn '/' = pending :: r.splitOn '/' :=
        List.splitOn_append_cons_self_of_not_mem (fun h => (hpending '/' h).2 rfl) r
      obtain ⟨hone, htwo⟩ := hdots pending (by rw [hsplit]; exact List.mem_cons_self)
      have hend : endSegment rules true ⟨path ++ pending ++ ['/'], path.length, drive⟩ =
          ⟨path ++ pending ++ ['/'], path.length, drive⟩ :=
        (endSegment_plain (fun d hd => (hpending d hd).1) hone htwo).2
      have hcolon : ':' ∉ path ++ pending ++ ['/'] := by
        simp only [List.mem_append, not_or]
        exact ⟨⟨hpath, fun h => absurd (hpending ':' h).1 (by decide)⟩, by decide⟩
      have hrdots : HasNoDots r := fun segment hsegment =>
        hdots segment (by rw [hsplit]; exact List.mem_cons_of_mem _ hsegment)
      obtain ⟨start, hrest⟩ := ih (path ++ pending ++ ['/']) [] hcolon (by simp) hr hrdots
      refine ⟨start, ?_⟩
      rw [readPath]
      simp only [hbreak, Bool.false_eq_true, if_false, hquery, hfragment, decide_false, Bool.or_self,
        decide_true, Bool.true_or, if_true, PathState.add]
      rw [← List.append_assoc, hend, hrest]
      simp
    · have hpending' : ∀ d ∈ pending ++ [c], FileName.isKept d = true ∧ d ≠ '/' := by
        intro d hd
        rcases List.mem_append.mp hd with hd | hd
        · exact hpending d hd
        · obtain rfl := List.mem_singleton.mp hd
          exact ⟨hc, hslash⟩
      obtain ⟨start, hrest⟩ := ih path (pending ++ [c]) hpath hpending' hr (by simpa using hdots)
      refine ⟨start, ?_⟩
      rw [readPath]
      simp only [hbreak, Bool.false_eq_true, if_false, hquery, hfragment, decide_false, Bool.or_self, hslash,
        hback, Bool.and_false]
      rw [closeDrive_eq_self hpath, encodeChar_of_isKept hc, hrest]
      simp

/-! ## Local files -/

/-- The URL of a file in a local directory of one name. -/
def localFile (directory : String) (name : List Char) : Url :=
  { localDirectory directory with path := "/" ++ directory ++ "/" ++ String.ofList name }

/-- The text of the URL of a local file. -/
theorem text_localFile (directory : String) (name : List Char) :
    (localFile directory name).text.toList = "file:///".toList ++ directory.toList ++ '/' :: name := by
  simp [localFile, localDirectory, text, beforeFragment, beforeQuery, beforePath, authorityText]

/-- Local files of one directory are told apart by their texts. -/
theorem localFile_text_injective {directory : String} {name other : List Char}
    (h : (localFile directory name).text = (localFile directory other).text) : name = other := by
  rw [← String.toList_inj, text_localFile, text_localFile, List.append_cancel_left_eq] at h
  exact (List.cons.inj h).2

/-- A text without controls and blanks is neither trimmed nor rid of breaks. -/
theorem cleaned_eq_self {s : List Char} (h : ∀ c ∈ s, 0x20 < c.toNat) : trimmed s = s ∧ withoutBreaks s = s := by
  have hdrop : ∀ t : List Char, (∀ c ∈ t, 0x20 < c.toNat) → t.dropWhile isTrimmed = t := by
    intro t ht
    cases t with
    | nil => rfl
    | cons c r =>
      have hc := ht c List.mem_cons_self
      exact List.dropWhile_cons_of_neg (by simp [isTrimmed]; omega)
  constructor
  · rw [trimmed, hdrop s h, hdrop s.reverse (by simpa using h), List.reverse_reverse]
  · refine List.filter_eq_self.mpr fun c hc => ?_
    have hrange := h c hc
    have hne : ∀ d : Char, d.toNat ≤ 0x20 → c ≠ d := by
      rintro d hd rfl
      omega
    simp [isBreak, hne '\t' (by decide), hne '\n' (by decide), hne '\r' (by decide)]

/-- A text without a colon has no scheme. -/
theorem scheme?_eq_none {s : List Char} (h : ':' ∉ s) : scheme? s = none := by
  unfold scheme?
  cases s with
  | nil => rfl
  | cons c r =>
    cases hrest : (c :: r).dropWhile isSchemeChar with
    | nil => simp
    | cons d t =>
      have hd : d ≠ ':' := by
        rintro rfl
        exact h ((List.dropWhile_sublist _).subset (by rw [hrest]; exact List.mem_cons_self))
      simp [hd]

section LocalFiles

variable {directory : String} {name : List Char}

/-- A directory of one plain segment. -/
structure IsPlainDirectory (directory : String) : Prop where
  plain : IsPlainName directory.toList
  noSlash : '/' ∉ directory.toList
  nonempty : directory.toList ≠ []

/-- The path of a local file is plain. -/
theorem noDots_path (hdir : IsPlainDirectory directory) (hname : HasNoDots name) :
    HasNoDots ('/' :: (directory.toList ++ '/' :: name)) := by
  have hsplit : ('/' :: (directory.toList ++ '/' :: name)).splitOn '/' =
      [] :: directory.toList :: name.splitOn '/' := by
    rw [List.splitOn_cons_eq_if_modifyHead, List.splitOn_append_cons_self_of_not_mem hdir.noSlash]
    simp
  intro segment hsegment
  rw [hsplit] at hsegment
  rcases List.mem_cons.mp hsegment with rfl | hsegment
  · simp
  rcases List.mem_cons.mp hsegment with rfl | hsegment
  · exact hdir.plain.noDots _ (by rw [List.splitOn_eq_singleton hdir.noSlash]; exact List.mem_singleton_self _)
  · exact hname segment hsegment

/-- No slash begins a plain name. -/
theorem takeWhile_isSlash (hname : IsPlainName name) : name.takeWhile (isSlash true) = [] := by
  cases name with
  | nil => rfl
  | cons c r =>
    have hslash : c ≠ '/' := fun h => hname.relative (by rw [h]; rfl)
    have hback : c ≠ '\\' := ne_of_isKept (hname.kept c List.mem_cons_self) (by decide)
    exact List.takeWhile_cons_of_neg (by simp [isSlash, hslash, hback])

/-- A plain text begins with no drive. -/
theorem beginsWithDrive_of_isKept {s : List Char} (h : ∀ c ∈ s, FileName.isKept c = true) :
    beginsWithDrive s = false := by
  unfold beginsWithDrive
  split
  · rename_i a b r
    have hkept : ∀ c ∈ [a, b], FileName.isKept c = true := fun c hc => h c (by
      rcases List.mem_cons.mp hc with rfl | hc
      · exact List.mem_cons_self
      · exact List.mem_cons_of_mem _ (List.mem_of_mem_take (i := 1) (by simpa using hc)))
    rw [isDrive_of_isKept hkept, Bool.false_and]
  · rfl

/-- Reading a plain path of a local file appends it. The path keeps one slash in front. -/
theorem continuePath_plain {path s : List Char} (hpath : ':' ∉ path) (hs : ∀ c ∈ s, FileName.isKept c = true)
    (hdots : HasNoDots s) :
    ∃ start, continuePath (rulesFor "file") path s =
      (⟨'/' :: (path ++ s).dropWhile (· = '/'), start, false⟩, []) := by
  have hplain : HasNoDots ([] ++ s) := by simpa using hdots
  obtain ⟨start, hread⟩ := readPath_plain s path [] hpath (by simp) hs hplain
  refine ⟨start, ?_⟩
  rw [continuePath, hread]
  simp [rulesFor]

/-- The first slash of the path of a local file is its only one in front. -/
theorem dropWhile_slash_path (hdir : IsPlainDirectory directory) :
    (directory.toList ++ '/' :: name).dropWhile (· = '/') = directory.toList ++ '/' :: name := by
  obtain ⟨c, r, hcr⟩ := List.exists_cons_of_ne_nil hdir.nonempty
  have hc : c ≠ '/' := fun h => hdir.noSlash (by rw [hcr, h]; exact List.mem_cons_self)
  rw [hcr, List.cons_append, List.dropWhile_cons_of_neg (by simpa using hc)]

/-- **Joining a plain name to a local directory** gives the URL of the file. -/
theorem join_localDirectory (hdir : IsPlainDirectory directory) (hname : IsPlainName name) :
    (localDirectory directory).join (String.ofList name) = .ok (localFile directory name) := by
  obtain ⟨htrim, hbreaks⟩ := cleaned_eq_self (s := name) fun c hc => by
    have := toNat_of_isKept (hname.kept c hc)
    omega
  have hcolon : ∀ s : List Char, (∀ c ∈ s, FileName.isKept c = true) → ':' ∉ s := fun s hs hmem =>
    absurd (hs ':' hmem) (by decide)
  have hread : (localDirectory directory).join (String.ofList name) =
      .ok (readFileRelative (some (localDirectory directory)) name) := by
    simp only [join, read, String.toList_ofList, htrim, hbreaks, scheme?_eq_none (hcolon name hname.kept)]
    simp only [isOpaque, localDirectory, Option.isNone_some, Bool.false_and, Bool.false_eq_true, if_false, if_true,
      readFile, hbreaks, takeWhile_isSlash hname]
  rw [hread]
  congr 1
  cases name with
  | nil =>
    rw [readFileRelative, hbreaks]
    simp [localFile, localDirectory]
  | cons c r =>
    have hc := hname.kept c List.mem_cons_self
    have hquery : c ≠ '?' := ne_of_isKept hc (by decide)
    have hfragment : c ≠ '#' := ne_of_isKept hc (by decide)
    rw [readFileRelative]
    simp only [hbreaks]
    split
    case h_1 heq => cases heq
    case h_2 heq => exact absurd (List.cons.inj heq).1 hfragment
    case h_3 heq => exact absurd (List.cons.inj heq).1 hquery
    rw [beginsWithDrive_of_isKept hname.kept, if_neg Bool.false_ne_true]
    have hdirectory : ':' ∉ '/' :: directory.toList ++ ['/'] := by
      simp [hcolon directory.toList hdir.plain.kept]
    have hshorten : shorten (rulesFor "file") (localDirectory directory).path.toList =
        '/' :: directory.toList ++ ['/'] := by
      simp [shorten, localDirectory, isNormalDrive, popSegment, afterLastSlash, upToLastSlash]
    obtain ⟨start, hpath⟩ := continuePath_plain hdirectory hname.kept hname.noDots
    rw [hshorten, hpath]
    have hdrop : (directory.toList ++ '/' :: c :: r).dropWhile (· = '/') = directory.toList ++ '/' :: c :: r :=
      dropWhile_slash_path hdir
    simp [withQueryAndFragment, withoutBreaks, localFile, localDirectory, hdrop, ← String.toList_inj]

/-- **The text of the URL of a local file is read back.** -/
theorem parse_localFile (hdir : IsPlainDirectory directory) (hname : IsPlainName name) :
    Url.parse (localFile directory name).text = .ok (localFile directory name) := by
  have hkept : ∀ c ∈ '/' :: (directory.toList ++ '/' :: name), FileName.isKept c = true := by
    intro c hc
    simp only [List.mem_cons, List.mem_append] at hc
    rcases hc with rfl | hc | rfl | hc
    · decide
    · exact hdir.plain.kept c hc
    · decide
    · exact hname.kept c hc
  have hfront : ∀ c ∈ "file://".toList, 0x20 < c.toNat := by
    have hall : ("file://".toList.all fun c => decide (0x20 < c.toNat)) = true := by decide
    exact fun c hc => of_decide_eq_true (List.all_eq_true.mp hall c hc)
  obtain ⟨htrim, hbreaks⟩ := cleaned_eq_self (s := "file://".toList ++ '/' :: (directory.toList ++ '/' :: name)) (by
    intro c hc
    rcases List.mem_append.mp hc with hc | hc
    · exact hfront c hc
    · have := toNat_of_isKept (hkept c hc)
      omega)
  have htext : (localFile directory name).text.toList =
      "file://".toList ++ '/' :: (directory.toList ++ '/' :: name) := by
    rw [text_localFile]
    simp
  have hroot : ':' ∉ ['/'] := by decide
  obtain ⟨start, hpath⟩ := continuePath_plain hroot hkept (noDots_path hdir hname.noDots)
  have hscheme : scheme? ("file://".toList ++ '/' :: (directory.toList ++ '/' :: name)) =
      some ("file", '/' :: '/' :: '/' :: (directory.toList ++ '/' :: name)) := by
    simp [scheme?, isSchemeChar]
  have hread : Url.parse (localFile directory name).text =
      readFile none ('/' :: '/' :: '/' :: (directory.toList ++ '/' :: name)) := by
    simp only [parse, read, htext, htrim, hbreaks, hscheme, if_true, Option.filter_none]
    congr 1
  rw [hread]
  have hplain : withoutBreaks ('/' :: '/' :: '/' :: (directory.toList ++ '/' :: name)) =
      '/' :: '/' :: '/' :: (directory.toList ++ '/' :: name) := by
    refine (cleaned_eq_self fun c hc => ?_).2
    have hc : FileName.isKept c = true := by
      rcases List.mem_cons.mp hc with rfl | hc
      · decide
      rcases List.mem_cons.mp hc with rfl | hc
      · decide
      · exact hkept c hc
    have := toNat_of_isKept hc
    omega
  have hhost : readFile none ('/' :: '/' :: '/' :: (directory.toList ++ '/' :: name)) =
      readFileHost ('/' :: (directory.toList ++ '/' :: name)) := by
    simp [readFile, hplain, isSlash, afterNext, isBreak]
  have hdrop : (directory.toList ++ '/' :: name).dropWhile (· = '/') = directory.toList ++ '/' :: name :=
    dropWhile_slash_path hdir
  rw [hhost]
  simp [readFileHost, endsAuthority, isSlash, withoutBreaks, isDrive, bind, Except.bind, hpath, fileUrl,
    withQueryAndFragment, localFile, localDirectory, hdrop, ← String.toList_inj]

end LocalFiles

end Url

end AppBundler
