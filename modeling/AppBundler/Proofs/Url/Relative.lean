import AppBundler.Bundle.Specifier
import AppBundler.Proofs.Url.PlainNames
/-!
# URLs of relative specifiers

A specifier that begins with points and a slash is read onto the path of its base. The URL that it stands for has the
scheme of the base, and is spelled in the characters of the two and in those that encoding and the reading of paths
write.

What is written into a path for a text has its breaks left out and some of its characters encoded, and is written for
itself. A relative name that is no path and does not end like a segment of points stands for the file of that text in
the directory of its base, and the URL of such a file is read back from its text.
-/

namespace AppBundler

namespace Url

/-! ## Characters of what is written -/

/-- The characters that are written into URLs on their own. -/
def writtenChars : List Char :=
  ['%', '0', '1', '2', '3', '4', '5', '6', '7', '8', '9', 'A', 'B', 'C', 'D', 'E', 'F', '/', ':', '?', '#', '.']

theorem mem_writtenChars_of_mem_percentChar {c d : Char} (h : d ∈ percentChar c) : d ∈ writtenChars := by
  have hdigit : ∀ n < 16, upperHex n ∈ writtenChars := by decide
  obtain ⟨b, -, hd⟩ := List.mem_flatMap.mp h
  have hb := b.toNat_lt
  rcases List.mem_cons.mp hd with rfl | hd
  · exact List.mem_cons_self
  rcases List.mem_cons.mp hd with rfl | hd
  · exact hdigit _ (by omega)
  · obtain rfl := List.mem_singleton.mp hd
    exact hdigit _ (by omega)

/-- What is taken away of a path leaves a part of it. -/
theorem popSegment_subset (rules : PathRules) (path : List Char) : popSegment rules path ⊆ path := by
  unfold popSegment upToLastSlash
  split
  · exact List.Subset.refl _
  · intro c hc
    exact List.mem_reverse.mp ((List.dropWhile_sublist _).subset (List.mem_reverse.mp hc))

theorem shorten_subset (rules : PathRules) (path : List Char) : shorten rules path ⊆ path := by
  unfold shorten
  split
  · exact List.Subset.refl _
  · exact popSegment_subset rules path

section

variable {P : Char → Prop} (hP : ∀ c ∈ writtenChars, P c) {rules : PathRules} {st : PathState}
  {path s pending : List Char}
include hP

theorem forall_mem_encodeChar {set : List Char} (h : ∀ c ∈ s, P c) : ∀ d ∈ s.flatMap (encodeChar set), P d := by
  intro d hd
  obtain ⟨c, hc, hd⟩ := List.mem_flatMap.mp hd
  unfold encodeChar at hd
  split at hd
  · exact hP d (mem_writtenChars_of_mem_percentChar hd)
  · obtain rfl := List.mem_singleton.mp hd
    exact h d hc

theorem forall_mem_closeWithSlash (h : ∀ c ∈ path, P c) : ∀ c ∈ closeWithSlash path, P c := by
  unfold closeWithSlash
  split
  · exact h
  · exact List.forall_mem_append.mpr ⟨h, List.forall_mem_singleton.mpr (hP _ (by decide))⟩

/-- A segment that ends has the characters that it had. -/
theorem forall_mem_endSegment (slash : Bool) (h : ∀ c ∈ st.path, P c) :
    ∀ c ∈ (endSegment rules slash st).path, P c := by
  have hbefore : ∀ c ∈ st.path.take st.segmentStart, P c := fun c hc => h c (List.mem_of_mem_take hc)
  have hsegment : ∀ c ∈ if slash then (st.path.drop st.segmentStart).dropLast else st.path.drop st.segmentStart,
      P c := by
    intro c hc
    refine h c (List.mem_of_mem_drop (i := st.segmentStart) ?_)
    split at hc
    · exact (List.dropLast_sublist _).subset hc
    · exact hc
  unfold endSegment
  generalize (if slash then (st.path.drop st.segmentStart).dropLast else st.path.drop st.segmentStart) = segment
    at hsegment ⊢
  generalize st.path.take st.segmentStart = before at hbefore ⊢
  dsimp only
  split
  · -- two points: what is before them is shortened
    have htrimmed : ∀ c ∈ if before.getLast? = some '/' && lastSlashIsRemovable before then before.dropLast
        else before, P c := by
      split
      · exact fun c hc => hbefore c ((List.dropLast_sublist _).subset hc)
      · exact hbefore
    generalize (if before.getLast? = some '/' && lastSlashIsRemovable before then before.dropLast else before) = trimmed
      at htrimmed ⊢
    have hshort : ∀ c ∈ shorten rules trimmed, P c := fun c hc => htrimmed c (shorten_subset rules trimmed hc)
    cases slash
    · exact hshort
    · exact forall_mem_closeWithSlash hP hshort
  split
  · exact forall_mem_closeWithSlash hP hbefore
  split
  · simp only [List.forall_mem_append]
    refine ⟨⟨⟨hbefore, fun c hc => hsegment c (List.mem_of_mem_take hc)⟩,
      List.forall_mem_singleton.mpr (hP _ (by decide))⟩, ?_⟩
    cases slash
    · exact nofun
    · exact List.forall_mem_singleton.mpr (hP _ (by decide))
  · exact h

theorem forall_mem_closeDrive (h : ∀ c ∈ st.path, P c) : ∀ c ∈ (closeDrive rules st).path, P c := by
  unfold closeDrive
  split
  · exact List.forall_mem_append.mpr ⟨h, List.forall_mem_singleton.mpr (hP _ (by decide))⟩
  · exact h

/-- What is read of a path has the characters of what was begun and of the text. -/
theorem forall_mem_readPath (hpath : ∀ c ∈ st.path, P c) (hpending : ∀ c ∈ pending, P c) (hs : ∀ c ∈ s, P c) :
    (∀ c ∈ (readPath rules st pending s).1.path, P c) ∧ ∀ c ∈ (readPath rules st pending s).2, P c := by
  have hadd {st : PathState} {text : List Char} (h : ∀ c ∈ st.path, P c) (htext : ∀ c ∈ text, P c) :
      ∀ c ∈ (st.add text).path, P c := List.forall_mem_append.mpr ⟨h, htext⟩
  -- the path that was read and what waits of a segment both grow, and either may hold a character of the text
  induction s generalizing st pending with
  | nil => exact ⟨forall_mem_endSegment hP false (hadd hpath hpending), List.forall_mem_nil _⟩
  | cons c r ih =>
    obtain ⟨hc, hr⟩ := List.forall_mem_cons.mp hs
    rw [readPath]
    split
    · exact ih (hadd hpath hpending) (List.forall_mem_nil _) hr
    split
    · exact ⟨forall_mem_endSegment hP false (hadd hpath hpending), hs⟩
    split
    · have hslash : ∀ c ∈ pending ++ ['/'], P c :=
        List.forall_mem_append.mpr ⟨hpending, List.forall_mem_singleton.mpr (hP _ (by decide))⟩
      exact ih (forall_mem_endSegment hP true (hadd hpath hslash)) (List.forall_mem_nil _) hr
    · have hencoded : ∀ d ∈ encodeChar pathSet c, P d := by
        have hone : ∀ d ∈ [c].flatMap (encodeChar pathSet), P d :=
          forall_mem_encodeChar hP (List.forall_mem_singleton.mpr hc)
        rwa [List.flatMap_singleton] at hone
      exact ih (forall_mem_closeDrive hP hpath) (List.forall_mem_append.mpr ⟨hpending, hencoded⟩) hr

theorem forall_mem_continuePath (hpath : ∀ c ∈ path, P c) (hs : ∀ c ∈ s, P c) :
    (∀ c ∈ (continuePath rules path s).1.path, P c) ∧ ∀ c ∈ (continuePath rules path s).2, P c := by
  have hread : (∀ c ∈ (readPath rules ⟨path, path.length, false⟩ [] s).1.path, P c) ∧
      ∀ c ∈ (readPath rules ⟨path, path.length, false⟩ [] s).2, P c := forall_mem_readPath hP hpath nofun hs
  unfold continuePath
  generalize readPath rules ⟨path, path.length, false⟩ [] s = r at hread ⊢
  obtain ⟨hstate, hrest⟩ := hread
  dsimp only
  split
  · refine ⟨List.forall_mem_cons.mpr ⟨hP _ (by decide), fun c hc => ?_⟩, hrest⟩
    exact hstate c ((List.dropWhile_sublist _).subset hc)
  · exact ⟨hstate, hrest⟩

/-! ## Parts of URLs -/

/-- The parts of a URL are made of such characters. -/
structure IsSpelled (P : Char → Prop) (u : Url) : Prop where
  scheme : ∀ c ∈ u.scheme.toList, P c
  authority : ∀ a ∈ u.authority, ∀ c ∈ (authorityText a).toList, P c
  path : ∀ c ∈ u.path.toList, P c
  query : ∀ q ∈ u.query, ∀ c ∈ q.toList, P c
  fragment : ∀ f ∈ u.fragment, ∀ c ∈ f.toList, P c

/-- **The text of a URL** has the characters of its parts. -/
theorem isSpelled_iff {u : Url} : IsSpelled P u ↔ ∀ c ∈ u.text.toList, P c := by
  obtain ⟨scheme, authority, path, query, fragment⟩ := u
  have hcolon : P ':' := hP _ (by decide)
  have hquestion : P '?' := hP _ (by decide)
  have hnumber : P '#' := hP _ (by decide)
  have hmark : ∀ c ∈ (if ['/', '/'].isPrefixOf path.toList then "/." else "").toList, P c := by
    split
    · exact List.forall_mem_cons.mpr ⟨hP _ (by decide), List.forall_mem_singleton.mpr (hP _ (by decide))⟩
    · exact nofun
  have htext : (∀ c ∈ (text ⟨scheme, authority, path, query, fragment⟩).toList, P c) ↔
      (∀ c ∈ scheme.toList, P c) ∧ (∀ a ∈ authority, ∀ c ∈ (authorityText a).toList, P c) ∧ (∀ c ∈ path.toList, P c) ∧
        (∀ q ∈ query, ∀ c ∈ q.toList, P c) ∧ ∀ f ∈ fragment, ∀ c ∈ f.toList, P c := by
    unfold text beforeFragment beforeQuery beforePath
    cases authority with
    | none =>
      dsimp only
      generalize (if ['/', '/'].isPrefixOf path.toList then "/." else "") = mark at hmark ⊢
      cases query <;> cases fragment <;> simp +contextual [or_imp, forall_and, hcolon, hquestion, hnumber, hmark]
    | some a => cases query <;> cases fragment <;> simp [or_imp, forall_and, hcolon, hquestion, hnumber]
  rw [htext]
  constructor
  · rintro ⟨hscheme, hauthority, hpath, hquery, hfragment⟩
    exact ⟨hscheme, hauthority, hpath, hquery, hfragment⟩
  · rintro ⟨hscheme, hauthority, hpath, hquery, hfragment⟩
    exact ⟨hscheme, hauthority, hpath, hquery, hfragment⟩

/-- A path, a query and a fragment take the place of those of a URL. -/
theorem IsSpelled.withQueryAndFragment {u : Url} (h : IsSpelled P u) {path : String} (hpath : ∀ c ∈ path.toList, P c)
    (hs : ∀ c ∈ s, P c) : IsSpelled P (Url.withQueryAndFragment { u with path := path } s) := by
  have hplain : ∀ c ∈ withoutBreaks s, P c := fun c hc => hs c (List.mem_filter.mp hc).1
  have hfragment {r : List Char} (hr : ∀ c ∈ r, P c) : ∀ c ∈ (readFragment r).toList, P c := by
    rw [readFragment, String.toList_ofList]
    exact forall_mem_encodeChar hP hr
  unfold Url.withQueryAndFragment
  generalize withoutBreaks s = t at hplain ⊢
  split
  rename_i query rest hsplit
  have hparts : (∀ q ∈ query, ∀ c ∈ q.toList, P c) ∧ ∀ c ∈ rest, P c := by
    split at hsplit
    · rename_i r
      obtain ⟨-, hr⟩ := List.forall_mem_cons.mp hplain
      obtain ⟨rfl, rfl⟩ := Prod.mk.inj hsplit
      refine ⟨fun q hq => ?_, fun c hc => hr c ((List.dropWhile_sublist _).subset hc)⟩
      rw [← Option.some.inj hq, String.toList_ofList]
      exact forall_mem_encodeChar hP fun c hc => hr c ((List.takeWhile_sublist _).subset hc)
    · obtain ⟨rfl, rfl⟩ := Prod.mk.inj hsplit
      exact ⟨nofun, hplain⟩
  refine ⟨h.scheme, h.authority, hpath, hparts.1, ?_⟩
  dsimp only
  split
  · intro f hf
    rw [← Option.some.inj hf]
    exact hfragment (List.forall_mem_cons.mp hparts.2).2
  · exact nofun

end

/-! ## Relative texts -/

/-- A text that begins with a point is cleaned behind it. -/
theorem cleaned_point (s : List Char) :
    ∃ r, trimmed ('.' :: s) = '.' :: r ∧ withoutBreaks ('.' :: r) = '.' :: withoutBreaks r ∧ r ⊆ s := by
  refine ⟨(s.reverse.dropWhile isTrimmed).reverse, ?_, rfl, fun c hc => ?_⟩
  · rw [trimmed, List.dropWhile_cons_of_neg (by decide), List.reverse_cons, List.dropWhile_append]
    split
    · rename_i hempty
      rw [List.isEmpty_iff.mp hempty]
      rfl
    · rw [List.reverse_concat]
  · exact List.mem_reverse.mp ((List.dropWhile_sublist _).subset (List.mem_reverse.mp hc))

/-- A relative text begins with a point. -/
theorem exists_of_isRelative {s : List Char} (h : Specifier.isRelative s = true) : ∃ r, s = '.' :: r := by
  rcases Bool.or_eq_true_iff.mp h with h | h
  · obtain ⟨r, hr⟩ := List.isPrefixOf_iff_prefix.mp h
    exact ⟨_, hr.symm⟩
  · obtain ⟨r, hr⟩ := List.isPrefixOf_iff_prefix.mp h
    exact ⟨_, hr.symm⟩

variable {u base : Url} {text : String}

/-- **A relative specifier** is read onto the path of its base. -/
theorem join_relative (h : Specifier.isRelative text.toList = true) (hjoin : base.join text = .ok u) :
    ∃ path s : List Char, path ⊆ '/' :: base.path.toList ∧ s ⊆ text.toList ∧
      u = withQueryAndFragment
        { base with path := String.ofList (continuePath (rulesFor base.scheme) path s).1.path }
        (continuePath (rulesFor base.scheme) path s).2 := by
  obtain ⟨t, ht⟩ := exists_of_isRelative h
  obtain ⟨r, htrimmed, hplain, hr⟩ := cleaned_point t
  have hscheme : scheme? ('.' :: withoutBreaks r) = none := rfl
  rw [join, read, ht, htrimmed, hplain, hscheme] at hjoin
  dsimp only at hjoin
  split at hjoin
  · -- nothing is relative to an opaque path
    cases hjoin
  have hsub {r' : List Char} (hr' : r' ⊆ r) : '.' :: r' ⊆ text.toList := by
    rw [ht]
    exact List.cons_subset_cons _ (List.Subset.trans hr' hr)
  split at hjoin
  · rename_i hfile
    have hread : readFile (some base) ('.' :: r) = .ok (readFileRelative (some base) ('.' :: r)) := by
      rw [readFile, hplain]
      rfl
    -- a point begins no drive, so the path of the base is kept
    have hdrive : beginsWithDrive ('.' :: withoutBreaks r) = false := by
      cases withoutBreaks r <;> rfl
    rw [hread, readFileRelative, hplain] at hjoin
    have hjoin := Except.ok.inj hjoin
    split at hjoin
    case h_1 heq => cases heq
    case h_2 heq => exact absurd (List.cons.inj heq).1 (by decide)
    case h_3 heq => exact absurd (List.cons.inj heq).1 (by decide)
    rw [hdrive, if_neg Bool.false_ne_true] at hjoin
    refine ⟨shorten (rulesFor "file") base.path.toList, '.' :: r, ?_, hsub (List.Subset.refl _), ?_⟩
    · exact List.Subset.trans (shorten_subset _ _) (List.subset_cons_self _ _)
    · rw [hfile, ← hjoin, hfile]
  · refine ⟨_, '.' :: withoutBreaks r, ?_, hsub (List.filter_sublist.subset), (Except.ok.inj hjoin).symm⟩
    split
    · exact List.cons_subset.mpr ⟨List.mem_cons_self, List.nil_subset _⟩
    · exact List.Subset.trans (popSegment_subset _ _) (List.subset_cons_self _ _)

/-- Every relative specifier stands for a URL, unless the path of the base is opaque. -/
theorem exists_join_relative (hbase : base.isOpaque = false) (h : Specifier.isRelative text.toList = true) :
    ∃ u, base.join text = .ok u := by
  obtain ⟨t, ht⟩ := exists_of_isRelative h
  obtain ⟨r, htrimmed, hplain, -⟩ := cleaned_point t
  have hscheme : scheme? ('.' :: withoutBreaks r) = none := rfl
  rw [join, read, ht, htrimmed, hplain, hscheme]
  dsimp only
  rw [hbase, if_neg Bool.false_ne_true]
  split
  · rw [readFile, hplain]
    exact ⟨_, rfl⟩
  · exact ⟨_, rfl⟩

theorem scheme_join_relative (h : Specifier.isRelative text.toList = true) (hjoin : base.join text = .ok u) :
    u.scheme = base.scheme := by
  obtain ⟨path, s, -, -, rfl⟩ := join_relative h hjoin
  rfl

/-- **What a relative specifier stands for** is spelled as the specifier and its base are. -/
theorem IsSpelled.join_relative {P : Char → Prop} (hP : ∀ c ∈ writtenChars, P c) (hbase : IsSpelled P base)
    (htext : ∀ c ∈ text.toList, P c) (h : Specifier.isRelative text.toList = true) (hjoin : base.join text = .ok u) :
    IsSpelled P u := by
  obtain ⟨path, s, hpath, hs, rfl⟩ := Url.join_relative h hjoin
  have hbegun : ∀ c ∈ path, P c := fun c hc =>
    List.forall_mem_cons.mpr ⟨hP _ (by decide), hbase.path⟩ c (hpath hc)
  have hread : (∀ c ∈ (continuePath (rulesFor base.scheme) path s).1.path, P c) ∧
      ∀ c ∈ (continuePath (rulesFor base.scheme) path s).2, P c :=
    forall_mem_continuePath hP hbegun fun c hc => htext c (hs hc)
  refine hbase.withQueryAndFragment hP ?_ hread.2
  rw [String.toList_ofList]
  exact hread.1

/-! ## What is written for a text -/

section Written

variable {s : List Char} {c d : Char}

/-- What is written into a path for a text. -/
def pathText (s : List Char) : List Char := (withoutBreaks s).flatMap (encodeChar pathSet)

theorem pathText_append (s t : List Char) : pathText (s ++ t) = pathText s ++ pathText t := by
  rw [pathText, withoutBreaks, List.filter_append, List.flatMap_append]
  rfl

/-- A character that is not encoded in a path, and neither ends a segment nor is a blank. -/
structure IsSettled (c : Char) : Prop where
  stays : encodeChar pathSet c = [c]
  visible : 0x20 < c.toNat
  inner : c ∉ ['/', '\\', '?', '#']

/-- Characters that are not encoded are visible. -/
theorem visible_of_encodeChar (h : encodeChar pathSet c = [c]) : 0x20 < c.toNat := by
  refine Decidable.byContradiction fun hnot => ?_
  have hpercent : encodeChar pathSet c = percentChar c := by
    rw [encodeChar, if_pos]
    rcases Nat.lt_or_eq_of_le (Nat.le_of_not_lt hnot) with hlt | heq
    · simp [isControl, hlt]
    · have hblank : c = ' ' := Char.toNat_inj.mp heq
      rw [hblank]
      decide
  have hwritten : c ∈ writtenChars := mem_writtenChars_of_mem_percentChar (c := c) (by
    rw [← hpercent, h]
    exact List.mem_singleton_self c)
  have hall : (writtenChars.all fun d => decide (0x20 < d.toNat)) = true := by decide
  exact hnot (of_decide_eq_true (List.all_eq_true.mp hall c hwritten))

/-- The characters of an encoded one are settled. -/
theorem isSettled_of_mem_percentChar (h : d ∈ percentChar c) : IsSettled d := by
  have hdigit : ∀ n < 16, encodeChar pathSet (upperHex n) = [upperHex n] ∧ 0x20 < (upperHex n).toNat ∧
      upperHex n ∉ ['/', '\\', '?', '#'] := by decide
  obtain ⟨b, -, hd⟩ := List.mem_flatMap.mp h
  have hb := b.toNat_lt
  simp only [percentByte, List.mem_cons, List.not_mem_nil, or_false] at hd
  rcases hd with rfl | rfl | rfl
  · exact ⟨by decide, by decide, by decide⟩
  · obtain ⟨hstays, hvisible, hinner⟩ := hdigit (b.toNat / 16) (by omega)
    exact ⟨hstays, hvisible, hinner⟩
  · obtain ⟨hstays, hvisible, hinner⟩ := hdigit (b.toNat % 16) (by omega)
    exact ⟨hstays, hvisible, hinner⟩

/-- The sign of encoded bytes begins an encoded character. -/
theorem percent_mem_percentChar (c : Char) : '%' ∈ percentChar c := by
  have hne : (String.singleton c).toByteArray.data.toList ≠ [] := by
    intro hnil
    have hsize : (String.singleton c).toByteArray.size = 0 := by
      rw [ByteArray.size, ← Array.length_toList, hnil, List.length_nil]
    simp at hsize
  obtain ⟨b, bytes, hbytes⟩ := List.exists_cons_of_ne_nil hne
  rw [percentChar, hbytes, List.flatMap_cons]
  exact List.mem_cons_self

/-- **What is written for one segment is settled.** -/
theorem isSettled_of_mem_pathText (hs : ∀ c ∈ s, c ∉ ['/', '\\', '?', '#']) (h : d ∈ pathText s) : IsSettled d := by
  obtain ⟨c, hc, hd⟩ := List.mem_flatMap.mp h
  by_cases hstays : encodeChar pathSet c = [c]
  · rw [hstays, List.mem_singleton] at hd
    subst hd
    exact ⟨hstays, visible_of_encodeChar hstays, hs d (List.mem_filter.mp hc).1⟩
  · have hpercent : encodeChar pathSet c = percentChar c := by
      unfold encodeChar at hstays ⊢
      split at hstays
      · exact if_pos ‹_›
      · exact absurd rfl hstays
    exact isSettled_of_mem_percentChar (hpercent ▸ hd)

/-- A settled text is written as it is. -/
theorem pathText_of_isSettled (h : ∀ c ∈ s, IsSettled c) : pathText s = s := by
  have hplain : withoutBreaks s = s := (cleaned_eq_self fun c hc => (h c hc).visible).2
  rw [pathText, hplain]
  clear hplain
  induction s with
  | nil => rfl
  | cons c s ih =>
    obtain ⟨hc, hs⟩ := List.forall_mem_cons.mp h
    rw [List.flatMap_cons, hc.stays, ih hs]
    rfl

/-! ## One segment -/

/-- A path of more than three characters is not closed as a drive. -/
theorem closeDrive_long {rules : PathRules} {st : PathState} (h : 3 < st.path.length) : closeDrive rules st = st := by
  have hdrive : isNormalDrive (st.path.drop 1) = false := by
    have hlength : 2 < (st.path.drop 1).length := by
      rw [List.length_drop]
      omega
    generalize st.path.drop 1 = path at hlength
    unfold isNormalDrive
    split
    · simp at hlength
    · rfl
  rw [closeDrive, hdrive, Bool.and_false, if_neg Bool.false_ne_true]

/-- **One segment** is read to its end behind a path that is no drive. -/
theorem readPath_segment {rules : PathRules} {st : PathState} {pending : List Char} (hlong : 3 < st.path.length)
    (hs : ∀ c ∈ s, c ∉ ['/', '\\', '?', '#']) :
    readPath rules st pending s = (endSegment rules false (st.add (pending ++ pathText s)), []) := by
  induction s generalizing st pending with
  | nil =>
    rw [readPath, pathText]
    simp [withoutBreaks]
  | cons c s ih =>
    obtain ⟨hc, hs⟩ := List.forall_mem_cons.mp hs
    simp only [List.mem_cons, List.not_mem_nil, or_false, not_or] at hc
    obtain ⟨hslash, hback, hquery, hfragment⟩ := hc
    rw [readPath]
    by_cases hbreak : isBreak c = true
    · -- a break ends nothing, what waited is written
      have hlong' : 3 < (st.add pending).path.length := by
        simp only [PathState.add, List.length_append]
        omega
      have htext : pathText (c :: s) = pathText s := by
        rw [pathText, withoutBreaks, List.filter_cons_of_neg (by simp [hbreak])]
        rfl
      rw [if_pos hbreak, ih hlong' hs, htext]
      simp [PathState.add]
    · have htext : pathText (c :: s) = encodeChar pathSet c ++ pathText s := by
        rw [pathText, withoutBreaks, List.filter_cons_of_pos (by simp [hbreak]), List.flatMap_cons]
        rfl
      rw [if_neg hbreak, if_neg (by simp [hquery, hfragment]), if_neg (by simp [hslash, hback]), closeDrive_long hlong,
        ih hlong hs, htext, List.append_assoc]

/-- A text that ends in none of the characters that spellings of points end in. -/
def EndsPlainly (s : List Char) : Prop := ∃ stem last, s = stem ++ [last] ∧ IsSettled last ∧ last ∉ ['.', 'e', 'E']

/-- What ends plainly is written with its end. -/
theorem EndsPlainly.pathText (h : EndsPlainly s) : EndsPlainly (pathText s) := by
  obtain ⟨stem, last, rfl, hlast, hplain⟩ := h
  have hone : Url.pathText [last] = [last] := pathText_of_isSettled (List.forall_mem_singleton.mpr hlast)
  refine ⟨Url.pathText stem, last, ?_, hlast, hplain⟩
  rw [pathText_append, hone]

/-- A segment that ends plainly is no spelling of points. -/
theorem EndsPlainly.not_dots (h : EndsPlainly s) :
    doubleDots.contains (String.ofList s) = false ∧ singleDots.contains (String.ofList s) = false := by
  obtain ⟨stem, last, rfl, -, hplain⟩ := h
  have hother : ∀ t ∈ doubleDots ++ singleDots, String.ofList (stem ++ [last]) ≠ t := by
    have hends : ((doubleDots ++ singleDots).all fun t => t.toList.getLast?.all ['.', 'e', 'E'].contains) = true := by
      decide
    rintro t ht rfl
    have hlast := List.all_eq_true.mp hends _ ht
    rw [String.toList_ofList, List.getLast?_concat, Option.all_some, List.contains_iff_mem] at hlast
    exact hplain hlast
  rw [← Bool.not_eq_true, ← Bool.not_eq_true, List.contains_iff_mem, List.contains_iff_mem]
  exact ⟨fun hmem => hother _ (List.mem_append_left _ hmem) rfl,
    fun hmem => hother _ (List.mem_append_right _ hmem) rfl⟩

/-- A segment that ends plainly ends as it is, behind a path that it is not the first segment of. -/
theorem EndsPlainly.endSegment {rules : PathRules} {path : List Char} {drive : Bool} (h : EndsPlainly s)
    (hlong : 3 < path.length) :
    endSegment rules false ⟨path ++ s, path.length, drive⟩ = ⟨path ++ s, path.length, drive⟩ := by
  obtain ⟨hdouble, hsingle⟩ := h.not_dots
  have hfirst : ¬path.length = 1 := by omega
  simp only [Url.endSegment, Bool.false_eq_true, if_false, List.drop_left, hdouble, hsingle, hfirst, decide_false,
    Bool.and_false, Bool.false_and]

/-! ## Files in the directory of scripts -/

/-- A text that is the name of a file wherever it stands behind a path. -/
structure IsFileText (s : List Char) : Prop where
  inner : ∀ c ∈ s, c ∉ ['/', '\\', '?', '#']
  ends : EndsPlainly s

theorem IsFileText.pathText (h : IsFileText s) : IsFileText (pathText s) :=
  ⟨fun _ hd => (isSettled_of_mem_pathText h.inner hd).inner, h.ends.pathText⟩

/-- What is written for the name of a file is written for itself. -/
theorem IsFileText.pathText_pathText (h : IsFileText s) : Url.pathText (Url.pathText s) = Url.pathText s :=
  pathText_of_isSettled fun _ hd => isSettled_of_mem_pathText h.inner hd

/-- The directory of scripts, as a path. -/
def srcPath : List Char := "/src/".toList

/-- The path of a file is that of its directory, and what is written for its name. -/
theorem IsFileText.readPath_srcPath (h : IsFileText s) :
    readPath (rulesFor "file") ⟨srcPath, 5, false⟩ [] s = (⟨srcPath ++ Url.pathText s, 5, false⟩, []) := by
  have hlong : 3 < srcPath.length := by decide
  rw [readPath_segment hlong h.inner]
  exact congrArg (·, []) (h.ends.pathText.endSegment hlong)

/-- A relative name is read in the directory. -/
theorem IsFileText.continuePath_relative (h : IsFileText s) :
    continuePath (rulesFor "file") srcPath ('.' :: '/' :: s) = (⟨srcPath ++ Url.pathText s, 5, false⟩, []) := by
  have hpoint : readPath (rulesFor "file") ⟨srcPath, 5, false⟩ [] ('.' :: '/' :: s) =
      readPath (rulesFor "file") ⟨srcPath, 5, false⟩ [] s := rfl
  have hlength : srcPath.length = 5 := rfl
  rw [continuePath, hlength, hpoint, h.readPath_srcPath]
  rfl

/-- The path of a file in the directory is read from the root. -/
theorem IsFileText.continuePath_root (h : IsFileText s) :
    continuePath (rulesFor "file") ['/'] (srcPath ++ s) = (⟨srcPath ++ Url.pathText s, 6, false⟩, []) := by
  have hroot : readPath (rulesFor "file") ⟨['/'], 1, false⟩ [] (srcPath ++ s) =
      readPath (rulesFor "file") ⟨'/' :: srcPath, 6, false⟩ [] s := by
    have hs : encodeChar pathSet 's' = ['s'] := by decide
    have hr : encodeChar pathSet 'r' = ['r'] := by decide
    have hc : encodeChar pathSet 'c' = ['c'] := by decide
    have hfirst : Url.endSegment (rulesFor "file") true ⟨"//".toList, 1, false⟩ = ⟨"//".toList, 1, false⟩ := rfl
    have hsecond : Url.endSegment (rulesFor "file") true ⟨"//src/".toList, 2, false⟩ = ⟨"//src/".toList, 2, false⟩ :=
      rfl
    simp [srcPath, readPath, isBreak, closeDrive, isNormalDrive, PathState.add, hs, hr, hc] at hfirst hsecond ⊢
    simp [hfirst, hsecond]
  have hlong : 3 < ('/' :: srcPath).length := by decide
  have hread : readPath (rulesFor "file") ⟨'/' :: srcPath, 6, false⟩ [] s =
      (⟨'/' :: srcPath ++ Url.pathText s, 6, false⟩, []) := by
    rw [readPath_segment hlong h.inner]
    exact congrArg (·, []) (h.ends.pathText.endSegment hlong)
  have hlength : ['/'].length = 1 := rfl
  rw [continuePath, hlength, hroot, hread]
  rfl

/-- **A relative name stands for the file** in the directory of its base that the name is written for. -/
theorem IsFileText.join_localFile (h : IsFileText s) {other : List Char} (hslash : '/' ∉ other) (hcolon : ':' ∉ other) :
    (localFile "src" other).join (String.ofList ('.' :: '/' :: s)) = .ok (localFile "src" (Url.pathText s)) := by
  have htrim : trimmed ('.' :: '/' :: s) = '.' :: '/' :: s := by
    obtain ⟨stem, last, rfl, hlast, -⟩ := h.ends
    have hvisible : isTrimmed last = false := decide_eq_false (Nat.not_le.mpr hlast.visible)
    have hback : ('.' :: '/' :: (stem ++ [last])).reverse.dropWhile isTrimmed =
        ('.' :: '/' :: (stem ++ [last])).reverse := by
      simp [hvisible]
    rw [trimmed, List.dropWhile_cons_of_neg (by decide), hback, List.reverse_reverse]
  have hplain : withoutBreaks ('.' :: '/' :: s) = '.' :: '/' :: withoutBreaks s := rfl
  have hscheme : scheme? ('.' :: '/' :: withoutBreaks s) = none := rfl
  have hread : (localFile "src" other).join (String.ofList ('.' :: '/' :: s)) =
      .ok (readFileRelative (some (localFile "src" other)) ('.' :: '/' :: s)) := by
    simp only [join, read, String.toList_ofList, htrim, hplain, hscheme]
    simp only [isOpaque, localFile, localDirectory, Option.isNone_some, Bool.false_and, Bool.false_eq_true, if_false,
      if_true, readFile, hplain]
    rfl
  have hshorten : shorten (rulesFor "file") (localFile "src" other).path.toList = srcPath := by
    have hpath : (localFile "src" other).path.toList = srcPath ++ other := by
      simp [localFile, srcPath]
    have hkeep (c : Char) (hc : c ∈ other.reverse) : decide (c ≠ '/') = true :=
      decide_eq_true fun heq => hslash (heq ▸ List.mem_reverse.mp hc)
    have hlast : isNormalDrive other = false := by
      unfold isNormalDrive
      split
      · rename_i a b
        have hb : b ≠ ':' := fun hb => hcolon (hb ▸ by simp)
        simp [hb]
      · rfl
    have hafter : afterLastSlash (srcPath ++ other) = other := by
      rw [afterLastSlash, List.reverse_append, List.takeWhile_append_of_pos hkeep]
      simp [srcPath]
    have hupto : upToLastSlash (srcPath ++ other) = srcPath := by
      rw [upToLastSlash, List.reverse_append, List.dropWhile_append_of_pos hkeep]
      simp [srcPath]
    have hwhole : isNormalDrive (srcPath ++ other) = false := rfl
    rw [hpath, shorten, hwhole, popSegment, hafter, hlast, hupto]
    simp [srcPath]
  have hdrive : beginsWithDrive ('.' :: '/' :: withoutBreaks s) = false := rfl
  rw [hread, readFileRelative, hplain]
  split
  case h_1 heq => cases heq
  case h_2 heq => exact absurd (List.cons.inj heq).1 (by decide)
  case h_3 heq => exact absurd (List.cons.inj heq).1 (by decide)
  rw [hdrive, if_neg Bool.false_ne_true, hshorten, h.continuePath_relative]
  simp [withQueryAndFragment, withoutBreaks, localFile, localDirectory, srcPath, ← String.toList_inj]

/-- **The URL of the file is read back from its text.** -/
theorem IsFileText.parse_localFile (h : IsFileText s) :
    Url.parse (localFile "src" (Url.pathText s)).text = .ok (localFile "src" (Url.pathText s)) := by
  have htext : (localFile "src" (Url.pathText s)).text.toList = "file://".toList ++ (srcPath ++ Url.pathText s) := by
    rw [text_localFile]
    simp [srcPath]
  have hvisible : ∀ c ∈ "file://".toList ++ (srcPath ++ Url.pathText s), 0x20 < c.toNat := by
    have hfront : (("file://".toList ++ srcPath).all fun c => decide (0x20 < c.toNat)) = true := by decide
    rw [← List.append_assoc]
    exact List.forall_mem_append.mpr ⟨fun c hc => of_decide_eq_true (List.all_eq_true.mp hfront c hc), fun c hc => (isSettled_of_mem_pathText h.inner hc).visible⟩
  obtain ⟨htrim, hbreaks⟩ := cleaned_eq_self hvisible
  have hscheme : scheme? ("file://".toList ++ (srcPath ++ Url.pathText s)) =
      some ("file", '/' :: '/' :: (srcPath ++ Url.pathText s)) := by
    simp [scheme?, isSchemeChar]
  have hread : Url.parse (localFile "src" (Url.pathText s)).text =
      readFile none ('/' :: '/' :: (srcPath ++ Url.pathText s)) := by
    simp only [parse, read, htext, htrim, hbreaks, hscheme, if_true, Option.filter_none]
    congr 1
  have hplain : withoutBreaks ('/' :: '/' :: (srcPath ++ Url.pathText s)) =
      '/' :: '/' :: (srcPath ++ Url.pathText s) :=
    (cleaned_eq_self fun c hc => hvisible c (List.mem_append_right ['f', 'i', 'l', 'e', ':'] hc)).2
  have hhost : readFile none ('/' :: '/' :: (srcPath ++ Url.pathText s)) =
      readFileHost (srcPath ++ Url.pathText s) := by
    rw [readFile, hplain]
    rfl
  have hpath := h.pathText.continuePath_root
  rw [h.pathText_pathText] at hpath
  rw [hread, hhost]
  simp [srcPath] at hpath
  simp [readFileHost, endsAuthority, isSlash, withoutBreaks, isDrive, bind, Except.bind, srcPath, hpath, fileUrl,
    withQueryAndFragment, localFile, localDirectory, ← String.toList_inj]

end Written

end Url

end AppBundler
