import AppBundler.Proofs.Source.Trimmed.Pieces
/-!
# Templates and elements and blanks at line ends

Templates, embedded expressions and elements go on over line ends, with the blanks before them and without. They end
at the same place in both readings, with any fuel that suffices for both.
-/

namespace AppBundler

open Text

namespace Lexeme

variable {f g : Nat → List Char → Scan} {k n m : Nat} {p r s : List Char}

/-- With fuel that suffices for the text and for what is left of it, a scanner is tracked. -/
def TracksAt (f : Nat → List Char → Scan) (k n : Nat) : Prop :=
  ∀ ⦃m s⦄, 2 * s.length + k ≤ n → 2 * (trimLines s).length + k ≤ m →
    Tracks (EscapesBlank s) PieceTrimmed (f n s) (f m (trimLines s))

/-- Behind a part of the text there is less to read. -/
theorem TracksAt.after (h : TracksAt f k n)
    (hs : s = p ++ r) (hn : 2 * s.length + k ≤ n) (hm : 2 * (trimLines s).length + k ≤ m) :
    Tracks (EscapesBlank r) PieceTrimmed (f n r) (f m (trimLines r)) := by
  subst hs
  have hle := length_trimLines_le p r
  rw [List.length_append] at hn
  exact h (by omega) (by omega)

/-- Scanners one after the other are tracked behind a character. -/
theorem TracksAt.andThen (hf : TracksAt f k n)
    (hreads : ReadsAs (f n) (f n)) (hg : TracksAt g 1 n) (hk : k ≤ 2) (hn : 2 * r.length + 2 ≤ n)
    (hm : 2 * (trimLines r).length + 2 ≤ m) :
    Tracks (EscapesBlank r) PieceTrimmed ((f n r).andThen (g n)) ((f m (trimLines r)).andThen (g m)) := by
  have hfirst := (hf (m := m) (s := r) (by omega) (by omega)).mono id fun _ _ => And.right
  exact hfirst.andThen (fun p u hp => (hreads hp).2.1) fun p u hp => hg.after hp (by omega) (by omega)

/-! ## Names in tags -/

/-- The type arguments behind the name of an element, if there are some. -/
def anglesIfNext (s : List Char) : Scan := if s.head? = some '<' then angles 0 s else .ok ⟨[], s⟩

theorem eq_append_of_anglesIfNext (h : anglesIfNext s = .ok ⟨p, r⟩) : s = p ++ r := by
  unfold anglesIfNext at h
  split at h
  case isTrue => exact (angles_readsAs 0 h).2.1
  case isFalse =>
    cases h
    rfl

theorem anglesIfNext_tracks (s : List Char) :
    Tracks (EscapesBlank s) LeftTrimmed (anglesIfNext s) (anglesIfNext (trimLines s)) :=
  .ite (head?_trimLines_eq_iff (by decide) s).symm (fun _ => (angles_tracks 0 s).mono id fun _ _ => And.right)
    fun _ => .both rfl

/-- The characters of the name of an element. -/
def isElementName (c : Char) : Bool := isIdentContinue c || c = '.' || c = ':' || c = '-'

/-- The characters of the name of an attribute behind the first one. -/
def isAttributeName (c : Char) : Bool := isIdentContinue c || c = '-' || c = ':'

theorem isElementName_of_isBlank {c : Char} (h : isBlank c = true) : isElementName c = false := by
  simp [isElementName, isIdentContinue_of_isBlank h, ne_of_isBlank h (show isBlank '.' = false by decide),
    ne_of_isBlank h (show isBlank ':' = false by decide), ne_of_isBlank h (show isBlank '-' = false by decide)]

theorem isAttributeName_of_isBlank {c : Char} (h : isBlank c = true) : isAttributeName c = false := by
  simp [isAttributeName, isIdentContinue_of_isBlank h, ne_of_isBlank h (show isBlank ':' = false by decide),
    ne_of_isBlank h (show isBlank '-' = false by decide)]

/-- No value begins with other characters than these. -/
def opensValue (c : Char) : Bool := c = '"' || c = '\'' || c = '{'

theorem opensValue_of_isBlank {c : Char} (h : isBlank c = true) : opensValue c = false := by
  simp [opensValue, ne_of_isBlank h (show isBlank '"' = false by decide),
    ne_of_isBlank h (show isBlank '\'' = false by decide), ne_of_isBlank h (show isBlank '{' = false by decide)]

theorem attributeValue_none {jsx : Bool} (hs : s.head? ≠ some '=') : attributeValue jsx n s = .ok ⟨[], s⟩ := by
  unfold attributeValue
  split
  case h_1 => exact absurd rfl hs
  case h_2 => exact absurd rfl hs
  case h_3 => rfl

theorem attributeValue_invalid {jsx : Bool} (hs : s.head?.any opensValue = false) :
    attributeValue jsx n ('=' :: s) = .error ⟨.invalidAttributeValue, ['=']⟩ := by
  cases s with
  | nil => rfl
  | cons q s =>
    obtain ⟨⟨hdouble, hsingle⟩, hbrace⟩ : (q ≠ '"' ∧ q ≠ '\'') ∧ q ≠ '{' := by simpa [opensValue] using hs
    rw [attributeValue, if_neg (by simp [hdouble, hsingle]), if_neg hbrace]

theorem eq_append_of_attributeValue {jsx : Bool} (h : attributeValue jsx n s = .ok ⟨p, r⟩) : s = p ++ r := by
  unfold attributeValue at h
  split at h
  case h_1 q s =>
    split at h
    case isTrue =>
      obtain ⟨t, ht, rfl⟩ := Scan.precede_eq_ok_iff.mp h
      obtain ⟨-, rfl, -⟩ := attributeRest_readsAs _ ht
      rfl
    split at h
    case isTrue =>
      obtain ⟨t, ht, rfl⟩ := Scan.precede_eq_ok_iff.mp h
      obtain ⟨-, rfl, -⟩ := (levelReadsAs jsx (Nat.le_refl n)).embedded _ _ ht
      rfl
    case isFalse => cases h
  case h_2 => cases h
  case h_3 =>
    cases h
    rfl

/-- An element with a name. -/
theorem elementRest_name {jsx : Bool} (hs : s.head? ≠ some '>') : elementRest jsx (n + 1) s =
    ((anglesIfNext (takeWhile isElementName s).rest).andThen (attributesRest jsx n)).precede
      (takeWhile isElementName s).text := by
  unfold elementRest
  split
  case h_1 r => exact absurd rfl hs
  case h_2 => rfl

/-- A blank of an embedded expression counts for nothing. -/
theorem embeddedRest_blank {jsx : Bool} {inner : Nat} {last c : Char} (hblank : isBlank c = true) (n : Nat)
    (r : List Char) : embeddedRest jsx (n + 1) inner last (c :: r) = (embeddedRest jsx n inner last r).precede [c] := by
  have hne : ∀ d, isBlank d = false → c ≠ d := fun d => ne_of_isBlank hblank
  simp [embeddedRest, hne _ (show isBlank '{' = false by decide), hne _ (show isBlank '}' = false by decide),
    hne _ (show isBlank '"' = false by decide), hne _ (show isBlank '\'' = false by decide),
    hne _ (show isBlank '\x60' = false by decide), hne _ (show isBlank '/' = false by decide),
    hne _ (show isBlank '<' = false by decide), hblank]

/-- The scanners of one level are tracked. -/
structure LevelTracks (jsx : Bool) (n : Nat) : Prop where
  template : TracksAt (templateRest jsx) 1 n
  embedded : ∀ inner last, TracksAt (embeddedRest jsx · inner last) 1 n
  element : TracksAt (elementRest jsx) 2 n
  attributes : TracksAt (attributesRest jsx) 1 n
  children : TracksAt (childrenRest jsx) 1 n

section Step

variable {jsx : Bool} {c : Char}

/-- A character of a template literal that begins nothing. -/
theorem templateRest_cons (hc : c ≠ '\\') (hexpr : c = '$' → r.head? ≠ some '{') :
    templateRest jsx (n + 1) (c :: r) =
      if c = '\x60' then .ok ⟨[c], r⟩ else (templateRest jsx n r).precede [c] := by
  rw [templateRest]
  · exact fun hback => absurd hback hc
  · exact fun _ _ hback => absurd hback hc
  · rintro t hdollar rfl
    exact hexpr hdollar rfl

variable (h : LevelTracks jsx n)
include h

/-- An escaped character of a template literal is tracked: without the blanks that it escapes a backslash escapes the
line feed, and the literal goes on all the same. -/
theorem templateRest_escape_tracks (hn : 2 * ('\\' :: c :: r).length + 1 ≤ n + 1)
    (hm : 2 * (trimLines ('\\' :: c :: r)).length + 1 ≤ m + 1) :
    Tracks (EscapesBlank ('\\' :: c :: r)) PieceTrimmed (templateRest jsx (n + 1) ('\\' :: c :: r))
      (templateRest jsx (m + 1) (trimLines ('\\' :: c :: r))) := by
  rw [trimLines_cons_of_not_blank (by decide), templateRest] at *
  simp only [List.length_cons] at hn hm
  have hrest := h.template (m := m + 1) (s := r) (by omega)
  rcases trimLines_cons_cases c r with hkept | ⟨hdropped, hblank, hnil | ⟨hne, t, ht⟩⟩
  · rw [hkept, templateRest]
    rw [hkept, List.length_cons] at hm
    exact (h.template (by omega) (by omega)).precede ['\\', c] ['\\', c]
  · rw [hdropped] at hm ⊢
    rw [hnil] at hrest ⊢
    obtain ⟨e, he⟩ := (hrest (by simp)).exists_error
    rw [he]
    exact .neither _ _
  · rw [hdropped] at hm ⊢
    -- The first reading takes the line feed by itself, and the second one takes it with the backslash.
    have hbreak := hrest (by omega)
    rw [ht, templateRest_cons (by decide) (absurd · (by decide)), if_neg (by decide)] at hbreak
    rw [ht, templateRest, show ['\\', '\n'] = ['\\'] ++ ['\n'] from rfl, ← Scan.precede_precede]
    exact hbreak.precede ['\\', c] ['\\']

/-- A template literal is tracked. -/
theorem templateRest_tracks : TracksAt (templateRest jsx) 1 (n + 1) := by
  have hreads := levelReadsAs jsx (Nat.le_refl n)
  intro m s hn hm
  obtain ⟨m, rfl⟩ : ∃ k, m = k + 1 := ⟨m - 1, by omega⟩
  cases s with
  | nil => exact .neither _ _
  | cons c r =>
    by_cases hback : c = '\\'
    · subst hback
      cases r with
      | nil => exact .neither _ _
      | cons c r => exact templateRest_escape_tracks h hn hm
    rw [List.length_cons] at hn
    rcases trimLines_cons_cases c r with hkept | ⟨hdropped, hblank, -⟩
    · rw [hkept, List.length_cons] at hm
      rw [hkept]
      by_cases hexpr : c = '$' ∧ r.head? = some '{'
      · obtain ⟨rfl, hopen⟩ := hexpr
        obtain ⟨r, rfl⟩ := List.head?_eq_some_iff.mp hopen
        rw [trimLines_cons_of_not_blank (by decide)] at hm ⊢
        simp only [List.length_cons] at hn hm
        rw [templateRest, templateRest]
        exact ((h.embedded 0 '{').andThen (hreads.embedded 0 '{') h.template (by omega) (by omega) (by omega)).precede
          ['$', '{'] ['$', '{']
      · have hexpr' : c = '$' → (trimLines r).head? ≠ some '{' := fun hdollar hopen =>
          hexpr ⟨hdollar, (head?_trimLines_eq_iff (by decide) r).mp hopen⟩
        rw [templateRest_cons hback fun hdollar hopen => hexpr ⟨hdollar, hopen⟩, templateRest_cons hback hexpr']
        refine .ite Iff.rfl (fun hclose => .both ⟨.singleton ?_, rfl⟩) fun _ => ?_
        · rw [hclose]
          decide
        · exact (h.template (by omega) (by omega)).precede [c] [c]
    · have hdollar : c = '$' → r.head? ≠ some '{' := fun hdollar =>
        absurd hdollar (ne_of_isBlank hblank (by decide))
      rw [hdropped] at hm ⊢
      rw [templateRest_cons hback hdollar, if_neg (ne_of_isBlank hblank (by decide))]
      exact (h.template (by omega) hm).behind [c]

/-- The children of an element are tracked. -/
theorem childrenRest_tracks : TracksAt (childrenRest jsx) 1 (n + 1) := by
  have hreads := levelReadsAs jsx (Nat.le_refl n)
  intro m s hn hm
  obtain ⟨m, rfl⟩ : ∃ k, m = k + 1 := ⟨m - 1, by omega⟩
  cases s with
  | nil => exact .neither _ _
  | cons c r =>
    rw [List.length_cons] at hn
    rcases trimLines_cons_cases c r with hkept | ⟨hdropped, hblank, -⟩
    · rw [hkept, List.length_cons] at hm
      rw [hkept, childrenRest, childrenRest]
      refine .ite Iff.rfl (fun _ => ?_) fun _ => .ite Iff.rfl (fun _ => .ite ?_ (fun _ => ?_) fun _ => ?_) fun _ => ?_
      · exact ((h.embedded 0 '{').andThen (hreads.embedded 0 '{') h.children (by omega) (by omega) (by omega)).precede
          [c] [c]
      · exact (head?_trimLines_eq_iff (by decide) r).symm
      · exact (closingRest_tracks r).precede [c] [c]
      · exact (h.element.andThen hreads.element h.children (by omega) (by omega) (by omega)).precede [c] [c]
      · exact (h.children (by omega) (by omega)).precede [c] [c]
    · rw [hdropped] at hm ⊢
      rw [childrenRest, if_neg (ne_of_isBlank hblank (by decide)), if_neg (ne_of_isBlank hblank (by decide))]
      exact (h.children (by omega) hm).behind [c]

/-- An embedded expression is tracked. -/
theorem embeddedRest_tracks (inner : Nat) (last : Char) : TracksAt (embeddedRest jsx · inner last) 1 (n + 1) := by
  have hreads := levelReadsAs jsx (Nat.le_refl n)
  intro m s hn hm
  obtain ⟨m, rfl⟩ : ∃ k, m = k + 1 := ⟨m - 1, by omega⟩
  dsimp only
  cases s with
  | nil => exact .neither _ _
  | cons c r =>
    rw [List.length_cons] at hn
    have hhead : ∀ d, isBlank d = false → ((c = '/' && r.head? = some d) = true ↔
        (c = '/' && (trimLines r).head? = some d) = true) := fun d hd => by
      simp only [Bool.and_eq_true, decide_eq_true_eq, head?_trimLines_eq_iff hd]
    rcases trimLines_cons_cases c r with hkept | ⟨hdropped, hblank, -⟩
    · rw [hkept, List.length_cons] at hm
      have hrest (inner : Nat) (last : Char) :=
        (h.embedded inner last (m := m) (s := r) (by omega) (by omega)).precede [c] [c]
      rw [hkept]
      unfold embeddedRest
      refine .ite Iff.rfl (fun _ => hrest _ _) fun _ => .ite Iff.rfl (fun hclose => ?close) fun _ =>
        .ite Iff.rfl (fun hquote => ?string) fun _ => .ite Iff.rfl (fun _ => ?template) fun _ =>
        .ite (hhead '/' (by decide)) (fun _ => ?line) fun _ =>
        .ite (hhead '*' (by decide)) (fun hstar => ?block) fun _ => .ite ?follows (fun _ => ?element) fun _ => hrest _ _
      case close =>
        subst hclose
        cases inner with
        | zero => exact .both ⟨.singleton (by decide), rfl⟩
        | succ k => exact hrest _ _
      case string =>
        have hsolid : isBlank c = false ∧ c ≠ '\\' := by
          rcases (by simpa using hquote : c = '"' ∨ c = '\'') with rfl | rfl <;> decide
        have hstring := (stringRest_tracks hsolid.1 r).mono id fun _ _ => RestTrimmed.leftTrimmed
        refine Tracks.precede (hstring.andThen ?_ ?_) [c] [c]
        · exact fun p u hp => (stringRest_readsAs hsolid.2 hp).2.1
        · exact fun p u hp => (h.embedded _ _).after hp (by omega) (by omega)
      case template =>
        exact (h.template.andThen hreads.template (h.embedded _ _) (by omega) (by omega) (by omega)).precede [c] [c]
      case line =>
        have hline : Tracks (EscapesBlank r) LeftTrimmed (.ok (lineRest r) : Scan) (.ok (lineRest (trimLines r))) :=
          .both (dropLine_trimLines r)
        refine Tracks.precede (hline.andThen ?_ ?_) [c] [c]
        · exact fun p u hp => (takeWhile_eq_iff.mp (Except.ok.inj hp)).1
        · exact fun p u hp => (h.embedded _ _).after hp (by omega) (by omega)
      case block =>
        obtain ⟨-, hstar⟩ : c = '/' ∧ r.head? = some '*' := by simpa using hstar
        obtain ⟨r, rfl⟩ := List.head?_eq_some_iff.mp hstar
        rw [trimLines_cons_of_not_blank (by decide), List.drop_one, List.drop_one, List.tail_cons, List.tail_cons]
        have hcomment : Tracks (EscapesBlank ('*' :: r)) LeftTrimmed ((commentRest r).precede ['*'])
            ((commentRest (trimLines r)).precede ['*']) :=
          ((commentRest_tracks r).precede ['*'] ['*']).mono id fun _ _ => And.right
        refine Tracks.precede (hcomment.andThen ?_ ?_) [c] [c]
        · intro p u hp
          obtain ⟨q, hq, rfl⟩ := Scan.precede_eq_ok_iff.mp hp
          exact congrArg ('*' :: ·) (commentRest_readsAs hq).2.1
        · exact fun p u hp => (h.embedded _ _).after hp (by omega) (by omega)
      case follows => rw [elementFollows_trimLines]
      case element =>
        exact (h.element.andThen hreads.element (h.embedded _ _) (by omega) (by omega) (by omega)).precede [c] [c]
    · rw [hdropped] at hm ⊢
      rw [embeddedRest_blank hblank]
      exact (h.embedded inner last (by omega) hm).behind [c]

/-- An element is tracked. -/
theorem elementRest_tracks : TracksAt (elementRest jsx) 2 (n + 1) := by
  have hreads := levelReadsAs jsx (Nat.le_refl n)
  intro m s hn hm
  obtain ⟨m, rfl⟩ : ∃ k, m = k + 1 := ⟨m - 1, by omega⟩
  by_cases hopen : s.head? = some '>'
  · obtain ⟨r, rfl⟩ := List.head?_eq_some_iff.mp hopen
    rw [trimLines_cons_of_not_blank (by decide)] at hm ⊢
    simp only [List.length_cons] at hn hm
    rw [elementRest, elementRest]
    exact (h.children (by omega) (by omega)).precede ['>'] ['>']
  · rw [elementRest_name hopen, elementRest_name (mt (head?_trimLines_eq_iff (by decide) s).mp hopen),
      takeWhile_trimLines fun d => isElementName_of_isBlank]
    generalize hname : takeWhile isElementName s = name
    obtain ⟨name, r⟩ := name
    obtain ⟨rfl, -, -⟩ := takeWhile_eq_iff.mp hname
    refine Tracks.precede ((anglesIfNext_tracks r).andThen ?_ ?_) name name
    · exact fun p u hp => eq_append_of_anglesIfNext hp
    · rintro p u rfl
      rw [← List.append_assoc] at hn hm
      exact h.attributes.after (p := name ++ p) rfl (by omega) (by omega)

/-- The value of an attribute is tracked. -/
theorem attributeValue_tracks (hn : 2 * s.length + 1 ≤ n) (hm : 2 * (trimLines s).length + 1 ≤ m) :
    Tracks (EscapesBlank s) LeftTrimmed (attributeValue jsx n s) (attributeValue jsx m (trimLines s)) := by
  by_cases hassign : s.head? = some '='
  · obtain ⟨s, rfl⟩ := List.head?_eq_some_iff.mp hassign
    rw [trimLines_cons_of_not_blank (by decide)] at hm ⊢
    cases hvalue : s.head?.any opensValue with
    | false =>
      rw [attributeValue_invalid hvalue, attributeValue_invalid]
      · exact .neither _ _
      · rw [any_head?_trimLines fun d => opensValue_of_isBlank, hvalue]
    | true =>
      obtain ⟨q, hq, hopens⟩ := (Option.any_eq_true _ _).mp hvalue
      obtain ⟨s, rfl⟩ := List.head?_eq_some_iff.mp hq
      have hsolid : isBlank q = false := isBlank_eq_false_of (fun d => opensValue_of_isBlank) hopens
      rw [trimLines_cons_of_not_blank hsolid] at hm ⊢
      simp only [List.length_cons] at hn hm
      rw [attributeValue, attributeValue]
      refine .ite Iff.rfl (fun _ => ?_) fun _ => .ite Iff.rfl (fun _ => ?_) fun _ => .neither _ _
      · exact ((attributeRest_tracks hsolid s).precede ['=', q] ['=', q]).mono id fun _ _ => And.right
      · have hembedded := h.embedded 0 '{' (m := m) (s := s) (by omega) (by omega)
        exact (hembedded.precede ['=', q] ['=', q]).mono id fun _ _ => And.right
  · rw [attributeValue_none hassign, attributeValue_none (mt (head?_trimLines_eq_iff (by decide) s).mp hassign)]
    exact .both rfl

/-- The attributes of an element are tracked. -/
theorem attributesRest_tracks : TracksAt (attributesRest jsx) 1 (n + 1) := by
  have hreads := levelReadsAs jsx (Nat.le_refl n)
  intro m s hn hm
  obtain ⟨m, rfl⟩ : ∃ k, m = k + 1 := ⟨m - 1, by omega⟩
  cases s with
  | nil => exact .neither _ _
  | cons c r =>
    rw [List.length_cons] at hn
    rcases trimLines_cons_cases c r with hkept | ⟨hdropped, hblank, -⟩
    · rw [hkept, List.length_cons] at hm
      have hclose : (c = '/' && r.head? = some '>') = true ↔ (c = '/' && (trimLines r).head? = some '>') = true := by
        simp only [Bool.and_eq_true, decide_eq_true_eq, head?_trimLines_eq_iff (show isBlank '>' = false by decide)]
      rw [hkept]
      unfold attributesRest
      refine .ite Iff.rfl (fun _ => ?blank) fun _ => .ite hclose (fun hends => ?ends) fun _ =>
        .ite Iff.rfl (fun _ => ?children) fun _ => .ite Iff.rfl (fun _ => ?embedded) fun _ =>
        .ite Iff.rfl (fun _ => ?named) fun _ => .neither _ _
      case blank => exact (h.attributes (by omega) (by omega)).precede [c] [c]
      case ends =>
        obtain ⟨-, hends⟩ : c = '/' ∧ r.head? = some '>' := by simpa using hends
        obtain ⟨r, rfl⟩ := List.head?_eq_some_iff.mp hends
        rw [trimLines_cons_of_not_blank (by decide)]
        exact .both ⟨⟨['/'], '>', rfl, by decide⟩, rfl⟩
      case children => exact (h.children (by omega) (by omega)).precede [c] [c]
      case embedded =>
        exact ((h.embedded 0 '{').andThen (hreads.embedded 0 '{') h.attributes (by omega) (by omega) (by omega)).precede
          [c] [c]
      case named =>
        change Tracks _ _
          (((attributeValue jsx n (takeWhile isAttributeName r).rest).andThen (attributesRest jsx n)).precede
            (c :: (takeWhile isAttributeName r).text))
          (((attributeValue jsx m (takeWhile isAttributeName (trimLines r)).rest).andThen
              (attributesRest jsx m)).precede (c :: (takeWhile isAttributeName (trimLines r)).text))
        rw [takeWhile_trimLines fun d => isAttributeName_of_isBlank]
        generalize hname : takeWhile isAttributeName r = name
        obtain ⟨name, r⟩ := name
        obtain ⟨rfl, -, -⟩ := takeWhile_eq_iff.mp hname
        have hle := length_trimLines_le name r
        rw [List.length_append] at hn
        refine Tracks.precede (s := r) (p := c :: name) (q := c :: name)
          ((attributeValue_tracks h (by omega) (by omega)).andThen ?_ ?_)
        · exact fun p u hp => eq_append_of_attributeValue hp
        · exact fun p u hp => h.attributes.after hp (by omega) (by omega)
    · rw [hdropped] at hm ⊢
      rw [attributesRest, if_pos hblank]
      exact (h.attributes (by omega) hm).behind [c]

end Step

/-- **Templates and elements are tracked** with any fuel that suffices. -/
theorem levelTracks (jsx : Bool) (n : Nat) : LevelTracks jsx n := by
  induction n with
  | zero =>
    constructor
    · exact fun m s hn _ => absurd hn (by omega)
    · exact fun inner last m s hn _ => absurd hn (by omega)
    · exact fun m s hn _ => absurd hn (by omega)
    · exact fun m s hn _ => absurd hn (by omega)
    · exact fun m s hn _ => absurd hn (by omega)
  | succ n ih =>
    exact ⟨templateRest_tracks ih, embeddedRest_tracks ih, elementRest_tracks ih, attributesRest_tracks ih,
      childrenRest_tracks ih⟩

end Lexeme

end AppBundler
