import AppBundler.Proofs.Source.Words
import AppBundler.Proofs.Text.LineEnds
/-!
# Scanners and blanks at line ends

A scanner goes through a text as it goes through what is left of it without the blanks at its line ends: it stops at
the same place, or fails in both. Only behind a backslash this may be different: a string or a regular expression may
go on in the next line behind a backslash that ends a line, but not behind one that escapes a blank there.
-/

namespace AppBundler

open Lexeme Text

namespace Scan

theorem precede_nil (x : Scan) : x.precede [] = x := by
  cases x <;> rfl

end Scan

/-! ## Two readings -/

/-- Two readings are tracked when both give related results or both fail, or only the first one fails, where `E`
explains it. -/
inductive Tracks {ε α β : Type} (E : Prop) (R : α → β → Prop) : Except ε α → Except ε β → Prop where
  | both {a : α} {b : β} (h : R a b) : Tracks E R (.ok a) (.ok b)
  | neither (e e' : ε) : Tracks E R (.error e) (.error e')
  | escape (h : E) (e : ε) (b : β) : Tracks E R (.error e) (.ok b)

namespace Tracks

variable {ε α β : Type} {E E' : Prop} {R R' : α → β → Prop} {x x' : Except ε α} {y y' : Except ε β}

theorem mono (h : Tracks E R x y) (hE : E → E') (hR : ∀ a b, R a b → R' a b) : Tracks E' R' x y := by
  cases h with
  | both h => exact .both (hR _ _ h)
  | neither e e' => exact .neither e e'
  | escape h e b => exact .escape (hE h) e b

/-- Only a failure is tracked by a failure. -/
theorem exists_error {e : ε} (h : Tracks E R x (.error e)) : ∃ e', x = .error e' := by
  cases h with
  | neither e' => exact ⟨e', rfl⟩

theorem of_error (h : E) (e : ε) (y : Except ε β) : Tracks E R (.error e) y := by
  cases y with
  | error e' => exact .neither e e'
  | ok b => exact .escape h e b

theorem ite {c d : Prop} [Decidable c] [Decidable d] (hcd : c ↔ d) (hpos : c → Tracks E R x y)
    (hneg : ¬ c → Tracks E R x' y') : Tracks E R (if c then x else x') (if d then y else y') := by
  by_cases hc : c
  · rw [if_pos hc, if_pos (hcd.mp hc)]
    exact hpos hc
  · rw [if_neg hc, if_neg (mt hcd.mpr hc)]
    exact hneg hc

end Tracks

/-- The same is read, and what follows is trimmed. -/
def Split.trimRest (s : Split) : Split := ⟨s.text, trimLines s.rest⟩

/-- What follows is trimmed. -/
def LeftTrimmed (s t : Split) : Prop := t.rest = trimLines s.rest

/-- What is read ends in no blank, and what follows is trimmed. -/
def PieceTrimmed (s t : Split) : Prop := EndsSolid s.text ∧ LeftTrimmed s t

/-- The same is read, and what follows is trimmed. -/
def RestTrimmed (s t : Split) : Prop := t = s.trimRest

theorem RestTrimmed.leftTrimmed {s t : Split} (h : RestTrimmed s t) : LeftTrimmed s t := by
  rw [RestTrimmed] at h
  rw [h]
  rfl

namespace Tracks

variable {s : List Char} {x y : Scan} {f g : List Char → Scan}

/-- What is read behind the same text is tracked behind it. -/
theorem precede_same (h : Tracks (EscapesBlank s) RestTrimmed x y) (p : List Char) :
    Tracks (EscapesBlank (p ++ s)) RestTrimmed (x.precede p) (y.precede p) := by
  cases h with
  | both h => exact .both (congrArg (fun u : Split => (⟨p ++ u.text, u.rest⟩ : Split)) h)
  | neither e e' => exact .neither _ _
  | escape h e b => exact .escape (h.append p) _ _

/-- A piece is tracked behind other texts. -/
theorem precede (h : Tracks (EscapesBlank s) PieceTrimmed x y) (p q : List Char) :
    Tracks (EscapesBlank (p ++ s)) PieceTrimmed (x.precede p) (y.precede q) := by
  cases h with
  | both h => exact .both ⟨h.1.append p, h.2⟩
  | neither e e' => exact .neither _ _
  | escape h e b => exact .escape (h.append p) _ _

/-- A piece is tracked behind a text that is left out. -/
theorem behind (h : Tracks (EscapesBlank s) PieceTrimmed x y) (p : List Char) :
    Tracks (EscapesBlank (p ++ s)) PieceTrimmed (x.precede p) y := by
  rw [← Scan.precede_nil y]
  exact h.precede p []

/-- Readings that go on are tracked when they are tracked where they go on. -/
theorem andThen (h : Tracks (EscapesBlank s) LeftTrimmed x y) (hreads : ∀ p r, x = .ok ⟨p, r⟩ → s = p ++ r)
    (hnext : ∀ p r, s = p ++ r → Tracks (EscapesBlank r) PieceTrimmed (f r) (g (trimLines r))) :
    Tracks (EscapesBlank s) PieceTrimmed (x.andThen f) (y.andThen g) := by
  cases h with
  | @both a b h =>
    obtain ⟨p, r⟩ := a
    obtain ⟨q, t⟩ := b
    obtain rfl : t = trimLines r := h
    obtain rfl := hreads p r rfl
    exact (hnext p r rfl).precede p q
  | neither e e' => exact .neither e e'
  | escape h e b => exact .of_error h e _

end Tracks

namespace Lexeme

variable {c quote : Char} {r : List Char}

/-! ## Pieces without blanks -/

/-- A run without blanks. -/
theorem takeWhile_trimLines {q : Char → Bool} (hq : ∀ c, isBlank c = true → q c = false) (s : List Char) :
    takeWhile q (trimLines s) = (takeWhile q s).trimRest := by
  generalize hrun : takeWhile q s = run
  obtain ⟨t, u⟩ := run
  obtain ⟨rfl, hin, hout⟩ := takeWhile_eq_iff.mp hrun
  have hsolid : ∀ d ∈ t, isBlank d = false := fun d hd => isBlank_eq_false_of hq (hin d hd)
  refine takeWhile_eq_iff.mpr ⟨trimLines_append_of_forall hsolid u, hin, fun d hd => ?_⟩
  have hhead := any_head?_trimLines hq u
  rw [Option.mem_def.mp hd] at hhead
  cases hu : u.head? with
  | none => simpa [hu] using hhead
  | some e => simpa [hu, hout e hu] using hhead

theorem isAlphanum_of_isBlank (h : isBlank c = true) : c.isAlphanum = false := by
  have hcontinue := isIdentContinue_of_isBlank h
  simp only [isIdentContinue, isLetterOrNumber, Bool.or_eq_false_iff] at hcontinue
  exact hcontinue.2.1

/-- No number goes on with a blank. -/
theorem continuesNumber_of_isBlank {hex : Bool} {last : Char} (h : isBlank c = true) :
    continuesNumber hex last c = false := by
  have hline : c ≠ '_' := ne_of_isBlank h (by decide)
  have hpoint : c ≠ '.' := ne_of_isBlank h (by decide)
  have hplus : c ≠ '+' := ne_of_isBlank h (by decide)
  have hminus : c ≠ '-' := ne_of_isBlank h (by decide)
  simp [continuesNumber, isAlphanum_of_isBlank h, hline, hpoint, hplus, hminus]

theorem numberRest_trimLines (hex : Bool) (last : Char) (s : List Char) :
    numberRest hex last (trimLines s) = (numberRest hex last s).trimRest := by
  induction s generalizing last with
  | nil => rfl
  | cons c r ih =>
    cases hc : continuesNumber hex last c with
    | true =>
      have hblank : isBlank c = false := isBlank_eq_false_of (fun d => continuesNumber_of_isBlank) hc
      rw [trimLines_cons_of_not_blank hblank, numberRest_cons, numberRest_cons, hc, if_pos rfl, if_pos rfl, ih]
      rfl
    | false =>
      have hhead := any_head?_trimLines (q := continuesNumber hex last) (fun d => continuesNumber_of_isBlank) (c :: r)
      rw [numberRest_cons hex last c r, hc, if_neg Bool.false_ne_true, numberRest_of_not]
      · rfl
      · intro d hd
        simpa [Option.mem_def.mp hd, hc] using hhead

theorem number_trimLines (hc : isBlank c = false) (r : List Char) :
    number (trimLines (c :: r)) = (number (c :: r)).trimRest := by
  have hx : ∀ d : Char, isBlank d = false → (trimLines r).head?.any (· = d) = r.head?.any (· = d) := fun d hd =>
    any_head?_trimLines (fun e he => decide_eq_false (ne_of_isBlank he hd)) r
  rw [trimLines_cons_of_not_blank hc, Lexer.number_cons, Lexer.number_cons, hx 'x' (by decide), hx 'X' (by decide),
    numberRest_trimLines]
  rfl

theorem punctuator_trimLines (hc : isBlank c = false) (r : List Char) :
    punctuator (trimLines (c :: r)) = (punctuator (c :: r)).trimRest := by
  have hall : (punctuators.all fun p => p.all fun d => !isBlank d) = true := by decide +kernel
  have hsolid : ∀ p ∈ punctuators, ∀ d ∈ p, isBlank d = false := fun p hp d hd => by
    simpa using List.all_eq_true.mp (List.all_eq_true.mp hall p hp) d hd
  have hfind : punctuators.find? (fun p => p.isPrefixOf (trimLines (c :: r))) =
      punctuators.find? fun p => p.isPrefixOf (c :: r) :=
    List.find?_congr fun p hp => isPrefixOf_trimLines (hsolid p hp) (c :: r)
  unfold punctuator
  rw [hfind]
  split
  case h_1 p hp =>
    have hfront : p.isPrefixOf (c :: r) = true := by simpa using List.find?_some hp
    obtain ⟨u, hu⟩ := List.isPrefixOf_iff_prefix.mp hfront
    rw [← hu, trimLines_append_of_forall (hsolid p (List.mem_of_find?_eq_some hp))]
    simp [Split.trimRest]
  case h_2 =>
    rw [trimLines_cons_of_not_blank hc]
    simp [Split.trimRest]

/-- Whether an element begins does not depend on blanks. -/
theorem elementFollows_trimLines (s : List Char) : elementFollows (trimLines s) = elementFollows s := by
  have hhead : ∀ t : List Char, elementFollows t = t.head?.any fun c => c = '>' || isIdentStart c := by
    intro t
    cases t <;> rfl
  rw [hhead, hhead, any_head?_trimLines]
  intro c hc
  have hstart : isIdentStart c = false := by
    by_contra hstart
    rw [isBlank_of_isIdentStart (by simpa using hstart)] at hc
    cases hc
  simp [hstart, ne_of_isBlank hc (show isBlank '>' = false by decide)]

/-! ## Flat pieces -/

/-- The rest of a block comment. -/
theorem commentRest_tracks (s : List Char) :
    Tracks (EscapesBlank s) PieceTrimmed (commentRest s) (commentRest (trimLines s)) := by
  fun_induction commentRest s with
  | case1 => exact .neither _ _
  | case2 r =>
    rw [trimLines_cons_of_not_blank (by decide), trimLines_cons_of_not_blank (by decide)]
    exact .both ⟨⟨['*'], '/', rfl, by decide⟩, rfl⟩
  | case3 c r hend ih =>
    rcases trimLines_cons_cases c r with hkept | ⟨hdropped, -⟩
    · rw [hkept, commentRest]
      · exact ih.precede [c] [c]
      · intro t hstar ht
        obtain ⟨u, hu⟩ := List.head?_eq_some_iff.mp
          ((head?_trimLines_eq_iff (by decide) r).mp (by rw [ht, List.head?_cons] : _ = some '/'))
        exact hend u hstar hu
    · rw [hdropped]
      exact ih.behind [c]

/-- The type arguments of an element. -/
theorem angles_tracks (depth : Nat) (s : List Char) :
    Tracks (EscapesBlank s) PieceTrimmed (angles depth s) (angles depth (trimLines s)) := by
  induction s generalizing depth with
  | nil => exact .neither _ _
  | cons c r ih =>
    rcases trimLines_cons_cases c r with hkept | ⟨hdropped, hblank, -⟩
    · rw [hkept, angles, angles]
      refine .ite Iff.rfl (fun _ => (ih _).precede [c] [c]) fun _ => .ite Iff.rfl (fun hclose => ?_) fun _ =>
        (ih _).precede [c] [c]
      refine .ite Iff.rfl (fun _ => .both ⟨.singleton ?_, rfl⟩) fun _ => (ih _).precede [c] [c]
      rw [hclose]
      decide
    · rw [hdropped, angles, if_neg (ne_of_isBlank hblank (by decide)), if_neg (ne_of_isBlank hblank (by decide))]
      exact (ih _).behind [c]

/-- The rest of an attribute in quotes. -/
theorem attributeRest_tracks (hquote : isBlank quote = false) (s : List Char) :
    Tracks (EscapesBlank s) PieceTrimmed (attributeRest quote s) (attributeRest quote (trimLines s)) := by
  induction s with
  | nil => exact .neither _ _
  | cons c r ih =>
    rcases trimLines_cons_cases c r with hkept | ⟨hdropped, hblank, -⟩
    · rw [hkept, attributeRest, attributeRest]
      refine .ite Iff.rfl (fun hclose => .both ⟨.singleton ?_, rfl⟩) fun _ => ih.precede [c] [c]
      rwa [hclose]
    · rw [hdropped, attributeRest, if_neg (ne_of_isBlank hblank hquote)]
      exact ih.behind [c]

/-- The rest of a closing tag. -/
theorem closingRest_tracks (s : List Char) :
    Tracks (EscapesBlank s) PieceTrimmed (closingRest s) (closingRest (trimLines s)) := by
  induction s with
  | nil => exact .neither _ _
  | cons c r ih =>
    rcases trimLines_cons_cases c r with hkept | ⟨hdropped, hblank, -⟩
    · rw [hkept, closingRest, closingRest]
      refine .ite Iff.rfl (fun hclose => .both ⟨.singleton ?_, rfl⟩) fun _ => ih.precede [c] [c]
      rw [hclose]
      decide
    · rw [hdropped, closingRest, if_neg (ne_of_isBlank hblank (by decide))]
      exact ih.behind [c]

/-! ## Strings and regular expressions -/

/-- A backslash is the last character or escapes one. -/
theorem ne_backslash (hlast : c = '\\' → r = [] → False) (hescape : ∀ d t, c = '\\' → r = d :: t → False) :
    c ≠ '\\' := by
  intro hback
  cases r with
  | nil => exact hlast hback rfl
  | cons d t => exact hescape d t hback rfl

/-- A character that escapes nothing, in a string. -/
theorem stringRest_cons (hc : c ≠ '\\') (r : List Char) : stringRest quote (c :: r) =
    if c = '\n' then .error ⟨.unterminatedString, [c]⟩
    else if c = quote then .ok ⟨[c], r⟩
    else (stringRest quote r).precede [c] := by
  rw [stringRest]
  · exact fun hback => absurd hback hc
  · exact fun _ _ hback => absurd hback hc

/-- A character that escapes nothing, in a regular expression. -/
theorem regexRest_cons (hc : c ≠ '\\') (inClass : Bool) (r : List Char) : regexRest inClass (c :: r) =
    if c = '\n' then .error ⟨.unterminatedRegex, [c]⟩
    else if c = '[' then (regexRest true r).precede [c]
    else if c = ']' then (regexRest false r).precede [c]
    else if c = '/' && !inClass then Scan.precede [c] (.ok (takeWhile isIdentContinue r))
    else (regexRest inClass r).precede [c] := by
  rw [regexRest]
  · exact fun hback => absurd hback hc
  · exact fun _ _ hback => absurd hback hc

/-- A scanner of what stands in one line, but for escaped line feeds. -/
structure StaysInLine (f : List Char → Scan) : Prop where
  nil : ∃ e, f [] = .error e
  lineFeed : ∀ r, ∃ e, f ('\n' :: r) = .error e
  backslash : ∃ e, f ['\\'] = .error e
  escape : ∀ c r, f ('\\' :: c :: r) = (f r).precede ['\\', c]
  blank : ∀ {c} r, isBlank c = true → c ≠ '\n' → f (c :: r) = (f r).precede [c]

namespace StaysInLine

variable {E : Prop} {f : List Char → Scan} (hf : StaysInLine f)
include hf

/-- Before the blanks at the end of a line it fails. -/
theorem exists_error (h : Tracks E RestTrimmed (f r) (f (trimLines r)))
    (hends : trimLines r = [] ∨ ∃ t, trimLines r = '\n' :: t) : ∃ e, f r = .error e := by
  rcases hends with hnil | ⟨t, ht⟩
  · obtain ⟨e, he⟩ := hf.nil
    rw [hnil, he] at h
    exact h.exists_error
  · obtain ⟨e, he⟩ := hf.lineFeed t
    rw [ht, he] at h
    exact h.exists_error

/-- A line feed is tracked. -/
theorem lineFeed_tracks (r : List Char) : Tracks E RestTrimmed (f ('\n' :: r)) (f (trimLines ('\n' :: r))) := by
  obtain ⟨e, he⟩ := hf.lineFeed r
  rw [he]
  rcases trimLines_cons_cases '\n' r with hkept | ⟨hdropped, -, hnil | ⟨hne, -⟩⟩
  · obtain ⟨e', he'⟩ := hf.lineFeed (trimLines r)
    rw [hkept, he']
    exact .neither _ _
  · obtain ⟨e', he'⟩ := hf.nil
    rw [hdropped, hnil, he']
    exact .neither _ _
  · exact absurd rfl hne

/-- A blank that is left out is tracked. -/
theorem blank_tracks (ih : Tracks (EscapesBlank r) RestTrimmed (f r) (f (trimLines r))) (hne : c ≠ '\n')
    (hblank : isBlank c = true) (hends : trimLines r = [] ∨ ∃ t, trimLines r = '\n' :: t) :
    Tracks E RestTrimmed (f (c :: r)) (f (trimLines r)) := by
  obtain ⟨e, he⟩ := hf.exists_error ih hends
  rw [hf.blank r hblank hne, he]
  rcases hends with hnil | ⟨t, ht⟩
  · obtain ⟨e', he'⟩ := hf.nil
    rw [hnil, he']
    exact .neither _ _
  · obtain ⟨e', he'⟩ := hf.lineFeed t
    rw [ht, he']
    exact .neither _ _

/-- An escaped character is tracked, and escapes a blank if it is left out before a line feed. -/
theorem escape_tracks (ih : Tracks (EscapesBlank r) RestTrimmed (f r) (f (trimLines r))) :
    Tracks (EscapesBlank ('\\' :: c :: r)) RestTrimmed (f ('\\' :: c :: r)) (f (trimLines ('\\' :: c :: r))) := by
  rw [trimLines_cons_of_not_blank (by decide), hf.escape]
  rcases trimLines_cons_cases c r with hkept | ⟨hdropped, hblank, hends⟩
  · rw [hkept, hf.escape]
    exact ih.precede_same ['\\', c]
  · obtain ⟨e, he⟩ := hf.exists_error ih (hends.imp_right And.right)
    rw [hdropped, he]
    rcases hends with hnil | ⟨hne, t, ht⟩
    · obtain ⟨e', he'⟩ := hf.backslash
      rw [hnil, he']
      exact .neither _ _
    · -- Without the blank the line feed is escaped, and the second reading may go on.
      exact .of_error (escapesBlank_of_trimLines hblank hne ht) _ _

end StaysInLine

theorem stringRest_staysInLine (hquote : isBlank quote = false) : StaysInLine (stringRest quote) where
  nil := ⟨_, rfl⟩
  lineFeed r := ⟨_, by rw [stringRest_cons (by decide), if_pos rfl]⟩
  backslash := ⟨_, rfl⟩
  escape c r := rfl
  blank r hblank hne := by
    rw [stringRest_cons (ne_of_isBlank hblank (by decide)), if_neg hne, if_neg (ne_of_isBlank hblank hquote)]

theorem regexRest_staysInLine (inClass : Bool) : StaysInLine (regexRest inClass) where
  nil := ⟨_, rfl⟩
  lineFeed r := ⟨_, by rw [regexRest_cons (by decide), if_pos rfl]⟩
  backslash := ⟨_, rfl⟩
  escape c r := rfl
  blank r hblank hne := by
    have hslash := ne_of_isBlank hblank (show isBlank '/' = false by decide)
    rw [regexRest_cons (ne_of_isBlank hblank (by decide)), if_neg hne, if_neg (ne_of_isBlank hblank (by decide)),
      if_neg (ne_of_isBlank hblank (by decide)), if_neg (by simp [hslash])]

/-- The rest of a string literal. -/
theorem stringRest_tracks (hquote : isBlank quote = false) (s : List Char) :
    Tracks (EscapesBlank s) RestTrimmed (stringRest quote s) (stringRest quote (trimLines s)) := by
  have hf := stringRest_staysInLine hquote
  fun_induction stringRest quote s with
  | case1 => exact .neither _ _
  | case2 => exact .neither _ _
  | case3 c r ih => exact hf.escape_tracks ih
  | case4 r => simpa [stringRest_cons] using hf.lineFeed_tracks r
  | case5 r hlast hescape hbreak =>
    have hplain := ne_backslash hlast hescape
    rw [trimLines_cons_of_not_blank hquote, stringRest_cons hplain, if_neg hbreak, if_pos rfl]
    exact .both rfl
  | case6 c r hlast hescape hbreak hother ih =>
    have hplain := ne_backslash hlast hescape
    rcases trimLines_cons_cases c r with hkept | ⟨hdropped, hblank, hends⟩
    · rw [hkept, stringRest_cons hplain, if_neg hbreak, if_neg hother]
      exact ih.precede_same [c]
    · rw [hdropped, ← hf.blank r hblank hbreak]
      exact hf.blank_tracks ih hbreak hblank (hends.imp_right And.right)

/-- The rest of a regular expression, with its flags. -/
theorem regexRest_tracks (inClass : Bool) (s : List Char) :
    Tracks (EscapesBlank s) RestTrimmed (regexRest inClass s) (regexRest inClass (trimLines s)) := by
  fun_induction regexRest inClass s with
  | case1 => exact .neither _ _
  | case2 => exact .neither _ _
  | case3 inClass c r ih => exact (regexRest_staysInLine inClass).escape_tracks ih
  | case4 inClass r => simpa [regexRest_cons] using (regexRest_staysInLine inClass).lineFeed_tracks r
  | case5 inClass r _ _ hbreak ih =>
    rw [trimLines_cons_of_not_blank (by decide), regexRest_cons (by decide), if_neg hbreak, if_pos rfl]
    exact ih.precede_same ['[']
  | case6 inClass r _ _ hbreak hopen ih =>
    rw [trimLines_cons_of_not_blank (by decide), regexRest_cons (by decide), if_neg hbreak, if_neg hopen, if_pos rfl]
    exact ih.precede_same [']']
  | case7 inClass c r hlast hescape hbreak hopen hclose hend =>
    obtain ⟨rfl, hclass⟩ : c = '/' ∧ inClass = false := by simpa using hend
    rw [trimLines_cons_of_not_blank (by decide), regexRest_cons (by decide), if_neg hbreak, if_neg hopen,
      if_neg hclose, if_pos hend, takeWhile_trimLines fun d => isIdentContinue_of_isBlank]
    exact .both rfl
  | case8 inClass c r hlast hescape hbreak hopen hclose hend ih =>
    have hplain := ne_backslash hlast hescape
    rcases trimLines_cons_cases c r with hkept | ⟨hdropped, hblank, hends⟩
    · rw [hkept, regexRest_cons hplain, if_neg hbreak, if_neg hopen, if_neg hclose, if_neg hend]
      exact ih.precede_same [c]
    · have hf := regexRest_staysInLine inClass
      rw [hdropped, ← hf.blank r hblank hbreak]
      exact hf.blank_tracks ih hbreak hblank (hends.imp_right And.right)

end Lexeme

end AppBundler
