import AppBundler.Proofs.Source.Likeness
import AppBundler.Proofs.Source.Words
import AppBundler.Proofs.Source.Trimmed.Nested
import AppBundler.Proofs.Text.Returns
/-!
# Scanners and carriage returns

A scanner goes through a text as it goes through the text with carriage returns before line feeds: what it reads and
what it leaves are the same but for those, and so is what it has read when it fails. Only behind a backslash this may be
different: a string may go on in the next line behind a backslash that ends a line, but not behind one that escapes a
carriage return there. Templates, embedded expressions and elements go on over line ends of both kinds, and end at the same
place in both texts with any fuel that suffices for both.
-/

namespace AppBundler

open Lexeme Text

/-- No backslash stands right before a line feed. -/
def Text.EscapesNoFeed (s : List Char) : Prop := ¬ ['\\', '\n'] <:+: s

theorem Text.EscapesNoFeed.of_append {p r : List Char} (h : EscapesNoFeed (p ++ r)) : EscapesNoFeed r :=
  fun hpart => h (hpart.trans (List.suffix_append p r).isInfix)

theorem Text.EscapesNoFeed.tail {c : Char} {r : List Char} (h : EscapesNoFeed (c :: r)) : EscapesNoFeed r :=
  of_append (p := [c]) h

/-- Both readings give related results, or both fail with one problem behind the same text but for carriage returns. -/
inductive ReadsAlike {α : Type} (R : α → α → Prop) : Except LexicalFault α → Except LexicalFault α → Prop where
  | ok {a b : α} (h : R a b) : ReadsAlike R (.ok a) (.ok b)
  | error (problem : SyntaxProblem) {p q : List Char} (h : AddsReturns p q) :
      ReadsAlike R (.error ⟨problem, p⟩) (.error ⟨problem, q⟩)

/-- The same is read, and the same follows, but for carriage returns. -/
structure Split.AddsReturns (s t : Split) : Prop where
  text : Text.AddsReturns s.text t.text
  rest : Text.AddsReturns s.rest t.rest

/-- The same is read, and the same follows but for carriage returns. -/
def Split.SameText (s t : Split) : Prop := s.text = t.text ∧ Text.AddsReturns s.rest t.rest

theorem Split.SameText.addsReturns {s t : Split} (h : s.SameText t) : s.AddsReturns t := by
  obtain ⟨htext, hrest⟩ := h
  exact ⟨htext ▸ .refl s.text, hrest⟩

namespace ReadsAlike

variable {α β : Type} {R R' : α → α → Prop} {S : β → β → Prop} {x y : Except LexicalFault α}

theorem mono (h : ReadsAlike R x y) (hR : ∀ a b, R a b → R' a b) : ReadsAlike R' x y := by
  cases h with
  | ok h => exact .ok (hR _ _ h)
  | error problem h => exact .error problem h

theorem map (h : ReadsAlike R x y) {f g : α → β} (hfg : ∀ a b, R a b → S (f a) (g b)) :
    ReadsAlike S (x.map f) (y.map g) := by
  cases h with
  | ok h => exact .ok (hfg _ _ h)
  | error problem h => exact .error problem h

variable {p q : List Char} {u v : Scan} {f g : List Char → Scan}

theorem precede (h : ReadsAlike Split.AddsReturns u v) (hpq : AddsReturns p q) :
    ReadsAlike Split.AddsReturns (u.precede p) (v.precede q) := by
  cases h with
  | ok h => exact .ok ⟨hpq.append h.text, h.rest⟩
  | error problem h => exact .error problem (hpq.append h)

/-- What stands before both is a part of both. -/
theorem behind (h : ReadsAlike Split.AddsReturns u v) (p : List Char) :
    ReadsAlike Split.AddsReturns (u.precede p) (v.precede p) := h.precede (.refl p)

/-- The same text is read behind the same text. -/
theorem behind_same (h : ReadsAlike Split.SameText u v) (p : List Char) :
    ReadsAlike Split.SameText (u.precede p) (v.precede p) := by
  cases h with
  | ok h => exact .ok ⟨congrArg (p ++ ·) h.1, h.2⟩
  | error problem h => exact .error problem ((AddsReturns.refl p).append h)

/-- One line feed is read in the one, and a carriage return before it in the other. -/
theorem feed (h : ReadsAlike Split.AddsReturns u v) :
    ReadsAlike Split.AddsReturns (u.precede ['\n']) ((v.precede ['\n']).precede ['\r']) := by
  rw [Scan.precede_precede]
  exact h.precede (.feed .nil)

theorem andThen (h : ReadsAlike Split.AddsReturns u v)
    (hnext : ∀ ⦃p r q r'⦄, u = .ok ⟨p, r⟩ → v = .ok ⟨q, r'⟩ → AddsReturns r r' →
      ReadsAlike Split.AddsReturns (f r) (g r')) : ReadsAlike Split.AddsReturns (u.andThen f) (v.andThen g) := by
  cases h with
  | ok h => exact (hnext rfl rfl h.rest).precede h.text
  | error problem h => exact .error problem h

end ReadsAlike

namespace Lexeme

variable {c quote : Char} {s t r : List Char}

/-! ## Pieces of a line -/

/-- A run of characters that are none of line ends. -/
theorem takeWhile_alike {q : Char → Bool} (hfeed : q '\n' = false) (hreturn : q '\r' = false) (h : AddsReturns s t) :
    (takeWhile q s).SameText (takeWhile q t) := by
  induction h with
  | nil => exact ⟨rfl, .nil⟩
  | @cons c s t h ih =>
    cases hc : q c with
    | true =>
      refine ⟨?_, ?_⟩
      · simpa [takeWhile, hc] using ih.1
      · simpa [takeWhile, hc] using ih.2
    | false => simpa [takeWhile, hc, Split.SameText] using AddsReturns.cons c h
  | feed h => simpa [takeWhile, hfeed, hreturn, Split.SameText] using AddsReturns.feed h

theorem continuesNumber_feed (hex : Bool) (last : Char) : continuesNumber hex last '\n' = false :=
  continuesNumber_of_isBlank (by decide)

theorem continuesNumber_return (hex : Bool) (last : Char) : continuesNumber hex last '\r' = false :=
  continuesNumber_of_isBlank (by decide)

theorem numberRest_alike (hex : Bool) (last : Char) (h : AddsReturns s t) :
    (numberRest hex last s).SameText (numberRest hex last t) := by
  induction h generalizing last with
  | nil => exact ⟨rfl, .nil⟩
  | @cons c s t h ih =>
    rw [numberRest_cons, numberRest_cons]
    split
    case isTrue => exact ⟨congrArg (c :: ·) (ih c).1, (ih c).2⟩
    case isFalse => exact ⟨rfl, .cons c h⟩
  | feed h =>
    rw [numberRest_cons, numberRest_cons, continuesNumber_feed, continuesNumber_return]
    exact ⟨rfl, .feed h⟩

theorem number_alike (h : AddsReturns s t) : (number (c :: s)).SameText (number (c :: t)) := by
  have hx : ∀ d : Char, d ≠ '\n' → d ≠ '\r' → t.head?.any (· = d) = s.head?.any (· = d) := fun d hfeed hreturn =>
    h.any_head? (by simpa using Ne.symm hfeed) (by simpa using Ne.symm hreturn)
  rw [Lexer.number_cons, Lexer.number_cons, hx 'x' (by decide) (by decide), hx 'X' (by decide) (by decide)]
  have hrest := numberRest_alike (c = '0' && (s.head?.any (· = 'x') || s.head?.any (· = 'X'))) c h
  exact ⟨congrArg (c :: ·) hrest.1, hrest.2⟩

theorem punctuator_alike (h : AddsReturns s t) : (punctuator (c :: s)).SameText (punctuator (c :: t)) := by
  have hall : (punctuators.all fun p => !p.contains '\n' && !p.contains '\r') = true := by decide +kernel
  have hplain : ∀ p ∈ punctuators, '\n' ∉ p ∧ '\r' ∉ p := fun p hp => by
    simpa using List.all_eq_true.mp hall p hp
  have hcons := AddsReturns.cons c h
  have hfind : punctuators.find? (fun p => p.isPrefixOf (c :: t)) = punctuators.find? fun p => p.isPrefixOf (c :: s) :=
    List.find?_congr fun p hp => hcons.isPrefixOf (hplain p hp).1 (hplain p hp).2
  unfold punctuator
  rw [hfind]
  split
  case h_1 p hp =>
    have hfront : p.isPrefixOf (c :: s) = true := by simpa using List.find?_some hp
    obtain ⟨u, hu⟩ := List.isPrefixOf_iff_prefix.mp hfront
    rw [← hu] at hcons ⊢
    obtain ⟨v, hv, hrest⟩ := hcons.exists_append (hplain p (List.mem_of_find?_eq_some hp)).1
    rw [hv]
    exact ⟨rfl, by simpa using hrest⟩
  case h_2 => exact ⟨rfl, h⟩

/-- Whether an element begins is told from one character. -/
theorem elementFollows_alike (h : AddsReturns s t) : elementFollows t = elementFollows s := by
  have hhead : ∀ u : List Char, elementFollows u = u.head?.any fun c => c = '>' || isIdentStart c := by
    intro u
    cases u <;> rfl
  have hstart : ∀ c, isBlank c = true → isIdentStart c = false := by
    intro c hc
    by_contra hstart
    rw [isBlank_of_isIdentStart (by simpa using hstart)] at hc
    cases hc
  rw [hhead, hhead, h.any_head?]
  · simp [hstart '\n' (by decide)]
  · simp [hstart '\r' (by decide)]

/-! ## Pieces that go over lines -/

theorem commentRest_cons (hend : c = '*' → r.head? ≠ some '/') :
    commentRest (c :: r) = (commentRest r).precede [c] := by
  rw [commentRest]
  rintro t hstar rfl
  exact hend hstar rfl

theorem commentRest_alike (h : AddsReturns s t) : ReadsAlike Split.AddsReturns (commentRest s) (commentRest t) := by
  induction h with
  | nil => exact .error _ .nil
  | @cons c s t h ih =>
    by_cases hend : c = '*' ∧ s.head? = some '/'
    · obtain ⟨rfl, hslash⟩ := hend
      obtain ⟨s, rfl⟩ := List.head?_eq_some_iff.mp hslash
      obtain ⟨t, rfl, hrest⟩ := h.exists_cons (by decide)
      exact .ok ⟨.refl _, hrest⟩
    · rw [commentRest_cons fun hstar hslash => hend ⟨hstar, hslash⟩, commentRest_cons]
      · exact ih.behind [c]
      · exact fun hstar hslash => hend ⟨hstar, (h.head?_eq_iff (by decide) (by decide)).mp hslash⟩
  | @feed s t h ih =>
    have hplain : ∀ {c : Char} {r : List Char}, c ≠ '*' → commentRest (c :: r) = (commentRest r).precede [c] :=
      fun hc => commentRest_cons fun hstar => absurd hstar hc
    rw [hplain (by decide), hplain (by decide), hplain (by decide)]
    exact ih.feed

theorem angles_alike (depth : Nat) (h : AddsReturns s t) :
    ReadsAlike Split.AddsReturns (angles depth s) (angles depth t) := by
  induction h generalizing depth with
  | nil => exact .error _ .nil
  | @cons c s t h ih =>
    rw [angles, angles]
    refine rel_ite (fun _ => (ih _).behind [c]) fun _ => rel_ite (fun _ => ?_) fun _ => (ih _).behind [c]
    exact rel_ite (fun _ => .ok ⟨.refl _, h⟩) fun _ => (ih _).behind [c]
  | feed h ih => exact (ih depth).feed

theorem attributeRest_alike (hfeed : quote ≠ '\n') (hreturn : quote ≠ '\r') (h : AddsReturns s t) :
    ReadsAlike Split.AddsReturns (attributeRest quote s) (attributeRest quote t) := by
  induction h with
  | nil => exact .error _ .nil
  | @cons c s t h ih =>
    rw [attributeRest, attributeRest]
    exact rel_ite (fun _ => .ok ⟨.refl _, h⟩) fun _ => ih.behind [c]
  | feed h ih =>
    rw [attributeRest, if_neg (Ne.symm hfeed), attributeRest, if_neg (Ne.symm hreturn), attributeRest,
      if_neg (Ne.symm hfeed)]
    exact ih.feed

theorem closingRest_alike (h : AddsReturns s t) : ReadsAlike Split.AddsReturns (closingRest s) (closingRest t) := by
  induction h with
  | nil => exact .error _ .nil
  | @cons c s t h ih =>
    rw [closingRest, closingRest]
    exact rel_ite (fun _ => .ok ⟨.refl _, h⟩) fun _ => ih.behind [c]
  | feed h ih => exact ih.feed

/-! ## Strings and regular expressions -/

/-- A backslash takes the same character in both, unless this is a line feed. -/
theorem exists_escaped {d : Char} (h : AddsReturns ('\\' :: d :: s) t) (hs : EscapesNoFeed ('\\' :: d :: s)) :
    ∃ r, t = '\\' :: d :: r ∧ AddsReturns s r := by
  have hd : d ≠ '\n' := by
    rintro rfl
    exact hs (List.prefix_append ['\\', '\n'] s).isInfix
  obtain ⟨t, rfl, h'⟩ := h.exists_cons (by decide)
  obtain ⟨r, rfl, hrest⟩ := h'.exists_cons hd
  exact ⟨r, rfl, hrest⟩

/-- The rest of a string literal, which stays in its line. -/
theorem stringRest_alike (hreturn : quote ≠ '\r') (h : AddsReturns s t) (hs : EscapesNoFeed s) :
    ReadsAlike Split.SameText (stringRest quote s) (stringRest quote t) := by
  fun_induction stringRest quote s generalizing t with
  | case1 =>
    cases h with
    | nil => exact .error _ .nil
  | case2 =>
    obtain rfl := h.eq_of_not_mem (by decide)
    exact .error _ (.refl _)
  | case3 d r ih =>
    obtain ⟨t, rfl, hrest⟩ := exists_escaped h hs
    exact (ih hrest hs.tail.tail).behind_same ['\\', d]
  | case4 r =>
    cases h with
    | cons _ h => exact .error _ (.refl _)
    | feed h =>
      rw [stringRest_cons (by decide), if_neg (by decide), if_neg (Ne.symm hreturn), stringRest_cons (by decide),
        if_pos rfl]
      exact .error _ (.feed .nil)
  | case5 r hlast hescape hbreak =>
    obtain ⟨t, rfl, hrest⟩ := h.exists_cons hbreak
    rw [stringRest_cons (ne_backslash hlast hescape), if_neg hbreak, if_pos rfl]
    exact .ok ⟨rfl, hrest⟩
  | case6 c r hlast hescape hbreak hother ih =>
    obtain ⟨t, rfl, hrest⟩ := h.exists_cons hbreak
    rw [stringRest_cons (ne_backslash hlast hescape), if_neg hbreak, if_neg hother]
    exact (ih hrest hs.tail).behind_same [c]

/-- The rest of a regular expression, which stays in its line. -/
theorem regexRest_alike (inClass : Bool) (h : AddsReturns s t) (hs : EscapesNoFeed s) :
    ReadsAlike Split.SameText (regexRest inClass s) (regexRest inClass t) := by
  fun_induction regexRest inClass s generalizing t with
  | case1 =>
    cases h with
    | nil => exact .error _ .nil
  | case2 =>
    obtain rfl := h.eq_of_not_mem (by decide)
    exact .error _ (.refl _)
  | case3 inClass d r ih =>
    obtain ⟨t, rfl, hrest⟩ := exists_escaped h hs
    exact (ih hrest hs.tail.tail).behind_same ['\\', d]
  | case4 inClass r =>
    cases h with
    | cons _ h => exact .error _ (.refl _)
    | feed h =>
      have hreturn : ∀ u, regexRest inClass ('\r' :: u) = (regexRest inClass u).precede ['\r'] := fun u => by
        rw [regexRest_cons (by decide), if_neg (by decide), if_neg (by decide), if_neg (by decide), if_neg (by simp)]
      rw [hreturn, regexRest_cons (by decide), if_pos rfl]
      exact .error _ (.feed .nil)
  | case5 inClass r _ _ hbreak ih =>
    obtain ⟨t, rfl, hrest⟩ := h.exists_cons hbreak
    rw [regexRest_cons (by decide), if_neg hbreak, if_pos rfl]
    exact (ih hrest hs.tail).behind_same ['[']
  | case6 inClass r _ _ hbreak hopen ih =>
    obtain ⟨t, rfl, hrest⟩ := h.exists_cons hbreak
    rw [regexRest_cons (by decide), if_neg hbreak, if_neg hopen, if_pos rfl]
    exact (ih hrest hs.tail).behind_same [']']
  | case7 inClass c r hlast hescape hbreak hopen hclose hend =>
    obtain ⟨t, rfl, hrest⟩ := h.exists_cons hbreak
    rw [regexRest_cons (ne_backslash hlast hescape), if_neg hbreak, if_neg hopen, if_neg hclose, if_pos hend]
    obtain ⟨hflags, hrest⟩ := takeWhile_alike (isIdentContinue_of_isBlank (by decide))
      (isIdentContinue_of_isBlank (by decide)) hrest
    exact .ok ⟨congrArg ([c] ++ ·) hflags, hrest⟩
  | case8 inClass c r hlast hescape hbreak hopen hclose hend ih =>
    obtain ⟨t, rfl, hrest⟩ := h.exists_cons hbreak
    rw [regexRest_cons (ne_backslash hlast hescape), if_neg hbreak, if_neg hopen, if_neg hclose, if_neg hend]
    exact (ih hrest hs.tail).behind_same [c]

/-! ## Templates and elements -/

variable {f g : Nat → List Char → Scan} {k n m : Nat} {p : List Char}

/-- With fuel that suffices for both texts, a scanner reads them alike. -/
def AlikeAt (f : Nat → List Char → Scan) (k n : Nat) : Prop :=
  ∀ ⦃m s t⦄, AddsReturns s t → EscapesNoFeed s → 2 * s.length + k ≤ n → 2 * t.length + k ≤ m →
    ReadsAlike Split.AddsReturns (f n s) (f m t)

/-- Scanners one after the other read alike behind a character. -/
theorem AlikeAt.andThen (hf : AlikeAt f k n) (hreads : ∀ n, ReadsAs (f n) (f n)) (hg : AlikeAt g 1 n) (hk : k ≤ 2)
    (h : AddsReturns s t) (hs : EscapesNoFeed s) (hn : 2 * s.length + 2 ≤ n) (hm : 2 * t.length + 2 ≤ m) :
    ReadsAlike Split.AddsReturns ((f n s).andThen (g n)) ((f m t).andThen (g m)) := by
  refine (hf h hs (by omega) (by omega)).andThen fun p r q r' hp hq hrest => ?_
  obtain ⟨-, rfl, -⟩ := hreads n hp
  obtain ⟨-, rfl, -⟩ := hreads m hq
  rw [List.length_append] at hn hm
  exact hg hrest hs.of_append (by omega) (by omega)

theorem anglesIfNext_alike (h : AddsReturns s t) :
    ReadsAlike Split.AddsReturns (anglesIfNext s) (anglesIfNext t) := by
  rw [anglesIfNext, anglesIfNext]
  simp only [h.head?_eq_iff (d := '<') (by decide) (by decide)]
  exact rel_ite (fun _ => angles_alike 0 h) fun _ => .ok ⟨.nil, h⟩

/-- A line comment passes the first characters of a line one by one. -/
theorem lineRest_andThen_cons {c : Char} {g : List Char → Scan} (hc : c ≠ '\n') (r : List Char) :
    Scan.andThen (.ok (lineRest (c :: r))) g = (Scan.andThen (.ok (lineRest r)) g).precede [c] := by
  simp [lineRest, takeWhile, hc, Scan.andThen, Scan.precede_precede]

/-- A scanner goes on behind a line comment, which takes the carriage return with it. -/
theorem lineRest_andThen_alike (hf : AlikeAt f 1 n)
    (hreturn : ∀ m r, f (m + 1) ('\r' :: r) = (f m r).precede ['\r']) (h : AddsReturns s t) (hs : EscapesNoFeed s)
    (hn : 2 * s.length + 1 ≤ n) (hm : 2 * t.length + 1 ≤ m) :
    ReadsAlike Split.AddsReturns (Scan.andThen (.ok (lineRest s)) (f n)) (Scan.andThen (.ok (lineRest t)) (f m)) := by
  have hend : ∀ {k r}, Scan.andThen (.ok (lineRest ('\n' :: r))) (f k) = f k ('\n' :: r) := fun {_ _} => Scan.precede_nil _
  induction h with
  | nil => exact (hf .nil hs hn hm).behind []
  | @cons c s t h ih =>
    by_cases hc : c = '\n'
    · subst hc
      rw [hend, hend]
      exact hf (.cons '\n' h) hs hn hm
    · rw [lineRest_andThen_cons hc, lineRest_andThen_cons hc]
      rw [List.length_cons] at hn hm
      exact (ih hs.tail (by omega) (by omega)).behind [c]
  | @feed s t h ih =>
    rw [hend, lineRest_andThen_cons (by decide), hend, ← hreturn]
    exact hf (.feed h) hs hn (by omega)

/-- The scanners of one level read alike. -/
structure LevelAlike (jsx : Bool) (n : Nat) : Prop where
  template : AlikeAt (templateRest jsx) 1 n
  embedded : ∀ inner last, AlikeAt (embeddedRest jsx · inner last) 1 n
  element : AlikeAt (elementRest jsx) 2 n
  attributes : AlikeAt (attributesRest jsx) 1 n
  children : AlikeAt (childrenRest jsx) 1 n

section Step

variable {jsx : Bool} (h : LevelAlike jsx n)
include h

theorem templateRest_alike : AlikeAt (templateRest jsx) 1 (n + 1) := by
  have hreads (m : Nat) := levelReadsAs jsx (Nat.le_refl m)
  intro m s t hst hs hn hm
  obtain ⟨m, rfl⟩ : ∃ k, m = k + 1 := ⟨m - 1, by omega⟩
  cases hst with
  | nil => exact .error _ .nil
  | @cons c s t hst =>
    simp only [List.length_cons] at hn hm
    by_cases hback : c = '\\'
    · subst hback
      cases s with
      | nil =>
        cases hst with
        | nil => exact .error _ (.refl _)
      | cons d s =>
        obtain ⟨u, hu, hrest⟩ := exists_escaped (.cons '\\' hst) hs
        obtain ⟨-, rfl⟩ := List.cons.inj hu
        simp only [List.length_cons] at hn hm
        exact (h.template hrest hs.tail.tail (by omega) (by omega)).behind ['\\', d]
    by_cases hexpr : c = '$' ∧ s.head? = some '{'
    · obtain ⟨rfl, hopen⟩ := hexpr
      obtain ⟨s, rfl⟩ := List.head?_eq_some_iff.mp hopen
      obtain ⟨t, rfl, hrest⟩ := hst.exists_cons (by decide)
      simp only [List.length_cons] at hn hm
      exact ((h.embedded 0 '{').andThen (fun n => (hreads n).embedded 0 '{') h.template (by omega) hrest hs.tail.tail
        (by omega) (by omega)).behind ['$', '{']
    · have hexpr' : c = '$' → t.head? ≠ some '{' := fun hdollar hopen =>
        hexpr ⟨hdollar, (hst.head?_eq_iff (by decide) (by decide)).mp hopen⟩
      rw [templateRest_cons hback fun hdollar hopen => hexpr ⟨hdollar, hopen⟩, templateRest_cons hback hexpr']
      refine rel_ite (fun _ => .ok ⟨.refl _, hst⟩) fun _ => ?_
      exact (h.template hst hs.tail (by omega) (by omega)).behind [c]
  | @feed s t hst =>
    simp only [List.length_cons] at hn hm
    obtain ⟨m, rfl⟩ : ∃ k, m = k + 1 := ⟨m - 1, by omega⟩
    have hplain : ∀ {c n r}, c ≠ '\\' → c ≠ '$' → c ≠ '\x60' →
        templateRest jsx (n + 1) (c :: r) = (templateRest jsx n r).precede [c] := by
      intro c n r hback hdollar htick
      rw [templateRest_cons hback fun hdollar' => absurd hdollar' hdollar, if_neg htick]
    rw [hplain (by decide) (by decide) (by decide), hplain (by decide) (by decide) (by decide),
      hplain (by decide) (by decide) (by decide)]
    exact (h.template hst hs.tail (by omega) (by omega)).feed

theorem childrenRest_alike : AlikeAt (childrenRest jsx) 1 (n + 1) := by
  have hreads (m : Nat) := levelReadsAs jsx (Nat.le_refl m)
  intro m s t hst hs hn hm
  obtain ⟨m, rfl⟩ : ∃ k, m = k + 1 := ⟨m - 1, by omega⟩
  cases hst with
  | nil => exact .error _ .nil
  | @cons c s t hst =>
    simp only [List.length_cons] at hn hm
    rw [childrenRest, childrenRest]
    simp only [hst.head?_eq_iff (d := '/') (by decide) (by decide)]
    refine rel_ite (fun _ => ?_) fun _ => rel_ite (fun _ => rel_ite (fun _ => ?_) fun _ => ?_) fun _ => ?_
    · exact ((h.embedded 0 '{').andThen (fun n => (hreads n).embedded 0 '{') h.children (by omega) hst hs.tail
        (by omega) (by omega)).behind [c]
    · exact (closingRest_alike hst).behind [c]
    · exact (h.element.andThen (fun n => (hreads n).element) h.children (by omega) hst hs.tail (by omega)
        (by omega)).behind [c]
    · exact (h.children hst hs.tail (by omega) (by omega)).behind [c]
  | @feed s t hst =>
    simp only [List.length_cons] at hn hm
    obtain ⟨m, rfl⟩ : ∃ k, m = k + 1 := ⟨m - 1, by omega⟩
    exact (h.children hst hs.tail (by omega) (by omega)).feed

theorem embeddedRest_alike (inner : Nat) (last : Char) : AlikeAt (embeddedRest jsx · inner last) 1 (n + 1) := by
  have hreads (m : Nat) := levelReadsAs jsx (Nat.le_refl m)
  intro m s t hst hs hn hm
  obtain ⟨m, rfl⟩ : ∃ k, m = k + 1 := ⟨m - 1, by omega⟩
  dsimp only
  cases hst with
  | nil => exact .error _ .nil
  | @cons c s t hst =>
    simp only [List.length_cons] at hn hm
    have hrest (inner : Nat) (last : Char) :=
      (h.embedded inner last hst hs.tail (m := m) (by omega) (by omega)).behind [c]
    unfold embeddedRest
    simp only [hst.head?_eq_iff (d := '/') (by decide) (by decide), hst.head?_eq_iff (d := '*') (by decide) (by decide),
      elementFollows_alike hst]
    refine rel_ite (fun _ => hrest _ _) fun _ => rel_ite (fun hclose => ?close) fun _ => rel_ite (fun hquote => ?string)
      fun _ => rel_ite (fun _ => ?template) fun _ => rel_ite (fun _ => ?line) fun _ => rel_ite (fun hstar => ?block)
      fun _ => rel_ite (fun _ => ?element) fun _ => hrest _ _
    case close =>
      cases inner with
      | zero => exact .ok ⟨.refl _, hst⟩
      | succ k => exact hrest _ _
    case string =>
      have hplain : c ≠ '\r' ∧ c ≠ '\\' := by
        rcases (by simpa using hquote : c = '"' ∨ c = '\'') with rfl | rfl <;> decide
      have hstring := (stringRest_alike hplain.1 hst hs.tail).mono fun _ _ => Split.SameText.addsReturns
      refine ReadsAlike.behind (hstring.andThen fun p r q r' hp hq hbehind => ?_) [c]
      obtain ⟨-, rfl, -⟩ := stringRest_readsAs hplain.2 hp
      obtain ⟨-, rfl, -⟩ := stringRest_readsAs hplain.2 hq
      rw [List.length_append] at hn hm
      exact h.embedded _ _ hbehind hs.tail.of_append (by omega) (by omega)
    case template =>
      exact (h.template.andThen (fun n => (hreads n).template) (h.embedded _ _) (by omega) hst hs.tail (by omega)
        (by omega)).behind [c]
    case line =>
      exact (lineRest_andThen_alike (h.embedded _ _) (fun _ _ => embeddedRest_blank (by decide) _ _) hst hs.tail
        (by omega) (by omega)).behind [c]
    case block =>
      obtain ⟨-, hstar⟩ : c = '/' ∧ s.head? = some '*' := by simpa using hstar
      obtain ⟨s, rfl⟩ := List.head?_eq_some_iff.mp hstar
      obtain ⟨t, rfl, hbody⟩ := hst.exists_cons (by decide)
      simp only [List.length_cons] at hn hm
      rw [List.drop_one, List.drop_one, List.tail_cons, List.tail_cons]
      refine ReadsAlike.behind (((commentRest_alike hbody).behind ['*']).andThen fun p r q r' hp hq hbehind => ?_) [c]
      obtain ⟨p, hp', rfl⟩ := Scan.precede_eq_ok_iff.mp hp
      obtain ⟨q, hq', rfl⟩ := Scan.precede_eq_ok_iff.mp hq
      obtain ⟨-, rfl, -⟩ := commentRest_readsAs hp'
      obtain ⟨-, rfl, -⟩ := commentRest_readsAs hq'
      rw [List.length_append] at hn hm
      exact h.embedded _ _ hbehind hs.tail.tail.of_append (by omega) (by omega)
    case element =>
      exact (h.element.andThen (fun n => (hreads n).element) (h.embedded _ _) (by omega) hst hs.tail (by omega)
        (by omega)).behind [c]
  | @feed s t hst =>
    simp only [List.length_cons] at hn hm
    obtain ⟨m, rfl⟩ : ∃ k, m = k + 1 := ⟨m - 1, by omega⟩
    rw [embeddedRest_blank (by decide), embeddedRest_blank (by decide), embeddedRest_blank (by decide)]
    exact (h.embedded _ _ hst hs.tail (by omega) (by omega)).feed

theorem elementRest_alike : AlikeAt (elementRest jsx) 2 (n + 1) := by
  intro m s t hst hs hn hm
  obtain ⟨m, rfl⟩ : ∃ k, m = k + 1 := ⟨m - 1, by omega⟩
  by_cases hopen : s.head? = some '>'
  · obtain ⟨s, rfl⟩ := List.head?_eq_some_iff.mp hopen
    obtain ⟨t, rfl, hrest⟩ := hst.exists_cons (by decide)
    simp only [List.length_cons] at hn hm
    exact (h.children hrest hs.tail (by omega) (by omega)).behind ['>']
  · rw [elementRest_name hopen, elementRest_name (mt (hst.head?_eq_iff (by decide) (by decide)).mp hopen)]
    obtain ⟨htext, hrest⟩ := takeWhile_alike (isElementName_of_isBlank (by decide)) (isElementName_of_isBlank (by decide)) hst
    generalize hname : takeWhile isElementName s = name at htext hrest ⊢
    generalize hname' : takeWhile isElementName t = name' at htext hrest ⊢
    obtain ⟨name, s⟩ := name
    obtain ⟨name', t⟩ := name'
    obtain rfl : name = name' := htext
    obtain ⟨rfl, -, -⟩ := takeWhile_eq_iff.mp hname
    obtain ⟨rfl, -, -⟩ := takeWhile_eq_iff.mp hname'
    refine ReadsAlike.behind ((anglesIfNext_alike hrest).andThen fun p r q r' hp hq hbehind => ?_) name
    obtain rfl := eq_append_of_anglesIfNext hp
    obtain rfl := eq_append_of_anglesIfNext hq
    simp only [List.length_append] at hn hm
    exact h.attributes hbehind hs.of_append.of_append (by omega) (by omega)

theorem attributeValue_alike (hst : AddsReturns s t) (hs : EscapesNoFeed s) (hn : 2 * s.length + 1 ≤ n)
    (hm : 2 * t.length + 1 ≤ m) :
    ReadsAlike Split.AddsReturns (attributeValue jsx n s) (attributeValue jsx m t) := by
  by_cases hassign : s.head? = some '='
  · obtain ⟨s, rfl⟩ := List.head?_eq_some_iff.mp hassign
    obtain ⟨t, rfl, hbehind⟩ := hst.exists_cons (by decide)
    cases hvalue : s.head?.any opensValue with
    | false =>
      rw [attributeValue_invalid hvalue, attributeValue_invalid]
      · exact .error _ (.refl _)
      · rw [hbehind.any_head? (opensValue_of_isBlank (by decide)) (opensValue_of_isBlank (by decide)), hvalue]
    | true =>
      obtain ⟨q, hq, hopens⟩ := (Option.any_eq_true _ _).mp hvalue
      obtain ⟨s, rfl⟩ := List.head?_eq_some_iff.mp hq
      have hsolid : isBlank q = false := isBlank_eq_false_of (fun d => opensValue_of_isBlank) hopens
      have hplain : ∀ d, isBlank d = true → q ≠ d := fun d hd => (ne_of_isBlank hd hsolid).symm
      obtain ⟨t, rfl, htext⟩ := hbehind.exists_cons (hplain '\n' (by decide))
      simp only [List.length_cons] at hn hm
      rw [attributeValue, attributeValue]
      refine rel_ite (fun _ => ?_) fun _ => rel_ite (fun _ => ?_) fun _ => .error _ (.refl _)
      · exact (attributeRest_alike (hplain _ (by decide)) (hplain _ (by decide)) htext).behind ['=', q]
      · exact (h.embedded 0 '{' htext hs.tail.tail (by omega) (by omega)).behind ['=', q]
  · rw [attributeValue_none hassign, attributeValue_none (mt (hst.head?_eq_iff (by decide) (by decide)).mp hassign)]
    exact .ok ⟨.nil, hst⟩

theorem attributesRest_alike : AlikeAt (attributesRest jsx) 1 (n + 1) := by
  have hreads (m : Nat) := levelReadsAs jsx (Nat.le_refl m)
  intro m s t hst hs hn hm
  obtain ⟨m, rfl⟩ : ∃ k, m = k + 1 := ⟨m - 1, by omega⟩
  cases hst with
  | nil => exact .error _ .nil
  | @cons c s t hst =>
    simp only [List.length_cons] at hn hm
    unfold attributesRest
    simp only [hst.head?_eq_iff (d := '>') (by decide) (by decide)]
    refine rel_ite (fun _ => ?blank) fun _ => rel_ite (fun hends => ?ends) fun _ => rel_ite (fun _ => ?children) fun _ =>
      rel_ite (fun _ => ?embedded) fun _ => rel_ite (fun _ => ?named) fun _ => .error _ .nil
    case blank => exact (h.attributes hst hs.tail (by omega) (by omega)).behind [c]
    case ends =>
      obtain ⟨-, hends⟩ : c = '/' ∧ s.head? = some '>' := by simpa using hends
      obtain ⟨s, rfl⟩ := List.head?_eq_some_iff.mp hends
      obtain ⟨t, rfl, hrest⟩ := hst.exists_cons (by decide)
      exact .ok ⟨.refl _, hrest⟩
    case children => exact (h.children hst hs.tail (by omega) (by omega)).behind [c]
    case embedded =>
      exact ((h.embedded 0 '{').andThen (fun n => (hreads n).embedded 0 '{') h.attributes (by omega) hst hs.tail
        (by omega) (by omega)).behind [c]
    case named =>
      change ReadsAlike _
        (((attributeValue jsx n (takeWhile isAttributeName s).rest).andThen (attributesRest jsx n)).precede
          (c :: (takeWhile isAttributeName s).text))
        (((attributeValue jsx m (takeWhile isAttributeName t).rest).andThen (attributesRest jsx m)).precede
          (c :: (takeWhile isAttributeName t).text))
      obtain ⟨htext, hrest⟩ := takeWhile_alike (isAttributeName_of_isBlank (by decide))
        (isAttributeName_of_isBlank (by decide)) hst
      generalize hname : takeWhile isAttributeName s = name at htext hrest ⊢
      generalize hname' : takeWhile isAttributeName t = name' at htext hrest ⊢
      obtain ⟨name, s⟩ := name
      obtain ⟨name', t⟩ := name'
      obtain rfl : name = name' := htext
      obtain ⟨rfl, -, -⟩ := takeWhile_eq_iff.mp hname
      obtain ⟨rfl, -, -⟩ := takeWhile_eq_iff.mp hname'
      have hvalue := hs.tail.of_append
      rw [List.length_append] at hn hm
      have hread := attributeValue_alike h (s := s) (t := t) (n := n) (m := m) hrest hvalue (by omega) (by omega)
      refine ReadsAlike.behind (hread.andThen fun p r q r' hp hq hbehind => ?_) (c :: name)
      obtain rfl := eq_append_of_attributeValue hp
      obtain rfl := eq_append_of_attributeValue hq
      simp only [List.length_append] at hn hm
      exact h.attributes hbehind hvalue.of_append (by omega) (by omega)
  | @feed s t hst =>
    simp only [List.length_cons] at hn hm
    obtain ⟨m, rfl⟩ : ∃ k, m = k + 1 := ⟨m - 1, by omega⟩
    exact (h.attributes hst hs.tail (by omega) (by omega)).feed

end Step

/-- **Templates and elements read alike** with any fuel that suffices. -/
theorem levelAlike (jsx : Bool) (n : Nat) : LevelAlike jsx n := by
  induction n with
  | zero =>
    constructor
    · exact fun m s t _ _ hn _ => absurd hn (by omega)
    · exact fun inner last m s t _ _ hn _ => absurd hn (by omega)
    · exact fun m s t _ _ hn _ => absurd hn (by omega)
    · exact fun m s t _ _ hn _ => absurd hn (by omega)
    · exact fun m s t _ _ hn _ => absurd hn (by omega)
  | succ n ih =>
    exact ⟨templateRest_alike ih, embeddedRest_alike ih, elementRest_alike ih, attributesRest_alike ih,
      childrenRest_alike ih⟩

end Lexeme

end AppBundler
