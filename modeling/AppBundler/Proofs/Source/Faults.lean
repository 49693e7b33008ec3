import AppBundler.Proofs.Source.Rewriting
import AppBundler.Proofs.Source.Spans
/-!
# Where readers fail

A scanner splits its text, or fails behind a part of it. So does the reader of gaps and that of lexemes, and the error of
a text that is not tokenized stands behind a part of the text: its line and its column are those of a place in it.
-/

namespace AppBundler

open Lexeme

namespace Scan

/-- A scanner has split a text, or has failed behind a part of it. -/
def Splits (s : List Char) : Scan → Prop
  | .ok x => x.text ++ x.rest = s
  | .error f => f.read <+: s

variable {s p : List Char} {x : Scan} {next : List Char → Scan}

theorem splits_fail (s : List Char) (problem : SyntaxProblem) : Splits s (fail problem) := List.nil_prefix

theorem Splits.precede (h : Splits s x) (p : List Char) : Splits (p ++ s) (x.precede p) := by
  cases x with
  | error f => exact (List.prefix_append_right_inj p).mpr h
  | ok y =>
    have h : y.text ++ y.rest = s := h
    change (p ++ y.text) ++ y.rest = p ++ s
    rw [List.append_assoc, h]

theorem Splits.andThen (h : Splits s x) (hnext : ∀ r, Splits r (next r)) : Splits s (x.andThen next) := by
  cases x with
  | error f => exact h
  | ok y =>
    have h : y.text ++ y.rest = s := h
    rw [← h]
    exact (hnext y.rest).precede y.text

end Scan

open Scan

namespace Lexeme

variable {jsx : Bool} {n : Nat} {quote : Char}

/-! ## Flat pieces -/

theorem takeWhile_splits (q : Char → Bool) (s : List Char) : (takeWhile q s).text ++ (takeWhile q s).rest = s :=
  List.takeWhile_append_dropWhile

theorem commentRest_splits (s : List Char) : Splits s (commentRest s) := by
  fun_induction commentRest s with
  | case1 => exact splits_fail _ _
  | case2 r => rfl
  | case3 c r _ ih => exact ih.precede [c]

theorem stringRest_splits (s : List Char) : Splits s (stringRest quote s) := by
  fun_induction stringRest quote s with
  | case1 => exact splits_fail _ _
  | case2 => exact List.prefix_rfl
  | case3 c r ih => exact ih.precede ['\\', c]
  | case4 r => exact List.prefix_append ['\n'] r
  | case5 r => rfl
  | case6 c r _ _ _ _ ih => exact ih.precede [c]

theorem regexRest_splits (inClass : Bool) (s : List Char) : Splits s (regexRest inClass s) := by
  fun_induction regexRest inClass s with
  | case1 => exact splits_fail _ _
  | case2 => exact List.prefix_rfl
  | case3 inClass c r ih => exact ih.precede ['\\', c]
  | case4 inClass r => exact List.prefix_append ['\n'] r
  | case5 inClass r _ _ _ ih => exact ih.precede ['[']
  | case6 inClass r _ _ _ _ ih => exact ih.precede [']']
  | case7 inClass c r =>
    have hflags : Splits r (.ok (takeWhile isIdentContinue r)) := takeWhile_splits _ r
    exact hflags.precede [c]
  | case8 inClass c r _ _ _ _ _ _ ih => exact ih.precede [c]

theorem angles_splits (depth : Nat) (s : List Char) : Splits s (angles depth s) := by
  fun_induction angles depth s with
  | case1 => exact splits_fail _ _
  | case2 depth r ih => exact ih.precede ['<']
  | case3 depth r => rfl
  | case4 depth r _ _ ih => exact ih.precede ['>']
  | case5 depth c r _ _ ih => exact ih.precede [c]

theorem attributeRest_splits (s : List Char) : Splits s (attributeRest quote s) := by
  fun_induction attributeRest quote s with
  | case1 => exact splits_fail _ _
  | case2 r => rfl
  | case3 c r _ ih => exact ih.precede [c]

theorem closingRest_splits (s : List Char) : Splits s (closingRest s) := by
  fun_induction closingRest s with
  | case1 => exact splits_fail _ _
  | case2 r => rfl
  | case3 c r _ ih => exact ih.precede [c]

/-! ## Templates and elements -/

/-- The scanners of a level split their texts. -/
structure LevelSplits (jsx : Bool) (n : Nat) : Prop where
  template : ∀ s, Splits s (templateRest jsx n s)
  embedded : ∀ inner last s, Splits s (embeddedRest jsx n inner last s)
  element : ∀ s, Splits s (elementRest jsx n s)
  attributes : ∀ s, Splits s (attributesRest jsx n s)
  children : ∀ s, Splits s (childrenRest jsx n s)

section Step

variable (h : LevelSplits jsx n)
include h

theorem templateRest_splits (s : List Char) : Splits s (templateRest jsx (n + 1) s) := by
  unfold templateRest
  split
  case h_1 => contradiction
  case h_2 => exact splits_fail _ _
  case h_3 => exact List.prefix_rfl
  case h_4 c r heq =>
    obtain rfl := Nat.succ.inj heq
    exact (h.template r).precede ['\\', c]
  case h_5 r heq =>
    obtain rfl := Nat.succ.inj heq
    exact ((h.embedded 0 '{' r).andThen h.template).precede ['$', '{']
  case h_6 c r _ _ _ heq =>
    obtain rfl := Nat.succ.inj heq
    split
    · rfl
    · exact (h.template r).precede [c]

theorem embeddedRest_splits (inner : Nat) (last : Char) (s : List Char) :
    Splits s (embeddedRest jsx (n + 1) inner last s) := by
  cases s with
  | nil => exact splits_fail _ _
  | cons c r =>
  unfold embeddedRest
  split
  case isTrue => exact (h.embedded _ _ r).precede [c]
  split
  case isTrue =>
    cases inner with
    | zero => rfl
    | succ k => exact (h.embedded _ _ r).precede [c]
  split
  case isTrue => exact ((stringRest_splits r).andThen (h.embedded _ _)).precede [c]
  split
  case isTrue => exact ((h.template r).andThen (h.embedded _ _)).precede [c]
  split
  case isTrue =>
    have hline : Splits r (.ok (lineRest r)) := takeWhile_splits _ r
    exact (hline.andThen (h.embedded _ _)).precede [c]
  split
  case isTrue hblock =>
    obtain ⟨r, rfl⟩ : ∃ r', r = '*' :: r' := List.head?_eq_some_iff.mp (by simpa using (Bool.and_eq_true_iff.mp hblock).2)
    exact (((commentRest_splits r).precede ['*']).andThen (h.embedded _ _)).precede [c]
  split
  case isTrue => exact ((h.element r).andThen (h.embedded _ _)).precede [c]
  case isFalse => exact (h.embedded _ _ r).precede [c]

theorem elementRest_splits (s : List Char) : Splits s (elementRest jsx (n + 1) s) := by
  unfold elementRest
  split
  case h_1 r => exact (h.children r).precede ['>']
  case h_2 =>
    dsimp only
    generalize hname : takeWhile (fun c => isIdentContinue c || c = '.' || c = ':' || c = '-') s = name
    have hsplit : name.text ++ name.rest = s := hname ▸ takeWhile_splits _ s
    have htyped : Splits name.rest (if name.rest.head? = some '<' then angles 0 name.rest else .ok ⟨[], name.rest⟩) := by
      split
      · exact angles_splits 0 _
      · rfl
    have hmore := (htyped.andThen h.attributes).precede name.text
    rwa [hsplit] at hmore

theorem attributeValue_splits (s : List Char) : Splits s (attributeValue jsx n s) := by
  unfold attributeValue
  split
  case h_1 q r =>
    split
    · exact (attributeRest_splits r).precede ['=', q]
    split
    · exact (h.embedded 0 '{' r).precede ['=', q]
    · exact List.prefix_append ['='] (q :: r)
  case h_2 => exact List.prefix_rfl
  case h_3 => rfl

theorem attributesRest_splits (s : List Char) : Splits s (attributesRest jsx (n + 1) s) := by
  cases s with
  | nil => exact splits_fail _ _
  | cons c r =>
  unfold attributesRest
  split
  case isTrue => exact (h.attributes r).precede [c]
  split
  case isTrue hend =>
    obtain ⟨rfl, hr⟩ : c = '/' ∧ r.head? = some '>' := by simpa using hend
    obtain ⟨r, rfl⟩ := List.head?_eq_some_iff.mp hr
    rfl
  split
  case isTrue => exact (h.children r).precede [c]
  split
  case isTrue => exact ((h.embedded 0 '{' r).andThen h.attributes).precede [c]
  split
  case isTrue =>
    dsimp only
    generalize hname : takeWhile (fun c => isIdentContinue c || c = '-' || c = ':') r = name
    have hsplit : name.text ++ name.rest = r := hname ▸ takeWhile_splits _ r
    have hmore := ((attributeValue_splits h name.rest).andThen h.attributes).precede (c :: name.text)
    rwa [List.cons_append, hsplit] at hmore
  case isFalse => exact splits_fail _ _

theorem childrenRest_splits (s : List Char) : Splits s (childrenRest jsx (n + 1) s) := by
  cases s with
  | nil => exact splits_fail _ _
  | cons c r =>
  unfold childrenRest
  split
  case isTrue => exact ((h.embedded 0 '{' r).andThen h.children).precede [c]
  split
  case isTrue =>
    split
    · exact (closingRest_splits r).precede [c]
    · exact ((h.element r).andThen h.children).precede [c]
  case isFalse => exact (h.children r).precede [c]

end Step

/-- **All scanners split their texts**, however much fuel there is. -/
theorem levelSplits (jsx : Bool) (n : Nat) : LevelSplits jsx n := by
  induction n with
  | zero =>
    constructor
    all_goals intros; simp only [templateRest, embeddedRest, elementRest, attributesRest, childrenRest]; exact splits_fail _ _
  | succ n ih =>
    exact ⟨templateRest_splits ih, embeddedRest_splits ih, elementRest_splits ih, attributesRest_splits ih,
      childrenRest_splits ih⟩

end Lexeme

/-! ## Gaps and lexemes -/

namespace Gap

variable {s p : List Char} {f : LexicalFault} {x : Except LexicalFault Gap}

/-- A reader of gaps fails behind a part of its text. -/
def FailsWithin (s : List Char) (x : Except LexicalFault Gap) : Prop := ∀ f, x = .error f → f.read <+: s

theorem FailsWithin.precede (h : FailsWithin s x) (p : List Char) : FailsWithin (p ++ s) (precede p x) := by
  intro f hf
  cases x with
  | ok g => cases hf
  | error g =>
    cases hf
    exact (List.prefix_append_right_inj p).mpr (h g rfl)

theorem FailsWithin.withDoc {doc : Option (List Char)} (h : FailsWithin s x) : FailsWithin s (withDoc doc x) := by
  intro f hf
  cases x with
  | ok g => cases hf
  | error g => exact h f hf

/-- All readers of gaps fail behind a part of their text. -/
def AllFailWithin (s : List Char) : Prop :=
  FailsWithin s (scan s) ∧ FailsWithin s (scanLine s) ∧ ∀ body, FailsWithin s (scanBlock body s)

theorem AllFailWithin.of_shorter (h : ∀ r : List Char, r.length < s.length → AllFailWithin r) : AllFailWithin s := by
  refine ⟨?_, ?_, fun body => ?_⟩
  · unfold scan
    split
    case h_1 r => exact (h r (by simp only [List.length_cons]; omega)).2.1.precede ['/', '/']
    case h_2 r => exact ((h r (by simp only [List.length_cons]; omega)).2.2 []).precede ['/', '*']
    case h_3 => intro f hf; cases hf
    case h_4 c r _ _ =>
      split
      · exact (h r (by simp)).1.precede [c]
      · intro f hf
        cases hf
  · cases s with
    | nil => intro f hf; cases hf
    | cons c r =>
      rw [scanLine]
      split
      · exact (h r (by simp)).1.precede [c]
      · exact (h r (by simp)).2.1.precede [c]
  · unfold scanBlock
    split
    case h_1 =>
      intro f hf
      cases hf
      exact List.nil_prefix
    case h_2 r => exact ((h r (by simp only [List.length_cons]; omega)).1.precede ['*', '/']).withDoc
    case h_3 c r _ => exact ((h r (by simp)).2.2 _).precede [c]

/-- **A gap fails** where a comment in it does not end. -/
theorem allFailWithin (s : List Char) : AllFailWithin s := by
  induction hn : s.length using Nat.strongRecOn generalizing s with
  | ind n ih =>
    subst hn
    exact .of_shorter fun r hr => ih r.length hr r rfl

end Gap

namespace Lexer

variable {jsx operand : Bool} {n : Nat} {x y : Place} {e : SyntaxError} {source : String} {before line : List Char}

theorem tagged_error {kind : TokenKind} {c : Char} {r : List Char} {scan : Scan} {f : LexicalFault} (hscan : Splits r scan)
    (h : ((scan.precede [c]).map fun split => (kind, split)) = .error f) : f.read <+: c :: r := by
  cases scan with
  | ok split => cases h
  | error g =>
    cases h
    exact hscan.precede [c]

/-- A lexeme fails behind a part of its text. -/
theorem lexeme_error {s : List Char} {f : LexicalFault} (h : lexeme jsx operand s = .error f) : f.read <+: s := by
  cases s with
  | nil => cases h
  | cons c r =>
  unfold lexeme at h
  dsimp only at h
  have hlevel := levelSplits jsx (2 * (c :: r).length + 2)
  split at h
  case isTrue => exact tagged_error (stringRest_splits r) h
  split at h
  case isTrue => exact tagged_error (hlevel.template r) h
  split at h
  case isTrue => cases h
  split at h
  case isTrue => cases h
  split at h
  case isTrue => exact tagged_error (regexRest_splits false r) h
  split at h
  case isTrue => exact tagged_error (hlevel.element r) h
  case isFalse => cases h

/-- What a round of the reading does: it fails in a gap or in a lexeme, or it ends, or it takes a step. -/
theorem from?_succ_cases (jsx : Bool) (n : Nat) (x : Place) :
    (∃ f, Gap.scan x.rest = .error f ∧ from? jsx (n + 1) x = .error (errorAt x.position f)) ∨
    (∃ g d, Gap.scan x.rest = .ok ⟨g, d, []⟩ ∧ from? jsx (n + 1) x = .ok []) ∨
    (∃ g d r f, Gap.scan x.rest = .ok ⟨g, d, r⟩ ∧ r ≠ [] ∧ lexeme jsx (Token.operandMayFollow x.last) r = .error f ∧
      from? jsx (n + 1) x = .error (errorAt (x.position.after g) f)) ∨
    ∃ t y, Step jsx x t y ∧ from? jsx (n + 1) x = (from? jsx n y).map (t :: ·) := by
  cases hgap : Gap.scan x.rest with
  | error f => exact .inl ⟨f, rfl, by rw [from?, tokensFrom, hgap]⟩
  | ok gap =>
    obtain ⟨g, d, r⟩ := gap
    right
    by_cases hr : r = []
    · subst hr
      exact .inl ⟨g, d, rfl, by rw [from?, tokensFrom, hgap]; rfl⟩
    right
    cases hlexeme : lexeme jsx (Token.operandMayFollow x.last) r with
    | error f =>
      refine .inl ⟨g, d, r, f, rfl, hr, hlexeme, ?_⟩
      rw [from?, tokensFrom, hgap]
      simp [hr, hlexeme]
    | ok found =>
      obtain ⟨kind, p, rest⟩ := found
      obtain ⟨-, rfl⟩ := lexeme_append hr hlexeme
      have hstep : Step jsx x ⟨kind, String.ofList p, String.ofList g, x.position.after g, d.map String.ofList⟩
          ⟨some ⟨kind, String.ofList p, String.ofList g, x.position.after g, d.map String.ofList⟩,
            (x.position.after g).after p, rest⟩ := by
        refine ⟨⟨d, ?_, rfl⟩, ?_, ?_, ?_, rfl, ?_⟩
        · simpa using hgap
        · simp
        · simpa using hr
        · simpa using hlexeme
        · rw [String.toList_ofList]
      exact .inr ⟨_, _, hstep, hstep.from?_eq⟩

/-! ## Places of errors -/

/-- An error stands behind a part of a text. -/
def StandsBehind (s : List Char) (e : SyntaxError) : Prop :=
  ∃ p, p <+: s ∧ e.line = (Position.counted p).line ∧ e.column = (Position.counted p).column

theorem standsBehind_errorAt {p q : List Char} {f : LexicalFault} {s : List Char} (hs : s = p ++ q) (hf : f.read <+: q) :
    StandsBehind s (errorAt (.counted p) f) := by
  have hafter : (Position.counted p).after f.read = .counted (p ++ f.read) := by
    rw [← Position.start_after, ← Position.start_after]
    exact List.foldl_append.symm
  refine ⟨p ++ f.read, ?_, ?_, ?_⟩
  · rw [hs]
    exact (List.prefix_append_right_inj p).mpr hf
  · rw [errorAt, hafter]
  · rw [errorAt, hafter]

/-- A reading fails behind a part of the source. -/
theorem from?_error (hx : x.At source before line) (h : from? jsx n x = .error e) : StandsBehind source.toList e := by
  induction n generalizing x before line with
  | zero =>
    cases h
    refine ⟨before ++ line, ?_, by rw [← hx.position], by rw [← hx.position]⟩
    rw [hx.source_eq, ← List.append_assoc]
    exact List.prefix_append _ _
  | succ n ih =>
    rcases from?_succ_cases jsx n x with ⟨f, hgap, hfrom⟩ | ⟨g, d, -, hfrom⟩ | ⟨g, d, r, f, hgap, hr, hlexeme, hfrom⟩ |
      ⟨t, y, hstep, hfrom⟩
    · obtain rfl := Except.error.inj (h.symm.trans hfrom)
      rw [hx.position]
      exact standsBehind_errorAt (by rw [hx.source_eq, ← List.append_assoc]) ((Gap.allFailWithin _).1 f hgap)
    · rw [hfrom] at h
      cases h
    · obtain rfl := Except.error.inj (h.symm.trans hfrom)
      have hposition : x.position.after g = .counted (before ++ line ++ g) := by
        rw [hx.position, ← Position.start_after, ← Position.start_after]
        exact List.foldl_append.symm
      rw [hposition]
      refine standsBehind_errorAt ?_ (lexeme_error hlexeme)
      rw [hx.source_eq, ((Gap.readsOn _).1 hgap hr).1]
      simp only [List.append_assoc]
    · rw [hfrom] at h
      cases hrest : from? jsx n y with
      | ok ts =>
        rw [hrest] at h
        cases h
      | error e' =>
        rw [hrest] at h
        obtain rfl := Except.error.inj h
        exact ih (hstep.standsIn hx).2 hrest

end Lexer

/-- **A text that is not tokenized** has its error behind a part of it. -/
theorem tokenize_error {source : String} {e : SyntaxError} (h : tokenize source = .error e) :
    Lexer.StandsBehind source.toList e := by
  rw [tokenize, Lexer.tokens_eq_run] at h
  exact Lexer.from?_error (Lexer.at_interpreterLine source none) h

end AppBundler
