import AppBundler.Source.Cursor
import AppBundler.Proofs.Source.Reading
/-!
# What stands on the next line

A text that ends with a semicolon is read in the same way up to there when a line break stands in place of the
semicolon. An `export` on the next line then is the same token but for its gap and its offset, and all that
follows has the same faces.
-/

namespace AppBundler

theorem Position.after_append (p : Position) (s t : List Char) : p.after (s ++ t) = (p.after s).after t :=
  List.foldl_append

/-- What tokens spell, the gap of the first one left out. -/
theorem Cursor.spell_toList (t : Token) (ts : List Token) :
    (spell (t :: ts)).toList = t.text.toList ++ ts.flatMap fun u => u.gap.toList ++ u.text.toList := by
  rw [spell, String.toList_append, String.toList_join, List.flatMap_map]
  simp only [String.toList_append]

namespace Lexer

open Lexeme

/-- The first token of the text is the keyword `export`. -/
def BeginsExport (s : List Char) : Prop :=
  ∃ g d r, Gap.scan s = .ok ⟨g, d, "export".toList ++ r⟩ ∧ ∀ c ∈ r.head?, isIdentContinue c = false

theorem lexeme_export (jsx operand : Bool) {r : List Char} (hr : ∀ c ∈ r.head?, isIdentContinue c = false) :
    lexeme jsx operand ("export".toList ++ r) = .ok (.ident, ⟨"export".toList, r⟩) := by
  have hword : Lexeme.takeWhile isIdentContinue ("xport".toList ++ r) = ⟨"xport".toList, r⟩ :=
    takeWhile_eq_iff.mpr ⟨rfl, List.all_eq_true.mp (by decide), hr⟩
  have htext : "export".toList ++ r = 'e' :: ("xport".toList ++ r) := rfl
  rw [htext, lexeme]
  dsimp only
  rw [if_neg (by decide), if_neg (by decide), if_neg (by simp), if_pos (by decide), hword]
  rfl

theorem lexeme_semicolon (jsx operand : Bool) (s : List Char) :
    lexeme jsx operand (';' :: s) = .ok (.punct, ⟨[';'], s⟩) := by
  have hnone : punctuators.find? (fun p => p.isPrefixOf (';' :: s)) = none := by simp [punctuators]
  rw [lexeme]
  dsimp only
  rw [if_neg (by decide), if_neg (by decide), if_neg (by simp), if_neg (by decide), if_neg (by simp),
    if_neg (by simp), punctuator, hnone]
  rfl

/-- A text that begins with no interpreter line is read from its first character on. -/
theorem run_eq_from? {jsx : Bool} {s : List Char} (hs : s.head? ≠ some '#') :
    run jsx s = from? jsx (s.length + 1) ⟨none, .start, s⟩ := by
  have hline : interpreterLine s = ⟨[], s⟩ := by
    unfold interpreterLine
    split
    · simp at hs
    · rfl
  rw [run, hline]
  rfl

/-- Such a text is read over some tokens, and there is fuel left for the rest. -/
theorem run_of_steps {jsx : Bool} {s : List Char} {ts : List Token} {y : Place} (hs : s.head? ≠ some '#')
    (h : Steps jsx ⟨none, .start, s⟩ ts y) :
    ∃ n, y.rest.length < n ∧ run jsx s = (from? jsx n y).map (ts ++ ·) := by
  have hlength : y.rest.length + ts.length ≤ s.length := h.length_le
  refine ⟨s.length + 1 - ts.length, by omega, ?_⟩
  have hfuel : s.length + 1 = s.length + 1 - ts.length + ts.length := by omega
  rw [run_eq_from? hs, hfuel, h.from?_eq, ← hfuel]

theorem head?_append_ne {w s : List Char} {c : Char} (hw : w.head? ≠ some '#') (hc : c ≠ '#') :
    (w ++ c :: s).head? ≠ some '#' := by
  cases w with
  | nil => simpa using hc
  | cons b w => simpa using hw

/-- The tokens of a text with a semicolon at its end, which is the last of them. -/
structure EndsIn (jsx : Bool) (w : List Char) (ts : List Token) (semicolon : Token) : Prop where
  begins : w.head? ≠ some '#'
  tokens : run jsx (w ++ [';']) = .ok (ts ++ [semicolon])
  spelled : ((ts ++ [semicolon]).flatMap fun t => t.gap.toList ++ t.text.toList) = w ++ [';']
  text : semicolon.text = ";"

section NextLine

variable {jsx : Bool} {w s g r : List Char} {ts : List Token} {semicolon : Token} {d : Option (List Char)}

/-- Such a text is read up to the gap before its semicolon. -/
theorem EndsIn.steps (h : EndsIn jsx w ts semicolon) : ∃ l q doc,
    Steps jsx ⟨none, .start, w ++ [';']⟩ ts ⟨l, q, semicolon.gap.toList ++ [';']⟩ ∧
      Gap.scan (semicolon.gap.toList ++ [';']) = .ok ⟨semicolon.gap.toList, doc, [';']⟩ ∧
      semicolon.doc = doc.map String.ofList ∧ semicolon.start = q.after semicolon.gap.toList ∧
      semicolon.kind = .punct := by
  have hrun := h.tokens
  rw [run_eq_from? (head?_append_ne h.begins (by decide))] at hrun
  obtain ⟨n, y, -, hsteps, hrest⟩ := exists_steps hrun
  obtain ⟨m, z, -, hstep, -⟩ := exists_step hrest
  have hz : z.rest = [] := by
    have hspelled := (hsteps.append (.head hstep (.refl z))).rest_eq
    rw [h.spelled] at hspelled
    simpa using hspelled
  obtain ⟨doc, hgap, hdoc⟩ := hstep.gap
  have hy := hstep.rest_eq
  have hkind := hstep.lexeme
  rw [hz, h.text] at hy hgap hkind
  obtain ⟨l, q, rest⟩ := y
  obtain rfl : rest = semicolon.gap.toList ++ [';'] := hy
  refine ⟨l, q, doc, hsteps, hgap, hdoc, hstep.start, ?_⟩
  have hsemicolon := lexeme_semicolon jsx (Token.operandMayFollow l) []
  exact (Prod.mk.inj (Except.ok.inj (hkind.symm.trans hsemicolon))).1

theorem EndsIn.kind (h : EndsIn jsx w ts semicolon) : semicolon.kind = .punct := by
  obtain ⟨-, -, -, -, -, -, -, hkind⟩ := h.steps
  exact hkind

/-- The token `export` on the next line, after a gap that the text before leaves. -/
def exportAfter (gap : List Char) (doc : Option (List Char)) (q : Position) : Token :=
  ⟨.ident, "export", String.ofList gap, q.after gap, doc.map String.ofList⟩

/-- The place behind it. -/
def behindExport (gap : List Char) (doc : Option (List Char)) (q : Position) (r : List Char) : Place :=
  ⟨some (exportAfter gap doc q), (q.after gap).after "export".toList, r⟩

/-- It is the first token from there on. -/
theorem export_step {l : Option Token} {q : Position} {s gap : List Char}
    (hscan : Gap.scan s = .ok ⟨gap, d, "export".toList ++ r⟩) (hr : ∀ c ∈ r.head?, isIdentContinue c = false) :
    Step jsx ⟨l, q, s⟩ (exportAfter gap d q) (behindExport gap d q r) where
  gap := ⟨d, by simpa [exportAfter, behindExport] using hscan, rfl⟩
  start := by simp [exportAfter]
  nonempty := by simp [exportAfter]
  lexeme := lexeme_export _ _ hr
  last := rfl
  position := rfl

theorem scan_lineFeed (s : List Char) : Gap.scan ('\n' :: s) = Gap.precede ['\n'] (Gap.scan s) :=
  Gap.scan_blank (by decide) s

/-- **An export on the next line.** Whether a semicolon or a line break stands before it, the same tokens come
before it, and the same text is left after it, in the same line and column. -/
theorem EndsIn.export_next (h : EndsIn jsx w ts semicolon) (hscan : Gap.scan s = .ok ⟨g, d, "export".toList ++ r⟩)
    (hr : ∀ c ∈ r.head?, isIdentContinue c = false) :
    ∃ t u p q n m, t.isIdent "export" = true ∧ t.newlineBefore = true ∧ t.trace = u.trace ∧ p.Alike q ∧
      r.length < n ∧ r.length < m ∧
      run jsx (w ++ '\n' :: s) = (from? jsx n ⟨some t, p, r⟩).map (ts ++ t :: ·) ∧
      run jsx (w ++ ';' :: '\n' :: s) = (from? jsx m ⟨some u, q, r⟩).map (ts ++ semicolon :: u :: ·) := by
  obtain ⟨l, q, doc, hsteps, hgap, hdoc, hstart, hkind⟩ := h.steps
  have hgap' (c : Char) (v : List Char) : Gap.scan (semicolon.gap.toList ++ c :: v) =
      Gap.precede semicolon.gap.toList (Gap.withDoc doc (Gap.scan (c :: v))) :=
    Gap.scan_append hgap (by simp) (c :: v)
  -- with a line break, the gap of the semicolon goes on to the export
  have hbreak : Steps jsx ⟨none, .start, w ++ '\n' :: s⟩
      (ts ++ [exportAfter (semicolon.gap.toList ++ '\n' :: g) (d.or doc) q])
      (behindExport (semicolon.gap.toList ++ '\n' :: g) (d.or doc) q r) := by
    refine (hsteps.before (b := '\n') (v := s) (IsBoundary.endsLexeme (Or.inr (Or.inl rfl)))).append ?_
    refine .head (export_step ?_ hr) (.refl _)
    rw [hgap', scan_lineFeed, hscan]
    simp [Gap.precede, Gap.withDoc]
  -- with a semicolon, the gap of the export begins behind it
  have hsemicolon : Steps jsx ⟨none, .start, w ++ ';' :: '\n' :: s⟩
      (ts ++ [semicolon, exportAfter ('\n' :: g) d (semicolon.start.after [';'])])
      (behindExport ('\n' :: g) d (semicolon.start.after [';']) r) := by
    refine (hsteps.before (b := ';') (v := '\n' :: s) (IsBoundary.endsLexeme (Or.inl rfl))).append ?_
    refine .head (y := ⟨some semicolon, semicolon.start.after [';'], '\n' :: s⟩) ?_ (.head (export_step ?_ hr) (.refl _))
    · have hhere : Gap.scan (';' :: '\n' :: s) = .ok ⟨[], none, ';' :: '\n' :: s⟩ :=
        Gap.scan_eq_nil_iff.mpr ⟨by decide, by simp⟩
      refine ⟨⟨doc, ?_, hdoc⟩, hstart, by simp [h.text], ?_, rfl, by simp [h.text]⟩
      · rw [hgap', hhere, h.text]
        simp [Gap.precede, Gap.withDoc]
      · rw [h.text, hkind]
        exact lexeme_semicolon _ _ _
    · rw [scan_lineFeed, hscan]
      rfl
  obtain ⟨n, hn, hrun⟩ := run_of_steps (head?_append_ne h.begins (by decide)) hbreak
  obtain ⟨m, hm, hrun'⟩ := run_of_steps (head?_append_ne h.begins (by decide)) hsemicolon
  have hline : (q.after semicolon.gap.toList).line = (semicolon.start.after [';']).line := by
    rw [hstart]
    rfl
  have hplace : (q.after (semicolon.gap.toList ++ '\n' :: g)).Alike ((semicolon.start.after [';']).after ('\n' :: g)) := by
    rw [Position.after_append]
    exact Position.alike_after_lineFeed hline g
  refine ⟨exportAfter (semicolon.gap.toList ++ '\n' :: g) (d.or doc) q,
    exportAfter ('\n' :: g) d (semicolon.start.after [';']), _, _, n, m, ?_, ?_, ?_, hplace.after "export".toList, hn, hm,
    ?_, ?_⟩
  · rfl
  · simp [Token.newlineBefore, exportAfter]
  · exact Token.trace_eq_iff.mpr ⟨rfl, rfl, hplace⟩
  · simpa [behindExport] using hrun
  · simpa [behindExport] using hrun'

end NextLine

end Lexer

end AppBundler
