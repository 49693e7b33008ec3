import AppBundler.Proofs.Source.Faults
import AppBundler.Proofs.Source.Tree.Items
/-!
# Places of syntax errors

The line and the column of a syntax error lie in the source, whether a scanner fails or a parser. One kind of error is
told a column that its line may not have: at the end of the tokens, the column behind the last token is counted from
where the token begins, as if it stood in one line.
-/

namespace AppBundler

/-! ## Lines -/

namespace Position

/-- The characters of a line of a text, of which the first one is line 1. -/
def lineAt (s : List Char) (line : Nat) : List Char := (s.splitOn '\n').getD (line - 1) []

/-- A line of the text and a column in it or behind it. -/
structure PointsInto (s : List Char) (line column : Nat) : Prop where
  line_pos : 1 ≤ line
  line_le : line ≤ s.count '\n' + 1
  column_pos : 1 ≤ column
  column_le : column ≤ (lineAt s line).length + 1

variable {s p r : List Char} {c : Char}

theorem exists_splitOn (s : List Char) : ∃ first more, s.splitOn '\n' = first :: more :=
  List.exists_cons_of_ne_nil (List.splitOn_ne_nil _ _)

theorem lineAt_newline (s : List Char) (n : Nat) : lineAt ('\n' :: s) (n + 2) = lineAt s (n + 1) := by
  simp [lineAt, List.splitOn_cons_eq_if_modifyHead]

theorem lineAt_first (hc : c ≠ '\n') : lineAt (c :: s) 1 = c :: lineAt s 1 := by
  obtain ⟨first, more, hs⟩ := exists_splitOn s
  simp [lineAt, List.splitOn_cons_eq_if_modifyHead, hc, hs]

theorem lineAt_later (hc : c ≠ '\n') (n : Nat) : lineAt (c :: s) (n + 2) = lineAt s (n + 2) := by
  obtain ⟨first, more, hs⟩ := exists_splitOn s
  simp [lineAt, List.splitOn_cons_eq_if_modifyHead, hc, hs]

theorem lineAt_one (s : List Char) : lineAt s 1 = s.takeWhile (· ≠ '\n') := by
  induction s with
  | nil => rfl
  | cons c s ih =>
    by_cases hc : c = '\n'
    · simp [lineAt, List.splitOn_cons_eq_if_modifyHead, hc]
    · rw [lineAt_first hc, ih, List.takeWhile_cons_of_pos (by simpa using hc)]

/-- A text without line feeds is its own last line. -/
theorem lineOf_eq_self (h : '\n' ∉ s) : lineOf s = s := by
  have hall : ∀ c ∈ s.reverse, decide (c ≠ '\n') = true := by
    intro c hc
    have hne : c ≠ '\n' := fun heq => h (heq ▸ List.mem_reverse.mp hc)
    simpa using hne
  rw [lineOf, List.takeWhile_eq_self_iff.mpr hall, List.reverse_reverse]

/-- What stands before a line feed is no part of the last line. -/
theorem lineOf_cons (h : c = '\n' ∨ '\n' ∈ s) : lineOf (c :: s) = lineOf s := by
  rw [lineOf, lineOf, List.reverse_cons]
  congr 1
  rcases h with rfl | hs
  · rw [List.takeWhile_append]
    split
    case isTrue hlength => rw [(List.takeWhile_prefix _).eq_of_length hlength]; simp
    case isFalse => rfl
  · obtain ⟨a, b, hab⟩ := List.append_of_mem (List.mem_reverse.mpr hs)
    rw [hab]
    simp [List.takeWhile_append]

/-- **The line behind a part of a text** is the last line of the part and what follows it up to a line feed. -/
theorem lineAt_counted (p r : List Char) :
    lineAt (p ++ r) (counted p).line = lineOf p ++ r.takeWhile (· ≠ '\n') := by
  induction p with
  | nil => exact lineAt_one r
  | cons c p ih =>
    by_cases hc : c = '\n'
    · subst hc
      rw [lineOf_cons (.inl rfl), ← ih, counted, List.count_cons_self, List.cons_append]
      exact lineAt_newline _ _
    · have hcount : (c :: p).count '\n' = p.count '\n' := List.count_cons_of_ne hc
      rw [counted, hcount, List.cons_append]
      rw [counted] at ih
      by_cases hp : '\n' ∈ p
      · obtain ⟨k, hk⟩ : ∃ k, p.count '\n' = k + 1 := Nat.exists_eq_succ_of_ne_zero (by simpa [List.count_eq_zero] using hp)
        rw [hk] at ih ⊢
        rw [lineOf_cons (.inr hp), ← ih]
        exact lineAt_later hc k
      · have hzero : p.count '\n' = 0 := List.count_eq_zero.mpr hp
        rw [hzero] at ih ⊢
        have hplain : '\n' ∉ c :: p := by simpa [Ne.symm hc] using hp
        rw [lineOf_eq_self hp] at ih
        rw [lineOf_eq_self hplain, List.cons_append, ← ih]
        exact lineAt_first hc

theorem length_lineAt_counted (p r : List Char) : (lineAt (p ++ r) (counted p).line).length =
    (lineOf p).length + (r.takeWhile (· ≠ '\n')).length := by
  rw [lineAt_counted, List.length_append]

/-- The place behind a part of a text lies in the text. -/
theorem pointsInto_counted (h : p <+: s) : PointsInto s (counted p).line (counted p).column := by
  obtain ⟨r, rfl⟩ := h
  refine ⟨Nat.succ_pos _, ?_, Nat.succ_pos _, ?_⟩
  · rw [counted, List.count_append]
    exact Nat.succ_le_succ (Nat.le_add_right _ _)
  · rw [length_lineAt_counted, counted]
    exact Nat.succ_le_succ (Nat.le_add_right _ _)

end Position

open Position

/-! ## Errors of the parser -/

/-- A parser has found another token than expected, or the end, behind some of the tokens. -/
def Parsed.FoundIn (ts : List Token) (e : SyntaxError) : Prop :=
  ∃ n expected, e = (Cursor.next^[n] (.start ts)).unexpected expected

/-- **An error of the parser** is found at a place of its tokens. -/
theorem Module.ofTokens_error {ts : List Token} {e : SyntaxError} (h : ofTokens ts = .error e) : Parsed.FoundIn ts e := by
  have halike : Cursor.Alike .exact (fun c _ => ∃ n, c = Cursor.next^[n] (.start ts)) (.start ts) (.start ts) :=
    .self fun n => ⟨n, rfl⟩
  have hrel := Item.parseAll_rel (Inner.ofDepth_rel (Nat.le_succ ts.length) (Nat.le_succ ts.length)) halike (Nat.le_refl _)
    (Nat.lt_succ_self ts.length) (Nat.lt_succ_self ts.length)
  cases hitems : Item.parseAll (.ofDepth (ts.length + 1)) (ts.length + 1) (.start ts) with
  | ok items =>
    rw [ofTokens, hitems] at h
    cases h
  | error e' =>
    rw [ofTokens, hitems] at h
    obtain rfl := Except.error.inj h
    obtain ⟨c, d, expected, ⟨n, rfl⟩, rfl, -⟩ := hrel.exists_of_error hitems
    exact ⟨n, expected, rfl⟩

/-- The source ends too early behind a token that goes over several lines. -/
def EndsBehindLines (source : String) (e : SyntaxError) : Prop :=
  ∃ ts t expected, tokenize source = .ok ts ∧ ts.getLast? = some t ∧ '\n' ∈ t.text.toList ∧
    e.problem = .unexpected expected none

/-- A token stands behind a part of the source. -/
theorem exists_text_of_mem {source : String} {ts : List Token} {t : Token} (h : tokenize source = .ok ts) (ht : t ∈ ts) :
    ∃ p r, source.toList = p ++ (t.text.toList ++ r) ∧ t.start = .counted p := by
  have hcover := (tokenize_covers h).1
  generalize 0 = k at hcover
  clear h
  induction hcover with
  | nil => cases ht
  | @cons k u us hu _ ih =>
    rcases List.mem_cons.mp ht with rfl | ht
    · obtain ⟨before, gap, behind, hsource, -, -, hstart, -⟩ := hu
      exact ⟨before ++ gap, behind, by rw [hsource, List.append_assoc], hstart⟩
    · exact ih ht

/-- The column behind a token, counted in its first line, lies in that line just when the token does. -/
theorem column_le_iff {s p t r : List Char} (hs : s = p ++ (t ++ r)) :
    (counted p).column + t.length ≤ (lineAt s (counted p).line).length + 1 ↔ '\n' ∉ t := by
  have hcolumn : (counted p).column = (lineOf p).length + 1 := rfl
  rw [hs, length_lineAt_counted, hcolumn]
  by_cases ht : '\n' ∈ t
  · have hshort : (t.takeWhile (· ≠ '\n')).length ≠ t.length := by
      intro hlength
      have hall := List.takeWhile_eq_self_iff.mp ((List.takeWhile_prefix _).eq_of_length hlength)
      simpa using hall '\n' ht
    have hle := (List.takeWhile_prefix (l := t) (· ≠ '\n')).length_le
    rw [List.takeWhile_append, if_neg hshort]
    exact ⟨fun hcolumn => absurd hcolumn (by omega), fun hnot => absurd ht hnot⟩
  · have hall : ∀ c ∈ t, decide (c ≠ '\n') = true := by
      intro c hc
      have hne : c ≠ '\n' := fun heq => ht (heq ▸ hc)
      simpa using hne
    rw [List.takeWhile_append_of_pos hall, List.length_append]
    exact ⟨fun _ => ht, fun _ => by omega⟩

/-- An error that lies in the source is told all its bounds. -/
theorem PointsInto.bounds {source : String} {e : SyntaxError} (h : PointsInto source.toList e.line e.column)
    (hends : ¬ EndsBehindLines source e) : 1 ≤ e.line ∧ e.line ≤ source.toList.count '\n' + 1 ∧ 1 ≤ e.column ∧
      (e.column ≤ (lineAt source.toList e.line).length + 1 ↔ ¬ EndsBehindLines source e) :=
  ⟨h.line_pos, h.line_le, h.column_pos, fun _ => hends, fun _ => h.column_le⟩

/-- **Syntax errors point into the source**, but for one kind of them: where the source ends too early behind a token of
several lines, the line is that of its beginning and has no such column. -/
theorem ofSource_error_pointsInto_iff {source : String} {e : SyntaxError} (h : Module.ofSource source = .error e) :
    1 ≤ e.line ∧ e.line ≤ source.toList.count '\n' + 1 ∧ 1 ≤ e.column ∧
      (e.column ≤ (lineAt source.toList e.line).length + 1 ↔ ¬ EndsBehindLines source e) := by
  cases htokens : tokenize source with
  | error e' =>
    rw [Module.ofSource, htokens] at h
    obtain rfl : e' = e := Except.error.inj h
    obtain ⟨p, hp, hline, hcolumn⟩ := tokenize_error htokens
    refine PointsInto.bounds (by rw [hline, hcolumn]; exact pointsInto_counted hp) ?_
    rintro ⟨ts, t, expected, hts, -⟩
    cases htokens.symm.trans hts
  | ok ts =>
    rw [Module.ofSource, htokens] at h
    obtain ⟨n, expected, rfl⟩ := Module.ofTokens_error h
    rw [Cursor.iterate_next, Cursor.start, Option.or_none]
    dsimp only
    cases hahead : ts.drop n with
    | cons t r =>
      have ht : t ∈ ts := List.mem_of_mem_drop (hahead ▸ List.mem_cons_self)
      obtain ⟨p, r, hsource, hstart⟩ := exists_text_of_mem htokens ht
      refine PointsInto.bounds ?_ ?_
      · simp only [Cursor.unexpected, hstart]
        exact pointsInto_counted ⟨t.text.toList ++ r, hsource.symm⟩
      · rintro ⟨-, -, expected', -, -, -, hproblem⟩
        simp only [Cursor.unexpected, SyntaxProblem.unexpected.injEq, reduceCtorEq, and_false] at hproblem
    | nil =>
      have hlast : (ts.take n).getLast? = ts.getLast? := by
        rw [List.take_of_length_le (List.drop_eq_nil_iff.mp hahead)]
      rw [hlast]
      cases hbefore : ts.getLast? with
      | none =>
        refine PointsInto.bounds (pointsInto_counted List.nil_prefix) ?_
        rintro ⟨us, t, -, hus, ht, -⟩
        obtain rfl := Except.ok.inj (htokens.symm.trans hus)
        cases hbefore.symm.trans ht
      | some t =>
        obtain ⟨p, r, hsource, hstart⟩ := exists_text_of_mem htokens (List.mem_of_getLast? hbefore)
        have hpoints := pointsInto_counted (s := source.toList) ⟨t.text.toList ++ r, hsource.symm⟩
        simp only [Cursor.unexpected, hstart]
        refine ⟨hpoints.line_pos, hpoints.line_le, Nat.le_add_right_of_le hpoints.column_pos, ?_⟩
        rw [← String.length_toList, column_le_iff hsource]
        refine not_congr ⟨fun hfeed => ⟨ts, t, expected, htokens, hbefore, hfeed, rfl⟩, ?_⟩
        rintro ⟨us, u, -, hus, hu, hfeed, -⟩
        obtain rfl := Except.ok.inj (htokens.symm.trans hus)
        obtain rfl := Option.some.inj (hbefore.symm.trans hu)
        exact hfeed

/-- A string literal that its line ends. -/
def openString : String := "a\n'b\n"

theorem ofSource_error_pointsInto_iff_openString :
    Module.ofSource openString = .error ⟨.unterminatedString, 3, 1⟩ ∧ ¬ EndsBehindLines openString ⟨.unterminatedString, 3, 1⟩ ∧
      1 ≤ 3 ∧ 3 ≤ openString.toList.count '\n' + 1 ∧ 1 ≤ 1 ∧ 1 ≤ (lineAt openString.toList 3).length + 1 := by
  have htokens : tokenize openString = .error ⟨.unterminatedString, 3, 1⟩ := by decide +kernel
  have herror : Module.ofSource openString = .error ⟨.unterminatedString, 3, 1⟩ := by rw [Module.ofSource, htokens]; rfl
  have hends : ¬ EndsBehindLines openString ⟨.unterminatedString, 3, 1⟩ := by
    rintro ⟨-, -, expected, -, -, -, hproblem⟩
    cases hproblem
  obtain ⟨hline, hline', hcolumn, hcolumn'⟩ := ofSource_error_pointsInto_iff herror
  exact ⟨herror, hends, hline, hline', hcolumn, hcolumn'.mpr hends⟩

/-- A tuple type that the source leaves open behind a template literal of two lines. -/
def openTuple : String := "type T = [\x60x\ny\x60"

/-- **The column behind a template literal** of several lines is counted in its first line, which has no such column. -/
theorem column_beyond_line_of_openTuple :
    Module.ofSource openTuple = .error ⟨.unexpected .closedBrackets none, 1, 16⟩ ∧
      lineAt openTuple.toList 1 = "type T = [\x60x".toList ∧ ¬ PointsInto openTuple.toList 1 16 := by
  have hline : lineAt openTuple.toList 1 = "type T = [\x60x".toList := by decide
  refine ⟨by rfl, hline, fun h => ?_⟩
  have hcolumn := h.column_le
  rw [hline] at hcolumn
  exact absurd hcolumn (by decide)

end AppBundler
