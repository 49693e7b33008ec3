import AppBundler.Bundle.Graph
import AppBundler.Proofs.Bundle.Contents
import AppBundler.Proofs.Bundle.Schemas
import AppBundler.Proofs.Source.Tree.Data
/-!
# What the description of an app names

The description is one default export of a value, so none of its tokens begins an import, whatever the texts of the app
are. A pragma, however, is looked for in the characters of a module and not in its comments: a text of the app that
holds the word of the pragma with a blank behind it is taken for one, and the description then names a module.
-/

namespace AppBundler

/-! ## Parts of texts -/

section Parts

variable {α : Type} {a q : α} {p u v w : List α}

/-- A part is behind whatever does not hold its first element. -/
theorem infix_append_iff_right (hu : a ∉ u) : a :: p <:+: u ++ v ↔ a :: p <:+: v := by
  induction u with
  | nil => rfl
  | cons d u ih =>
    obtain ⟨hd, hu⟩ := not_or.mp (mt List.mem_cons.mpr hu)
    rw [List.cons_append, List.infix_cons_iff, ih hu, or_iff_right]
    intro hfront
    exact hd (List.cons_prefix_cons.mp hfront).1

theorem prefix_of_prefix_append_cons (hq : q ∉ p) (h : p <+: w ++ q :: v) : p <+: w := by
  rcases List.prefix_or_prefix_of_prefix h (List.prefix_append w (q :: v)) with hp | ⟨t, rfl⟩
  · exact hp
  · have ht : t <+: q :: v := (List.prefix_append_right_inj w).mp h
    cases t with
    | nil => rw [List.append_nil]
    | cons b t =>
      obtain ⟨rfl, -⟩ := List.cons_prefix_cons.mp ht
      exact absurd (List.mem_append_right w List.mem_cons_self) hq

/-- A part is on one side of an element that it does not hold. -/
theorem infix_append_cons_iff (hp : p ≠ []) (hq : q ∉ p) : p <:+: w ++ q :: v ↔ p <:+: w ∨ p <:+: v := by
  constructor
  · intro h
    induction w with
    | nil =>
      rcases List.infix_cons_iff.mp h with hfront | h
      · exact absurd (List.prefix_nil.mp (prefix_of_prefix_append_cons (w := []) hq hfront)) hp
      · exact .inr h
    | cons d w ih =>
      rcases List.infix_cons_iff.mp h with hfront | h
      · exact .inl (prefix_of_prefix_append_cons (w := d :: w) hq hfront).isInfix
      · exact (ih h).imp_left fun h => List.infix_cons_iff.mpr (.inr h)
  · rintro (h | h)
    · exact h.trans (List.prefix_append w _).isInfix
    · exact h.trans ((List.suffix_cons q v).trans (List.suffix_append w _)).isInfix

end Parts

/-! ## Where a pragma stands -/

namespace Pragma

/-- The word of the pragma stands somewhere with a blank behind it. -/
def OccursIn (s : List Char) : Prop := ∃ c, isBlank c = true ∧ keyword ++ [c] <:+: s

/-- A text of an app holds the word of the pragma with a blank behind it that is no control. -/
def StandsIn (s : String) : Prop := ∃ c, isBlank c = true ∧ 0x20 ≤ c.toNat ∧ keyword ++ [c] <:+: s.toList

theorem keyword_eq_cons : ∃ rest, keyword = '@' :: rest := ⟨"jsxImportSource".toList, by decide⟩

variable {s u v w : List Char} {q : Char}

theorem occursIn_append_iff (hu : '@' ∉ u) : OccursIn (u ++ v) ↔ OccursIn v := by
  obtain ⟨rest, hrest⟩ := keyword_eq_cons
  simp only [OccursIn, hrest, List.cons_append, infix_append_iff_right hu]

theorem occursIn_append_cons_iff (hq : q ∉ keyword) (hblank : isBlank q = false) :
    OccursIn (w ++ q :: v) ↔ OccursIn w ∨ OccursIn v := by
  have hpart (c : Char) (hc : isBlank c = true) :
      keyword ++ [c] <:+: w ++ q :: v ↔ keyword ++ [c] <:+: w ∨ keyword ++ [c] <:+: v := by
    refine infix_append_cons_iff (List.append_ne_nil_of_right_ne_nil _ (List.cons_ne_nil _ _)) ?_
    rw [List.mem_append, List.mem_singleton, not_or]
    refine ⟨hq, ?_⟩
    rintro rfl
    rw [hc] at hblank
    cases hblank
  simp only [OccursIn, ← exists_or, ← and_or_left]
  exact exists_congr fun c => and_congr_right fun hc => hpart c hc

theorem not_occursIn_of_length (h : s.length ≤ keyword.length) : ¬ OccursIn s := by
  rintro ⟨c, -, hpart⟩
  have hlength := hpart.length_le
  rw [List.length_append, List.length_singleton] at hlength
  omega

/-- What is found stands in the text. -/
theorem occursIn_of_find? {found : List Char} (h : find? s = some found) : OccursIn s := by
  induction s with
  | nil => cases h
  | cons a s ih =>
    rw [find?] at h
    cases hhere : here? (a :: s) with
    | none =>
      rw [hhere, Option.none_or] at h
      obtain ⟨c, hc, hpart⟩ := ih h
      exact ⟨c, hc, List.infix_cons_iff.mpr (.inr hpart)⟩
    | some word =>
      obtain ⟨r, hdrop, hr⟩ := Option.bind_eq_some_iff.mp hhere
      have hfront : a :: s = keyword ++ r := Text.dropFront?_eq_some_iff.mp hdrop
      cases r with
      | nil => simp at hr
      | cons c r =>
        have hblank : isBlank c = true := by
          by_contra hc
          simp [hc] at hr
        refine ⟨c, hblank, ?_⟩
        rw [hfront, ← List.singleton_append, ← List.append_assoc]
        exact (List.prefix_append _ _).isInfix

/-- What stands in a text is found when it names something. -/
theorem find?_ne_none {before rest : List Char} {c : Char} (hc : isBlank c = true) (hrest : ∃ d ∈ rest, isBlank d = false) :
    find? (before ++ (keyword ++ c :: rest)) ≠ none := by
  have hword : (((c :: rest).dropWhile isBlank).takeWhile fun c => !isBlank c) ≠ [] := by
    obtain ⟨d, hd, hplain⟩ := hrest
    cases hdrop : (c :: rest).dropWhile isBlank with
    | nil =>
      have hall := List.dropWhile_eq_nil_iff.mp hdrop d (List.mem_cons_of_mem c hd)
      rw [hplain] at hall
      cases hall
    | cons e r =>
      have he : isBlank e = false := by
        have hhead := List.head?_dropWhile_not isBlank (c :: rest)
        rw [hdrop] at hhead
        simpa using hhead
      rw [List.takeWhile_cons, he]
      exact List.cons_ne_nil _ _
  have hhere : here? (keyword ++ c :: rest) ≠ none := by
    have hdrop : Text.dropFront? keyword (keyword ++ c :: rest) = some (c :: rest) := Text.dropFront?_eq_some_iff.mpr rfl
    have hnamed : ((c :: rest).head?.any isBlank &&
        !(((c :: rest).dropWhile isBlank).takeWhile fun c => !isBlank c).isEmpty) = true := by
      rw [List.head?_cons, Option.any_some, hc, Bool.true_and, Bool.not_eq_true', List.isEmpty_eq_false_iff]
      exact hword
    rw [here?, hdrop, Option.bind_some, if_pos hnamed]
    exact Option.some_ne_none _
  induction before with
  | nil =>
    obtain ⟨front, hfront⟩ := keyword_eq_cons
    rw [List.nil_append]
    rw [hfront, List.cons_append] at hhere ⊢
    rw [find?, ne_eq, Option.or_eq_none_iff, not_and_or]
    exact .inl hhere
  | cons a before ih =>
    rw [List.cons_append, find?, ne_eq, Option.or_eq_none_iff, not_and_or]
    exact .inr ih

/-- **A pragma is found** before the end of a statement where its word stands with a blank behind it. -/
theorem find?_statement_iff (w : List Char) : find? (w ++ [';', '\n']) ≠ none ↔ OccursIn w := by
  have hends : OccursIn (w ++ [';', '\n']) ↔ OccursIn w := by
    rw [occursIn_append_cons_iff (by decide) (by decide)]
    exact or_iff_left (not_occursIn_of_length (by decide))
  constructor
  · intro h
    obtain ⟨found, hfound⟩ := Option.ne_none_iff_exists'.mp h
    exact hends.mp (occursIn_of_find? hfound)
  · rintro ⟨c, hc, before, rest, hw⟩
    have hsplit : w ++ [';', '\n'] = before ++ (keyword ++ c :: (rest ++ [';', '\n'])) := by
      rw [← hw]
      simp
    rw [hsplit]
    exact find?_ne_none hc ⟨';', by simp, by decide⟩

/-- A text has no pragma where none is found before the end of a statement. -/
theorem not_standsIn {s : String} (h : find? (s.toList ++ [';', '\n']) = none) : ¬ StandsIn s := by
  rintro ⟨c, hc, -, hpart⟩
  exact (find?_statement_iff s.toList).mpr ⟨c, hc, hpart⟩ h

end Pragma

/-! ## The strings of a value -/

namespace Json

/-- What is no quote, no backslash and no control stands for itself. -/
theorem escapeChar_of_plain {c : Char} (hquote : c ≠ '"') (hslash : c ≠ '\\') (hcontrol : 0x20 ≤ c.toNat) :
    escapeChar c = [c] := by
  have hne : ∀ d : Char, d.toNat < 0x20 → c ≠ d := by
    rintro d hd rfl
    omega
  rw [escapeChar, if_neg hquote, if_neg hslash, if_neg (hne _ (by decide)), if_neg (hne _ (by decide)),
    if_neg (hne _ (by decide)), if_neg (hne _ (by decide)), if_neg (hne _ (by decide)), if_neg (Nat.not_lt.mpr hcontrol)]

theorem escapeChar_of_control {c : Char} (h : c.toNat < 0x20) : ∃ r, escapeChar c = '\\' :: r ∧ '@' ∉ '\\' :: r := by
  have hall : ∀ n < 0x20, (escapeChar (Char.ofNat n)).head? = some '\\' ∧ '@' ∉ escapeChar (Char.ofNat n) := by decide
  obtain ⟨hhead, hsign⟩ := hall c.toNat h
  rw [Char.ofNat_toNat] at hhead hsign
  obtain ⟨r, hr⟩ := List.head?_eq_some_iff.mp hhead
  exact ⟨r, hr, hr ▸ hsign⟩

/-- A character stands for itself or is written from a backslash on, without an at sign. -/
theorem escapeChar_cases (c : Char) : escapeChar c = [c] ∨ ∃ r, escapeChar c = '\\' :: r ∧ '@' ∉ '\\' :: r := by
  rcases Nat.lt_or_ge c.toNat 0x20 with hlow | hhigh
  · exact .inr (escapeChar_of_control hlow)
  · obtain rfl | hquote := eq_or_ne c '"'
    · exact .inr ⟨_, rfl, by decide⟩
    · obtain rfl | hslash := eq_or_ne c '\\'
      · exact .inr ⟨_, rfl, by decide⟩
      · exact .inl (escapeChar_of_plain hquote hslash hhigh)

variable {p s w : List Char}

/-- What a quoted text begins with, but for a backslash, the text begins with. -/
theorem prefix_flatMap_escapeChar_iff (hw : '\\' ∉ w) :
    w <+: s.flatMap escapeChar ↔ w <+: s ∧ ∀ a ∈ w, escapeChar a = [a] := by
  induction w generalizing s with
  | nil => simp
  | cons a w ih =>
    obtain ⟨ha, hw⟩ := not_or.mp (mt List.mem_cons.mpr hw)
    cases s with
    | nil => simp
    | cons d s =>
      rw [List.flatMap_cons, List.cons_prefix_cons, List.forall_mem_cons]
      rcases escapeChar_cases d with hd | ⟨r, hd, -⟩
      · rw [hd, List.singleton_append, List.cons_prefix_cons, ih hw]
        constructor
        · rintro ⟨rfl, hfront, hplain⟩
          exact ⟨⟨rfl, hfront⟩, hd, hplain⟩
        · rintro ⟨⟨rfl, hfront⟩, -, hplain⟩
          exact ⟨rfl, hfront, hplain⟩
      · rw [hd, List.cons_append, List.cons_prefix_cons]
        constructor
        · rintro ⟨rfl, -⟩
          exact absurd rfl ha
        · rintro ⟨⟨rfl, -⟩, hplain, -⟩
          rw [hd] at hplain
          exact absurd (List.cons.inj hplain).1 ha

/-- A part of a quoted text from an at sign on is a part of the text. -/
theorem infix_flatMap_escapeChar_iff (hp : '\\' ∉ '@' :: p) :
    '@' :: p <:+: s.flatMap escapeChar ↔ '@' :: p <:+: s ∧ ∀ a ∈ '@' :: p, escapeChar a = [a] := by
  induction s with
  | nil => simp
  | cons d s ih =>
    rcases escapeChar_cases d with hd | ⟨r, hd, hr⟩
    · have hfront := prefix_flatMap_escapeChar_iff (s := d :: s) hp
      rw [List.flatMap_cons, hd, List.singleton_append] at hfront ⊢
      rw [List.infix_cons_iff, List.infix_cons_iff, hfront, ih, or_and_right]
    · rw [List.flatMap_cons, hd, infix_append_iff_right hr, ih, List.infix_cons_iff, or_iff_right]
      intro hfront
      obtain ⟨rfl, -⟩ := List.cons_prefix_cons.mp hfront
      exact hr (hd ▸ List.mem_singleton_self _)

mutual

/-- The strings in a value, the keys of its objects among them. -/
def strings : Json → List String
  | .null | .bool _ | .int _ | .double _ => []
  | .string s => [s]
  | .array xs => elementStrings xs
  | .object ms => memberStrings ms

/-- The strings in some values. -/
def elementStrings : List Json → List String
  | [] => []
  | x :: r => strings x ++ elementStrings r

/-- The strings in some members. -/
def memberStrings : List (String × Json) → List String
  | [] => []
  | (k, v) :: r => k :: strings v ++ memberStrings r

end

open Pragma

/-- A blank stands for itself when it is no control. -/
theorem escapeChar_of_isBlank {c : Char} (hc : isBlank c = true) : escapeChar c = [c] ↔ 0x20 ≤ c.toNat := by
  have hquote : c ≠ '"' := by
    rintro rfl
    exact absurd hc (by decide)
  have hslash : c ≠ '\\' := by
    rintro rfl
    exact absurd hc (by decide)
  refine ⟨fun h => ?_, escapeChar_of_plain hquote hslash⟩
  by_contra hlow
  obtain ⟨r, hr, -⟩ := escapeChar_of_control (Nat.not_le.mp hlow)
  exact hslash (List.cons.inj (h.symm.trans hr)).1

/-- A quoted text has the word of the pragma with a blank behind it where the text has. -/
theorem occursIn_escaped_iff (s : String) : OccursIn (s.toList.flatMap escapeChar) ↔ StandsIn s := by
  obtain ⟨rest, hrest⟩ := keyword_eq_cons
  have hplain : '\\' ∉ keyword := by decide
  have hall : (keyword.all fun a => escapeChar a = [a]) = true := by decide
  have hkeyword : ∀ a ∈ keyword, escapeChar a = [a] := fun a ha => of_decide_eq_true (List.all_eq_true.mp hall a ha)
  refine exists_congr fun c => and_congr_right fun hc => ?_
  have hslash : '\\' ∉ keyword ++ [c] := by
    rw [List.mem_append, List.mem_singleton, not_or]
    refine ⟨hplain, ?_⟩
    rintro rfl
    exact absurd hc (by decide)
  have hescaped : (∀ a ∈ keyword ++ [c], escapeChar a = [a]) ↔ 0x20 ≤ c.toNat := by
    rw [List.forall_mem_append, List.forall_mem_singleton, and_iff_right hkeyword, escapeChar_of_isBlank hc]
  rw [hrest, List.cons_append] at hslash hescaped ⊢
  rw [infix_flatMap_escapeChar_iff hslash, hescaped, and_comm]

theorem occursIn_quoted_append (s : String) (v : List Char) : OccursIn (quoted s ++ v) ↔ StandsIn s ∨ OccursIn v := by
  have hquote : '@' ∉ ['"'] := by decide
  have hshape : quoted s ++ v = ['"'] ++ (s.toList.flatMap escapeChar ++ '"' :: v) := by simp [quoted]
  rw [hshape, occursIn_append_iff hquote, occursIn_append_cons_iff (by decide) (by decide), occursIn_escaped_iff]

theorem occursIn_cons_iff {c : Char} (hc : c ≠ '@') (v : List Char) : OccursIn (c :: v) ↔ OccursIn v :=
  occursIn_append_iff (u := [c]) (by simpa using hc.symm)

theorem occursIn_indent_append (depth : Nat) (v : List Char) : OccursIn (indent depth ++ v) ↔ OccursIn v := by
  refine occursIn_append_iff ?_
  rw [indent, List.mem_cons, not_or]
  refine ⟨by decide, fun hmem => ?_⟩
  exact absurd (List.eq_of_mem_replicate hmem) (by decide)

theorem occursIn_signed_append {s : List Char} (hs : IsSigned s) (v : List Char) : OccursIn (s ++ v) ↔ OccursIn v := by
  refine occursIn_append_iff (hs.not_mem (fun hex last => ?_) (by decide))
  simp [Lexeme.continuesNumber]

mutual

/-- **A pragma stands in the indented text of a value** where it stands in one of the strings. -/
theorem occursIn_indented (depth : Nat) (v : List Char) : ∀ j : Json,
    OccursIn (indentedChars depth j ++ v) ↔ (∃ s ∈ strings j, StandsIn s) ∨ OccursIn v
  | .null => by
    rw [strings, indentedChars, chars, occursIn_append_iff (by decide)]
    simp
  | .bool b => by
    have hplain : '@' ∉ chars (.bool b) := by cases b <;> decide
    rw [strings, indentedChars, occursIn_append_iff hplain]
    simp
  | .int n => by
    rw [strings, indentedChars, chars, occursIn_signed_append (isSigned_intChars n)]
    simp
  | .double x => by
    rw [strings, indentedChars, chars, occursIn_signed_append x.isSigned_toText]
    simp
  | .string s => by
    rw [strings, indentedChars, chars, occursIn_quoted_append]
    simp
  | .array [] => by
    rw [strings, elementStrings, indentedChars, occursIn_append_iff (by decide)]
    simp
  | .array (x :: xs) => by
    have helements := occursIn_indentedElements (depth + 1) (indent depth ++ ']' :: v) (x :: xs)
    rw [strings, indentedChars]
    · simp only [List.cons_append, List.append_assoc, List.nil_append]
      rw [occursIn_cons_iff (by decide), helements, occursIn_indent_append, occursIn_cons_iff (by decide)]
    · simp
  | .object [] => by
    rw [strings, memberStrings, indentedChars, occursIn_append_iff (by decide)]
    simp
  | .object (m :: ms) => by
    have hmembers := occursIn_indentedMembers (depth + 1) (indent depth ++ '}' :: v) (m :: ms)
    rw [strings, indentedChars]
    · simp only [List.cons_append, List.append_assoc, List.nil_append]
      rw [occursIn_cons_iff (by decide), hmembers, occursIn_indent_append, occursIn_cons_iff (by decide)]
    · simp

theorem occursIn_indentedElements (depth : Nat) (v : List Char) : ∀ xs : List Json,
    OccursIn (indentedElements depth xs ++ v) ↔ (∃ s ∈ elementStrings xs, StandsIn s) ∨ OccursIn v
  | [] => by
    rw [elementStrings, indentedElements, List.nil_append]
    simp
  | [x] => by
    rw [elementStrings, elementStrings, List.append_nil, indentedElements, List.append_assoc, occursIn_indent_append,
      occursIn_indented depth v x]
  | x :: y :: r => by
    have hrest := occursIn_indentedElements depth v (y :: r)
    rw [elementStrings, indentedElements]
    simp only [List.cons_append, List.append_assoc]
    rw [occursIn_indent_append, occursIn_indented depth _ x, occursIn_cons_iff (by decide), hrest]
    simp only [List.mem_append, or_and_right, exists_or, or_assoc]

theorem occursIn_indentedMembers (depth : Nat) (v : List Char) : ∀ ms : List (String × Json),
    OccursIn (indentedMembers depth ms ++ v) ↔ (∃ s ∈ memberStrings ms, StandsIn s) ∨ OccursIn v
  | [] => by
    rw [memberStrings, indentedMembers, List.nil_append]
    simp
  | [(k, x)] => by
    rw [memberStrings, memberStrings, List.append_nil, indentedMembers]
    simp only [List.cons_append, List.append_assoc]
    rw [occursIn_indent_append, occursIn_quoted_append, occursIn_cons_iff (by decide), occursIn_cons_iff (by decide),
      occursIn_indented depth v x]
    simp only [List.mem_cons, or_and_right, exists_or, exists_eq_left, or_assoc]
  | (k, x) :: m :: r => by
    have hrest := occursIn_indentedMembers depth v (m :: r)
    rw [memberStrings, indentedMembers]
    simp only [List.cons_append, List.append_assoc]
    rw [occursIn_indent_append, occursIn_quoted_append, occursIn_cons_iff (by decide), occursIn_cons_iff (by decide),
      occursIn_indented depth _ x, occursIn_cons_iff (by decide), hrest]
    simp only [List.mem_cons, List.mem_append, or_and_right, exists_or, exists_eq_left, or_assoc]

end

end Json

/-! ## The module -/

namespace Boot

open Token Json Lexeme

theorem toList_description (b : BootInfo) :
    (description b).toList = "export default ".toList ++ indentedChars 0 (toJson b) ++ [';', '\n'] := by
  have htext : description b = "export default " ++ String.ofList (indentedChars 0 (toJson b)) ++ ";\n" := rfl
  have hback : ";\n".toList = [';', '\n'] := by decide
  rw [htext]
  simp only [String.toList_append, String.toList_ofList, hback]

/-- The description is laid out from tokens none of which begins an import. -/
theorem exists_laid_description (b : BootInfo) : ∃ us, description b =
      String.ofList (spell (ofWord "" "export" :: ofWord " " "default" :: (us ++ [ofMark "" ";"])) ++ ['\n']) ∧
    (∀ t ∈ us, Import.IsQuiet t) ∧
      Laid true (ofWord "" "export" :: ofWord " " "default" :: (us ++ [ofMark "" ";"])) ['\n'] := by
  obtain ⟨us, hspell, hquiet, hlaid⟩ := readsAsData_indented (g := [' ']) (by decide) 0 (toJson b)
  refine ⟨us, ?_, hquiet, ?_⟩
  · have hfront : "export default ".toList = "export".toList ++ (" ".toList ++ ("default".toList ++ [' '])) := by decide
    have hback : ";".toList = [';'] := by decide
    have hempty : "".toList = [] := rfl
    rw [← String.toList_inj, toList_description]
    simp only [String.toList_ofList, spell_cons, spell_append, spell_nil, hspell, ofWord, ofMark, hfront, hback, hempty,
      List.append_assoc, List.cons_append, List.nil_append]
  · have hend : ∀ operand, Laid operand [ofMark "" ";"] ['\n'] := .bracket "" ";" (by decide) (by decide) fun _ => .nil _ _
    have hspace : Stops (spell (us ++ [ofMark "" ";"]) ++ ['\n']) := by
      rw [spell_append, hspell]
      exact .cons (by decide) _
    have hdefault := Laid.plainWord " " "default" (by decide) (by decide) hspace
      (hlaid _ _ hend (stops_of_tight rfl (by decide)))
    exact .plainWord "" "export" (by decide) (by decide) (stops_of_spaced rfl) hdefault true

/-- **The description imports nothing**, and it can be read. -/
theorem scan_description (b : BootInfo) : Import.scan (description b) = .ok [] := by
  obtain ⟨us, htext, hquiet, hlaid⟩ := exists_laid_description b
  have hexport : "export".toList = 'e' :: "xport".toList := by decide
  obtain ⟨all, htokens, hall⟩ := hlaid.tokenize (by simp [ofWord, hexport]) (by decide)
  obtain ⟨imports, hscan, himports⟩ := Import.scan_of_shows htokens hall
  have hquiet : ∀ t ∈ ofWord " " "default" :: (us ++ [ofMark "" ";"]), Import.IsQuiet t := by
    refine List.forall_mem_cons.mpr ⟨by simp [Import.IsQuiet], List.forall_mem_append.mpr ⟨hquiet, ?_⟩⟩
    simp [Import.IsQuiet]
  have hnone : Import.ofTokens false (ofWord "" "export" :: ofWord " " "default" :: (us ++ [ofMark "" ";"])) =
      Import.ofTokens false (ofWord " " "default" :: (us ++ [ofMark "" ";"]) ++ []) := by
    rw [List.append_nil]
    simp [Import.ofTokens, Import.afterExport]
  rw [hnone, Import.ofTokens_quiet hquiet] at himports
  obtain rfl : imports = [] := List.map_eq_nil_iff.mp himports
  rw [htext, hscan]

/-- **A pragma is found in the description** where it stands in one of its texts. -/
theorem jsxImportSource?_description (b : BootInfo) :
    jsxImportSource? (description b) ≠ none ↔ ∃ s ∈ (toJson b).strings, Pragma.StandsIn s := by
  have hfront : '@' ∉ "export default ".toList := by decide
  have hvalue := occursIn_indented 0 [] (toJson b)
  rw [List.append_nil] at hvalue
  rw [jsxImportSource?, ne_eq, Option.map_eq_none_iff, toList_description, ← ne_eq, Pragma.find?_statement_iff,
    Pragma.occursIn_append_iff hfront, hvalue]
  exact or_iff_left (Pragma.not_occursIn_of_length (Nat.zero_le _))

end Boot

namespace BuildContext

/-- The URL of the description. -/
def descriptionUrl : Url := ⟨"file", some ⟨"", "", none⟩, "/framework/_generated/boot.ts", none, none⟩

/-- The module of the description, as it is loaded. -/
def descriptionModule (b : BootInfo) : SourceModule :=
  ⟨"file:///framework/_generated/boot.ts", [("content-type", "text/typescript")], Boot.description b⟩

variable {config : BuildConfig} {cache : ModuleCache} {request : BuildRequest} {c : BuildContext} {b : BootInfo}

theorem frameworkRoot_eq (h : ofRequest config cache request = .ok c) :
    c.namespaces.frameworkRoot = Namespaces.frameworkDirectory := by
  obtain ⟨hbase, -⟩ := ofRequest_eq_ok h
  unfold Namespaces.ofBase at hbase
  dsimp only at hbase
  split at hbase
  · rw [← Except.ok.inj hbase]
  · cases hbase

theorem frameworkUrl_description (h : ofRequest config cache request = .ok c) :
    c.namespaces.frameworkUrl Boot.descriptionPath = .ok descriptionUrl := by
  have hjoin : Namespaces.frameworkDirectory.join Boot.descriptionPath = .ok descriptionUrl := by decide +kernel
  rw [Namespaces.frameworkUrl, frameworkRoot_eq h, hjoin]
  rfl

/-- The description is loaded without a file. -/
theorem loadFramework_description (h : ofRequest config cache request = .ok c) (readFile : String → Except FileFault String) :
    c.loadFramework readFile descriptionUrl = .ok (descriptionModule
      ⟨request.app.id, request.app.slug, request.version, c.scripts, c.entry.text⟩) := by
  have hpath : Namespaces.pathUnder Namespaces.frameworkDirectory descriptionUrl = Boot.descriptionPath := by decide
  have hindex : Boot.descriptionPath ≠ Boot.indexPath := by decide
  have htext : descriptionUrl.text = "file:///framework/_generated/boot.ts" := by decide
  have hheaders : Framework.headers Boot.descriptionPath = [("content-type", "text/typescript")] := by decide
  rw [loadFramework, frameworkRoot_eq h, hpath, frameworkText, if_neg hindex, if_pos rfl, bootModule_eq h, htext, hheaders]
  rfl

/-- The description names nothing but the runtime of a pragma. -/
theorem namedSpecifiers_description (b : BootInfo) : (descriptionModule b).namedSpecifiers =
    .ok ((jsxImportSource? (Boot.description b)).toList.map (· ++ "/jsx-runtime")) := by
  have hscript : (descriptionModule b).isScript = true := by
    have hsame : (descriptionModule b).isScript =
        SourceModule.isScript ⟨"file:///framework/_generated/boot.ts", [("content-type", "text/typescript")], ""⟩ := rfl
    rw [hsame]
    decide +kernel
  have hcontent : (descriptionModule b).content = Boot.description b := rfl
  simp only [SourceModule.namedSpecifiers, hscript, if_true, hcontent, Boot.scan_description, List.map_nil,
    List.nil_append]

theorem dependencies_descriptionModule_iff (b : BootInfo) (base : Url) :
    dependencies (descriptionModule b) base = .ok [] ↔ jsxImportSource? (Boot.description b) = none := by
  rw [dependencies, namedSpecifiers_description]
  cases jsxImportSource? (Boot.description b) with
  | none => exact iff_of_true rfl rfl
  | some source =>
    refine iff_of_false ?_ (Option.some_ne_none _)
    intro hnone
    cases hurl : resolveDependency (source ++ "/jsx-runtime") base with
    | error e => simp [bind, Except.bind, hurl] at hnone
    | ok url => simp [bind, Except.bind, pure, Except.pure, hurl] at hnone

/-- **The description of an app names no module** unless the word of the pragma stands in one of the texts that it
holds, with a blank behind it that is no control. Then it names the runtime that the pragma is taken to ask for, and
nothing else. -/
theorem dependencies_description_iff (h : ofRequest config cache request = .ok c)
    (readFile : String → Except FileFault String) :
    ∃ url m, c.namespaces.frameworkUrl Boot.descriptionPath = .ok url ∧ c.loadFramework readFile url = .ok m ∧
      m.namedSpecifiers = .ok ((jsxImportSource? m.content).toList.map (· ++ "/jsx-runtime")) ∧
      (dependencies m url = .ok [] ↔
        ∀ s ∈ (Boot.toJson ⟨request.app.id, request.app.slug, request.version, c.scripts, c.entry.text⟩).strings,
          ¬ Pragma.StandsIn s) := by
  refine ⟨_, _, frameworkUrl_description h, loadFramework_description h readFile, namedSpecifiers_description _, ?_⟩
  rw [dependencies_descriptionModule_iff, ← not_ne_iff, Boot.jsxImportSource?_description, not_exists]
  exact forall_congr' fun s => not_and

/-- The request to build an app that has no script. -/
def slugRequest (slug : String) : BuildRequest := ⟨⟨"app-1", slug, none, []⟩, "deno", "1", none⟩

theorem exists_ofRequest_slugRequest (slug : String) : ∃ c, ofRequest .default .default (slugRequest slug) = .ok c ∧
    c.scripts = [] ∧ c.entry.text = "file:///framework/main.tsx" := by
  have hbundled : (slugRequest slug).app.bundled = [] := by simp [slugRequest, App.bundled]
  have hbase : Url.parse (Namespaces.closedWithSlash Namespaces.defaultBase) = .ok (localDirectory "src") := by decide +kernel
  have hentry : Namespaces.frameworkDirectory.join BuildConfig.default.frameworkEntry =
      .ok ⟨"file", some ⟨"", "", none⟩, "/framework/main.tsx", none, none⟩ := by decide +kernel
  have htext : Url.text ⟨"file", some ⟨"", "", none⟩, "/framework/main.tsx", none, none⟩ =
      "file:///framework/main.tsx" := by decide
  have hurl : (slugRequest slug).baseUrl = none := rfl
  unfold ofRequest Namespaces.ofBase Namespaces.frameworkUrl
  simp only [hbundled, hurl, Option.getD_none, hbase, hentry, Except.mapError, bind, Except.bind]
  exact ⟨_, rfl, rfl, htext⟩

/-- The word of the pragma can stand in the texts of an app when no blank is behind it. -/
theorem dependencies_description_noted : ∃ c url m,
    ofRequest .default .default (slugRequest "no @jsxImportSource: here") = .ok c ∧
    c.namespaces.frameworkUrl Boot.descriptionPath = .ok url ∧
    c.loadFramework (fun _ => .error .notFound) url = .ok m ∧ dependencies m url = .ok [] := by
  obtain ⟨c, hc, hscripts, hentry⟩ := exists_ofRequest_slugRequest "no @jsxImportSource: here"
  obtain ⟨url, m, hurl, hm, -, hnone⟩ := dependencies_description_iff hc fun _ => .error .notFound
  refine ⟨c, url, m, hc, hurl, hm, hnone.mpr ?_⟩
  rw [hscripts, hentry]
  intro s hs
  have hnone : ∀ s ∈ (Boot.toJson ⟨"app-1", "no @jsxImportSource: here", "1", [], "file:///framework/main.tsx"⟩).strings,
      Pragma.find? (s.toList ++ [';', '\n']) = none := by decide +kernel
  exact Pragma.not_standsIn (hnone s hs)

/-- **An app is described by a module that names another one** when its slug tells of the pragma. -/
theorem dependencies_description_pragma : ∃ c url m,
    ofRequest .default .default (slugRequest "the @jsxImportSource pragma") = .ok c ∧
    c.namespaces.frameworkUrl Boot.descriptionPath = .ok url ∧
    c.loadFramework (fun _ => .error .notFound) url = .ok m ∧
    m.namedSpecifiers = .ok ["pragma\",/jsx-runtime"] ∧ dependencies m url ≠ .ok [] := by
  obtain ⟨c, hc, hscripts, hentry⟩ := exists_ofRequest_slugRequest "the @jsxImportSource pragma"
  have hsource : jsxImportSource? (Boot.description ⟨"app-1", "the @jsxImportSource pragma", "1", [],
      "file:///framework/main.tsx"⟩) = some "pragma\"," := by
    rw [jsxImportSource?, Boot.toList_description]
    decide +kernel
  rw [← hscripts, ← hentry] at hsource
  refine ⟨c, _, _, hc, frameworkUrl_description hc, loadFramework_description hc _, ?_, ?_⟩
  · rw [namedSpecifiers_description]
    exact congrArg (fun source? => Except.ok ((Option.toList source?).map (· ++ "/jsx-runtime"))) hsource
  · intro hnone
    have hmissing := (dependencies_descriptionModule_iff _ _).mp hnone
    cases hmissing.symm.trans hsource

end BuildContext

end AppBundler
