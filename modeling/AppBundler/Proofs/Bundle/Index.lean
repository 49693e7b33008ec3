import AppBundler.Bundle.Boot
import AppBundler.Proofs.Source.Inside
import AppBundler.Proofs.Source.Tree.Objects
/-!
# The index of scripts is read back

The index is written for others to compile, and it can be read by the same scanner and the same parser that read
scripts: whatever the file names and specifiers are, the imports are the specifiers, and the default export binds every
file name to the name under which its script was imported.
-/

namespace AppBundler

open Lexeme Lexer Token

namespace Boot

/-! ## Its tokens -/

/-- The tokens of the import of a script. -/
def importTokens (gap : String) (n : Nat) (specifier : String) : List Token :=
  [ofWord gap "import", ofMark " " "*", ofWord " " "as", ofWord " " (scriptName n), ofWord " " "from",
    ofText " " specifier, ofMark "" ";"]

/-- What the index binds, with the number of each script. -/
def props (scripts : List ((String × String) × Nat)) : List (String × String) :=
  scripts.map fun s => (s.1.1, scriptName s.2)

/-- The tokens of the default export. -/
def exportTokens (gap : String) (ps : List (String × String)) : List Token :=
  ofWord gap "export" :: ofWord " " "default" :: ofMark " " "\x7b" ::
    (ps.flatMap (Expr.propTokens "\n  ") ++ [ofMark "\n" "\x7d", ofMark "" ";"])

/-- The tokens of imports, the first of them behind a gap, and of the export that they are for. -/
def indexTokens (ps : List (String × String)) : (gap : String) → List ((String × String) × Nat) → List Token
  | gap, [] => exportTokens (gap ++ "\n") ps
  | gap, s :: r => importTokens gap s.2 s.1.2 ++ indexTokens ps "\n" r

variable {gap : String} {n : Nat} {scripts : List ((String × String) × Nat)} {ps : List (String × String)}

theorem quotedText_toList (s : String) : (quotedText s).toList = (ofText "" s).text.toList := by
  rw [quotedText, Json.compact, ofText, String.toList_ofList, String.toList_ofList, Json.chars]

/-- The line of an import. -/
def importLine (n : Nat) (specifier : String) : String :=
  "import * as " ++ scriptName n ++ " from " ++ quotedText specifier ++ ";\n"

theorem spell_importTokens (gap : String) (n : Nat) (specifier : String) :
    spell (importTokens gap n specifier) ++ ['\n'] = gap.toList ++ (importLine n specifier).toList := by
  have himport : "import * as ".toList =
      "import".toList ++ (" ".toList ++ ("*".toList ++ (" ".toList ++ ("as".toList ++ " ".toList)))) := by decide
  have hfrom : " from ".toList = " ".toList ++ ("from".toList ++ " ".toList) := by decide
  have hend : ";\n".toList = ";".toList ++ ['\n'] := by decide
  have hempty : "".toList = [] := rfl
  simp only [importTokens, importLine, spell_cons, spell_nil, ofWord, ofMark, ofText, String.toList_append, quotedText_toList,
    himport, hfrom, hend, hempty, List.append_assoc, List.nil_append]

/-- The line of a property. -/
def propLine (p : String × String) : String := "  " ++ quotedText p.1 ++ ": " ++ p.2 ++ ",\n"

theorem spell_propTokens (p : String × String) :
    spell (Expr.propTokens "\n  " p) ++ ['\n'] = '\n' :: (propLine p).toList := by
  have hgap : "\n  ".toList = '\n' :: "  ".toList := by decide
  have hcolon : ": ".toList = ":".toList ++ " ".toList := by decide
  have hend : ",\n".toList = ",".toList ++ ['\n'] := by decide
  have hempty : "".toList = [] := rfl
  simp only [Expr.propTokens, propLine, spell_cons, spell_nil, ofWord, ofMark, ofText, String.toList_append, quotedText_toList,
    hgap, hcolon, hend, hempty, List.append_assoc, List.nil_append, List.cons_append]

/-- The line break behind a property is written before the next one. -/
theorem spell_flatMap_propTokens (ps : List (String × String)) :
    spell (ps.flatMap (Expr.propTokens "\n  ")) ++ ['\n'] = '\n' :: ps.flatMap fun p => (propLine p).toList := by
  induction ps with
  | nil => rfl
  | cons p ps ih =>
    rw [List.flatMap_cons, List.flatMap_cons, spell_append, List.append_assoc, ih, ← List.cons_append,
      ← spell_propTokens, List.append_assoc, List.singleton_append]

theorem spell_exportTokens (gap : String) (ps : List (String × String)) :
    spell (exportTokens gap ps) ++ ['\n'] = gap.toList ++ ("export default \x7b".toList ++
      ('\n' :: (ps.flatMap fun p => (propLine p).toList) ++ "\x7d;\n".toList)) := by
  have hfront : "export default \x7b".toList =
      "export".toList ++ (" ".toList ++ ("default".toList ++ (" ".toList ++ "\x7b".toList))) := by decide
  have hback : "\x7d;\n".toList = "\x7d".toList ++ (";".toList ++ ['\n']) := by decide
  have hbreak : "\n".toList = ['\n'] := by decide
  have hempty : "".toList = [] := rfl
  rw [← spell_flatMap_propTokens]
  simp only [exportTokens, spell_cons, spell_append, spell_nil, ofWord, ofMark, hfront, hback, hbreak, hempty, List.append_assoc,
    List.nil_append]

/-- The line break behind an import is written before what follows it. -/
theorem spell_indexTokens (ps : List (String × String)) (gap : String) (scripts : List ((String × String) × Nat)) :
    spell (indexTokens ps gap scripts) ++ ['\n'] = gap.toList ++
      ((scripts.flatMap fun s => (importLine s.2 s.1.2).toList) ++ '\n' :: (spell (exportTokens "" ps) ++ ['\n'])) := by
  induction scripts generalizing gap with
  | nil =>
    rw [indexTokens, spell_exportTokens, spell_exportTokens, String.toList_append]
    simp only [List.flatMap_nil, List.append_assoc, List.nil_append]
    rfl
  | cons s scripts ih =>
    have hbreak : "\n".toList = ['\n'] := by decide
    rw [indexTokens, spell_append, List.append_assoc, ih, hbreak, ← List.append_assoc, spell_importTokens,
      List.flatMap_cons]
    simp only [List.append_assoc]

/-- **The index is written from its tokens.** -/
theorem index_eq_spell (scripts : List (String × String)) :
    index scripts = String.ofList (spell (indexTokens (props scripts.zipIdx) "" scripts.zipIdx) ++ ['\n']) := by
  have hfront : "\nexport default \x7b\n".toList = '\n' :: ("export default \x7b".toList ++ ['\n']) := by decide
  have hempty : "".toList = [] := rfl
  rw [← String.toList_inj, String.toList_ofList, spell_indexTokens, spell_exportTokens, hempty, index]
  simp only [props, importLine, propLine, String.toList_append, String.toList_join, List.flatMap_map, hfront,
    List.append_assoc, List.cons_append, List.nil_append]

/-! ## Its names -/

theorem scriptName_toList (n : Nat) : (scriptName n).toList = "script".toList ++ Nat.toDigits 10 n := by
  rw [scriptName, String.toList_append]
  exact congrArg _ (String.toList_ofList)

theorem isName_scriptName (n : Nat) : isName (scriptName n).toList = true := by
  have hfront : "script".toList = 's' :: "cript".toList := by decide
  have hrest : ("cript".toList ++ Nat.toDigits 10 n).all isIdentContinue = true := by
    have hscript : "cript".toList.all isIdentContinue = true := by decide
    rw [List.all_append, hscript, Bool.true_and, List.all_eq_true]
    intro c hc
    have hdigit : c.isDigit = true := Nat.isDigit_of_mem_toDigits (by decide) (by decide) hc
    simp [isIdentContinue, isLetterOrNumber, Char.isAlphanum, hdigit]
  rw [scriptName_toList, hfront, List.cons_append, isName, hrest, Bool.and_true]
  decide

/-- A word that is written otherwise is no name of a script. -/
theorem scriptName_ne {n : Nat} {name : String} (h : "script".toList.isPrefixOf name.toList = false) : scriptName n ≠ name := by
  rintro rfl
  rw [scriptName_toList, ← Bool.not_eq_true, List.isPrefixOf_iff_prefix] at h
  exact h (List.prefix_append _ _)

/-! ## Its tokens are read -/

variable {ts : List Token} {r : List Char}

theorem laid_importTokens (hgap : IsBlankText gap.toList) (n : Nat) (specifier : String)
    (hts : ∀ operand, Laid operand ts r) : ∀ operand, Laid operand (importTokens gap n specifier ++ ts) r := by
  have hsemicolon := Laid.bracket "" ";" (by decide) (by decide) hts
  have hsource := Laid.literal " " specifier (by decide) hsemicolon
  have hfrom := Laid.plainWord " " "from" (by decide) (by decide) (stops_of_spaced rfl) hsource
  have hname := Laid.plainWord " " (scriptName n) (by decide) (isName_scriptName n) (stops_of_spaced rfl) hfrom
  have has := Laid.plainWord " " "as" (by decide) (by decide) (stops_of_spaced rfl) hname
  have hstar := Laid.sign " " "*" (by decide) (by decide) (standsApart_of_spaced rfl) has
  exact .plainWord gap "import" hgap (by decide) (stops_of_spaced rfl) hstar

theorem laid_propTokens {p : String × String} (hp : isName p.2.toList = true) (hts : ∀ operand, Laid operand ts r) :
    ∀ operand, Laid operand (Expr.propTokens "\n  " p ++ ts) r := by
  have hcomma := Laid.bracket "" "," (by decide) (by decide) hts
  have hname := Laid.plainWord " " p.2 (by decide) hp (stops_of_tight rfl (by decide)) hcomma
  have hcolon := Laid.bracket "" ":" (by decide) (by decide) hname
  exact .literal "\n  " p.1 (by decide) hcolon

theorem laid_exportTokens (hgap : IsBlankText gap.toList) (hps : ∀ p ∈ ps, isName p.2.toList = true) (operand : Bool) :
    Laid operand (exportTokens gap ps) ['\n'] := by
  have hsemicolon : ∀ operand, Laid operand [ofMark "" ";"] ['\n'] :=
    .bracket "" ";" (by decide) (by decide) fun _ => .nil _ _
  have hclose := Laid.bracket "\n" "\x7d" (by decide) (by decide) hsemicolon
  have hprops (operand : Bool) :
      Laid operand (ps.flatMap (Expr.propTokens "\n  ") ++ [ofMark "\n" "\x7d", ofMark "" ";"]) ['\n'] := by
    induction ps generalizing operand with
    | nil => exact hclose operand
    | cons p ps ih =>
      obtain ⟨hp, hps⟩ := List.forall_mem_cons.mp hps
      rw [List.flatMap_cons, List.append_assoc]
      exact laid_propTokens hp (ih hps) operand
  have hopen := Laid.bracket " " "\x7b" (by decide) (by decide) hprops
  have hdefault := Laid.plainWord " " "default" (by decide) (by decide) (stops_of_spaced rfl) hopen
  exact .plainWord gap "export" hgap (by decide) (stops_of_spaced rfl) hdefault operand

theorem laid_indexTokens (hgap : IsBlankText gap.toList) (hps : ∀ p ∈ ps, isName p.2.toList = true)
    (scripts : List ((String × String) × Nat)) (operand : Bool) : Laid operand (indexTokens ps gap scripts) ['\n'] := by
  induction scripts generalizing gap operand with
  | nil =>
    refine laid_exportTokens ?_ hps operand
    rw [String.toList_append]
    exact hgap.append (by decide)
  | cons s scripts ih => exact laid_importTokens hgap s.2 s.1.2 (fun operand => ih (by decide) operand) operand

theorem isName_props (scripts : List ((String × String) × Nat)) : ∀ p ∈ props scripts, isName p.2.toList = true := by
  intro p hp
  obtain ⟨s, -, rfl⟩ := List.mem_map.mp hp
  exact isName_scriptName s.2

/-- The tokens of the index are those that it was written from. -/
theorem tokenize_index (scripts : List (String × String)) :
    ∃ ts, tokenize (index scripts) = .ok ts ∧
      ts.map Token.unplaced = (indexTokens (props scripts.zipIdx) "" scripts.zipIdx).map Token.unplaced := by
  rw [index_eq_spell]
  refine (laid_indexTokens (by decide) (isName_props _) _ true).tokenize ?_ (by decide)
  have himport : "import".toList = 'i' :: "mport".toList := by decide
  cases scripts.zipIdx with
  | nil => simp [indexTokens, exportTokens, ofWord]
  | cons s rest => simp [indexTokens, importTokens, ofWord, himport]

/-! ## Its imports -/

theorem ofTokens_importTokens (gap : String) (n : Nat) (specifier : String) (ts : List Token) :
    Import.ofTokens false (importTokens gap n specifier ++ ts) =
      (Import.ofToken? (ofText " " specifier) .static).toList ++ Import.ofTokens false ts := by
  have himport : scriptName n ≠ "import" := scriptName_ne (by decide)
  have hexport : scriptName n ≠ "export" := scriptName_ne (by decide)
  have hquiet : ∀ t ∈ (importTokens gap n specifier).tail, Import.IsQuiet t := by
    simp [importTokens, Import.IsQuiet, himport, hexport]
  have hclause : Import.afterImport ((importTokens gap n specifier).tail ++ ts) =
      Import.ofToken? (ofText " " specifier) .static := by
    simp [importTokens, Import.afterImport, Import.clauseSource, himport, hexport, Option.filter_some]
  have hfirst : Import.ofTokens false (importTokens gap n specifier ++ ts) =
      (Import.afterImport ((importTokens gap n specifier).tail ++ ts)).toList ++
        Import.ofTokens false ((importTokens gap n specifier).tail ++ ts) := rfl
  rw [hfirst, hclause, Import.ofTokens_quiet hquiet]

theorem ofTokens_exportTokens (gap : String) (scripts : List ((String × String) × Nat)) :
    Import.ofTokens false (exportTokens gap (props scripts)) = [] := by
  have hprops : ∀ t ∈ (props scripts).flatMap (Expr.propTokens "\n  "), Import.IsQuiet t := by
    intro t ht
    obtain ⟨p, hp, ht⟩ := List.mem_flatMap.mp ht
    obtain ⟨s, -, rfl⟩ := List.mem_map.mp hp
    have himport : scriptName s.2 ≠ "import" := scriptName_ne (by decide)
    have hexport : scriptName s.2 ≠ "export" := scriptName_ne (by decide)
    simp only [Expr.propTokens, List.mem_cons, List.not_mem_nil, or_false] at ht
    rcases ht with rfl | rfl | rfl | rfl <;> simp [Import.IsQuiet, himport, hexport]
  have hquiet : ∀ t ∈ (exportTokens gap (props scripts)).tail, Import.IsQuiet t := by
    intro t ht
    simp only [exportTokens, List.tail_cons, List.mem_cons, List.mem_append, List.not_mem_nil, or_false] at ht
    rcases ht with rfl | rfl | ht | rfl | rfl
    · simp [Import.IsQuiet]
    · simp [Import.IsQuiet]
    · exact hprops t ht
    · simp [Import.IsQuiet]
    · simp [Import.IsQuiet]
  have hfirst : Import.ofTokens false (exportTokens gap (props scripts)) =
      Import.ofTokens false ((exportTokens gap (props scripts)).tail ++ []) := by
    simp [exportTokens, Import.ofTokens, Import.afterExport]
  rw [hfirst, Import.ofTokens_quiet hquiet]
  rfl

/-- The imports of the index are the specifiers. -/
theorem ofTokens_indexTokens (gap : String) (all scripts : List ((String × String) × Nat))
    (hplain : ∀ s ∈ scripts, ∀ c ∈ s.1.2.toList, Json.isPlain c = true) :
    (Import.ofTokens false (indexTokens (props all) gap scripts)).map Import.word =
      scripts.map fun s => (.static, s.1.2) := by
  induction scripts generalizing gap with
  | nil =>
    rw [indexTokens, ofTokens_exportTokens]
    rfl
  | cons s scripts ih =>
    obtain ⟨hs, hscripts⟩ := List.forall_mem_cons.mp hplain
    rw [indexTokens, ofTokens_importTokens, List.map_append, ih _ hscripts, Import.ofToken?, stringValue?_ofText _ hs]
    rfl

/-! ## Its module -/

theorem arePlain_props (hplain : ∀ s ∈ scripts, ∀ c ∈ s.1.1.toList, Json.isPlain c = true) :
    Expr.ArePlain (props scripts) := by
  intro p hp
  obtain ⟨s, hs, rfl⟩ := List.mem_map.mp hp
  have hword : scriptName s.2 ∉ Expr.operandWords := by
    have hall : ∀ name ∈ Expr.operandWords, "script".toList.isPrefixOf name.toList = false := by decide
    exact fun hmem => scriptName_ne (hall _ hmem) rfl
  exact ⟨hplain s hs, hword⟩

/-- The imports are passed over, and the export is all that is declared. -/
theorem parseAll_indexTokens {k : Nat} {c : Cursor} (hps : Expr.ArePlain ps) (hn : ps.length < n + 2)
    (hk : scripts.length + 2 ≤ k) (hc : c.Shows (indexTokens ps gap scripts)) :
    Item.parseAll (.ofDepth (n + 3)) k c = .ok [.exportDefault (.object (ps.map fun p => (p.1, .ident p.2)))] := by
  induction scripts generalizing gap k c with
  | nil =>
    obtain ⟨k, rfl⟩ : ∃ j, k = j + 2 := ⟨k - 2, by simp at hk; omega⟩
    have hc : c.Shows (ofWord (gap ++ "\n") "export" :: ofWord " " "default" :: ofMark " " "\x7b" ::
      (ps.flatMap (Expr.propTokens "\n  ") ++ ofMark "\n" "\x7d" :: ofMark "" ";" :: [])) := hc
    obtain ⟨d, hitem, hd⟩ := Item.parse_defaultObject (n := n) hps rfl rfl hn hc
    have hend : d.atEnd = true := by
      have hnil : d.ahead = [] := List.map_eq_nil_iff.mp hd
      rw [Cursor.atEnd, hnil, List.isEmpty_nil]
    simp [Item.parseAll, hc.atEnd, hc.eat?_eq_none, hitem, hend, bind, Except.bind]
  | cons s scripts ih =>
    obtain ⟨k, rfl⟩ : ∃ j, k = j + 1 := ⟨k - 1, by simp at hk; omega⟩
    have hc : c.Shows (ofWord gap "import" :: ((importTokens gap s.2 s.1.2).tail.dropLast ++
      ofMark "" ";" :: indexTokens ps "\n" scripts)) := hc
    have hinside : ∀ t ∈ (importTokens gap s.2 s.1.2).tail.dropLast, t.InStatement := by
      simp [importTokens, InStatement, newlineBefore, isPunctOf, ofWord, ofMark, ofText, isPunct, Cursor.openers,
        Cursor.closers]
    obtain ⟨d, hitem, hd⟩ := Item.parse_import (.ofDepth (n + 3)) hinside rfl (by decide) hc
    have hmore := ih (k := k) (by simpa using hk) hd
    simp [Item.parseAll, hc.atEnd, hc.eat?_eq_none, hitem, hmore, bind, Except.bind]

theorem length_indexTokens (ps : List (String × String)) (gap : String) (scripts : List ((String × String) × Nat)) :
    (indexTokens ps gap scripts).length = 7 * scripts.length + 4 * ps.length + 5 := by
  have hprops : (ps.flatMap (Expr.propTokens "\n  ")).length = 4 * ps.length := by
    have hfour : ∀ p, (Expr.propTokens "\n  " p).length = 4 := fun _ => rfl
    simp [List.length_flatMap, hfour, Nat.mul_comm]
  induction scripts generalizing gap with
  | nil => simp [indexTokens, exportTokens, hprops]
  | cons s scripts ih =>
    have hseven : (importTokens gap s.2 s.1.2).length = 7 := rfl
    rw [indexTokens, List.length_append, ih, hseven, List.length_cons]
    omega

variable {files : List (String × String)}

/-- The scanner finds the specifiers. -/
theorem scan_index (hplain : ∀ s ∈ files, ∀ c ∈ s.2.toList, Json.isPlain c = true) :
    ∃ imports, Import.scan (index files) = .ok imports ∧ imports.map Import.word = files.map fun s => (.static, s.2) := by
  obtain ⟨ts, htokens, hts⟩ := tokenize_index files
  obtain ⟨imports, hscan, himports⟩ := Import.scan_of_shows htokens hts
  refine ⟨imports, hscan, ?_⟩
  have hnumbered : ∀ s ∈ files.zipIdx, ∀ c ∈ s.1.2.toList, Json.isPlain c = true := fun s hs =>
    hplain s.1 (List.fst_mem_of_mem_zipIdx hs)
  have hfst : files.zipIdx.map (fun s => (ImportKind.static, s.1.2)) =
      (files.zipIdx.map Prod.fst).map fun s => (ImportKind.static, s.2) := by
    rw [List.map_map]
    rfl
  rw [himports, ofTokens_indexTokens "" _ _ hnumbered, hfst, List.zipIdx_map_fst]

/-- The parser finds the file names. -/
theorem ofSource_index (hplain : ∀ s ∈ files, ∀ c ∈ s.1.toList, Json.isPlain c = true) :
    Module.ofSource (index files) =
      .ok ⟨[.exportDefault (.object (files.zipIdx.map fun s => (s.1.1, .ident (scriptName s.2))))]⟩ := by
  obtain ⟨ts, htokens, hts⟩ := tokenize_index files
  refine ofSource_of_shows htokens hts fun c hc => ?_
  have hnumbered : ∀ s ∈ files.zipIdx, ∀ c ∈ s.1.1.toList, Json.isPlain c = true := fun s hs =>
    hplain s.1 (List.fst_mem_of_mem_zipIdx hs)
  have hprops : (props files.zipIdx).length = files.zipIdx.length := List.length_map _
  have hlength := length_indexTokens (props files.zipIdx) "" files.zipIdx
  rw [hprops] at hlength
  obtain ⟨n, hn⟩ : ∃ n, (indexTokens (props files.zipIdx) "" files.zipIdx).length + 1 = n + 3 :=
    ⟨_, (Nat.sub_add_cancel (by omega)).symm⟩
  rw [hn, parseAll_indexTokens (arePlain_props hnumbered) (by omega) (by omega) hc, props, List.map_map]
  rfl

/-- **The index is read back.** When no file name and no specifier holds a control other than a tab or the end of a line,
the imports of the index are the specifiers in their order, and it declares nothing but its default export: an object
with the file names in their order, each bound to the name of the script of its number. -/
theorem index_readBack (files : List (String × String))
    (hplain : ∀ s ∈ files, ∀ c ∈ s.1.toList ++ s.2.toList, 0x20 ≤ c.toNat ∨ c = '\n' ∨ c = '\r' ∨ c = '\t') :
    (∃ imports, Import.scan (index files) = .ok imports ∧
      imports.map (fun i => (i.specifier, i.kind)) = files.map fun s => (s.2, .static)) ∧
    Module.ofSource (index files) =
      .ok ⟨[.exportDefault (.object (files.zipIdx.map fun s => (s.1.1, .ident (scriptName s.2))))]⟩ := by
  have hchars : ∀ s ∈ files, ∀ c ∈ s.1.toList ++ s.2.toList, Json.isPlain c = true := by
    intro s hs c hc
    simpa [Json.isPlain, or_assoc] using hplain s hs c hc
  constructor
  · obtain ⟨imports, hscan, himports⟩ := scan_index fun s hs c hc => hchars s hs c (List.mem_append_right _ hc)
    refine ⟨imports, hscan, ?_⟩
    have hswap := congrArg (List.map Prod.swap) himports
    rwa [List.map_map, List.map_map] at hswap
  · exact ofSource_index fun s hs c hc => hchars s hs c (List.mem_append_left _ hc)

/-- Quotes, backslashes and closing tags in the names are no matter. -/
theorem index_readBack_quotes :
    let files := [("a\"b\\c.ts", "https://x.test/</x>?q=\"1\""), ("", "/>\n\t; import \"y\"")]
    (∃ imports, Import.scan (index files) = .ok imports ∧
      imports.map (fun i => (i.specifier, i.kind)) =
        [("https://x.test/</x>?q=\"1\"", .static), ("/>\n\t; import \"y\"", .static)]) ∧
    Module.ofSource (index files) =
      .ok ⟨[.exportDefault (.object [("a\"b\\c.ts", .ident "script0"), ("", .ident "script1")])]⟩ := by
  intro files
  refine index_readBack files fun s hs c hc => ?_
  have hall : (files.all fun s => (s.1.toList ++ s.2.toList).all Json.isPlain) = true := by decide
  simpa [Json.isPlain, or_assoc] using List.all_eq_true.mp (List.all_eq_true.mp hall s hs) c hc

end Boot

end AppBundler
