import AppBundler.Proofs.App.Identity
import AppBundler.Proofs.Source.Trimmed.Tokens
import AppBundler.Proofs.Text.LineEnds
/-!
# What the hash of a script tells about its code

The code of a script is hashed without the blanks at its line ends. So scripts with one hash have codes that differ
in such blanks only. These are seen where a token goes over line ends: in template literals and in elements they
belong to the text. And behind a backslash in a string such a blank keeps the string from going on, so that a code may
be read with elements or without.
-/

namespace AppBundler

variable {appId filename appId' filename' c d : String}

/-- What is hashed of a script. -/
def hashedScript (appId filename code : String) : Json :=
  Json.texts [("appId", appId), ("filename", filename), ("code", String.ofList (Text.trimLines code.toList))]

theorem scriptHash_eq_digest (appId filename code : String) :
    scriptHash appId filename code = (hashedScript appId filename code).digest := rfl

/-- **The hash of a script identifies it** but for the blanks at the line ends of its code. -/
theorem scriptHash_eq_iff (hcollision : Sha256.IsCollisionFree {utf8Bytes (hashedScript appId filename c).canonicalText,
      utf8Bytes (hashedScript appId' filename' d).canonicalText}) :
    scriptHash appId filename c = scriptHash appId' filename' d ↔
      appId = appId' ∧ filename = filename' ∧ Text.trimLines c.toList = Text.trimLines d.toList := by
  rw [scriptHash_eq_digest, scriptHash_eq_digest, Json.digest_eq_iff hcollision]
  constructor
  · intro htext
    have hperm := Json.perm_of_canonicalText_texts htext
    refine ⟨?_, ?_, String.ofList_inj.mp ?_⟩
    · simpa using hperm.subset (a := ("appId", appId)) (by simp)
    · simpa using hperm.subset (a := ("filename", filename)) (by simp)
    · simpa using hperm.subset (a := ("code", String.ofList (Text.trimLines c.toList))) (by simp)
  · rintro ⟨rfl, rfl, hcode⟩
    rw [hashedScript, hashedScript, hcode]

/-- What is hashed of codes with one trimmed text is one text, so there is nothing to collide. -/
theorem isCollisionFree_of_trimLines_eq (h : Text.trimLines c.toList = Text.trimLines d.toList) :
    Sha256.IsCollisionFree {utf8Bytes (hashedScript appId filename c).canonicalText,
      utf8Bytes (hashedScript appId filename d).canonicalText} := by
  rw [hashedScript, hashedScript, h, Set.pair_eq_singleton]
  exact Set.injOn_singleton _ _

/-- What is hashed of a script stands in the order of its keys. -/
theorem canonicalText_hashedScript (appId filename code : String) :
    (hashedScript appId filename code).canonicalText = (Json.texts [("appId", appId),
      ("code", String.ofList (Text.trimLines code.toList)), ("filename", filename)]).compact := by
  have hid : Json.keyAtOrBefore "appId" "filename" = true := by decide +kernel
  have hid' : Json.keyAtOrBefore "appId" "code" = true := by decide +kernel
  have hname : Json.keyAtOrBefore "filename" "code" = false := by decide +kernel
  rw [hashedScript, Json.canonicalText, Json.canonical_texts]
  simp [Json.sortMembers, List.mergeSort, Json.texts, hid, hid', hname]

/-- **The hash of a script ignores exactly the blanks at its line ends.** What is hashed of a code does not change when
it is trimmed again; and without a collision, two scripts have one hash exactly when they belong to one app, have one file
name, and their codes have the same lines once each is trimmed at its end and the empty ones at the end are dropped. -/
theorem scriptHash_eq_iff_trimmedLines (appId appId' filename filename' c d : String) :
    Text.trimLines (Text.trimLines c.toList) = Text.trimLines c.toList ∧
      (Sha256.IsCollisionFree {utf8Bytes (hashedScript appId filename c).canonicalText,
          utf8Bytes (hashedScript appId' filename' d).canonicalText} →
        (scriptHash appId filename c = scriptHash appId' filename' d ↔
          appId = appId' ∧ filename = filename' ∧ Text.trimmedLines c.toList = Text.trimmedLines d.toList)) := by
  refine ⟨Text.trimLines_trimLines _, fun hcollision => ?_⟩
  rw [scriptHash_eq_iff hcollision, Text.trimLines_eq_iff]

/-- A code with line ends of two kinds, blanks before them and lines of blanks at its end. -/
def untidyCode : String := "const x = 1; \u00a0\r\n\n\trun(x);\t\n \n\n"

/-- The same lines without blanks at their ends. -/
def tidyCode : String := "const x = 1;\n\n\trun(x);"

/-- Codes with other blanks at their line ends have one hash; a blank in front of a line changes it. -/
theorem scriptHash_eq_iff_trimmedLines_untidy :
    scriptHash "app-1" "main.ts" untidyCode = scriptHash "app-1" "main.ts" tidyCode ∧
      scriptHash "app-1" "main.ts" " x" ≠ scriptHash "app-1" "main.ts" "x" := by
  constructor
  · have hlines : Text.trimmedLines untidyCode.toList = Text.trimmedLines tidyCode.toList := by decide +kernel
    have hcollision : Sha256.IsCollisionFree {utf8Bytes (hashedScript "app-1" "main.ts" untidyCode).canonicalText,
        utf8Bytes (hashedScript "app-1" "main.ts" tidyCode).canonicalText} :=
      isCollisionFree_of_trimLines_eq (Text.trimLines_eq_iff.mpr hlines)
    exact ((scriptHash_eq_iff_trimmedLines _ _ _ _ _ _).2 hcollision).mpr ⟨rfl, rfl, hlines⟩
  · have hdistinct : Sha256.hash (utf8Bytes (Json.texts [("appId", "app-1"), ("code", " x"), ("filename", "main.ts")]).compact) ≠
        Sha256.hash (utf8Bytes (Json.texts [("appId", "app-1"), ("code", "x"), ("filename", "main.ts")]).compact) := by
      decide +kernel
    have hcollision : Sha256.IsCollisionFree {utf8Bytes (hashedScript "app-1" "main.ts" " x").canonicalText,
        utf8Bytes (hashedScript "app-1" "main.ts" "x").canonicalText} := by
      rw [canonicalText_hashedScript, canonicalText_hashedScript]
      exact Set.injOn_pair.mpr fun h => absurd h hdistinct
    have hlines : Text.trimmedLines " x".toList ≠ Text.trimmedLines "x".toList := by decide +kernel
    exact fun hhash => hlines (((scriptHash_eq_iff_trimmedLines _ _ _ _ _ _).2 hcollision).mp hhash).2.2

theorem exists_tokens (h : (tokenize c).isOk = true) : ∃ ts, tokenize c = .ok ts := by
  cases hts : tokenize c with
  | ok ts => exact ⟨ts, rfl⟩
  | error e => simp [hts, Except.isOk, Except.toBool] at h

/-! ## Changes that the hash does not see -/

/-- Both codes have tokens, of other kinds or with other texts, but one hash in every place and no collision. -/
def HidesChange (c d : String) : Prop :=
  (∃ ts us, tokenize c = .ok ts ∧ tokenize d = .ok us ∧ words ts ≠ words us) ∧ ∀ appId filename,
    Sha256.IsCollisionFree {utf8Bytes (hashedScript appId filename c).canonicalText,
      utf8Bytes (hashedScript appId filename d).canonicalText} ∧
    scriptHash appId filename c = scriptHash appId filename d

/-- Codes with one trimmed text hide what tells their tokens apart. -/
theorem HidesChange.of_trimLines_eq (h : Text.trimLines c.toList = Text.trimLines d.toList)
    (hc : (tokenize c).isOk = true) (hd : (tokenize d).isOk = true)
    (hwords : (tokenize c).toOption.map words ≠ (tokenize d).toOption.map words) : HidesChange c d := by
  obtain ⟨ts, hts⟩ := exists_tokens hc
  obtain ⟨us, hus⟩ := exists_tokens hd
  rw [hts, hus] at hwords
  refine ⟨⟨ts, us, hts, hus, fun heq => hwords (congrArg some heq)⟩, fun _ _ => ⟨?_, ?_⟩⟩
  · exact isCollisionFree_of_trimLines_eq h
  · exact (scriptHash_eq_iff (isCollisionFree_of_trimLines_eq h)).mpr ⟨rfl, rfl, h⟩

/-- A template literal with a blank before its line end. -/
def paddedTemplate : String := "x = `a \nb`"

/-- The same without the blank. -/
def bareTemplate : String := "x = `a\nb`"

/-- A string that ends behind a backslash and a blank, behind an element. -/
def endedString : String := "a = <p>'</p>; b = \"' // \\ \n\"//\""

/-- The same without the blank, so that the string goes on in the next line. -/
def continuedString : String := "a = <p>'</p>; b = \"' // \\\n\"//\""

/-- Codes with other texts in their template literals, and a code with an element that has none without a blank behind a
backslash. -/
theorem hidesChange_template_string :
    HidesChange paddedTemplate bareTemplate ∧ HidesChange endedString continuedString := by
  constructor
  · exact .of_trimLines_eq (by decide +kernel) (by decide +kernel) (by decide +kernel) (by decide +kernel)
  · exact .of_trimLines_eq (by decide +kernel) (by decide +kernel) (by decide +kernel) (by decide +kernel)

/-! ## What the hash sees -/

/-- **Codes with one hash** differ in blanks at line ends only. Token by token they are read alike, with the same
texts but for such blanks in template literals and elements, or one of them is read with elements and the other one is
not, where a backslash escapes a blank at a line end. -/
theorem sameButLineEnds_of_scriptHash_eq {ts us : List Token}
    (hcollision : Sha256.IsCollisionFree {utf8Bytes (hashedScript appId filename c).canonicalText,
      utf8Bytes (hashedScript appId filename d).canonicalText})
    (hc : tokenize c = .ok ts) (hd : tokenize d = .ok us)
    (hhash : scriptHash appId filename c = scriptHash appId filename d) :
    Text.trimLines c.toList = Text.trimLines d.toList ∧
      (List.Forall₂ Token.SameButLineEnds ts us ∨ Lexer.LosesElements c.toList d.toList ∨
        Lexer.LosesElements d.toList c.toList) := by
  obtain ⟨-, -, hcode⟩ := (scriptHash_eq_iff hcollision).mp hhash
  exact ⟨hcode, Lexer.tokens_of_trimLines_eq hcode hc hd⟩

/-- Two codes with one hash, whose tokens are alike but for the blank in the template literal. -/
theorem sameButLineEnds_of_scriptHash_eq_template :
    scriptHash "app-1" "main.ts" paddedTemplate = scriptHash "app-1" "main.ts" bareTemplate ∧
      ∃ ts us, tokenize paddedTemplate = .ok ts ∧ tokenize bareTemplate = .ok us ∧
        List.Forall₂ Token.SameButLineEnds ts us := by
  have htrim : Text.trimLines paddedTemplate.toList = Text.trimLines bareTemplate.toList := by decide +kernel
  have hcollision : Sha256.IsCollisionFree {utf8Bytes (hashedScript "app-1" "main.ts" paddedTemplate).canonicalText,
      utf8Bytes (hashedScript "app-1" "main.ts" bareTemplate).canonicalText} := isCollisionFree_of_trimLines_eq htrim
  have hhash := (scriptHash_eq_iff hcollision).mpr ⟨rfl, rfl, htrim⟩
  obtain ⟨ts, hts⟩ := exists_tokens (c := paddedTemplate) (by decide +kernel)
  obtain ⟨us, hus⟩ := exists_tokens (c := bareTemplate) (by decide +kernel)
  have hpadded : Lexer.readsElements paddedTemplate.toList = false := by decide +kernel
  have hbare : Lexer.readsElements bareTemplate.toList = false := by decide +kernel
  refine ⟨hhash, ts, us, hts, hus, ?_⟩
  rcases (sameButLineEnds_of_scriptHash_eq hcollision hts hus hhash).2 with hsame | ⟨helements, -⟩ | ⟨helements, -⟩
  · exact hsame
  · rw [hpadded] at helements
    cases helements
  · rw [hbare] at helements
    cases helements

end AppBundler
