import AppBundler.Bundle.Boot
import AppBundler.Proofs.Source.Tree.Layout
/-!
# What the end of a script declares

The end of a script attaches metadata to each of its callables and gives the type of its input a name. The names are
identifiers, but that of an action's type keeps no more of the action's name than its letters and digits with the words
capitalized, so two actions may give their types one name.
-/

namespace AppBundler

open Lexeme Lexer Token

/-! ## What tokens declare -/

namespace Token

/-- The names of the types that are exported. -/
def exportedTypes : List Token → List String
  | [] => []
  | t :: r =>
    if t.isIdent "export" && r.head?.any (·.isIdent "type") then (r[1]?.map (·.text)).toList ++ exportedTypes r
    else exportedTypes r

/-- The words of what is assigned to, up to the comma, and those of what is assigned. -/
def assigned (ts : List Token) : List String × List String :=
  ((ts.takeWhile fun t => !t.isPunct ",").map (·.text),
    (((ts.dropWhile fun t => !t.isPunct ",").drop 1).takeWhile fun t => !t.isPunct ")").map (·.text))

/-- What is assigned to objects. -/
def assignments : List Token → List (List String × List String)
  | [] => []
  | t :: r =>
    if t.isIdent "Object" && (r.take 3).map (·.text) = [".", "assign", "("] then assigned (r.drop 3) :: assignments r
    else assignments r

/-- Where tokens stand does not matter. -/
theorem exportedTypes_unplaced (ts : List Token) : exportedTypes (ts.map unplaced) = exportedTypes ts := by
  induction ts with
  | nil => rfl
  | cons t r ih =>
    have hfirst : t.unplaced.isIdent "export" = t.isIdent "export" := rfl
    have hnext : (r.map unplaced).head?.any (·.isIdent "type") = r.head?.any (·.isIdent "type") := by
      rw [List.head?_map, Option.any_map]
      rfl
    have hname : (r.map unplaced)[1]?.map (·.text) = r[1]?.map (·.text) := by
      rw [List.getElem?_map, Option.map_map]
      rfl
    rw [List.map_cons, exportedTypes, exportedTypes, ih, hfirst, hnext, hname]

theorem assigned_unplaced (ts : List Token) : assigned (ts.map unplaced) = assigned ts := by
  have htext : text ∘ unplaced = text := rfl
  have hpunct (name : String) : (fun t => !isPunct t name) ∘ unplaced = fun t => !isPunct t name := rfl
  simp only [assigned, List.takeWhile_map, List.dropWhile_map, ← List.map_drop, List.map_map, htext, hpunct]

theorem assignments_unplaced (ts : List Token) : assignments (ts.map unplaced) = assignments ts := by
  induction ts with
  | nil => rfl
  | cons t r ih =>
    have hfirst : t.unplaced.isIdent "Object" = t.isIdent "Object" := rfl
    have hnext : ((r.map unplaced).take 3).map (·.text) = (r.take 3).map (·.text) := by
      rw [← List.map_take, List.map_map]
      rfl
    rw [List.map_cons, assignments, assignments, ih, hfirst, hnext, ← List.map_drop, assigned_unplaced]

end Token

namespace Metadata

/-! ## The names of input types -/

/-- What the name of an action's input type keeps of the name of the action. -/
def folded (action : String) : List Char := (words action.toList).flatMap capitalized

/-- A text of ASCII letters, digits and low lines that begins with no digit. -/
def isIdentifier : List Char → Bool
  | [] => false
  | c :: s => (c = '_' || c.isAlpha) && s.all fun c => c = '_' || c.isAlphanum

variable {a b : String} {c : Char} {s w : List Char}

theorem isAlphanum_of_mem_words (hw : w ∈ words s) (hc : c ∈ w) : c.isAlphanum = true := by
  induction s generalizing w with
  | nil =>
    rw [words, List.mem_singleton] at hw
    rw [hw] at hc
    cases hc
  | cons d s ih =>
    rw [words] at hw
    split at hw
    · next hd =>
      split at hw
      · rw [List.mem_singleton] at hw
        rw [hw, List.mem_singleton] at hc
        rwa [hc]
      · next v ws hwords =>
        rw [hwords] at ih
        rcases List.mem_cons.mp hw with rfl | hw
        · rcases List.mem_cons.mp hc with rfl | hc
          · exact hd
          · exact ih List.mem_cons_self hc
        · exact ih (List.mem_cons_of_mem v hw) hc
    · rcases List.mem_cons.mp hw with rfl | hw
      · cases hc
      · exact ih hw hc

theorem toNat_lt_of_isAlphanum (hc : c.isAlphanum = true) : c.toNat < 128 := by
  have hcode (n : UInt32) (h : c.val ≤ n) : c.toNat ≤ n.toNat := h
  rcases Bool.or_eq_true_iff.mp hc with hletter | hdigit
  · rcases Bool.or_eq_true_iff.mp hletter with hupper | hlower
    · exact Nat.lt_of_le_of_lt (hcode _ (of_decide_eq_true hupper).2) (by decide)
    · exact Nat.lt_of_le_of_lt (hcode _ (of_decide_eq_true (Bool.and_eq_true_iff.mp hlower).2)) (by decide)
  · exact Nat.lt_of_le_of_lt (hcode _ (of_decide_eq_true (Bool.and_eq_true_iff.mp hdigit).2)) (by decide)

theorem isAlphanum_toUpper (hc : c.isAlphanum = true) : c.toUpper.isAlphanum = true := by
  have hascii : ∀ n < 128, (Char.ofNat n).isAlphanum = true → (Char.ofNat n).toUpper.isAlphanum = true := by decide
  have hupper := hascii _ (toNat_lt_of_isAlphanum hc)
  rw [Char.ofNat_toNat] at hupper
  exact hupper hc

theorem isAlphanum_of_mem_folded (hc : c ∈ folded a) : c.isAlphanum = true := by
  obtain ⟨w, hw, hc⟩ := List.mem_flatMap.mp hc
  cases w with
  | nil => cases hc
  | cons d w =>
    rcases List.mem_cons.mp hc with rfl | hc
    · exact isAlphanum_toUpper (isAlphanum_of_mem_words hw List.mem_cons_self)
    · exact isAlphanum_of_mem_words hw (List.mem_cons_of_mem d hc)

/-- What is kept begins the name of the type, behind a low line where it begins with no letter. -/
theorem inputTypeName_toList (a : String) : (inputTypeName a).toList =
    (if (folded a).head?.all Char.isDigit then ['_'] else []) ++ folded a ++ "ActionInput".toList := by
  rw [inputTypeName, String.toList_append, String.toList_ofList, folded]
  cases (words a.toList).flatMap capitalized with
  | nil => rfl
  | cons d s =>
    by_cases hd : d.isDigit = true <;> simp [hd]

/-- **Actions give their types one name** if the same is kept of their names. -/
theorem inputTypeName_eq_iff : inputTypeName a = inputTypeName b ↔ folded a = folded b := by
  have hplain (a : String) : (inputTypeName a).toList.filter (· ≠ '_') = folded a ++ "ActionInput".toList := by
    have hfront : (if (folded a).head?.all Char.isDigit then ['_'] else []).filter (· ≠ '_') = [] := by
      split <;> rfl
    have hfolded : (folded a).filter (· ≠ '_') = folded a := by
      rw [List.filter_eq_self]
      intro c hc
      rw [decide_eq_true_eq]
      rintro rfl
      exact absurd (isAlphanum_of_mem_folded hc) (by decide)
    have hend : "ActionInput".toList.filter (· ≠ '_') = "ActionInput".toList := by decide
    rw [inputTypeName_toList, List.filter_append, List.filter_append, hfront, hfolded, hend, List.nil_append]
  constructor
  · intro h
    have hboth := hplain a
    rw [h, hplain b] at hboth
    exact (List.append_cancel_right hboth).symm
  · intro h
    rw [← String.toList_inj, inputTypeName_toList, inputTypeName_toList, h]

/-- The name of a type is an identifier, whatever the name of its action is. -/
theorem isIdentifier_inputTypeName (a : String) : isIdentifier (inputTypeName a).toList = true := by
  have hfolded : (folded a).all (fun c => c = '_' || c.isAlphanum) = true := by
    rw [List.all_eq_true]
    intro c hc
    rw [isAlphanum_of_mem_folded hc, Bool.or_true]
  rw [inputTypeName_toList]
  cases hname : folded a with
  | nil => decide
  | cons c s =>
    rw [hname, List.all_cons, Bool.and_eq_true] at hfolded
    have hc : c.isAlphanum = true := isAlphanum_of_mem_folded (hname ▸ List.mem_cons_self)
    by_cases hdigit : c.isDigit = true
    · simp [isIdentifier, hdigit, hc, hfolded.2]
    · have halpha : c.isAlpha = true := by simpa [Char.isAlphanum, hdigit] using hc
      simp [isIdentifier, hdigit, halpha, hfolded.2]

theorem isName_of_isIdentifier (h : isIdentifier s = true) : isName s = true := by
  cases s with
  | nil => cases h
  | cons c s =>
    rw [isIdentifier, Bool.and_eq_true, List.all_eq_true] at h
    obtain ⟨hc, hs⟩ := h
    rw [isName, Bool.and_eq_true, List.all_eq_true]
    constructor
    · rcases Bool.or_eq_true_iff.mp hc with hc | hc <;> simp [isIdentStart, isLetter, hc]
    · intro d hd
      rcases Bool.or_eq_true_iff.mp (hs d hd) with hd | hd <;> simp [isIdentContinue, isLetterOrNumber, hd]

/-- The type of the handler's input has a name of its own. -/
theorem inputTypeName_ne_handlerInput (a : String) : inputTypeName a ≠ "HandlerInput" := by
  intro h
  have hend : "ActionInput".toList <:+ "HandlerInput".toList := by
    rw [← h, inputTypeName_toList]
    exact List.suffix_append _ _
  exact absurd hend (by decide)

/-! ## Tokens -/

/-- A callable of a script, with the name that it or the object that holds it is bound to. -/
inductive Callable where
  | handler (binding : String)
  | action (binding name : String)

namespace Callable

/-- The name that the callable or the object that holds it is bound to. -/
def binding : Callable → String
  | handler binding => binding
  | action binding _ => binding

/-- The name under which metadata is attached. -/
def name : Callable → String
  | handler _ => "handler"
  | action _ name => name

/-- The name of the type of the input. -/
def typeName : Callable → String
  | handler _ => "HandlerInput"
  | action _ name => inputTypeName name

/-- The tokens of an expression for the callable. -/
def target : Callable → List Token
  | handler binding => [ofWord "" binding]
  | action binding name => [ofWord "" binding, ofMark "" "[", ofText "" name, ofMark "" "]"]

/-- The tokens of an expression for its type. -/
def typeOf : Callable → List Token
  | handler binding => [ofWord "" "typeof", ofWord " " binding]
  | action binding name =>
    [ofMark "" "(", ofWord "" "typeof", ofWord " " binding, ofMark "" ")", ofMark "" "[", ofText "" name, ofMark "" "]"]

/-- What is attached to a callable. -/
def metadataTokens (c : Callable) (path : String) : List Token :=
  [ofMark " " "\x7b", ofWord " " "metadata", ofMark "" ":", ofMark " " "\x7b", ofText "" "name", ofMark "" ":", ofText "" c.name,
    ofMark "" ",", ofText "" "path", ofMark "" ":", ofText "" path, ofMark "" "\x7d", ofMark " " "\x7d"]

/-- The tokens of the statement that attaches metadata to a callable, behind a gap. -/
def attachTokens (gap path : String) (c : Callable) : List Token :=
  ofWord gap "Object" :: ofMark "" "." :: ofWord "" "assign" :: ofMark "" "(" ::
    (c.target ++ ofMark "" "," :: (c.metadataTokens path ++ [ofMark "" ")", ofMark "" ";"]))

/-- The tokens of the statement that exports the type of a callable's input. -/
def exportTokens (c : Callable) : List Token :=
  ofWord "\n" "export" :: ofWord " " "type" :: ofWord " " c.typeName :: ofMark " " "=" :: ofWord " " "Parameters" ::
    ofMark "" "<" :: (c.typeOf ++ [ofMark "" ">", ofMark "" "[", ofNumeral "" "0", ofMark "" "]", ofMark "" ";"])

/-- The tokens of the two statements. -/
def tokens (gap path : String) (c : Callable) : List Token := c.attachTokens gap path ++ c.exportTokens

/-- The text of the two statements. -/
def text (path : String) (c : Callable) : String :=
  statements (String.ofList (spell c.target)) (String.ofList (spell c.typeOf)) c.name path c.typeName

end Callable

/-- The callables of a script. -/
def callables (handler actions : Option String) (names : List String) : List Callable :=
  handler.toList.map .handler ++ actions.toList.flatMap fun binding => names.map (.action binding)

/-- The tokens for callables, the first of them behind a gap and a line break. -/
def footerTokens (path : String) : (gap : String) → List Callable → List Token
  | _, [] => []
  | gap, c :: r => c.tokens (gap ++ "\n") path ++ footerTokens path "\n" r

theorem object_toList (name path : String) : (object name path).toList =
    "\x7b".toList ++ ((ofText "" "name").text.toList ++ (":".toList ++ ((ofText "" name).text.toList ++ (",".toList ++
      ((ofText "" "path").text.toList ++ (":".toList ++ ((ofText "" path).text.toList ++ "\x7d".toList))))))) := by
  have hopen : "\x7b".toList = ['\x7b'] := by decide
  have hclose : "\x7d".toList = ['\x7d'] := by decide
  have hcolon : ":".toList = [':'] := by decide
  have hcomma : ",".toList = [','] := by decide
  simp only [object, Json.compact, Json.chars, Json.memberChars, ofText, String.toList_ofList, hopen, hclose, hcolon, hcomma,
    List.cons_append, List.nil_append, List.append_assoc]

/-- The line break behind a callable is written before the next one. -/
theorem spell_tokens (gap path : String) (c : Callable) :
    spell (c.tokens (gap ++ "\n") path) ++ ['\n'] = gap.toList ++ (c.text path).toList := by
  have hfront : "\nObject.assign(".toList =
      ['\n'] ++ ("Object".toList ++ (".".toList ++ ("assign".toList ++ "(".toList))) := by decide
  have hmetadata : ", \x7b metadata: ".toList = ",".toList ++ (" ".toList ++ ("\x7b".toList ++ (" ".toList ++
      ("metadata".toList ++ (":".toList ++ " ".toList))))) := by decide
  have hend : " \x7d);\n".toList = " ".toList ++ ("\x7d".toList ++ (")".toList ++ (";".toList ++ ['\n']))) := by decide
  have hexport : "export type ".toList = "export".toList ++ (" ".toList ++ ("type".toList ++ " ".toList)) := by decide
  have htype : " = Parameters<".toList =
      " ".toList ++ ("=".toList ++ (" ".toList ++ ("Parameters".toList ++ "<".toList))) := by decide
  have hback : ">[0];\n".toList =
      ">".toList ++ ("[".toList ++ ("0".toList ++ ("]".toList ++ (";".toList ++ ['\n'])))) := by decide
  have hbreak : "\n".toList = ['\n'] := by decide
  have hempty : "".toList = [] := rfl
  rw [Callable.text]
  unfold statements
  simp only [Callable.tokens, Callable.attachTokens, Callable.exportTokens, Callable.metadataTokens, spell_append, spell_cons,
    spell_nil, ofWord, ofMark, ofNumeral, ofText, String.toList_append, String.toList_ofList, object_toList, hfront, hmetadata,
    hend, hexport, htype, hback, hbreak, hempty, List.append_assoc, List.nil_append]

/-- Behind the last callable there is a line break. -/
theorem exists_spell_footerTokens (path : String) (cs : List Callable) (gap : String) (hgap : IsBlankText gap.toList) :
    ∃ r, IsBlankText r ∧
      spell (footerTokens path gap cs) ++ r = gap.toList ++ (cs.flatMap fun c => (c.text path).toList) := by
  induction cs generalizing gap with
  | nil => exact ⟨gap.toList, hgap, by rw [footerTokens, spell_nil, List.nil_append, List.flatMap_nil, List.append_nil]⟩
  | cons c cs ih =>
    obtain ⟨r, hr, htext⟩ := ih "\n" (by decide)
    have hbreak : "\n".toList = ['\n'] := by decide
    refine ⟨r, hr, ?_⟩
    rw [footerTokens, spell_append, List.append_assoc, htext, hbreak, ← List.append_assoc, spell_tokens, List.flatMap_cons,
      List.append_assoc]

theorem text_handler (path binding : String) : (Callable.handler binding).text path = handlerText path binding := by
  have htarget : String.ofList (spell (Callable.handler binding).target) = binding := by
    simp [Callable.target, ofWord]
  have htypeOf : String.ofList (spell (Callable.handler binding).typeOf) = "typeof " ++ binding := by
    have hword : "typeof ".toList = "typeof".toList ++ " ".toList := by decide
    simp [← String.toList_inj, Callable.typeOf, ofWord, hword]
  rw [Callable.text, htarget, htypeOf]
  rfl

theorem text_action (path binding name : String) : (Callable.action binding name).text path = actionText path binding name := by
  have htarget : String.ofList (spell (Callable.action binding name).target) =
      binding ++ ("[" ++ (Json.string name).compact ++ "]") := by
    simp [← String.toList_inj, Callable.target, ofWord, ofMark, ofText, Json.compact, Json.chars]
  have htypeOf : String.ofList (spell (Callable.action binding name).typeOf) =
      "(typeof " ++ binding ++ ")" ++ ("[" ++ (Json.string name).compact ++ "]") := by
    have hword : "(typeof ".toList = "(".toList ++ ("typeof".toList ++ " ".toList) := by decide
    simp [← String.toList_inj, Callable.typeOf, ofWord, ofMark, ofText, Json.compact, Json.chars, hword]
  rw [Callable.text, htarget, htypeOf]
  rfl

/-- The footer is the text for its callables. -/
theorem footer_toList (path : String) (handler actions : Option String) (names : List String) :
    (footer path handler actions names).toList =
      (callables handler actions names).flatMap fun c => (c.text path).toList := by
  cases handler <;> cases actions <;>
    simp [footer, callables, text_handler, text_action, String.toList_join, List.flatMap_map]

/-! ## Its tokens are read -/

variable {ts : List Token} {r : List Char} {gap : String} {callable : Callable}

/-- A key in brackets is read before anything. -/
theorem laid_key (key : String) (hts : ∀ operand, Laid operand ts r) :
    ∀ operand, Laid operand (ofMark "" "[" :: ofText "" key :: ofMark "" "]" :: ts) r := by
  have hclose := Laid.bracket "" "]" (by decide) (by decide) hts
  have hkey := Laid.literal "" key (by decide) hclose
  exact .bracket "" "[" (by decide) (by decide) hkey

theorem laid_target (hc : isName callable.binding.toList = true) (hend : Stops (spell ts ++ r))
    (hts : ∀ operand, Laid operand ts r) : ∀ operand, Laid operand (callable.target ++ ts) r := by
  cases callable with
  | handler binding => exact .plainWord "" binding (by decide) hc hend hts
  | action binding name =>
    exact .plainWord "" binding (by decide) hc (stops_of_tight rfl (by decide)) (laid_key name hts)

theorem laid_typeOf (hc : isName callable.binding.toList = true) (hend : Stops (spell ts ++ r))
    (hts : ∀ operand, Laid operand ts r) : ∀ operand, Laid operand (callable.typeOf ++ ts) r := by
  cases callable with
  | handler binding =>
    have hname := Laid.plainWord " " binding (by decide) hc hend hts
    exact .plainWord "" "typeof" (by decide) (by decide) (stops_of_spaced rfl) hname
  | action binding name =>
    have hclose := Laid.bracket "" ")" (by decide) (by decide) (laid_key name hts)
    have hname := Laid.plainWord " " binding (by decide) hc (stops_of_tight rfl (by decide)) hclose
    have hword := Laid.plainWord "" "typeof" (by decide) (by decide) (stops_of_spaced rfl) hname
    exact .bracket "" "(" (by decide) (by decide) hword

/-- An angle bracket before the type of a callable is a mark of its own. -/
theorem standsAlone_typeOf (s : List Char) : standsAlone '<' (spell callable.typeOf ++ s).head? = true := by
  cases callable with
  | handler binding =>
    have hword : "typeof".toList = 't' :: "ypeof".toList := by decide
    have halone : standsAlone '<' (some 't') = true := by decide
    simp only [Callable.typeOf, spell_cons, ofWord, hword]
    exact halone
  | action binding name =>
    have hopen : "(".toList = ['('] := by decide
    have halone : standsAlone '<' (some '(') = true := by decide
    simp only [Callable.typeOf, spell_cons, ofMark, hopen]
    exact halone

theorem isIdentifier_typeName (c : Callable) : isIdentifier c.typeName.toList = true := by
  cases c with
  | handler binding =>
    have hname : isIdentifier "HandlerInput".toList = true := by decide
    exact hname
  | action binding name => exact isIdentifier_inputTypeName name

theorem laid_metadataTokens (c : Callable) (path : String) (hts : ∀ operand, Laid operand ts r) :
    ∀ operand, Laid operand (c.metadataTokens path ++ ts) r := by
  have hmember (key value : String) {ts : List Token} (hts : ∀ operand, Laid operand ts r) :
      ∀ operand, Laid operand (ofText "" key :: ofMark "" ":" :: ofText "" value :: ts) r := by
    have hvalue := Laid.literal "" value (by decide) hts
    have hcolon := Laid.bracket "" ":" (by decide) (by decide) hvalue
    exact .literal "" key (by decide) hcolon
  have hclose := Laid.bracket " " "\x7d" (by decide) (by decide) hts
  have hend := Laid.bracket "" "\x7d" (by decide) (by decide) hclose
  have hcomma := Laid.bracket "" "," (by decide) (by decide) (hmember "path" path hend)
  have hopen := Laid.bracket " " "\x7b" (by decide) (by decide) (hmember "name" c.name hcomma)
  have hcolon := Laid.bracket "" ":" (by decide) (by decide) hopen
  have hword := Laid.plainWord " " "metadata" (by decide) (by decide) (stops_of_tight rfl (by decide)) hcolon
  exact .bracket " " "\x7b" (by decide) (by decide) hword

theorem laid_attachTokens (hc : isName callable.binding.toList = true) (path : String) (hgap : IsBlankText gap.toList)
    (hts : ∀ operand, Laid operand ts r) (operand : Bool) : Laid operand (callable.attachTokens gap path ++ ts) r := by
  have hsemicolon := Laid.bracket "" ";" (by decide) (by decide) hts
  have hclose := Laid.bracket "" ")" (by decide) (by decide) hsemicolon
  have hcomma := Laid.bracket "" "," (by decide) (by decide) (laid_metadataTokens callable path hclose)
  have htarget := laid_target hc (stops_of_tight rfl (by decide)) hcomma
  have hopen := Laid.bracket "" "(" (by decide) (by decide) htarget
  have hassign := Laid.plainWord "" "assign" (by decide) (by decide) (stops_of_tight rfl (by decide)) hopen
  have hletter : (ofWord "" "assign").text.toList.head? = some 'a' := by decide
  have hdot := Laid.mark (c := '.') "" (by decide) (by decide : ".".toList = ['.']) (by decide)
    (by rw [head?_of_tight rfl hletter]; decide) (fun _ => by rw [head?_of_tight rfl hletter]; decide) hassign
  have hpoint : (ofMark "" ".").text.toList.head? = some '.' := by decide
  have hends : ∀ d ∈ some '.', isIdentContinue d = false := by
    rintro d ⟨⟩
    decide
  have hobject := Laid.word gap "Object" hgap (by decide) (by rwa [head?_of_tight rfl hpoint]) (hdot _) operand
  simpa only [Callable.attachTokens, List.cons_append, List.append_assoc, List.nil_append] using hobject

theorem laid_exportTokens (hc : isName callable.binding.toList = true) (hts : ∀ operand, Laid operand ts r) (operand : Bool) :
    Laid operand (callable.exportTokens ++ ts) r := by
  have hsemicolon := Laid.bracket "" ";" (by decide) (by decide) hts
  have hclose := Laid.bracket "" "]" (by decide) (by decide) hsemicolon
  have hzero := Laid.numeral "" "0" (by decide) (by decide) (stops_of_tight rfl (by decide)).endsNumeral hclose
  have hopen := Laid.bracket "" "[" (by decide) (by decide) hzero
  have hend := Laid.bracket "" ">" (by decide) (by decide) hopen
  have htypeOf := laid_typeOf hc (stops_of_tight rfl (by decide)) hend
  have halone (us : List Token) : standsAlone '<' (spell (callable.typeOf ++ us) ++ r).head? = true := by
    rw [spell_append, List.append_assoc]
    exact standsAlone_typeOf _
  -- An angle bracket begins no element behind a word that wants no operand.
  have hangle := Laid.angle "" (by decide) (halone _) htypeOf
  have hparameters := Laid.word " " "Parameters" (by decide) (by decide)
    (stops_of_tight rfl (by decide)).isIdentContinue hangle
  have hequals := Laid.mark (c := '=') " " (by decide) (by decide : "=".toList = ['=']) (by decide)
    (by rw [head?_of_spaced rfl]; decide) (fun h => absurd h (by decide)) hparameters
  have hname := Laid.plainWord " " callable.typeName (by decide) (isName_of_isIdentifier (isIdentifier_typeName callable))
    (stops_of_spaced rfl) hequals
  have htype := Laid.plainWord " " "type" (by decide) (by decide) (stops_of_spaced rfl) hname
  have hexport := Laid.plainWord "\n" "export" (by decide) (by decide) (stops_of_spaced rfl) htype operand
  simpa only [Callable.exportTokens, List.cons_append, List.append_assoc, List.nil_append] using hexport

/-- The tokens for callables are read one after the other. -/
theorem laid_footerTokens {cs : List Callable} (hcs : ∀ c ∈ cs, isName c.binding.toList = true) (path : String)
    (hgap : IsBlankText gap.toList) (operand : Bool) : Laid operand (footerTokens path gap cs) r := by
  induction cs generalizing gap operand with
  | nil => exact .nil _ _
  | cons c cs ih =>
    obtain ⟨hc, hcs⟩ := List.forall_mem_cons.mp hcs
    have hline : IsBlankText (gap ++ "\n").toList := by
      rw [String.toList_append]
      exact hgap.append (by decide)
    rw [footerTokens, Callable.tokens, List.append_assoc]
    exact laid_attachTokens hc path hline (laid_exportTokens hc (ih hcs (by decide))) operand

/-! ## What it declares -/

/-- The words of what is attached to a callable. -/
def metadataWords (name path : String) : List String :=
  ["\x7b", "metadata", ":", "\x7b", Boot.quotedText "name", ":", Boot.quotedText name, ",", Boot.quotedText "path", ":",
    Boot.quotedText path, "\x7d", "\x7d"]

theorem ofText_text (gap value : String) : (ofText gap value).text = Boot.quotedText value := by
  rw [Boot.quotedText, Json.compact, Json.chars, ofText]

theorem exportedTypes_tokens (gap path : String) (c : Callable) (ts : List Token) :
    exportedTypes (c.tokens gap path ++ ts) = c.typeName :: exportedTypes ts := by
  cases c <;>
    simp [Callable.tokens, Callable.attachTokens, Callable.exportTokens, Callable.metadataTokens, Callable.target,
      Callable.typeOf, exportedTypes]

theorem assignments_tokens (gap path : String) (c : Callable) (ts : List Token) :
    assignments (c.tokens gap path ++ ts) =
      (c.target.map (·.text), metadataWords c.name path) :: assignments ts := by
  cases c <;>
    simp [Callable.tokens, Callable.attachTokens, Callable.exportTokens, Callable.metadataTokens, Callable.target,
      Callable.typeOf, assignments, assigned, ofText_text, metadataWords]

theorem exportedTypes_footerTokens (path gap : String) (cs : List Callable) :
    exportedTypes (footerTokens path gap cs) = cs.map Callable.typeName := by
  induction cs generalizing gap with
  | nil => rfl
  | cons c cs ih => rw [footerTokens, exportedTypes_tokens, ih, List.map_cons]

theorem assignments_footerTokens (path gap : String) (cs : List Callable) :
    assignments (footerTokens path gap cs) = cs.map fun c => (c.target.map (·.text), metadataWords c.name path) := by
  induction cs generalizing gap with
  | nil => rfl
  | cons c cs ih => rw [footerTokens, assignments_tokens, ih, List.map_cons]

variable {handler actions : Option String} {names : List String}

/-- The footer can be read, and declares something for each of its callables. -/
theorem tokenize_footer (path : String) (names : List String)
    (hlocal : ∀ binding ∈ handler.toList ++ actions.toList, isName binding.toList = true) :
    ∃ ts, tokenize (footer path handler actions names) = .ok ts ∧
      exportedTypes ts = (callables handler actions names).map Callable.typeName ∧
      assignments ts = (callables handler actions names).map fun c => (c.target.map (·.text), metadataWords c.name path) := by
  have hbound : ∀ c ∈ callables handler actions names, isName c.binding.toList = true := by
    obtain ⟨hhandler, hactions⟩ := List.forall_mem_append.mp hlocal
    intro c hc
    rcases List.mem_append.mp hc with hc | hc
    · obtain ⟨binding, hbinding, rfl⟩ := List.mem_map.mp hc
      exact hhandler binding hbinding
    · obtain ⟨binding, hbinding, hc⟩ := List.mem_flatMap.mp hc
      obtain ⟨name, -, rfl⟩ := List.mem_map.mp hc
      exact hactions binding hbinding
  obtain ⟨r, hr, htext⟩ := exists_spell_footerTokens path (callables handler actions names) "" (by decide)
  have hempty : "".toList = [] := rfl
  rw [hempty, List.nil_append, ← footer_toList] at htext
  have hfirst : (spell (footerTokens path "" (callables handler actions names)) ++ r).head? ≠ some '#' := by
    have hbreak : "\n".toList = ['\n'] := by decide
    cases hcs : callables handler actions names with
    | nil =>
      intro hhead
      rw [footerTokens, spell_nil, List.nil_append] at hhead
      exact absurd (hr '#' (List.mem_of_mem_head? hhead)) (by decide)
    | cons c cs => simp [footerTokens, Callable.tokens, Callable.attachTokens, ofWord, hbreak]
  obtain ⟨ts, htokens, hts⟩ := (laid_footerTokens hbound path (by decide) true).tokenize hfirst hr
  rw [htext, String.ofList_toList] at htokens
  refine ⟨ts, htokens, ?_, ?_⟩
  · rw [← exportedTypes_unplaced, hts, exportedTypes_unplaced, exportedTypes_footerTokens]
  · rw [← assignments_unplaced, hts, assignments_unplaced, assignments_footerTokens]

theorem nodup_typeNames_iff : ((callables handler actions names).map Callable.typeName).Nodup ↔
    (actions.isSome = true → (names.map folded).Nodup) := by
  have hnames : (names.map inputTypeName).Nodup ↔ (names.map folded).Nodup := by
    simp only [List.Nodup, List.pairwise_map, ne_eq, inputTypeName_eq_iff]
  have hactions (binding : String) : (names.map (Callable.action binding)).map Callable.typeName = names.map inputTypeName := by
    rw [List.map_map]
    rfl
  have hhandler : "HandlerInput" ∉ names.map inputTypeName := by
    intro hmem
    obtain ⟨a, -, ha⟩ := List.mem_map.mp hmem
    exact inputTypeName_ne_handlerInput a ha
  cases handler <;> cases actions <;> simp [callables, hactions, hnames, hhandler, Callable.typeName]

/-- **What the end of a script declares.** It attaches metadata to the handler and to each action, once and in their order,
and exports a type for each of them. The names of the types are identifiers, and no two of them are the same if and only
if the names of the actions differ in what is kept of them. -/
theorem footer_declares (path : String) (handler actions : Option String) (names : List String)
    (hlocal : ∀ binding ∈ handler.toList ++ actions.toList, isName binding.toList = true) :
    ∃ ts, tokenize (footer path handler actions names) = .ok ts ∧
      assignments ts = (handler.toList.map fun binding => ([binding], metadataWords "handler" path)) ++
        actions.toList.flatMap (fun binding => names.map fun name =>
          ([binding, "[", Boot.quotedText name, "]"], metadataWords name path)) ∧
      exportedTypes ts = (handler.toList.map fun _ => "HandlerInput") ++
        actions.toList.flatMap (fun _ => names.map inputTypeName) ∧
      (∀ name ∈ exportedTypes ts, isIdentifier name.toList = true) ∧
      ((exportedTypes ts).Nodup ↔ (actions.isSome = true → (names.map folded).Nodup)) := by
  obtain ⟨ts, htokens, htypes, hassigned⟩ := tokenize_footer path names hlocal
  refine ⟨ts, htokens, ?_, ?_, ?_, ?_⟩
  · rw [hassigned]
    simp [callables, Callable.target, Callable.name, ofText_text, List.map_flatMap, Function.comp_def]
  · rw [htypes]
    simp [callables, Callable.typeName, List.map_flatMap, Function.comp_def]
  · rw [htypes]
    intro name hname
    obtain ⟨c, -, rfl⟩ := List.mem_map.mp hname
    exact isIdentifier_typeName c
  · rw [htypes]
    exact nodup_typeNames_iff

/-- Names that are written with marks, begin with a digit or hold nothing at all give names to types. -/
theorem footer_declares_odd :
    let ts? := tokenize (footer "main.ts" (some "run") (some "actions") ["send-email", "2fa", ""])
    ∃ ts, ts? = .ok ts ∧
      exportedTypes ts = ["HandlerInput", "SendEmailActionInput", "_2faActionInput", "_ActionInput"] ∧
      (exportedTypes ts).Nodup ∧ (assignments ts).length = 4 := by
  obtain ⟨ts, htokens, hassigned, htypes, -, hnodup⟩ :=
    footer_declares "main.ts" (some "run") (some "actions") ["send-email", "2fa", ""] (by decide)
  refine ⟨ts, htokens, ?_, hnodup.mpr fun _ => by decide, ?_⟩
  · rw [htypes]
    decide
  · rw [hassigned]
    rfl

/-- **Two actions of different names give their types one name.** -/
theorem footer_sameType : ["send-email", "sendEmail"].Nodup ∧
    ∃ ts, tokenize (footer "main.ts" none (some "actions") ["send-email", "sendEmail"]) = .ok ts ∧
      exportedTypes ts = ["SendEmailActionInput", "SendEmailActionInput"] := by
  have hlocal : ∀ binding ∈ (none : Option String).toList ++ (some "actions").toList, isName binding.toList = true := by
    decide
  obtain ⟨ts, htokens, htypes, -⟩ := tokenize_footer "main.ts" ["send-email", "sendEmail"] hlocal
  refine ⟨by decide, ts, htokens, ?_⟩
  rw [htypes]
  decide

end Metadata

end AppBundler
