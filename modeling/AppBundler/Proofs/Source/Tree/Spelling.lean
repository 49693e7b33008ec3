import AppBundler.Proofs.Source.Tree.Printing
/-!
# The text of a type is read as its words

Every word of a type is read before what stands behind it: a name and a number end before a blank and before the marks
that may follow a type, a bracket begins no longer token, and an operator stands between blanks.
-/

namespace AppBundler

open Lexeme

namespace TypeExpr

variable {t : TypeExpr} {ts : List TypeExpr} {vs : List Word} {r : List Char} {spaced operand : Bool}
  {text : String} {tight : Nat}

/-- What may stand behind the text of a type. -/
def enders : List Char := [' ', '[', ',', '>', ')', ';']

/-- A text that the last word of a type does not go on with. -/
def Ends (r : List Char) : Prop := ∀ d ∈ r.head?, d ∈ enders

theorem Ends.intro {c : Char} (hc : c ∈ enders) (r : List Char) : Ends (c :: r) := by
  rintro d ⟨⟩
  exact hc

theorem Ends.stops (h : Ends r) : Stops r := by
  have hall : enders.all Lexeme.stops.contains = true := by decide
  intro d hd
  exact List.contains_iff_mem.mp (List.all_eq_true.mp hall d (h d hd))

/-- The brackets and separators that no longer token begins with. -/
def brackets : List Char := ['(', ')', '[', ']', '{', '}', '>', ',', ';', ':']

theorem standsAlone_of_head? {c : Char} (h : (punctuators.all fun p => p.head? != some c) = true) (d : Option Char) :
    standsAlone c d = true := by
  rw [standsAlone, List.all_eq_true]
  intro p hp
  simp [bne_iff_ne.mp (List.all_eq_true.mp h p hp)]

theorem readable_ident (htext : isName text.toList = true)
    (hr : ∀ d ∈ (Word.spell vs ++ r).head?, isIdentContinue d = false)
    (hvs : Word.Readable (Token.operandKeywords.contains text) vs r) :
    Word.Readable operand (⟨spaced, .ident, text⟩ :: vs) r := by
  obtain ⟨c, s, hs, hc⟩ := exists_cons_of_isName htext
  exact .cons hs ⟨isBlank_of_isIdentStart hc, ne_of_isIdentStart hc (by decide)⟩ (fun _ => lexeme_name htext hr) hvs

theorem readable_mark {c : Char} (htext : text.toList = [c]) (hc : c ∈ marks)
    (halone : standsAlone c (Word.spell vs ++ r).head? = true)
    (hdot : c = '.' → (Word.spell vs ++ r).head?.any Char.isDigit = false) (hangle : c = '<' → operand = false)
    (hvs : ∀ operand, Word.Readable operand vs r) : Word.Readable operand (mark spaced text :: vs) r := by
  have hall : (marks.all fun c => !isBlank c && c != '/') = true := by decide
  have hplain := List.all_eq_true.mp hall c hc
  simp only [Bool.and_eq_true, Bool.not_eq_true', bne_iff_ne] at hplain
  refine .cons htext hplain (fun jsx => ?_) (hvs _)
  simp only [mark, htext]
  exact lexeme_mark hc halone hdot hangle

theorem readable_bracket {c : Char} (htext : text.toList = [c]) (hc : c ∈ brackets)
    (hvs : ∀ operand, Word.Readable operand vs r) : Word.Readable operand (mark spaced text :: vs) r := by
  have hall : (brackets.all fun c => marks.contains c && (punctuators.all fun p => p.head? != some c) &&
      c != '.' && c != '<') = true := by
    decide
  have hplain := List.all_eq_true.mp hall c hc
  simp only [Bool.and_eq_true, bne_iff_ne, List.contains_iff_mem] at hplain
  obtain ⟨⟨⟨hmark, halone⟩, hdot⟩, hangle⟩ := hplain
  exact readable_mark htext hmark (standsAlone_of_head? halone _) (fun h => absurd h hdot) (fun h => absurd h hangle) hvs

theorem readable_string (value : String) (hvs : ∀ operand, Word.Readable operand vs r) :
    Word.Readable operand (⟨spaced, .string, String.ofList (quoted value.toList)⟩ :: vs) r := by
  refine .cons (c := '"') (s := value.toList.flatMap escapeChar ++ ['"']) ?_ (by decide) (fun jsx => ?_) (hvs _)
  · rw [String.toList_ofList, quoted]
  · rw [String.toList_ofList]
    exact lexeme_quoted _ _

theorem readable_number (htext : isNumeral text.toList = true) (hr : Ends (Word.spell vs ++ r))
    (hvs : ∀ operand, Word.Readable operand vs r) : Word.Readable operand (⟨spaced, .number, text⟩ :: vs) r := by
  obtain ⟨c, s, hs, hc⟩ := exists_cons_of_isNumeral htext
  refine .cons hs ?_ (fun jsx => lexeme_numeral htext hr.stops.endsNumeral) (hvs _)
  rcases hc with hc | rfl
  · have hcode : 48 ≤ c.toNat ∧ c.toNat ≤ 57 := by
      simpa [Char.isDigit, UInt32.le_iff_toNat_le] using hc
    refine ⟨?_, ?_⟩
    · simp only [isBlank, Bool.or_eq_false_iff, Bool.and_eq_false_iff, decide_eq_false_iff_not]
      omega
    · rintro rfl
      revert hcode
      decide
  · decide

theorem partWords_cons_cons (first part : List Char) (more : List (List Char)) :
    partWords spaced (first :: part :: more) = name spaced first :: mark false "." :: partWords false (part :: more) := rfl

theorem readable_partWords {first : List Char} {more : List (List Char)}
    (hname : ∀ part ∈ first :: more, isName part = true)
    (hr : ∀ d ∈ (Word.spell vs ++ r).head?, isIdentContinue d = false)
    (hvs : ∀ part ∈ first :: more, Word.Readable (Token.operandKeywords.contains (String.ofList part)) vs r) :
    Word.Readable operand (partWords spaced (first :: more) ++ vs) r := by
  induction more generalizing first spaced operand with
  | nil =>
    have hfirst := hname first List.mem_cons_self
    exact readable_ident (by rwa [String.toList_ofList]) hr (hvs first List.mem_cons_self)
  | cons part more ih =>
    have hfirst := hname first List.mem_cons_self
    have hmore (operand : Bool) : Word.Readable operand (partWords false (part :: more) ++ vs) r :=
      ih (fun p hp => hname p (List.mem_cons_of_mem _ hp)) fun p hp => hvs p (List.mem_cons_of_mem _ hp)
    -- the point stands alone, since the part behind it begins with neither a point nor a digit
    obtain ⟨c, s, rfl, hc⟩ := exists_cons_of_isName (hname part (by simp))
    have hhead : (Word.spell (partWords false ((c :: s) :: more) ++ vs) ++ r).head? = some c := by
      simp [partWords, name, Word.chars, Word.gap]
    have hdot : c ≠ '.' := ne_of_isIdentStart hc (by decide)
    rw [partWords_cons_cons, List.cons_append, List.cons_append]
    refine readable_ident (by rwa [String.toList_ofList]) ?_ ?_
    · rintro d ⟨⟩
      decide
    · refine readable_mark (c := '.') rfl (by decide) ?_ (fun _ => ?_) (by simp) hmore
      · rw [hhead]
        simp [standsAlone, punctuators, hdot.symm]
      · rw [hhead]
        exact isDigit_of_isIdentStart hc

/-- Words that are read before whatever may follow a type. -/
def Lexes (ws : List Word) : Prop :=
  ∀ ⦃vs r⦄, Ends (Word.spell vs ++ r) → (∀ operand, Word.Readable operand vs r) →
    ∀ operand, Word.Readable operand (ws ++ vs) r

theorem Lexes.append {ws ws' : List Word} (h : Lexes ws) (h' : Lexes ws')
    (hends : ∀ ⦃r⦄, Ends r → Ends (Word.spell ws' ++ r)) : Lexes (ws ++ ws') := by
  intro vs r hr hvs operand
  rw [List.append_assoc]
  refine h ?_ (h' hr hvs) operand
  rw [Word.spell_append, List.append_assoc]
  exact hends hr

theorem Lexes.enclosed {ws : Bool → List Word} (h : ∀ spaced, Lexes (ws spaced)) (tight : Nat) (t : TypeExpr)
    (spaced : Bool) : Lexes (enclosed tight t ws spaced) := by
  intro vs r hr hvs operand
  rw [TypeExpr.enclosed]
  split
  · rw [List.cons_append, List.append_assoc]
    refine readable_bracket (c := '(') rfl (by decide) (h false (.intro (by decide) _) fun operand => ?_)
    exact readable_bracket (c := ')') rfl (by decide) hvs
  · exact h spaced hr hvs operand

/-- A word between types: its text begins with what a type ends before, and it is read before a blank. -/
structure Separates (w : Word) : Prop where
  ends : ∀ r, Ends (w.chars ++ r)
  reads : ∀ ⦃vs r⦄, (Word.spell vs ++ r).head? = some ' ' → (∀ operand, Word.Readable operand vs r) →
    ∀ operand, Word.Readable operand (w :: vs) r

theorem separates_comma : Separates (mark false ",") :=
  ⟨fun _ => .intro (by decide) _, fun _ _ _ hvs _ => readable_bracket (c := ',') rfl (by decide) hvs⟩

theorem separates_operator {c : Char} (htext : text.toList = [c]) (hc : c = '|' ∨ c = '&') : Separates (mark true text) := by
  refine ⟨fun r => .intro (by decide) _, fun vs r hr hvs operand => ?_⟩
  refine readable_mark htext ?_ ?_ ?_ ?_ hvs
  · rcases hc with rfl | rfl <;> decide
  · rw [hr]
    rcases hc with rfl | rfl <;> decide
  · rcases hc with rfl | rfl <;> simp
  · rcases hc with rfl | rfl <;> simp

theorem ends_followers {separator : Word} (hs : Separates separator) (hr : Ends r) :
    Ends (Word.spell (followers tight separator ts) ++ r) := by
  cases ts with
  | nil => rwa [followers]
  | cons t ts =>
    rw [followers, Word.spell_cons, List.append_assoc]
    exact hs.ends _

theorem Begins.head? {ws : Bool → List Word} (h : Begins ws) (s : List Char) :
    (Word.spell (ws true) ++ s).head? = some ' ' := by
  obtain ⟨hws, -⟩ := h
  rw [hws, Word.spell_cons]
  rfl

theorem lexes_followers {separator : Word} (hs : Separates separator) (hbegins : ∀ t ∈ ts, Begins t.bare)
    (h : ∀ t ∈ ts, ∀ spaced, Lexes (t.bare spaced)) : Lexes (followers tight separator ts) := by
  induction ts with
  | nil =>
    intro vs r hr hvs
    rwa [followers]
  | cons t ts ih =>
    have ih := ih (fun t ht => hbegins t (List.mem_cons_of_mem _ ht)) fun t ht => h t (List.mem_cons_of_mem _ ht)
    intro vs r hr hvs operand
    have hrest := ((Lexes.enclosed (h t List.mem_cons_self) tight t true).append ih fun _ => ends_followers hs) hr hvs
    rw [followers, List.cons_append]
    refine hs.reads ?_ hrest operand
    rw [List.append_assoc, Word.spell_append, List.append_assoc]
    exact ((hbegins t List.mem_cons_self).enclosed tight t).head? _

theorem readable_memberWords {x : Member} (hbegins : ∀ t, x.type = some t → Begins t.bare)
    (h : ∀ t, x.type = some t → ∀ spaced, Lexes (t.bare spaced)) (hvs : ∀ operand, Word.Readable operand vs r) :
    Word.Readable operand (memberWords x ++ vs) r := by
  obtain ⟨key, optional, type, doc, method⟩ := x
  have hend (operand : Bool) : Word.Readable operand (mark false ";" :: vs) r :=
    readable_bracket (c := ';') rfl (by decide) hvs
  have hends : Ends (Word.spell (mark false ";" :: vs) ++ r) := .intro (by decide) _
  have htype (operand : Bool) : Word.Readable operand (annotationWords type ++ mark false ";" :: vs) r := by
    cases type with
    | none => exact hend operand
    | some t =>
      rw [annotationWords]
      exact readable_bracket (c := ':') rfl (by decide) (h t rfl true hends hend)
  rw [memberWords, List.cons_append]
  refine readable_string key fun operand => ?_
  simp only [List.append_assoc, List.singleton_append]
  cases optional with
  | false => exact htype operand
  | true =>
    refine readable_mark (c := '?') rfl (by decide) ?_ (by simp) (by simp) htype
    cases type with
    | none => exact rfl
    | some t => exact rfl

theorem readable_membersWords {members : List Member} (hbegins : ∀ x ∈ members, ∀ t, x.type = some t → Begins t.bare)
    (h : ∀ x ∈ members, ∀ t, x.type = some t → ∀ spaced, Lexes (t.bare spaced))
    (hvs : ∀ operand, Word.Readable operand vs r) : Word.Readable operand (membersWords members ++ vs) r := by
  induction members generalizing operand with
  | nil => exact hvs operand
  | cons x xs ih =>
    rw [membersWords, List.append_assoc]
    refine readable_memberWords (hbegins x List.mem_cons_self) (h x List.mem_cons_self) fun operand => ?_
    exact ih (fun x hx => hbegins x (List.mem_cons_of_mem _ hx)) fun x hx => h x (List.mem_cons_of_mem _ hx)

/-- The words of types that hold together with an operator. -/
theorem lexes_operands {c : Char} (htext : text.toList = [c]) (hc : c = '|' ∨ c = '&')
    (hbegins : ∀ t' ∈ t :: ts, Begins t'.bare) (h : ∀ t' ∈ t :: ts, ∀ spaced, Lexes (t'.bare spaced)) :
    Lexes (enclosed tight t t.bare spaced ++ followers tight (mark true text) ts) := by
  have hs := separates_operator htext hc
  refine (Lexes.enclosed (h t List.mem_cons_self) tight t spaced).append ?_ fun _ => ends_followers hs
  exact lexes_followers hs (fun t' ht => hbegins t' (List.mem_cons_of_mem _ ht))
    fun t' ht => h t' (List.mem_cons_of_mem _ ht)

theorem lexes_ident (htext : isName text.toList = true) : Lexes [⟨spaced, .ident, text⟩] :=
  fun _ _ hr hvs _ => readable_ident htext hr.stops.isIdentContinue (hvs _)

/-- **The words of a type are read one after the other.** -/
theorem Printable.lexes (h : Printable t) : ∀ spaced, Lexes (t.bare spaced) := by
  have hkeywords : (keywords.all fun text => isName text.toList) = true := by decide +kernel
  induction h with
  | keyword h =>
    intro spaced
    rw [bare]
    exact lexes_ident (List.all_eq_true.mp hkeywords _ h)
  | string value =>
    intro spaced vs r hr hvs operand
    rw [bare, literalWords]
    exact readable_string value hvs
  | number h =>
    intro spaced vs r hr hvs operand
    rw [bare, literalWords_number h]
    exact readable_number h hr hvs
  | @negative text h =>
    intro spaced vs r hr hvs operand
    rw [bare, literalWords_negative, List.cons_append, List.singleton_append]
    refine readable_mark (c := '-') rfl (by decide) ?_ (by simp) (by simp) fun operand => readable_number h hr hvs
    obtain ⟨c, s, hs, hc⟩ := exists_cons_of_isNumeral h
    rw [Word.spell_cons, Word.chars, hs]
    have hminus : c ≠ '-' := by
      rintro rfl
      simp at hc
    have hequals : c ≠ '=' := by
      rintro rfl
      simp at hc
    simp [standsAlone, punctuators, Word.gap, hminus.symm, hequals.symm]
  | bool value =>
    intro spaced
    rw [bare, literalWords]
    cases value with
    | true => exact lexes_ident (by decide +kernel)
    | false => exact lexes_ident (by decide +kernel)
  | @reference text args hname hargs ih =>
    intro spaced vs r hr hvs operand
    have hparts : ∀ part ∈ parts text, isName part = true := fun part hpart => (hname part hpart).1
    have hplain : ∀ part ∈ parts text, Token.operandKeywords.contains (String.ofList part) = false := by
      intro part hpart
      by_contra hkeyword
      refine (hname part hpart).2 ?_
      rw [Bool.not_eq_false, List.contains_iff_mem] at hkeyword
      exact List.mem_append_right _ (List.mem_append_right _ (List.mem_cons_of_mem _ hkeyword))
    obtain ⟨first, more, hfirst⟩ := List.exists_cons_of_ne_nil (List.splitOn_ne_nil '.' text.toList)
    have hfirst : parts text = first :: more := hfirst
    rw [hfirst] at hparts hplain
    cases args with
    | nil =>
      rw [bare, hfirst]
      exact readable_partWords hparts hr.stops.isIdentContinue fun _ _ => hvs _
    | cons t ts =>
      rw [bare, hfirst, List.append_assoc]
      refine readable_partWords hparts ?_ fun part hpart => ?_
      · rintro d ⟨⟩
        decide
      · rw [hplain part hpart]
        have hclose (operand : Bool) : Word.Readable operand (mark false ">" :: vs) r :=
          readable_bracket (c := '>') rfl (by decide) hvs
        have hmore : Lexes (followers 0 (mark false ",") ts) :=
          lexes_followers separates_comma (fun t ht => (hargs t (List.mem_cons_of_mem _ ht)).begins)
            fun t ht => ih t (List.mem_cons_of_mem _ ht)
        refine readable_mark (c := '<') rfl (by decide) (standsAlone_of_head? (by decide) _) (by simp) (by simp) ?_
        have hall := (Lexes.enclosed (ih t List.mem_cons_self) 0 t false).append hmore fun _ => ends_followers separates_comma
        simpa using @hall (mark false ">" :: vs) r (.intro (by decide) _) hclose
  | @array element h ih =>
    intro spaced vs r hr hvs operand
    rw [bare, List.append_assoc]
    refine Lexes.enclosed ih 3 element spaced (.intro (by decide) _) (fun operand => ?_) operand
    refine readable_bracket (c := '[') rfl (by decide) fun operand => ?_
    exact readable_bracket (c := ']') rfl (by decide) hvs
  | @union ts hlength h ih =>
    intro spaced
    obtain ⟨t, t', more, rfl⟩ := exists_cons_cons hlength
    rw [bare]
    exact lexes_operands (c := '|') rfl (.inl rfl) (fun t ht => (h t ht).begins) ih
  | @intersection ts hlength h ih =>
    intro spaced
    obtain ⟨t, t', more, rfl⟩ := exists_cons_cons hlength
    rw [bare]
    exact lexes_operands (c := '&') rfl (.inr rfl) (fun t ht => (h t ht).begins) ih
  | @object members hdoc hmethod htype ih =>
    intro spaced vs r hr hvs operand
    rw [bare, List.cons_append, List.append_assoc]
    refine readable_bracket (c := '\x7b') rfl (by decide) fun operand => ?_
    refine readable_membersWords (fun x hx t ht => (htype x hx t ht).begins) ih fun operand => ?_
    exact readable_bracket (c := '\x7d') rfl (by decide) hvs
  | @keyofTypeof text h =>
    intro spaced vs r hr hvs operand
    obtain ⟨first, more, hfirst⟩ := List.exists_cons_of_ne_nil (List.splitOn_ne_nil '.' text.toList)
    have hfirst : parts text = first :: more := hfirst
    rw [hfirst] at h
    rw [bare, hfirst, List.cons_append, List.cons_append]
    refine readable_ident (by decide +kernel) ?_ (readable_ident (by decide +kernel) ?_ ?_)
    · rintro d ⟨⟩
      decide +kernel
    · rintro d ⟨⟩
      decide +kernel
    · exact readable_partWords h hr.stops.isIdentContinue fun _ _ => hvs _

end TypeExpr

end AppBundler
