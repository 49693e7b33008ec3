import AppBundler.Proofs.Source.Inside
import AppBundler.Proofs.Source.Tree.Layout
/-!
# JSON is read as tokens

The indented text of any value can stand in a source text: it is read as tokens up to its end, whatever the texts in it
are, and none of the tokens begins an import. The induction is on the value, and it is carried through the elements of an
array and the members of an object.
-/

namespace AppBundler

open Lexeme Lexer Token

/-! ## Numbers -/

namespace Lexeme

variable {c : Char} {s t : List Char} {hex : Bool} {last : Char}

theorem numberRest_rest_cons (h : continuesNumber hex last c = true) :
    (numberRest hex last (c :: s)).rest = (numberRest hex c s).rest := by
  rw [numberRest_cons, if_pos h]

/-- Digits and points belong to the number before them. -/
theorem numberRest_rest_append (hex : Bool) (last : Char) (h : ∀ c ∈ s, c.isDigit = true ∨ c = '.') (t : List Char) :
    ∃ last', (numberRest hex last (s ++ t)).rest = (numberRest hex last' t).rest := by
  induction s generalizing last with
  | nil => exact ⟨last, rfl⟩
  | cons c s ih =>
    obtain ⟨hc, hs⟩ := List.forall_mem_cons.mp h
    have hcontinues : continuesNumber hex last c = true := by
      rcases hc with hc | rfl
      · simp [continuesNumber, Char.isAlphanum, hc]
      · simp [continuesNumber]
    rw [List.cons_append, numberRest_rest_cons hcontinues]
    exact ih c hs

/-- Digits and points behind a digit are a number. -/
theorem isNumeral_plain (hc : c.isDigit = true) (hs : ∀ d ∈ s, d.isDigit = true ∨ d = '.') : isNumeral (c :: s) = true := by
  have hrest (hex : Bool) : (numberRest hex c s).rest = [] := by
    obtain ⟨last, hlast⟩ := numberRest_rest_append hex c hs []
    rwa [List.append_nil] at hlast
  rw [isNumeral, hc, number_cons, hrest]
  rfl

/-- A decimal with an exponent is a number. -/
theorem isNumeral_scientific {mark : Char} (hc : c.isDigit = true) (hs : ∀ d ∈ s, d.isDigit = true ∨ d = '.')
    (hmark : mark = '+' ∨ mark = '-') (ht : ∀ d ∈ t, d.isDigit = true) : isNumeral (c :: (s ++ 'e' :: mark :: t)) = true := by
  have hrest : (numberRest false c (s ++ 'e' :: mark :: t)).rest = [] := by
    obtain ⟨last, hlast⟩ := numberRest_rest_append false c hs ('e' :: mark :: t)
    obtain ⟨last', hlast'⟩ := numberRest_rest_append false mark (fun d hd => .inl (ht d hd)) []
    have hletter : continuesNumber false last 'e' = true := by simp [continuesNumber]
    have hsign : continuesNumber false 'e' mark = true := by rcases hmark with rfl | rfl <;> rfl
    rw [List.append_nil] at hlast'
    rw [hlast, numberRest_rest_cons hletter, numberRest_rest_cons hsign, hlast']
    rfl
  -- No letter of a hexadecimal number comes second.
  have hletter : ∀ d ∈ (s ++ 'e' :: mark :: t).head?, d ≠ 'x' ∧ d ≠ 'X' := by
    intro d hd
    cases s with
    | nil =>
      cases hd
      decide
    | cons a s =>
      cases hd
      rcases hs d List.mem_cons_self with hd | rfl
      · constructor <;> rintro rfl <;> exact absurd hd (by decide)
      · decide
  have hplain : ((s ++ 'e' :: mark :: t).head?.any (· = 'x') || (s ++ 'e' :: mark :: t).head?.any (· = 'X')) = false := by
    cases hhead : (s ++ 'e' :: mark :: t).head? with
    | none => rfl
    | some d => simpa using hletter d hhead
  rw [isNumeral, hc, number_cons, hplain, Bool.and_false, hrest]
  rfl

/-- What ends every number stands in none. -/
theorem not_mem_of_isNumeral {d : Char} (hd : ∀ hex last, continuesNumber hex last d = false) (h : isNumeral s = true) :
    d ∉ s := by
  have hrest : ∀ {hex last} {s : List Char}, (numberRest hex last s).rest = [] → d ∉ s := by
    intro hex last s hs
    induction s generalizing last with
    | nil => simp
    | cons c s ih =>
      by_cases hc : continuesNumber hex last c = true
      · rw [numberRest_rest_cons hc] at hs
        rw [List.mem_cons, not_or]
        refine ⟨?_, ih hs⟩
        rintro rfl
        rw [hd] at hc
        cases hc
      · rw [numberRest_cons, if_neg hc] at hs
        cases hs
  match s, h with
  | c :: s, h =>
    obtain ⟨hc, hend⟩ := Bool.and_eq_true_iff.mp h
    rw [number_cons, List.isEmpty_iff] at hend
    rw [List.mem_cons, not_or]
    refine ⟨?_, hrest hend⟩
    rintro rfl
    have hplain := hd false 'e'
    simp only [continuesNumber, Char.isAlphanum, Bool.or_eq_false_iff, decide_eq_false_iff_not] at hplain
    simp only [Bool.or_eq_true, Bool.and_eq_true, decide_eq_true_eq] at hc
    rcases hc with hc | ⟨hc, -⟩
    · rw [hc] at hplain
      simp at hplain
    · exact hplain.1.2 hc

end Lexeme

/-! ### Their texts -/

/-- A text that is a number, with a minus before it or without. -/
def IsSigned (s : List Char) : Prop := ∃ body, isNumeral body = true ∧ (s = body ∨ s = '-' :: body)

theorem IsSigned.not_mem {s : List Char} {d : Char} (h : IsSigned s) (hd : ∀ hex last, continuesNumber hex last d = false)
    (hminus : d ≠ '-') : d ∉ s := by
  obtain ⟨body, hbody, rfl | rfl⟩ := h
  · exact not_mem_of_isNumeral hd hbody
  · rw [List.mem_cons, not_or]
    exact ⟨hminus, not_mem_of_isNumeral hd hbody⟩

theorem isNumeral_toDigits (n : Nat) : isNumeral (Nat.toDigits 10 n) = true := by
  have hdigits : ∀ c ∈ Nat.toDigits 10 n, c.isDigit = true := fun c hc =>
    Nat.isDigit_of_mem_toDigits (by decide) (by decide) hc
  cases htext : Nat.toDigits 10 n with
  | nil => exact absurd htext Nat.toDigits_ne_nil
  | cons c s =>
    rw [htext] at hdigits
    obtain ⟨hc, hs⟩ := List.forall_mem_cons.mp hdigits
    exact isNumeral_plain hc fun d hd => .inl (hs d hd)

theorem Json.isSigned_intChars (n : Int) : IsSigned (Json.intChars n) := by
  cases n with
  | ofNat m => exact ⟨_, isNumeral_toDigits m, .inl rfl⟩
  | negSucc m => exact ⟨_, isNumeral_toDigits (m + 1), .inr rfl⟩

namespace Double

/-- The text of a positive decimal `d · 10 ^ k`. -/
def decimal (d : Nat) (k : Int) : List Char :=
  let ds := digitChars d
  let e : Int := k + ds.length - 1
  if -5 ≤ e && e ≤ 15 then
    if 0 ≤ k then ds ++ List.replicate k.toNat '0' ++ ['.', '0']
    else if 0 ≤ e then ds.take (e + 1).toNat ++ '.' :: ds.drop (e + 1).toNat
    else '0' :: '.' :: List.replicate (-e - 1).toNat '0' ++ ds
  else
    ds.take 1 ++ (if (ds.drop 1).isEmpty then [] else '.' :: ds.drop 1) ++
      'e' :: (if 0 ≤ e then '+' else '-') :: digitChars e.natAbs

theorem toText_eq (x : Double) :
    x.toText = String.ofList ((if x.negative then ['-'] else []) ++
      if x.mantissa = 0 then ['0', '.', '0'] else decimal x.shortest.1 x.shortest.2) := by
  rw [toText]
  split <;> rfl

/-- Digits with a fraction or with an exponent are a number. -/
theorem isNumeral_decimal (d : Nat) (k : Int) : isNumeral (decimal d k) = true := by
  have hdigits : ∀ n, ∀ c ∈ digitChars n, c.isDigit = true := fun n c hc =>
    Nat.isDigit_of_mem_toDigits (by decide) (by decide) hc
  obtain ⟨c, s, hds⟩ : ∃ c s, digitChars d = c :: s := List.exists_cons_of_ne_nil Nat.toDigits_ne_nil
  have hall : ∀ a ∈ c :: s, a.isDigit = true := hds ▸ hdigits d
  obtain ⟨hc, hs⟩ := List.forall_mem_cons.mp hall
  have hzero : '0'.isDigit = true := by decide
  have hzeros : ∀ n, ∀ a ∈ List.replicate n '0', a.isDigit = true ∨ a = '.' := by
    intro n a ha
    rw [List.eq_of_mem_replicate ha]
    exact .inl hzero
  have hplain : ∀ {l : List Char}, (∀ a ∈ l, a ∈ s) → ∀ a ∈ l, a.isDigit = true ∨ a = '.' := fun hl a ha => .inl (hs a (hl a ha))
  rw [decimal, hds]
  generalize k + ((c :: s).length : Int) - 1 = e
  split
  · split
    · rw [List.cons_append, List.cons_append]
      refine isNumeral_plain hc ?_
      simp only [List.forall_mem_append, List.forall_mem_cons]
      exact ⟨⟨hplain fun _ ha => ha, hzeros _⟩, .inr trivial, .inl hzero, by simp⟩
    · split
      · obtain ⟨w, hw⟩ : ∃ w, (e + 1).toNat = w + 1 := ⟨e.toNat, by omega⟩
        rw [hw, List.take_succ_cons, List.drop_succ_cons, List.cons_append]
        refine isNumeral_plain hc ?_
        simp only [List.forall_mem_append, List.forall_mem_cons]
        exact ⟨hplain fun _ => List.mem_of_mem_take, .inr trivial, hplain fun _ => List.mem_of_mem_drop⟩
      · rw [List.cons_append, List.cons_append]
        refine isNumeral_plain hzero ?_
        simp only [List.forall_mem_append, List.forall_mem_cons]
        exact ⟨.inr trivial, hzeros _, .inl hc, hplain fun _ ha => ha⟩
  · rw [List.take_succ_cons, List.take_zero, List.drop_succ_cons, List.drop_zero, List.cons_append, List.nil_append,
      List.cons_append]
    refine isNumeral_scientific hc ?_ ?_ (hdigits _)
    · cases s with
      | nil => simp
      | cons a s =>
        simp only [List.isEmpty_cons, Bool.false_eq_true, if_false, List.forall_mem_cons]
        exact ⟨.inr trivial, List.forall_mem_cons.mp (hplain fun _ ha => ha)⟩
    · split
      · exact .inl rfl
      · exact .inr rfl

theorem isSigned_toText (x : Double) : IsSigned x.toText.toList := by
  have hbody : isNumeral (if x.mantissa = 0 then ['0', '.', '0'] else decimal x.shortest.1 x.shortest.2) = true := by
    split
    · decide
    · exact isNumeral_decimal _ _
  refine ⟨_, hbody, ?_⟩
  rw [toText_eq, String.toList_ofList]
  cases x.negative with
  | false => exact .inl rfl
  | true => exact .inr rfl

end Double

/-! ## Texts that are read as data -/

/-- The text is read as tokens that begin no import, before whatever no name and no number goes on with. -/
def ReadsAsData (s : List Char) : Prop :=
  ∃ us, spell us = s ∧ (∀ t ∈ us, Import.IsQuiet t) ∧
    ∀ ts r, (∀ operand, Laid operand ts r) → Stops (spell ts ++ r) → ∀ operand, Laid operand (us ++ ts) r

namespace ReadsAsData

variable {s u g : List Char} {c : Char}

theorem append (hs : ReadsAsData s) (hu : ReadsAsData u) (hfirst : ∃ c r, u = c :: r ∧ c ∈ stops) : ReadsAsData (s ++ u) := by
  obtain ⟨ss, rfl, hquiet, hlaid⟩ := hs
  obtain ⟨us, hspell, hquiet', hlaid'⟩ := hu
  obtain ⟨c, r, rfl, hc⟩ := hfirst
  refine ⟨ss ++ us, by rw [spell_append, hspell], List.forall_mem_append.mpr ⟨hquiet, hquiet'⟩, fun ts r hts hstops operand => ?_⟩
  rw [List.append_assoc]
  refine hlaid _ r (hlaid' ts r hts hstops) ?_ operand
  rw [spell_append, hspell]
  exact .cons hc _

/-- A bracket behind blanks, and what follows it. -/
theorem bracket (hg : IsBlankText g) (hc : c ∈ TypeExpr.brackets) (hs : ReadsAsData s) : ReadsAsData (g ++ c :: s) := by
  obtain ⟨ss, rfl, hquiet, hlaid⟩ := hs
  have hall : (TypeExpr.brackets.all fun c => decide (Import.IsQuiet (ofMark "" (String.ofList [c])))) = true := by decide
  refine ⟨ofMark (String.ofList g) (String.ofList [c]) :: ss, ?_, ?_, fun ts r hts hstops operand => ?_⟩
  · simp [ofMark]
  · exact List.forall_mem_cons.mpr ⟨of_decide_eq_true (List.all_eq_true.mp hall c hc), hquiet⟩
  · have hone : Laid.isOneOf TypeExpr.brackets (String.ofList [c]) = true :=
      List.any_eq_true.mpr ⟨c, hc, decide_eq_true String.toList_ofList⟩
    exact .bracket _ _ (by rwa [String.toList_ofList]) hone (hlaid ts r hts hstops) operand

/-- Nothing is read as no tokens. -/
theorem nil : ReadsAsData [] := ⟨[], rfl, by simp, fun _ _ hts _ => hts⟩

/-- A constant behind blanks. -/
theorem constant (text : String) (hg : IsBlankText g) (htext : text = "null" ∨ text = "true" ∨ text = "false") :
    ReadsAsData (g ++ text.toList) := by
  refine ⟨[ofWord (String.ofList g) text], by simp [ofWord], ?_, fun ts r hts hstops operand => ?_⟩
  · rcases htext with rfl | rfl | rfl <;> simp [Import.IsQuiet]
  · refine .plainWord _ _ (by rwa [String.toList_ofList]) ?_ hstops hts operand
    rcases htext with rfl | rfl | rfl <;> decide

/-- A string literal behind blanks. -/
theorem literal (hg : IsBlankText g) (value : String) : ReadsAsData (g ++ Json.quoted value) := by
  refine ⟨[ofText (String.ofList g) value], by simp [ofText], by simp [Import.IsQuiet], fun ts r hts hstops operand => ?_⟩
  exact .literal _ value (by rwa [String.toList_ofList]) hts operand

/-- A number behind blanks. -/
theorem number (hg : IsBlankText g) (hs : IsSigned s) : ReadsAsData (g ++ s) := by
  obtain ⟨body, hbody, hs⟩ := hs
  have hquiet (gap : String) : Import.IsQuiet (ofNumeral gap (String.ofList body)) := by
    simp [Import.IsQuiet, ofNumeral, isIdent, isPunct]
  rcases hs with rfl | rfl
  · refine ⟨[ofNumeral (String.ofList g) (String.ofList s)], by simp [ofNumeral], ?_, fun ts r hts hstops operand => ?_⟩
    · exact List.forall_mem_singleton.mpr (hquiet _)
    · exact .numeral _ _ (by rwa [String.toList_ofList]) (by rwa [String.toList_ofList]) hstops.endsNumeral hts operand
  · refine ⟨[ofMark (String.ofList g) "-", ofNumeral "" (String.ofList body)], ?_, ?_, fun ts r hts hstops operand => ?_⟩
    · have hminus : "-".toList = ['-'] := by decide
      simp [ofNumeral, ofMark, hminus]
    · exact List.forall_mem_cons.mpr ⟨by simp [Import.IsQuiet], List.forall_mem_singleton.mpr (hquiet _)⟩
    · exact .negative _ _ (by rwa [String.toList_ofList]) (by rwa [String.toList_ofList]) hstops.endsNumeral hts operand

end ReadsAsData

namespace Json

theorem isBlankText_indent (depth : Nat) : IsBlankText (indent depth) := by
  refine List.forall_mem_cons.mpr ⟨by decide, fun c hc => ?_⟩
  rw [List.eq_of_mem_replicate hc]
  decide

mutual

/-- **The indented text of a value is read as data**, behind blanks. -/
theorem readsAsData_indented {g : List Char} (hg : IsBlankText g) (depth : Nat) : ∀ j : Json,
    ReadsAsData (g ++ indentedChars depth j)
  | .null => .constant "null" hg (.inl rfl)
  | .bool true => .constant "true" hg (.inr (.inl rfl))
  | .bool false => .constant "false" hg (.inr (.inr rfl))
  | .int n => .number hg (isSigned_intChars n)
  | .double x => .number hg x.isSigned_toText
  | .string s => .literal hg s
  | .array [] => .bracket hg (by decide) (.bracket (g := []) (by decide) (by decide) .nil)
  | .array (x :: xs) => by
    have hclose : ReadsAsData (indent depth ++ [']']) := .bracket (isBlankText_indent depth) (by decide) .nil
    have hbody := (readsAsData_elements (depth + 1) (x :: xs)).append hclose ⟨'\n', _, rfl, by decide⟩
    rw [indentedChars, List.append_assoc]
    · exact .bracket hg (by decide) hbody
    · simp
  | .object [] => .bracket hg (by decide) (.bracket (g := []) (by decide) (by decide) .nil)
  | .object (m :: ms) => by
    have hclose : ReadsAsData (indent depth ++ ['}']) := .bracket (isBlankText_indent depth) (by decide) .nil
    have hbody := (readsAsData_members (depth + 1) (m :: ms)).append hclose ⟨'\n', _, rfl, by decide⟩
    rw [indentedChars, List.append_assoc]
    · exact .bracket hg (by decide) hbody
    · simp

theorem readsAsData_elements (depth : Nat) : ∀ xs : List Json, ReadsAsData (indentedElements depth xs)
  | [] => .nil
  | [x] => readsAsData_indented (isBlankText_indent depth) depth x
  | x :: y :: r => by
    have hrest : ReadsAsData (',' :: indentedElements depth (y :: r)) :=
      .bracket (g := []) (by decide) (by decide) (readsAsData_elements depth (y :: r))
    exact (readsAsData_indented (isBlankText_indent depth) depth x).append hrest ⟨',', _, rfl, by decide⟩

theorem readsAsData_members (depth : Nat) : ∀ ms : List (String × Json), ReadsAsData (indentedMembers depth ms)
  | [] => .nil
  | [(k, v)] => by
    have hvalue : ReadsAsData (':' :: ([' '] ++ indentedChars depth v)) :=
      .bracket (g := []) (by decide) (by decide) (readsAsData_indented (by decide) depth v)
    exact (ReadsAsData.literal (isBlankText_indent depth) k).append hvalue ⟨':', _, rfl, by decide⟩
  | (k, v) :: m :: r => by
    have hrest : ReadsAsData (',' :: indentedMembers depth (m :: r)) :=
      .bracket (g := []) (by decide) (by decide) (readsAsData_members depth (m :: r))
    have hvalue : ReadsAsData (':' :: (([' '] ++ indentedChars depth v) ++ ',' :: indentedMembers depth (m :: r))) :=
      .bracket (g := []) (by decide) (by decide)
        ((readsAsData_indented (by decide) depth v).append hrest ⟨',', _, rfl, by decide⟩)
    rw [indentedMembers, List.append_assoc]
    exact (ReadsAsData.literal (isBlankText_indent depth) k).append hvalue ⟨':', _, rfl, by decide⟩

end

end Json

end AppBundler
