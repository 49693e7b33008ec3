import Mathlib.Algebra.Ring.Int.Defs
import Mathlib.Algebra.Ring.Nat
import Mathlib.Data.List.Basic
import AppBundler.Json.Parser
import AppBundler.Json.Printer
/-!
# Compact texts are read back

The compact text of a value is read back as that value, whatever follows it, as long as a number could not go on
in what follows. So no two values have one text. Doubles are left out: all values that are hashed, stored and read
again hold texts and integers only.

The induction is on the value. What it says of the elements of an array is carried through the loop over them,
and in the same way for the members of an object.
-/

namespace AppBundler

namespace Json

/-- Values without doubles whose integers have 64 bits and that are nested no deeper than `depth`. -/
inductive Fits : (depth : Nat) → Json → Prop
  | null {d : Nat} : Fits d .null
  | bool {d : Nat} (b : Bool) : Fits d (.bool b)
  | int {d : Nat} {n : Int} (hlow : -2 ^ 63 ≤ n) (hhigh : n < 2 ^ 64) : Fits d (.int n)
  | string {d : Nat} (s : String) : Fits d (.string s)
  | array {d : Nat} {xs : List Json} (h : ∀ x ∈ xs, Fits d x) : Fits (d + 1) (.array xs)
  | object {d : Nat} {ms : List (String × Json)} (h : ∀ m ∈ ms, Fits d m.2) : Fits (d + 1) (.object ms)

/-! ## Strings -/

/-- The four digits of a control are read as its code. -/
theorem digitsFrom_control : ∀ n < 32,
    Number.digitsFrom 16 0 ['0', '0', hexDigit (n / 16), hexDigit (n % 16)] = some n := by
  decide

/-- An escaped character is read as the character. -/
theorem stringBody_escapeChar (c : Char) (n : Nat) (r : List Char) :
    stringBody (n + 1) (escapeChar c ++ r) = (do
      let (xs, r) ← stringBody n r
      .ok (c :: xs, r)) := by
  unfold escapeChar
  split_ifs with hquote hslash hback hform hline hreturn htab hcontrol
  any_goals
    subst_vars
    rfl
  · have hunicode : unicodeEscape ('0' :: '0' :: hexDigit (c.toNat / 16) :: hexDigit (c.toNat % 16) :: r) =
        .ok (c, r) := by
      have hlow : ¬ (0xDC00 ≤ c.toNat ∧ c.toNat ≤ 0xDFFF) := by omega
      have hhigh : ¬ (0xD800 ≤ c.toNat ∧ c.toNat ≤ 0xDBFF) := by omega
      simp only [unicodeEscape, hexEscape, digitsFrom_control _ hcontrol, bind, Except.bind, hlow, hhigh, if_false,
        Char.ofNat_toNat]
    simp only [List.cons_append, List.nil_append, stringBody, hunicode]
    rfl
  · simp only [List.cons_append, List.nil_append, stringBody, hquote, hslash, hcontrol, if_false]

/-- **A quoted text is read back.** -/
theorem stringBody_flatMap (s : List Char) {n : Nat} (hn : s.length < n) (r : List Char) :
    stringBody n (s.flatMap escapeChar ++ '"' :: r) = .ok (s, r) := by
  induction s generalizing n with
  | nil =>
    obtain ⟨n, rfl⟩ : ∃ k, n = k + 1 := ⟨n - 1, by omega⟩
    rfl
  | cons c s ih =>
    obtain ⟨n, rfl⟩ : ∃ k, n = k + 1 := ⟨n - 1, by omega⟩
    rw [List.flatMap_cons, List.append_assoc, stringBody_escapeChar, ih (by simpa using hn)]
    rfl

/-- No character is escaped to nothing. -/
theorem length_le_flatMap (s : List Char) : s.length ≤ (s.flatMap escapeChar).length := by
  induction s with
  | nil => simp
  | cons c s ih =>
    have hpos : 1 ≤ (escapeChar c).length := by
      unfold escapeChar
      split_ifs <;> simp
    rw [List.flatMap_cons, List.length_append, List.length_cons]
    omega

/-- The text after an opening quote is read up to the closing one. -/
theorem stringBody_quoted (s : String) (r : List Char) :
    stringBody ((s.toList.flatMap escapeChar ++ '"' :: r).length + 1) (s.toList.flatMap escapeChar ++ '"' :: r) =
      .ok (s.toList, r) := by
  refine stringBody_flatMap s.toList ?_ r
  have hlength := length_le_flatMap s.toList
  rw [List.length_append]
  omega

/-! ## Numbers -/

/-- A number cannot go on in a text. -/
def EndsNumber (r : List Char) : Prop := ∀ c ∈ r.head?, ¬ c.isDigit ∧ c ≠ '.' ∧ c ≠ 'e' ∧ c ≠ 'E'

theorem EndsNumber.nil : EndsNumber [] := by
  intro c hc
  simp at hc

theorem EndsNumber.cons {c : Char} {r : List Char} (h : c = ',' ∨ c = ']' ∨ c = '}') : EndsNumber (c :: r) := by
  intro d hd
  obtain rfl : c = d := by simpa using hd
  rcases h with rfl | rfl | rfl <;> decide

/-- Reading digits never makes a number smaller. -/
theorem le_ofDigitChars (ds : List Char) (acc : Nat) : acc ≤ Nat.ofDigitChars 10 ds acc := by
  induction ds generalizing acc with
  | nil => simp
  | cons c ds ih =>
    rw [Nat.ofDigitChars_cons]
    exact Nat.le_trans (by omega) (ih _)

/-- Digits whose value has 64 bits are all taken. -/
theorem takeDigits_append {ds r : List Char} {acc : Nat} (hds : ∀ c ∈ ds, c.isDigit)
    (hsmall : Nat.ofDigitChars 10 ds acc < 2 ^ 64) (hr : EndsNumber r) :
    takeDigits acc (ds ++ r) = (Nat.ofDigitChars 10 ds acc, ds.length, r) := by
  induction ds generalizing acc with
  | nil =>
    cases r with
    | nil => rfl
    | cons c r =>
      have hdigit : c.isDigit = false := by simpa using (hr c (by simp)).1
      simp [takeDigits, hdigit]
  | cons c ds ih =>
    rw [List.forall_mem_cons] at hds
    have hvalue : acc * 10 + (c.toNat - 48) = 10 * acc + (c.toNat - '0'.toNat) := by
      rw [Nat.mul_comm]
      rfl
    rw [Nat.ofDigitChars_cons] at hsmall ⊢
    have hlt : 10 * acc + (c.toNat - '0'.toNat) < Nat.pow 2 64 := Nat.lt_of_le_of_lt (le_ofDigitChars ds _) hsmall
    rw [List.cons_append, takeDigits, hvalue, ih hds.2 hsmall, if_pos (by simp only [hds.1, hlt, decide_true, Bool.and_true])]
    rfl

/-- The digits of a positive number begin with another digit than zero. -/
theorem exists_toDigits {n : Nat} (h : n ≠ 0) : ∃ c r, Nat.toDigits 10 n = c :: r ∧ c ≠ '0' := by
  induction n using Nat.base_induction 10 (by decide) with
  | single m hm => exact ⟨m.digitChar, [], Nat.toDigits_of_lt_base hm, by simpa using h⟩
  | digit m k hk hm ih =>
    obtain ⟨c, r, htext, hc⟩ := ih (by omega)
    exact ⟨c, r ++ Nat.toDigits 10 k, by rw [← Nat.toDigits_append_toDigits (by decide) hm hk, htext]; rfl, hc⟩

/-- A number that ends behind its whole part has the value of its digits. -/
theorem afterWhole_eq (negative : Bool) (v : Nat) {r : List Char} (hr : EndsNumber r) :
    number.afterWhole negative v 0 r =
      if !negative then .ok (.int v, r)
      else if v = 0 || Nat.pow 2 63 < v then scale true v 0 r
      else .ok (.int (-v), r) := by
  cases r with
  | nil => rfl
  | cons c r =>
    obtain ⟨-, hpoint, he, hE⟩ := hr c (by simp)
    rw [number.afterWhole.eq_def]
    split <;> simp_all

/-- The digits of a number of 64 bits are read as its value. -/
theorem number_toDigits (negative : Bool) {n : Nat} (hn : n < 2 ^ 64) {r : List Char} (hr : EndsNumber r) :
    number negative (Nat.toDigits 10 n ++ r) = number.afterWhole negative n 0 r := by
  by_cases hzero : n = 0
  · subst hzero
    cases r with
    | nil => rfl
    | cons c r =>
      have hdigit : c.isDigit = false := by simpa using (hr c (by simp)).1
      simp [number, hdigit]
  · obtain ⟨c, ds, htext, hc⟩ := exists_toDigits hzero
    have hdigits : ∀ d ∈ c :: ds, d.isDigit := fun d hd => Nat.isDigit_of_mem_toDigits (by decide) (by decide) (htext ▸ hd)
    have hvalue : Nat.ofDigitChars 10 (c :: ds) 0 = n := by rw [← htext, Nat.ofDigitChars_ten_toDigits]
    have htake := takeDigits_append hdigits (by rw [hvalue]; exact hn) hr
    rw [hvalue] at htake
    have hmore : r.takeWhile Char.isDigit = [] ∧ r.dropWhile Char.isDigit = r := by
      cases r with
      | nil => exact ⟨rfl, rfl⟩
      | cons d r =>
        have hdigit : d.isDigit = false := by simpa using (hr d (by simp)).1
        simp [hdigit]
    rw [List.cons_append] at htake
    rw [htext, List.cons_append, number, if_pos (hdigits c List.mem_cons_self), htake]
    · simp [hmore]
    · exact hc

/-- **An integer of 64 bits is read back.** -/
theorem number_intChars {m : Int} (hlow : -2 ^ 63 ≤ m) (hhigh : m < 2 ^ 64) {c : Char} {s r : List Char}
    (htext : intChars m = c :: s) (hr : EndsNumber r) :
    (if c = '-' then number true (s ++ r) else number false (c :: s ++ r)) = .ok (.int m, r) := by
  cases m with
  | ofNat m =>
    have hm : m < 2 ^ 64 := by
      simp only [Int.ofNat_eq_natCast] at hhigh
      omega
    have hread := number_toDigits false hm hr
    rw [show Nat.toDigits 10 m = c :: s from htext, afterWhole_eq false m hr] at hread
    have hdigit : c.isDigit := Nat.isDigit_of_mem_toDigits (b := 10) (n := m) (by decide) (by decide)
      (by rw [show Nat.toDigits 10 m = c :: s from htext]; simp)
    rw [if_neg (by rintro rfl; revert hdigit; decide), hread]
    rfl
  | negSucc m =>
    obtain ⟨rfl, rfl⟩ := List.cons.inj htext
    have hm : m + 1 ≤ 2 ^ 63 := by omega
    have hlarge : (decide (m + 1 = 0) || decide (Nat.pow 2 63 < m + 1)) = false := by
      simp
      omega
    rw [if_pos rfl, number_toDigits true (by omega) hr, afterWhole_eq true (m + 1) hr, hlarge]
    rfl

/-- The text of an integer begins with a minus sign or a digit. -/
theorem head_intChars {m : Int} {c : Char} {s : List Char} (h : intChars m = c :: s) : c = '-' ∨ c.isDigit := by
  cases m with
  | ofNat m =>
    refine Or.inr (Nat.isDigit_of_mem_toDigits (b := 10) (n := m) (by decide) (by decide) ?_)
    rw [show Nat.toDigits 10 m = c :: s from h]
    exact List.mem_cons_self
  | negSucc m => exact Or.inl (List.cons.inj h).1.symm

/-! ## Values -/

/-- A value whose compact text is read back, inside so many arrays and objects. -/
def ReadsBack (depth : Nat) (j : Json) : Prop :=
  ∀ (n : Nat) (r : List Char), 2 * (chars j).length ≤ n → EndsNumber r → value n depth (chars j ++ r) = .ok (j, r)

/-- The text of a value begins with neither a blank nor a closing bracket. -/
theorem Fits.exists_chars {d : Nat} {j : Json} (h : Fits d j) :
    ∃ c s, chars j = c :: s ∧ isSpace c = false ∧ c ≠ ']' := by
  cases h with
  | null => exact ⟨'n', _, rfl, rfl, by decide⟩
  | bool b => cases b <;> exact ⟨_, _, rfl, rfl, by decide⟩
  | string s => exact ⟨'"', _, rfl, rfl, by decide⟩
  | array => exact ⟨'[', _, rfl, rfl, by decide⟩
  | object => exact ⟨'{', _, rfl, rfl, by decide⟩
  | @int _ n =>
    cases n with
    | negSucc m => exact ⟨'-', _, rfl, rfl, by decide⟩
    | ofNat m =>
      obtain ⟨c, s, htext⟩ := List.exists_cons_of_ne_nil (Nat.toDigits_ne_nil (b := 10) (n := m))
      have hdigit : c.isDigit := Nat.isDigit_of_mem_toDigits (by decide) (by decide) (htext ▸ List.mem_cons_self)
      refine ⟨c, s, htext, ?_, ?_⟩
      · by_contra hspace
        simp only [isSpace, Bool.not_eq_false, Bool.or_eq_true, decide_eq_true_eq] at hspace
        rcases hspace with ((rfl | rfl) | rfl) | rfl <;> revert hdigit <;> decide
      · rintro rfl
        revert hdigit
        decide

/-- Elements that follow another one, each behind a comma. -/
def moreElements (xs : List Json) : List Char := xs.flatMap fun x => ',' :: chars x

/-- Members that follow another one, each behind a comma. -/
def moreMembers (ms : List (String × Json)) : List Char := ms.flatMap fun m => ',' :: (quoted m.1 ++ ':' :: chars m.2)

/-- The first element is written, then the others. -/
theorem elementChars_cons (x : Json) (xs : List Json) :
    elementChars (x :: xs) = chars x ++ moreElements xs := by
  induction xs generalizing x with
  | nil => simp [elementChars, moreElements]
  | cons y r ih => rw [elementChars, ih, moreElements, moreElements, List.flatMap_cons, List.cons_append]

/-- The first member is written, then the others. -/
theorem memberChars_cons (k : String) (v : Json) (ms : List (String × Json)) :
    memberChars ((k, v) :: ms) = quoted k ++ ':' :: chars v ++ moreMembers ms := by
  induction ms generalizing k v with
  | nil => simp [memberChars, moreMembers]
  | cons m r ih =>
    obtain ⟨k', v'⟩ := m
    rw [memberChars, ih, moreMembers, moreMembers, List.flatMap_cons, List.cons_append]

/-- What follows an element ends a number. -/
theorem endsNumber_elements (xs : List Json) (r : List Char) :
    EndsNumber (moreElements xs ++ ']' :: r) := by
  cases xs with
  | nil => exact .cons (Or.inr (Or.inl rfl))
  | cons x xs => exact .cons (Or.inl rfl)

/-- What follows a member ends a number. -/
theorem endsNumber_members (ms : List (String × Json)) (r : List Char) :
    EndsNumber (moreMembers ms ++ '}' :: r) := by
  cases ms with
  | nil => exact .cons (Or.inr (Or.inr rfl))
  | cons m ms => exact .cons (Or.inl rfl)

/-- No blanks stand in front of a value. -/
theorem Fits.skipSpace_append {d : Nat} {j : Json} (h : Fits d j) (r : List Char) :
    skipSpace (chars j ++ r) = chars j ++ r := by
  obtain ⟨c, s, htext, hspace, -⟩ := h.exists_chars
  rw [htext, List.cons_append, skipSpace, List.dropWhile_cons_of_neg (by simp [hspace])]

/-- The elements behind the first one are read back. -/
theorem elements_rest {d : Nat} {xs : List Json} (hfits : ∀ x ∈ xs, Fits d x) (hread : ∀ x ∈ xs, ReadsBack d x)
    {n : Nat} (hn : 2 * (moreElements xs).length + 1 ≤ n) (r : List Char) :
    elements n d false (moreElements xs ++ ']' :: r) = .ok (xs, r) := by
  induction xs generalizing n with
  | nil =>
    obtain ⟨n, rfl⟩ : ∃ k, n = k + 1 := ⟨n - 1, by omega⟩
    rfl
  | cons x xs ih =>
    rw [List.forall_mem_cons] at hfits hread
    rw [moreElements, List.flatMap_cons, List.length_append, List.length_cons, ← moreElements] at hn
    obtain ⟨n, rfl⟩ : ∃ k, n = k + 1 := ⟨n - 1, by omega⟩
    obtain ⟨c, s, htext, -, hclose⟩ := hfits.1.exists_chars
    have hvalue := hread.1 n _ (by omega) (endsNumber_elements xs r)
    have hskip := hfits.1.skipSpace_append (moreElements xs ++ ']' :: r)
    have hrest := ih hfits.2 hread.2 (n := n) (by omega)
    rw [moreElements, List.flatMap_cons, ← moreElements, List.cons_append, List.cons_append, List.append_assoc, elements]
    rw [htext, List.cons_append] at hvalue hskip ⊢
    simp only [skipSpace, List.dropWhile_cons_of_neg (show ¬ isSpace ',' = true by decide)] at hskip ⊢
    simp [hskip, hclose, hvalue, bind, Except.bind, hrest]

/-- The members behind the first one are read back. -/
theorem members_rest {d : Nat} {ms : List (String × Json)} (hread : ∀ m ∈ ms, ReadsBack d m.2) {n : Nat}
    (hn : 2 * (moreMembers ms).length + 1 ≤ n) (r : List Char) :
    members n d false (moreMembers ms ++ '}' :: r) = .ok (ms, r) := by
  induction ms generalizing n with
  | nil =>
    obtain ⟨n, rfl⟩ : ∃ k, n = k + 1 := ⟨n - 1, by omega⟩
    rfl
  | cons m ms ih =>
    obtain ⟨k, v⟩ := m
    rw [List.forall_mem_cons] at hread
    rw [moreMembers, List.flatMap_cons, ← moreMembers] at hn ⊢
    simp only [List.length_append, List.length_cons] at hn
    obtain ⟨n, rfl⟩ : ∃ k, n = k + 1 := ⟨n - 1, by omega⟩
    have hvalue := hread.1 n _ (by dsimp only; omega) (endsNumber_members ms r)
    have hrest := ih hread.2 (n := n) (by omega)
    rw [List.append_assoc]
    generalize moreMembers ms ++ '}' :: r = rest at hvalue hrest ⊢
    have hkey := stringBody_quoted k (':' :: (chars v ++ rest))
    simp only [members, quoted, skipSpace, List.dropWhile_cons_of_neg (show ¬ isSpace ',' = true by decide),
      List.dropWhile_cons_of_neg (show ¬ isSpace '"' = true by decide), List.cons_append, List.append_assoc,
      List.nil_append, Char.reduceEq, if_false, if_true, Bool.false_eq_true, bind, Except.bind, hkey,
      List.dropWhile_cons_of_neg (show ¬ isSpace ':' = true by decide), hvalue, hrest, String.ofList_toList]

/-- All elements are read back. -/
theorem elements_chars {d : Nat} {xs : List Json} (hfits : ∀ x ∈ xs, Fits d x) (hread : ∀ x ∈ xs, ReadsBack d x)
    {n : Nat} (hn : 2 * (elementChars xs).length + 1 ≤ n) (r : List Char) :
    elements n d true (elementChars xs ++ ']' :: r) = .ok (xs, r) := by
  obtain ⟨n, rfl⟩ : ∃ k, n = k + 1 := ⟨n - 1, by omega⟩
  cases xs with
  | nil => rfl
  | cons x xs =>
    rw [List.forall_mem_cons] at hfits hread
    rw [elementChars_cons, List.length_append] at hn
    obtain ⟨c, s, htext, hspace, hclose⟩ := hfits.1.exists_chars
    have hpos : 1 ≤ (chars x).length := by simp [htext]
    have hvalue := hread.1 n _ (by omega) (endsNumber_elements xs r)
    have hrest := elements_rest hfits.2 hread.2 (n := n) (by omega) r
    rw [elementChars_cons, List.append_assoc, elements, hfits.1.skipSpace_append]
    rw [htext, List.cons_append] at hvalue ⊢
    simp only [hclose, if_false, if_true, bind, Except.bind, hvalue, hrest]

/-- All members are read back. -/
theorem members_chars {d : Nat} {ms : List (String × Json)} (hread : ∀ m ∈ ms, ReadsBack d m.2) {n : Nat}
    (hn : 2 * (memberChars ms).length + 1 ≤ n) (r : List Char) :
    members n d true (memberChars ms ++ '}' :: r) = .ok (ms, r) := by
  obtain ⟨n, rfl⟩ : ∃ k, n = k + 1 := ⟨n - 1, by omega⟩
  cases ms with
  | nil => rfl
  | cons m ms =>
    obtain ⟨k, v⟩ := m
    rw [List.forall_mem_cons] at hread
    rw [memberChars_cons] at hn ⊢
    simp only [List.length_append, List.length_cons, quoted] at hn
    have hvalue := hread.1 n _ (by dsimp only; omega) (endsNumber_members ms r)
    have hrest := members_rest hread.2 (n := n) (by omega) r
    rw [List.append_assoc]
    generalize moreMembers ms ++ '}' :: r = rest at hvalue hrest ⊢
    have hkey := stringBody_quoted k (':' :: (chars v ++ rest))
    simp only [members, quoted, skipSpace, List.dropWhile_cons_of_neg (show ¬ isSpace '"' = true by decide),
      List.cons_append, List.append_assoc, List.nil_append, Char.reduceEq, if_false, if_true, bind, Except.bind, hkey,
      List.dropWhile_cons_of_neg (show ¬ isSpace ':' = true by decide), hvalue, hrest, String.ofList_toList]

/-- **The compact text of a value is read back**, whatever follows it. -/
theorem Fits.readsBack {d : Nat} {j : Json} (h : Fits d j) : ReadsBack d j := by
  induction h with
  | null =>
    intro n r hn _
    obtain ⟨n, rfl⟩ : ∃ k, n = k + 1 := ⟨n - 1, by simp only [chars, List.length_cons] at hn; omega⟩
    rfl
  | bool b =>
    intro n r hn _
    obtain ⟨n, rfl⟩ : ∃ k, n = k + 1 := ⟨n - 1, by cases b <;> simp only [chars, List.length_cons] at hn <;> omega⟩
    cases b <;> rfl
  | @int d m hlow hhigh =>
    intro n r hn hr
    obtain ⟨c, s, htext, hspace, -⟩ := (Fits.int (d := d) hlow hhigh).exists_chars
    obtain ⟨n, rfl⟩ : ∃ k, n = k + 1 := ⟨n - 1, by simp only [htext, List.length_cons] at hn; omega⟩
    have hnumber := number_intChars hlow hhigh htext hr
    rw [htext, value, skipSpace, List.cons_append, List.dropWhile_cons_of_neg (by simp [hspace])]
    rcases head_intChars htext with rfl | hdigit
    · simpa using hnumber
    · have hminus : c ≠ '-' := by rintro rfl; revert hdigit; decide
      have hword : c ≠ 'n' ∧ c ≠ 't' ∧ c ≠ 'f' := by refine ⟨?_, ?_, ?_⟩ <;> (rintro rfl; revert hdigit; decide)
      simpa [hword, hminus, hdigit] using hnumber
  | string s =>
    intro n r hn _
    obtain ⟨n, rfl⟩ : ∃ k, n = k + 1 := ⟨n - 1, by simp only [chars, quoted, List.length_cons] at hn; omega⟩
    have hkey := stringBody_quoted s r
    simp only [chars, quoted, value, skipSpace, List.dropWhile_cons_of_neg (show ¬ isSpace '"' = true by decide),
      List.cons_append, List.append_assoc, List.nil_append, Char.reduceEq, if_false, if_true, Char.reduceIsDigit,
      Bool.false_eq_true, bind, Except.bind, hkey, String.ofList_toList]
  | array hfits ih =>
    intro n r hn _
    simp only [chars, List.length_cons, List.length_append, List.length_nil, List.cons_append] at hn
    obtain ⟨n, rfl⟩ : ∃ k, n = k + 1 := ⟨n - 1, by omega⟩
    have helements := elements_chars hfits ih (n := n) (by omega) r
    simp only [chars, value, skipSpace, List.dropWhile_cons_of_neg (show ¬ isSpace '[' = true by decide),
      List.cons_append, List.append_assoc, List.nil_append, Char.reduceEq, if_false, if_true, Char.reduceIsDigit,
      Bool.false_eq_true, bind, Except.bind, helements]
  | object _ ih =>
    intro n r hn _
    simp only [chars, List.length_cons, List.length_append, List.length_nil, List.cons_append] at hn
    obtain ⟨n, rfl⟩ : ∃ k, n = k + 1 := ⟨n - 1, by omega⟩
    have hmembers := members_chars ih (n := n) (by omega) r
    simp only [chars, value, skipSpace, List.dropWhile_cons_of_neg (show ¬ isSpace '{' = true by decide),
      List.cons_append, List.append_assoc, List.nil_append, Char.reduceEq, if_false, if_true, Char.reduceIsDigit,
      Bool.false_eq_true, bind, Except.bind, hmembers]

/-! ## Texts -/

/-- **The compact text of a value is a text with that value**, with its members as they were written. -/
theorem Fits.parseAsWritten {j : Json} (h : Fits depthLimit j) : parseAsWritten (compact j).toList = .ok j := by
  have hvalue := h.readsBack (2 * (chars j).length + 2) [] (by omega) .nil
  rw [List.append_nil] at hvalue
  rw [compact, String.toList_ofList, Json.parseAsWritten, hvalue]
  rfl

/-- **No two values have one text.** -/
theorem Fits.eq_of_compact {d : Nat} {i j : Json} (hi : Fits d i) (hj : Fits d j) (h : i.compact = j.compact) : i = j := by
  have htext : chars i = chars j := by simpa [compact] using congrArg String.toList h
  have hread := hi.readsBack (2 * (chars i).length) [] (Nat.le_refl _) .nil
  rw [htext, hj.readsBack _ [] (Nat.le_refl _) .nil] at hread
  exact (congrArg Prod.fst (Except.ok.inj hread)).symm

end Json

end AppBundler
