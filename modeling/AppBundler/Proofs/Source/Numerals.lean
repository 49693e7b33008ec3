import AppBundler.Proofs.Number.Digits
import AppBundler.Proofs.Source.Spans
import AppBundler.Proofs.Source.Words
import AppBundler.Source.Tree.Literals
/-!
# The values of numbers

A number is digits with separators between them, which may spell an integer in one of four radices. An integer of 64
bits is the value of the number, and any other number is read as a double or kept as text. A minus sign before it
changes the sign of an integer and of a double, and nothing about a text.
-/

namespace AppBundler

open Lexeme Lexer

/-! ## Tokens of numbers -/

namespace Lexeme

variable {c : Char} {s r p : List Char} {hex : Bool} {last : Char}

/-- A number that ends somewhere is one when it stands alone. -/
theorem isNumeral_of_number {c : Char} (hc : c.isDigit = true ∨ c = '.' ∧ s.head?.any Char.isDigit = true)
    (h : number (c :: s) = ⟨p, r⟩) : isNumeral p = true := by
  rw [number_cons] at h
  obtain ⟨rfl, -⟩ := Split.mk.inj h
  generalize hhex : (c = '0' && (s.head?.any (· = 'x') || s.head?.any (· = 'X')) : Bool) = hex
  have hends : EndsLike (numberRest hex c s).rest [] := by simp [EndsLike]
  obtain ⟨hs, hread⟩ := numberRest_endsLike (show numberRest hex c s = ⟨_, _⟩ from rfl) hends
  rw [List.append_nil] at hread
  -- the second character tells the radix, and belongs to the number if it does
  have hhead (q : Char → Bool) (hq : ∀ d, q d = true → d.isAlphanum = true) :
      (numberRest hex c s).text.head?.any q = s.head?.any q := by
    cases s with
    | nil => rfl
    | cons d s =>
      cases hd : continuesNumber hex c d with
      | true => rw [numberRest_cons, hd, if_pos rfl]; rfl
      | false =>
        rw [numberRest_cons, hd, if_neg (by decide)]
        have hplain : q d = false := by
          by_contra hyes
          have halnum := hq d (by simpa using hyes)
          simp [continuesNumber, halnum] at hd
        simp [hplain]
  have hdigit := hhead Char.isDigit fun d hd => by simp [Char.isAlphanum, hd]
  have hlower := hhead (· = 'x') fun d hd => by rw [of_decide_eq_true hd]; decide
  have hupper := hhead (· = 'X') fun d hd => by rw [of_decide_eq_true hd]; decide
  simp only [isNumeral, number_cons, hlower, hupper, hhex, hread, hdigit, List.isEmpty_nil, Bool.and_true, Bool.or_eq_true,
    Bool.and_eq_true, decide_eq_true_eq]
  exact hc

/-- The sign of a number follows the letter of an exponent, and no separator. -/
theorem exponent_before_sign {g : Char} (hg : g = '-' ∨ g = '+') (h : (numberRest hex last s).rest = [])
    (hs : s.filter (· ≠ '_') = g :: r) : last = 'e' ∨ last = 'E' := by
  induction s generalizing last with
  | nil => cases hs
  | cons c s ih =>
    rw [numberRest_cons] at h
    split at h
    case isFalse => cases h
    case isTrue hc =>
    by_cases hlow : c = '_'
    · subst hlow
      rcases ih h hs with hlast | hlast <;> cases hlast
    · obtain rfl : c = g := by
        rw [List.filter_cons_of_pos (by simpa using hlow)] at hs
        exact (List.cons.inj hs).1
      have hsign : c.isAlphanum = false ∧ c ≠ '_' ∧ c ≠ '.' := by
        rcases hg with rfl | rfl <;> decide
      simp only [continuesNumber, hsign, decide_false, Bool.or_false, Bool.false_or, Bool.and_eq_true, Bool.or_eq_true,
        decide_eq_true_eq] at hc
      exact hc.2

/-- A number goes on behind each of its characters, whatever separators stand before it. -/
theorem exists_behind_separators {c : Char} (h : (numberRest hex last s).rest = []) (hs : s.filter (· ≠ '_') = c :: r) :
    ∃ s', s'.filter (· ≠ '_') = r ∧ (numberRest hex c s').rest = [] := by
  induction s generalizing last with
  | nil => cases hs
  | cons d s ih =>
    rw [numberRest_cons] at h
    split at h
    case isFalse => cases h
    case isTrue =>
    by_cases hlow : d = '_'
    · subst hlow
      exact ih h hs
    · rw [List.filter_cons_of_pos (by simpa using hlow)] at hs
      obtain ⟨rfl, hr⟩ := List.cons.inj hs
      exact ⟨s, hr, h⟩

/-- A lexeme that is told to be a number is one. -/
theorem isNumeral_of_lexeme {jsx operand : Bool} (h : lexeme jsx operand s = .ok (.number, ⟨p, r⟩)) (hs : s ≠ []) :
    isNumeral p = true := by
  obtain ⟨c, s, rfl⟩ := List.exists_cons_of_ne_nil hs
  unfold lexeme at h
  dsimp only at h
  split at h
  case isTrue => exact absurd (tagged_eq_ok_iff.mp h).1 (by decide)
  split at h
  case isTrue => exact absurd (tagged_eq_ok_iff.mp h).1 (by decide)
  split at h
  case isTrue hnumber =>
    refine isNumeral_of_number ?_ (Prod.mk.inj (Except.ok.inj h)).2
    simpa using hnumber
  split at h
  case isTrue => exact absurd (tagged_eq_ok_iff.mp h).1 (by decide)
  split at h
  case isTrue => exact absurd (tagged_eq_ok_iff.mp h).1 (by decide)
  split at h
  case isTrue => exact absurd (tagged_eq_ok_iff.mp h).1 (by decide)
  case isFalse => exact absurd (Prod.mk.inj (Except.ok.inj h)).1 (by decide)

end Lexeme

/-- **A token of a number** spells one by itself. -/
theorem isNumeral_of_mem_tokenize {source : String} {ts : List Token} {t : Token} (h : tokenize source = .ok ts)
    (ht : t ∈ ts) (hkind : t.kind = .number) : isNumeral t.text.toList = true := by
  obtain ⟨jsx, hrun⟩ : ∃ jsx, run jsx source.toList = .ok ts := by
    rw [tokenize, tokens_eq_run] at h
    exact ⟨_, h⟩
  obtain ⟨z, hsteps, -⟩ := run_eq_ok_iff_steps.mp hrun
  obtain ⟨above, below, rfl⟩ := List.append_of_mem ht
  obtain ⟨y, -, hbelow⟩ := hsteps.exists_append
  cases hbelow with
  | head hstep _ =>
    have hlexeme := hstep.lexeme
    rw [hkind] at hlexeme
    exact isNumeral_of_lexeme hlexeme hstep.nonempty

namespace Literal

/-! ## Integers -/

/-- What stands before the digits of a number, and the radix that it tells. -/
def radixMarks : List (List Char × Nat) :=
  [([], 10), (['0', 'x'], 16), (['0', 'X'], 16), (['0', 'b'], 2), (['0', 'B'], 2), (['0', 'o'], 8), (['0', 'O'], 8)]

/-- The characters of a number but for its separators. -/
def digits (text : String) : List Char := text.toList.filter (· ≠ '_')

/-- A number spells an integer in one of the radices. -/
def Denotes (text : String) (n : Nat) : Prop :=
  ∃ mark radix s ds, (mark, radix) ∈ radixMarks ∧ digits text = mark ++ s ∧ s ≠ [] ∧ Number.Spells radix s ds ∧
    n = Nat.ofDigits radix ds.reverse

/-- The radix of a number and its digits without the mark. -/
def body (s : List Char) : Nat × List Char := (radix? s).elim (10, s) fun radix => (radix, s.drop 2)

/-- The integer of 64 bits that is taken for the value of a number. -/
def integer? (text : String) : Option Int := Number.int64? (body (digits text)).1 (body (digits text)).2

variable {text : String} {s mark : List Char} {c : Char} {n radix : Nat} {negative : Bool}

/-- An integer comes before a double, and a double before the text. -/
theorem number_eq : number text negative =
    (integer? text).elim (((Number.decimal? negative (digits text)).getD none).elim (.string text) .double)
      fun n => .int (if negative then -n else n) := by
  rw [number, integer?, body, digits]
  generalize text.toList.filter (· ≠ '_') = s
  cases hradix : radix? s with
  | none =>
    cases hn : Number.int64? 10 s with
    | some n => simp only [Option.elim_none, hn, Option.elim_some]
    | none =>
      simp only [Option.elim_none, hn]
      rcases Number.decimal? negative s with _ | _ | x <;> rfl
  | some radix =>
    cases hn : Number.int64? radix (s.drop 2) with
    | some n => simp only [Option.elim_some, hn]
    | none =>
      simp only [Option.elim_some, Option.elim_none, hn]
      rcases Number.decimal? negative s with _ | _ | x <;> rfl

/-- A radix is told by two characters. -/
theorem radix?_eq_some_iff : radix? s = some radix ↔ ∃ c r, s = '0' :: c :: r ∧ (['0', c], radix) ∈ radixMarks := by
  constructor
  · intro h
    unfold radix? at h
    split at h
    case h_2 => cases h
    case h_1 c r =>
      refine ⟨c, r, rfl, ?_⟩
      simp only [Bool.or_eq_true, decide_eq_true_eq] at h
      split at h
      case isTrue hc =>
        obtain rfl := Option.some.inj h
        rcases hc with rfl | rfl <;> decide
      split at h
      case isTrue hc =>
        obtain rfl := Option.some.inj h
        rcases hc with rfl | rfl <;> decide
      split at h
      case isTrue hc =>
        obtain rfl := Option.some.inj h
        rcases hc with rfl | rfl <;> decide
      case isFalse => cases h
  · rintro ⟨c, r, rfl, hc⟩
    simp only [radixMarks, List.mem_cons, Prod.mk.injEq, List.cons.injEq, reduceCtorEq, and_true, true_and, false_and,
      false_or, List.not_mem_nil, or_false] at hc
    rcases hc with ⟨rfl, rfl⟩ | ⟨rfl, rfl⟩ | ⟨rfl, rfl⟩ | ⟨rfl, rfl⟩ | ⟨rfl, rfl⟩ | ⟨rfl, rfl⟩ <;> rfl

theorem radix_le_of_mem (h : (mark, radix) ∈ radixMarks) : radix ≤ 16 := by
  have hall : ∀ p ∈ radixMarks, p.2 ≤ 16 := by decide
  exact hall _ h

/-- No decimal digit is the letter of a radix. -/
theorem not_spells_mark {r : List Char} {ds : List Nat} (hc : (['0', c], radix) ∈ radixMarks) :
    ¬ Number.Spells 10 ('0' :: c :: r) ds := by
  intro h
  cases h with
  | cons _ h =>
  cases h with
  | cons hd _ =>
  have hdigit := (Number.digit?_eq_some_iff (by decide)).mpr hd
  have hall : ∀ p ∈ radixMarks, ∀ c ∈ p.1[1]?, Number.digit? 10 c = none := by
    simp [radixMarks, Number.digit?]
  rw [hall _ hc c rfl] at hdigit
  cases hdigit

/-- **The integer of a number** is read from its digits behind the mark. -/
theorem denotes_iff : Denotes text n ↔ Number.digits? (body (digits text)).1 (body (digits text)).2 = some n := by
  generalize hs : digits text = s
  cases hradix : radix? s with
  | some radix =>
    obtain ⟨c, r, rfl, hc⟩ := radix?_eq_some_iff.mp hradix
    simp only [body, hradix, Option.elim_some, List.drop_succ_cons, List.drop_zero,
      Number.digits?_eq_some_iff (radix_le_of_mem hc)]
    constructor
    · rintro ⟨mark, radix', s, ds, hmark, htext, hne, hspells, hn⟩
      rw [hs] at htext
      rcases List.mem_cons.mp hmark with hplain | hmark
      · obtain ⟨rfl, rfl⟩ := Prod.mk.inj hplain
        obtain rfl : s = '0' :: c :: r := htext.symm
        exact absurd hspells (not_spells_mark hc)
      · have hall : ∀ p ∈ radixMarks.tail, ∃ d, p.1 = ['0', d] := by
          simp [radixMarks]
        obtain ⟨d, rfl : mark = ['0', d]⟩ := hall _ hmark
        obtain ⟨rfl, rfl⟩ : c = d ∧ r = s := by simpa using htext
        have hradix' := radix?_eq_some_iff.mpr ⟨c, r, rfl, List.mem_cons_of_mem _ hmark⟩
        obtain rfl := Option.some.inj (hradix.symm.trans hradix')
        exact ⟨hne, ds, hspells, hn⟩
    · rintro ⟨hne, ds, hspells, hn⟩
      exact ⟨['0', c], radix, r, ds, hc, hs, hne, hspells, hn⟩
  | none =>
    simp only [body, hradix, Option.elim_none, Number.digits?_eq_some_iff (show 10 ≤ 16 by decide)]
    constructor
    · rintro ⟨mark, radix, r, ds, hmark, htext, hne, hspells, hn⟩
      rw [hs] at htext
      subst htext
      rcases List.mem_cons.mp hmark with hplain | hmark
      · obtain ⟨rfl, rfl⟩ := Prod.mk.inj hplain
        exact ⟨hne, ds, hspells, hn⟩
      · have hall : ∀ p ∈ radixMarks.tail, ∃ d, p.1 = ['0', d] := by
          simp [radixMarks]
        obtain ⟨d, rfl : mark = ['0', d]⟩ := hall _ hmark
        have hradix' := radix?_eq_some_iff.mpr ⟨d, r, rfl, List.mem_cons_of_mem _ hmark⟩
        rw [List.cons_append, List.singleton_append, hradix'] at hradix
        cases hradix
    · rintro ⟨hne, ds, hspells, hn⟩
      exact ⟨[], 10, s, ds, by decide, hs, hne, hspells, hn⟩

/-- No sign stands before the digits of a number. -/
theorem body_unsigned (h : isNumeral text.toList = true) : ∀ c ∈ (body (digits text)).2.head?, c ≠ '-' ∧ c ≠ '+' := by
  obtain ⟨c, r, htext, hc⟩ := exists_cons_of_isNumeral h
  have hplain : c ≠ '_' ∧ c ≠ '-' ∧ c ≠ '+' := by
    refine ⟨?_, ?_, ?_⟩ <;>
    · rintro rfl
      simp at hc
  have hdigits : digits text = c :: r.filter (· ≠ '_') := by
    rw [digits, htext, List.filter_cons_of_pos (by simpa using hplain.1)]
  rw [hdigits, body]
  cases hradix : radix? (c :: r.filter (· ≠ '_')) with
  | none =>
    rintro d ⟨⟩
    exact hplain.2
  | some radix =>
    intro g hg
    obtain ⟨mark, s, hs, hmark⟩ := radix?_eq_some_iff.mp hradix
    obtain ⟨rfl, hr⟩ := List.cons.inj hs
    obtain ⟨s', rfl⟩ : ∃ s', s = g :: s' := by
      rw [hs] at hg
      exact List.head?_eq_some_iff.mp hg
    rw [htext, isNumeral, number_cons, Bool.and_eq_true] at h
    obtain ⟨u, hu, hrest⟩ := exists_behind_separators (List.isEmpty_iff.mp h.2) hr
    have hletter : mark ≠ 'e' ∧ mark ≠ 'E' := by
      have hall : ∀ p ∈ radixMarks, ∀ c ∈ p.1[1]?, c ≠ 'e' ∧ c ≠ 'E' := by
        simp [radixMarks]
      exact hall _ hmark mark rfl
    constructor
    · rintro rfl
      exact (exponent_before_sign (.inl rfl) hrest hu).elim hletter.1 hletter.2
    · rintro rfl
      exact (exponent_before_sign (.inr rfl) hrest hu).elim hletter.1 hletter.2

/-- **The integer that is taken** is the one that a number spells, if 64 bits hold it. -/
theorem integer?_eq_some_iff (h : isNumeral text.toList = true) {i : Int} :
    integer? text = some i ↔ ∃ n : Nat, Denotes text n ∧ n < 2 ^ 63 ∧ i = n := by
  rw [integer?, Number.int64?_of_unsigned (body_unsigned h)]
  simp only [Option.bind_eq_some_iff, Option.ite_none_right_eq_some, Option.some.injEq, ← denotes_iff, eq_comm (a := i)]

/-! ## Values and signs -/

/-- The values of a number and of the number behind a minus sign: an integer and its negative if 64 bits hold it, else a
double and its negative, else the text in both cases. -/
structure SignedValues (text : String) (value negated : Json) : Prop where
  integer : ∀ n : Nat, Denotes text n → n < 2 ^ 63 → value = .int n ∧ negated = .int (-n)
  double : (∀ n, Denotes text n → 2 ^ 63 ≤ n) → ∀ x, Number.decimal? false (digits text) = some (some x) →
    value = .double x ∧ negated = .double x.neg
  text : (∀ n, Denotes text n → 2 ^ 63 ≤ n) → (∀ x, Number.decimal? false (digits text) ≠ some (some x)) →
    value = .string text ∧ negated = .string text

/-- **A number and its negative**: the sign is lost where the text is kept, and there alone. -/
theorem number_signed (h : isNumeral text.toList = true) : SignedValues text (number text false) (number text true) := by
  have hnone (hbig : ∀ n, Denotes text n → 2 ^ 63 ≤ n) : integer? text = none := by
    by_contra hsome
    obtain ⟨i, hi⟩ := Option.ne_none_iff_exists'.mp hsome
    obtain ⟨n, hn, hlt, -⟩ := (integer?_eq_some_iff h).mp hi
    exact absurd hlt (Nat.not_lt.mpr (hbig n hn))
  have hnegative := Number.decimal?_not false (digits text)
  constructor
  · intro n hn hlt
    have hi := (integer?_eq_some_iff h).mpr ⟨n, hn, hlt, rfl⟩
    simp [number_eq, hi]
  · intro hbig x hx
    rw [hx] at hnegative
    simp only [Bool.not_false, Option.map_some] at hnegative
    simp [number_eq, hnone hbig, hx, hnegative]
  · intro hbig hkept
    simp only [number_eq, hnone hbig, Option.elim_none]
    match hdecimal : Number.decimal? false (digits text) with
    | none =>
      rw [hdecimal] at hnegative
      simp only [Bool.not_false, Option.map_none] at hnegative
      simp [hnegative]
    | some none =>
      rw [hdecimal] at hnegative
      simp only [Bool.not_false, Option.map_some, Option.map_none] at hnegative
      simp [hnegative]
    | some (some x) => exact absurd hdecimal (hkept x)

end Literal

end AppBundler
