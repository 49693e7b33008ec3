import Mathlib.Data.Nat.Digits.Lemmas
import AppBundler.Number.Reading
/-!
# Digits and signs

What the digits of a text spell in a radix and what integers are spelled with a sign, told apart from how they are read,
and what a sign changes in what is read.
-/

namespace AppBundler

namespace Double

/-- The sign of a quotient is that of the double. -/
theorem ofRatio?_not (negative : Bool) (num den : Nat) :
    ofRatio? (!negative) num den = (ofRatio? negative num den).map neg := by
  simp only [ofRatio?]
  split
  · rfl
  · split <;> split <;> rfl

end Double

namespace Number

/-! ## Digits -/

/-- A text spells digits in a radix, the greatest one first and letters in either case. -/
def Spells (radix : Nat) (s : List Char) (ds : List Nat) : Prop :=
  List.Forall₂ (fun c d => d < radix ∧ (c = Nat.digitChar d ∨ c = (Nat.digitChar d).toUpper)) s ds

variable {radix acc n d : Nat} {c : Char} {s : List Char} {ds : List Nat}

theorem digit?_of_sixteen (h : digit? 16 c = some d) (hd : d < radix) : digit? radix c = some d := by
  simp only [digit?, Option.ite_none_right_eq_some, Option.some.injEq] at h ⊢
  rw [h.2]
  exact ⟨hd, rfl⟩

theorem digit?_lt (h : digit? radix c = some d) : d < radix := by
  simp only [digit?, Option.ite_none_right_eq_some, Option.some.injEq] at h
  exact h.2 ▸ h.1

theorem digit?_sixteen (hradix : radix ≤ 16) (h : digit? radix c = some d) : digit? 16 c = some d := by
  simp only [digit?, Option.ite_none_right_eq_some, Option.some.injEq] at h ⊢
  exact ⟨Nat.lt_of_lt_of_le h.1 hradix, h.2⟩

/-- Digits stand among the characters of ASCII. -/
theorem toNat_lt_of_digit? (h : digit? 16 c = some d) : c.toNat < 128 := by
  by_contra hcode
  have hnine : ¬ c ≤ '9' := fun hle => hcode (Nat.lt_of_le_of_lt (UInt32.le_iff_toNat_le.mp hle) (by decide))
  have hlower : ¬ c ≤ 'f' := fun hle => hcode (Nat.lt_of_le_of_lt (UInt32.le_iff_toNat_le.mp hle) (by decide))
  have hupper : ¬ c ≤ 'F' := fun hle => hcode (Nat.lt_of_le_of_lt (UInt32.le_iff_toNat_le.mp hle) (by decide))
  simp [digit?, hnine, hlower, hupper] at h

/-- **A digit is read as the number it stands for.** -/
theorem digit?_eq_some_iff (hradix : radix ≤ 16) :
    digit? radix c = some d ↔ d < radix ∧ (c = Nat.digitChar d ∨ c = (Nat.digitChar d).toUpper) := by
  constructor
  · intro h
    have hall : ∀ n < 128, ∀ d < 16, digit? 16 (Char.ofNat n) = some d →
        Char.ofNat n = Nat.digitChar d ∨ Char.ofNat n = (Nat.digitChar d).toUpper := by decide +kernel
    have hsixteen := digit?_sixteen hradix h
    refine ⟨digit?_lt h, ?_⟩
    have hchar := hall c.toNat (toNat_lt_of_digit? hsixteen) d (digit?_lt hsixteen)
    rw [Char.ofNat_toNat] at hchar
    exact hchar hsixteen
  · rintro ⟨hd, hc⟩
    have hall : ∀ d < 16, digit? 16 (Nat.digitChar d) = some d ∧ digit? 16 (Nat.digitChar d).toUpper = some d := by decide
    obtain ⟨hlower, hupper⟩ := hall d (Nat.lt_of_lt_of_le hd hradix)
    refine digit?_of_sixteen ?_ hd
    rcases hc with rfl | rfl
    · exact hlower
    · exact hupper

/-- Digits are added to the value of those before them. -/
theorem digitsFrom_eq_some_iff (hradix : radix ≤ 16) : digitsFrom radix acc s = some n ↔
    ∃ ds, Spells radix s ds ∧ n = Nat.ofDigits radix ds.reverse + radix ^ ds.length * acc := by
  induction s generalizing acc with
  | nil => simp [digitsFrom, Spells, eq_comm]
  | cons c s ih =>
    constructor
    · intro h
      rw [digitsFrom] at h
      split at h
      · rename_i d hd
        obtain ⟨ds, hds, rfl⟩ := ih.mp h
        refine ⟨d :: ds, .cons ((digit?_eq_some_iff hradix).mp hd) hds, ?_⟩
        rw [List.reverse_cons, Nat.ofDigits_append, Nat.ofDigits_singleton, List.length_reverse, List.length_cons]
        ring
      · cases h
    · rintro ⟨ds, hds, hn⟩
      cases hds with
      | cons hd hds =>
        rename_i d ds
        rw [digitsFrom, (digit?_eq_some_iff hradix).mpr hd]
        refine ih.mpr ⟨ds, hds, ?_⟩
        rw [hn, List.reverse_cons, Nat.ofDigits_append, Nat.ofDigits_singleton, List.length_reverse, List.length_cons]
        ring

/-- **Digits are read as the number they spell.** -/
theorem digits?_eq_some_iff (hradix : radix ≤ 16) :
    digits? radix s = some n ↔ s ≠ [] ∧ ∃ ds, Spells radix s ds ∧ n = Nat.ofDigits radix ds.reverse := by
  cases s with
  | nil => simp [digits?]
  | cons c s => simp [digits?, digitsFrom_eq_some_iff hradix]

/-- Without a sign the digits alone count. -/
theorem int64?_of_unsigned (h : ∀ c ∈ s.head?, c ≠ '-' ∧ c ≠ '+') :
    int64? radix s = (digits? radix s).bind fun n => if n < 2 ^ 63 then some (n : Int) else none := by
  have hrange (n : Nat) : (if -Int.pow 2 63 ≤ (n : Int) && (n : Int) < Int.pow 2 63 then some (n : Int) else none) =
      if n < 2 ^ 63 then some (n : Int) else none := by
    have hpow : Int.pow 2 63 = 2 ^ 63 := rfl
    rw [hpow]
    refine ite_congr ?_ (fun _ => rfl) fun _ => rfl
    simp only [Bool.and_eq_true, decide_eq_true_eq, eq_iff_iff]
    omega
  rw [int64?]
  · simp only [hrange]
  · rintro r rfl
    exact (h '-' rfl).1 rfl
  · rintro r rfl
    exact (h '+' rfl).2 rfl

/-! ## Integers -/

/-- One or more digits spell a number. -/
def SpellsNumber (radix : Nat) (s : List Char) (n : Nat) : Prop :=
  s ≠ [] ∧ ∃ ds, Spells radix s ds ∧ n = Nat.ofDigits radix ds.reverse

/-- A text spells an integer: digits, behind a sign or without one. -/
inductive SpellsInteger (radix : Nat) : List Char → Int → Prop
  | unsigned {s : List Char} {n : Nat} (h : SpellsNumber radix s n) : SpellsInteger radix s n
  | plus {s : List Char} {n : Nat} (h : SpellsNumber radix s n) : SpellsInteger radix ('+' :: s) n
  | minus {s : List Char} {n : Nat} (h : SpellsNumber radix s n) : SpellsInteger radix ('-' :: s) (-n)

variable {i : Int}

/-- A sign is no digit. -/
theorem SpellsNumber.head (hradix : radix ≤ 16) (h : SpellsNumber radix s n) :
    ∀ c ∈ s.head?, c ≠ '-' ∧ c ≠ '+' := by
  intro c hc
  obtain ⟨-, ds, hds, -⟩ := h
  cases hds with
  | nil => cases hc
  | cons hd _ =>
    obtain rfl := Option.some.inj hc
    have hread := digit?_sixteen hradix ((digit?_eq_some_iff hradix).mpr hd)
    constructor
    · rintro rfl
      exact absurd hread nofun
    · rintro rfl
      exact absurd hread nofun

theorem spellsInteger_minus_iff (hradix : radix ≤ 16) :
    SpellsInteger radix ('-' :: s) i ↔ ∃ n : Nat, SpellsNumber radix s n ∧ -n = i := by
  constructor
  · intro h
    cases h with
    | unsigned h => exact absurd rfl (h.head hradix '-' rfl).1
    | minus h => exact ⟨_, h, rfl⟩
  · rintro ⟨n, h, rfl⟩
    exact .minus h

theorem spellsInteger_plus_iff (hradix : radix ≤ 16) :
    SpellsInteger radix ('+' :: s) i ↔ ∃ n : Nat, SpellsNumber radix s n ∧ n = i := by
  constructor
  · intro h
    cases h with
    | unsigned h => exact absurd rfl (h.head hradix '+' rfl).2
    | plus h => exact ⟨_, h, rfl⟩
  · rintro ⟨n, h, rfl⟩
    exact .plus h

theorem spellsInteger_iff_of_unsigned (hs : ∀ c ∈ s.head?, c ≠ '-' ∧ c ≠ '+') :
    SpellsInteger radix s i ↔ ∃ n : Nat, SpellsNumber radix s n ∧ n = i := by
  constructor
  · intro h
    cases h with
    | unsigned h => exact ⟨_, h, rfl⟩
    | plus h => exact absurd rfl (hs '+' rfl).2
    | minus h => exact absurd rfl (hs '-' rfl).1
  · rintro ⟨n, h, rfl⟩
    exact .unsigned h

/-- **Integers of 64 bits are read as they are spelled.** -/
theorem int64?_eq_some_iff (hradix : radix ≤ 16) :
    int64? radix s = some i ↔ SpellsInteger radix s i ∧ -2 ^ 63 ≤ i ∧ i < 2 ^ 63 := by
  have hrange (j : Int) : (if -Int.pow 2 63 ≤ j && j < Int.pow 2 63 then some j else none) = some i ↔
      j = i ∧ -2 ^ 63 ≤ i ∧ i < 2 ^ 63 := by
    have hpow : Int.pow 2 63 = 2 ^ 63 := rfl
    rw [hpow, Option.ite_none_right_eq_some, Option.some.injEq, Bool.and_eq_true, decide_eq_true_eq,
      decide_eq_true_eq, and_comm]
    refine and_congr_right fun h => ?_
    rw [h]
  have hread (n : Nat) (r : List Char) : digits? radix r = some n ↔ SpellsNumber radix r n := digits?_eq_some_iff hradix
  unfold int64?
  split
  · rename_i r
    simp only [Option.bind_eq_some_iff, hrange, hread, spellsInteger_minus_iff hradix, ← and_assoc, exists_and_right]
  · rename_i r
    simp only [Option.bind_eq_some_iff, hrange, hread, spellsInteger_plus_iff hradix, ← and_assoc, exists_and_right]
  · rename_i hminus hplus
    have hs : ∀ c ∈ s.head?, c ≠ '-' ∧ c ≠ '+' := by
      intro c hc
      obtain ⟨r, rfl⟩ := List.head?_eq_some_iff.mp hc
      exact ⟨fun h => hminus r (by rw [h]), fun h => hplus r (by rw [h])⟩
    simp only [Option.bind_eq_some_iff, hrange, hread, spellsInteger_iff_of_unsigned hs, ← and_assoc, exists_and_right]

/-! ## Signs -/

theorem ofDecimal?_not (negative : Bool) (digits : Nat) (power : Int) :
    ofDecimal? (!negative) digits power = (ofDecimal? negative digits power).map Double.neg := by
  simp only [ofDecimal?, Double.ofRatio?_not, apply_ite (Option.map Double.neg)]
  rfl

/-- **The sign of a decimal** is that of the double it is read as, and neither makes it one nor makes it too large. -/
theorem decimal?_not (negative : Bool) (s : List Char) :
    decimal? (!negative) s = (decimal? negative s).map (Option.map Double.neg) := by
  simp only [decimal?, ofDecimal?_not]
  split <;>
  · rw [apply_ite (Option.map (Option.map Double.neg)), Option.map_map]
    rfl

end Number

end AppBundler
