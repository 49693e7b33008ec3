import Mathlib.Data.List.Lex
import Mathlib.Data.List.Nodup
import Mathlib.Data.List.Perm.Basic
import Mathlib.Data.String.Basic
import AppBundler.Json.Canonical
import AppBundler.Proofs.Json.RoundTrip
/-!
# The canonical text is a canonical form

Two values have one canonical text exactly when they differ in nothing but the order of the members of their
objects. Keys are told apart by their UTF-16 code units, whose order is total, so that members can be sorted in one
way only; and no two values have one compact text.
-/

namespace AppBundler

/-! ## The order of keys -/

namespace Text

/-- The UTF-16 code units of a character. -/
def unitsOfChar (c : Char) : List Nat := units16 [c]

theorem units16_cons (c : Char) (s : List Char) : units16 (c :: s) = unitsOfChar c ++ units16 s := by
  simp [units16, unitsOfChar]

/-- A character is one unit, which is no half of a pair, or a pair of halves. -/
theorem unitsOfChar_cases (c : Char) :
    (unitsOfChar c = [c.toNat] ∧ (c.toNat < 0xD800 ∨ 0xDFFF < c.toNat)) ∨
      ∃ high low, unitsOfChar c = [0xD800 + high, 0xDC00 + low] ∧ c.toNat = 0x10000 + 0x400 * high + low ∧
        high < 0x400 ∧ low < 0x400 := by
  have hvalid : c.toNat < 0xD800 ∨ 0xDFFF < c.toNat ∧ c.toNat < 0x110000 := c.valid
  by_cases hsmall : c.toNat < 0x10000
  · refine Or.inl ⟨by simp [unitsOfChar, units16, hsmall], by omega⟩
  · exact Or.inr ⟨(c.toNat - 0x10000) / 0x400, (c.toNat - 0x10000) % 0x400, by simp [unitsOfChar, units16, hsmall],
      by omega, by omega, by omega⟩

/-- **Texts have different code units.** -/
theorem units16_injective : Function.Injective units16 := by
  intro s t h
  induction s generalizing t with
  | nil =>
    cases t with
    | nil => rfl
    | cons d t =>
      rw [units16_cons] at h
      rcases unitsOfChar_cases d with ⟨hd, -⟩ | ⟨_, _, hd, -⟩ <;> simp [units16, hd] at h
  | cons c s ih =>
    cases t with
    | nil =>
      rw [units16_cons] at h
      rcases unitsOfChar_cases c with ⟨hc, -⟩ | ⟨_, _, hc, -⟩ <;> simp [units16, hc] at h
    | cons d t =>
      rw [units16_cons, units16_cons] at h
      -- The first unit tells whether there is a second one.
      rcases unitsOfChar_cases c with ⟨hc, hwhole⟩ | ⟨high, low, hc, hcode, hhigh, hlow⟩ <;>
        rcases unitsOfChar_cases d with ⟨hd, hwhole'⟩ | ⟨high', low', hd, hcode', hhigh', hlow'⟩ <;>
        simp only [hc, hd, List.cons_append, List.nil_append, List.cons.injEq] at h
      · rw [Char.toNat_inj.mp h.1, ih h.2]
      · omega
      · omega
      · obtain ⟨hfirst, hsecond, hrest⟩ := h
        rw [Char.toNat_inj.mp (show c.toNat = d.toNat by omega), ih hrest]

/-- Sequences are compared as in a dictionary. -/
theorem atOrBefore_iff_le {a b : List Nat} : atOrBefore a b = true ↔ a ≤ b := by
  rw [← not_lt]
  induction a generalizing b with
  | nil => simp [atOrBefore]
  | cons x a ih =>
    cases b with
    | nil => simp [atOrBefore]
    | cons y b =>
      rw [atOrBefore, List.cons_lt_cons_iff, Bool.or_eq_true, Bool.and_eq_true, ih, decide_eq_true_eq, beq_iff_eq,
        not_or, not_and]
      constructor
      · rintro (hlt | ⟨rfl, hrest⟩)
        · exact ⟨hlt.not_gt, fun heq => absurd heq hlt.ne'⟩
        · exact ⟨lt_irrefl x, fun _ => hrest⟩
      · rintro ⟨hle, hrest⟩
        exact (lt_or_eq_of_le (not_lt.mp hle)).imp_right fun heq => ⟨heq, hrest heq.symm⟩

end Text

namespace Json

/-- The order of keys is that of their code units. -/
theorem keyAtOrBefore_iff {k l : String} :
    keyAtOrBefore k l = true ↔ Text.units16 k.toList ≤ Text.units16 l.toList :=
  Text.atOrBefore_iff_le

/-- Keys that stand at or before each other are the same. -/
theorem eq_of_keyAtOrBefore {k l : String} (hkl : keyAtOrBefore k l = true) (hlk : keyAtOrBefore l k = true) : k = l :=
  String.toList_inj.mp (Text.units16_injective (le_antisymm (keyAtOrBefore_iff.mp hkl) (keyAtOrBefore_iff.mp hlk)))

/-- Sorted members stand in order. -/
theorem pairwise_sortMembers (ms : List (String × Json)) :
    (sortMembers ms).Pairwise fun m n => keyAtOrBefore m.1 n.1 = true := by
  unfold sortMembers
  refine List.pairwise_mergeSort ?_ ?_ ms
  · intro l m n hlm hmn
    rw [keyAtOrBefore_iff] at hlm hmn ⊢
    exact hlm.trans hmn
  · intro m n
    rw [Bool.or_eq_true, keyAtOrBefore_iff, keyAtOrBefore_iff]
    exact le_total _ _

theorem sortMembers_perm (ms : List (String × Json)) : (sortMembers ms).Perm ms := List.mergeSort_perm _ _

/-- **Members are sorted in one way**, however they were listed, when no key is there twice. -/
theorem sortMembers_eq_of_perm {ms ns : List (String × Json)} (h : ms.Perm ns) (hkeys : (ms.map Prod.fst).Nodup) :
    sortMembers ms = sortMembers ns := by
  have hperm : (sortMembers ms).Perm (sortMembers ns) :=
    (sortMembers_perm ms).trans (h.trans (sortMembers_perm ns).symm)
  refine hperm.eq_of_pairwise ?_ (pairwise_sortMembers ms) (pairwise_sortMembers ns)
  intro m n hm hn hmn hnm
  have hm' := (sortMembers_perm ms).mem_iff.mp hm
  have hn' := h.mem_iff.mpr ((sortMembers_perm ns).mem_iff.mp hn)
  exact List.inj_on_of_nodup_map hkeys hm' hn' (eq_of_keyAtOrBefore hmn hnm)

/-! ## Values up to the order of members -/

/-- Values without doubles whose integers have 64 bits and whose objects have no key twice. -/
inductive Unambiguous : Json → Prop
  | null : Unambiguous .null
  | bool (b : Bool) : Unambiguous (.bool b)
  | int {n : Int} (hlow : -2 ^ 63 ≤ n) (hhigh : n < 2 ^ 64) : Unambiguous (.int n)
  | string (s : String) : Unambiguous (.string s)
  | array {xs : List Json} (h : ∀ x ∈ xs, Unambiguous x) : Unambiguous (.array xs)
  | object {ms : List (String × Json)} (hkeys : (ms.map Prod.fst).Nodup) (h : ∀ m ∈ ms, Unambiguous m.2) :
    Unambiguous (.object ms)

/-- Values that differ in nothing but the order of the members of objects, at any depth. -/
inductive Reordered : Json → Json → Prop
  | refl (i : Json) : Reordered i i
  | trans {i j k : Json} (h : Reordered i j) (h' : Reordered j k) : Reordered i k
  | members {ms ns : List (String × Json)} (h : ms.Perm ns) : Reordered (.object ms) (.object ns)
  | member (before after : List (String × Json)) (key : String) {v w : Json} (h : Reordered v w) :
    Reordered (.object (before ++ (key, v) :: after)) (.object (before ++ (key, w) :: after))
  | element (before after : List Json) {x y : Json} (h : Reordered x y) :
    Reordered (.array (before ++ x :: after)) (.array (before ++ y :: after))

/-- In every object the keys are strictly increasing by their UTF-16 code units. -/
inductive KeysIncrease : Json → Prop
  | null : KeysIncrease .null
  | bool (b : Bool) : KeysIncrease (.bool b)
  | int (n : Int) : KeysIncrease (.int n)
  | double (x : Double) : KeysIncrease (.double x)
  | string (s : String) : KeysIncrease (.string s)
  | array {xs : List Json} (h : ∀ x ∈ xs, KeysIncrease x) : KeysIncrease (.array xs)
  | object {ms : List (String × Json)}
      (hkeys : ms.Pairwise fun m n => Text.units16 m.1.toList < Text.units16 n.1.toList)
      (h : ∀ m ∈ ms, KeysIncrease m.2) : KeysIncrease (.object ms)

theorem canonicalElements_eq (xs : List Json) : canonicalElements xs = xs.map canonical := by
  induction xs with
  | nil => rfl
  | cons x xs ih => rw [canonicalElements, ih, List.map_cons]

theorem canonicalMembers_eq (ms : List (String × Json)) :
    canonicalMembers ms = ms.map fun m => (m.1, m.2.canonical) := by
  induction ms with
  | nil => rfl
  | cons m ms ih => rw [canonicalMembers, ih, List.map_cons]

/-- The canonical form keeps the keys of an object. -/
theorem keys_canonicalMembers (ms : List (String × Json)) :
    (canonicalMembers ms).map Prod.fst = ms.map Prod.fst := by
  rw [canonicalMembers_eq, List.map_map]
  rfl

/-- Levels of nesting may be added. -/
theorem Fits.mono {d e : Nat} {j : Json} (h : Fits d j) (hde : d ≤ e) : Fits e j := by
  induction h generalizing e with
  | null => exact .null
  | bool b => exact .bool b
  | int hlow hhigh => exact .int hlow hhigh
  | string s => exact .string s
  | array _ ih =>
    obtain ⟨e, rfl⟩ : ∃ k, e = k + 1 := ⟨e - 1, by omega⟩
    exact .array fun x hx => ih x hx (by omega)
  | object _ ih =>
    obtain ⟨e, rfl⟩ : ∃ k, e = k + 1 := ⟨e - 1, by omega⟩
    exact .object fun m hm => ih m hm (by omega)

/-- Values that each fit some depth fit one depth together. -/
theorem Fits.exists_depth {α : Type} {f : α → Json} {l : List α} (h : ∀ a ∈ l, ∃ d, Fits d (f a)) :
    ∃ d, ∀ a ∈ l, Fits d (f a) := by
  induction l with
  | nil => exact ⟨0, nofun⟩
  | cons a l ih =>
    rw [List.forall_mem_cons] at h
    obtain ⟨⟨d, ha⟩, hl⟩ := h
    obtain ⟨e, hl⟩ := ih hl
    exact ⟨max d e, List.forall_mem_cons.mpr
      ⟨ha.mono (Nat.le_max_left d e), fun b hb => (hl b hb).mono (Nat.le_max_right d e)⟩⟩

namespace Unambiguous

variable {i j : Json}

theorem exists_fits (h : Unambiguous j) : ∃ d, Fits d j := by
  induction h with
  | null => exact ⟨0, .null⟩
  | bool b => exact ⟨0, .bool b⟩
  | int hlow hhigh => exact ⟨0, .int hlow hhigh⟩
  | string s => exact ⟨0, .string s⟩
  | array _ ih =>
    obtain ⟨d, hd⟩ := Fits.exists_depth ih
    exact ⟨d + 1, .array hd⟩
  | object _ _ ih =>
    obtain ⟨d, hd⟩ := Fits.exists_depth ih
    exact ⟨d + 1, .object hd⟩

/-- No two of these values have one text. -/
theorem eq_of_compact (hi : Unambiguous i) (hj : Unambiguous j) (h : i.compact = j.compact) : i = j := by
  obtain ⟨d, hd⟩ := hi.exists_fits
  obtain ⟨e, he⟩ := hj.exists_fits
  exact (hd.mono (Nat.le_max_left d e)).eq_of_compact (he.mono (Nat.le_max_right d e)) h

/-- The canonical form has the same numbers and keys. -/
theorem canonical (h : Unambiguous j) : Unambiguous j.canonical := by
  induction h with
  | null => exact .null
  | bool b => exact .bool b
  | int hlow hhigh => exact .int hlow hhigh
  | string s => exact .string s
  | array _ ih =>
    rw [Json.canonical, canonicalElements_eq]
    exact .array (List.forall_mem_map.mpr ih)
  | @object ms hkeys _ ih =>
    rw [Json.canonical]
    refine .object ?_ fun m hm => ?_
    · rw [((sortMembers_perm _).map Prod.fst).nodup_iff, keys_canonicalMembers]
      exact hkeys
    · rw [(sortMembers_perm _).mem_iff, canonicalMembers_eq] at hm
      obtain ⟨n, hn, rfl⟩ := List.mem_map.mp hm
      exact ih n hn

/-- **In the canonical form the keys increase.** -/
theorem keysIncrease (h : Unambiguous j) : KeysIncrease j.canonical := by
  induction h with
  | null => exact .null
  | bool b => exact .bool b
  | @int n _ _ => exact .int n
  | string s => exact .string s
  | array _ ih =>
    rw [Json.canonical, canonicalElements_eq]
    exact .array (List.forall_mem_map.mpr ih)
  | @object ms hkeys _ ih =>
    rw [Json.canonical]
    refine .object ?_ fun m hm => ?_
    · have hdistinct : ((sortMembers (canonicalMembers ms)).map Prod.fst).Nodup := by
        rw [((sortMembers_perm _).map Prod.fst).nodup_iff, keys_canonicalMembers]
        exact hkeys
      refine (pairwise_sortMembers _).imp₂ ?_ (List.pairwise_map.mp hdistinct)
      intro m n hmn hne
      refine lt_of_le_of_ne (keyAtOrBefore_iff.mp hmn) fun heq => hne ?_
      exact String.toList_inj.mp (Text.units16_injective heq)
    · rw [(sortMembers_perm _).mem_iff, canonicalMembers_eq] at hm
      obtain ⟨n, hn, rfl⟩ := List.mem_map.mp hm
      exact ih n hn

end Unambiguous

namespace Reordered

variable {i j : Json}

theorem symm (h : Reordered i j) : Reordered j i := by
  induction h with
  | refl i => exact .refl i
  | trans _ _ ih ih' => exact ih'.trans ih
  | members h => exact .members h.symm
  | member before after key _ ih => exact .member before after key ih
  | element before after _ ih => exact .element before after ih

/-- All elements may be reordered within. -/
theorem elements {f : Json → Json} {xs : List Json} (h : ∀ x ∈ xs, Reordered x (f x)) :
    Reordered (.array xs) (.array (xs.map f)) := by
  -- One after the other, behind those that are reordered already.
  have hbehind : ∀ before, Reordered (.array (before ++ xs)) (.array (before ++ xs.map f)) := by
    induction xs with
    | nil => exact fun before => .refl _
    | cons x xs ih =>
      intro before
      rw [List.forall_mem_cons] at h
      have hrest := ih h.2 (before ++ [f x])
      rw [List.append_assoc, List.append_assoc] at hrest
      exact (element before xs h.1).trans hrest
  exact hbehind []

/-- The values of all members may be reordered within. -/
theorem values {f : Json → Json} {ms : List (String × Json)} (h : ∀ m ∈ ms, Reordered m.2 (f m.2)) :
    Reordered (.object ms) (.object (ms.map fun m => (m.1, f m.2))) := by
  have hbehind : ∀ before,
      Reordered (.object (before ++ ms)) (.object (before ++ ms.map fun m => (m.1, f m.2))) := by
    induction ms with
    | nil => exact fun before => .refl _
    | cons m ms ih =>
      intro before
      rw [List.forall_mem_cons] at h
      have hrest := ih h.2 (before ++ [(m.1, f m.2)])
      rw [List.append_assoc, List.append_assoc] at hrest
      exact (member before ms m.1 h.1).trans hrest
  exact hbehind []

/-- What holds of all entries of a list holds of them after one was replaced by another of which it holds. -/
theorem forall_mem_replaced {α : Type} {p : α → Prop} {before after : List α} {x y : α}
    (h : ∀ a ∈ before ++ x :: after, p a) (hy : p y) : ∀ a ∈ before ++ y :: after, p a := by
  rw [List.forall_mem_append, List.forall_mem_cons] at h ⊢
  exact ⟨h.1, hy, h.2.2⟩

/-- A reordered value has the same numbers and keys, and **the same canonical form**. -/
theorem canonical_eq (h : Reordered i j) (hi : Unambiguous i) : i.canonical = j.canonical ∧ Unambiguous j := by
  induction h with
  | refl => exact ⟨rfl, hi⟩
  | trans _ _ ih ih' =>
    obtain ⟨heq, hj⟩ := ih hi
    exact ⟨heq.trans (ih' hj).1, (ih' hj).2⟩
  | @members ms ns h =>
    cases hi with
    | object hkeys hvalues =>
      refine ⟨?_, .object ((h.map Prod.fst).nodup_iff.mp hkeys) fun m hm => hvalues m (h.mem_iff.mpr hm)⟩
      rw [canonical, canonical, canonicalMembers_eq, canonicalMembers_eq]
      refine congrArg Json.object (sortMembers_eq_of_perm (h.map _) ?_)
      rw [← canonicalMembers_eq, keys_canonicalMembers]
      exact hkeys
  | member before after key _ ih =>
    cases hi with
    | object hkeys hvalues =>
      obtain ⟨heq, hw⟩ := ih (hvalues _ (List.mem_append_right before List.mem_cons_self))
      constructor
      · simp only [canonical, canonicalMembers_eq, List.map_append, List.map_cons, heq]
      · exact .object (by simpa using hkeys) (forall_mem_replaced hvalues hw)
  | element before after _ ih =>
    cases hi with
    | array helements =>
      obtain ⟨heq, hy⟩ := ih (helements _ (List.mem_append_right before List.mem_cons_self))
      constructor
      · simp only [canonical, canonicalElements_eq, List.map_append, List.map_cons, heq]
      · exact .array (forall_mem_replaced helements hy)

end Reordered

/-- A value differs from its canonical form in the order of members only. -/
theorem Unambiguous.reordered_canonical {j : Json} (h : Unambiguous j) : Reordered j j.canonical := by
  induction h with
  | null => exact .refl _
  | bool b => exact .refl _
  | int => exact .refl _
  | string s => exact .refl _
  | array _ ih =>
    rw [Json.canonical, canonicalElements_eq]
    exact .elements ih
  | object _ _ ih =>
    rw [Json.canonical, canonicalMembers_eq]
    exact (Reordered.values ih).trans (.members (sortMembers_perm _).symm)

/-- **The canonical text is a canonical form.** Two values have one canonical text exactly when they differ in
nothing but the order of the members of their objects, and it is the text of a value in whose objects the keys are
strictly increasing by UTF-16 code units. -/
theorem canonicalText_eq_iff_reordered {i j : Json} (hi : Unambiguous i) (hj : Unambiguous j) :
    (i.canonicalText = j.canonicalText ↔ Reordered i j) ∧
      ∃ k, Reordered i k ∧ KeysIncrease k ∧ i.canonicalText = k.compact := by
  refine ⟨⟨fun htext => ?_, fun h => ?_⟩, i.canonical, hi.reordered_canonical, hi.keysIncrease, rfl⟩
  · have hsame : i.canonical = j.canonical := hi.canonical.eq_of_compact hj.canonical htext
    exact hi.reordered_canonical.trans (hsame ▸ hj.reordered_canonical.symm)
  · rw [canonicalText, canonicalText, (h.canonical_eq hi).1]

/-- Members in another order, outside and inside an array, give the same text; elements in another order are
another value. -/
theorem canonicalText_eq_iff_reordered_nested :
    let inner := [("b", Json.null), ("a", .string "x")]
    let i := Json.object [("\uffff", .array [.object inner]), ("😀", .int 1)]
    let j := Json.object [("😀", .int 1), ("\uffff", .array [.object inner.reverse])]
    (Unambiguous i ∧ Unambiguous j ∧ i.canonicalText = j.canonicalText) ∧
      Unambiguous (.array [.int 1, .int 2]) ∧ Unambiguous (.array [.int 2, .int 1]) ∧
        ¬ Reordered (.array [.int 1, .int 2]) (.array [.int 2, .int 1]) := by
  intro inner i j
  have hone : Unambiguous (.int 1) := .int (by decide) (by decide)
  have htwo : Unambiguous (.int 2) := .int (by decide) (by decide)
  have hinner : Unambiguous (.object inner) := .object (by decide) (by simp [inner, Unambiguous.null, Unambiguous.string])
  have hreverse : Unambiguous (.object inner.reverse) :=
    .object (by decide) (by simp [inner, Unambiguous.null, Unambiguous.string])
  have hi : Unambiguous i := .object (by decide) (by simpa [hone] using Unambiguous.array (by simpa using hinner))
  have hj : Unambiguous j := .object (by decide) (by simpa [hone] using Unambiguous.array (by simpa using hreverse))
  have h : Reordered i j :=
    .trans (.member [] _ "\uffff" (.element [] [] (.members inner.reverse_perm.symm))) (.members (.swap _ _ []))
  have hab : Unambiguous (.array [.int 1, .int 2]) := .array (by simp [hone, htwo])
  have hba : Unambiguous (.array [.int 2, .int 1]) := .array (by simp [hone, htwo])
  refine ⟨⟨hi, hj, (canonicalText_eq_iff_reordered hi hj).1.mpr h⟩, hab, hba, ?_⟩
  exact (canonicalText_eq_iff_reordered hab hba).1.not.mp (by decide +kernel)

end Json

end AppBundler
