import AppBundler.Proofs.Source.Scanners
/-!
# As much fuel as there is text

The scanners of templates, embedded expressions and elements go one level down with every character that they read,
but for an element, which may begin with its attributes. So twice as much fuel as there is text suffices, and what a
text is read with does not matter.
-/

namespace AppBundler

namespace Lexeme

/-- What `x` reads, `y` reads too when it is no longer than half of `k`. -/
def Within (k : Nat) (x y : Scan) : Prop := ∀ ⦃p r⦄, x = .ok ⟨p, r⟩ → 2 * p.length ≤ k → y = .ok ⟨p, r⟩

namespace Within

variable {k : Nat} {x y x' y' : Scan} {text : List Char} {next next' : List Char → Scan}

theorem refl (k : Nat) (x : Scan) : Within k x x := fun _ _ h _ => h

theorem error (k : Nat) (f : LexicalFault) (y : Scan) : Within k (.error f) y := nofun

theorem precede (text : List Char) (h : Within k x y) : Within k (x.precede text) (y.precede text) := by
  intro p r hp hk
  obtain ⟨q, hq, rfl⟩ := Scan.precede_eq_ok_iff.mp hp
  rw [List.length_append] at hk
  rw [h hq (by omega), Scan.precede_ok]

/-- Behind a character that was read there is less to read. -/
theorem behind (htext : text ≠ []) (h : ∀ j, j + 2 ≤ k → Within j x y) :
    Within k (x.precede text) (y.precede text) := by
  intro p r hp hk
  have hpos := List.length_pos_of_ne_nil htext
  obtain ⟨q, hq, rfl⟩ := Scan.precede_eq_ok_iff.mp hp
  rw [List.length_append] at hk
  rw [h (2 * q.length) (by omega) hq (Nat.le_refl _), Scan.precede_ok]

theorem andThen (h : Within k x y) (hnext : ∀ s, Within k (next s) (next' s)) :
    Within k (x.andThen next) (y.andThen next') := by
  intro p r hp hk
  obtain ⟨q₁, q₂, rest, hfirst, hthen, rfl⟩ := Scan.andThen_eq_ok_iff.mp hp
  rw [List.length_append] at hk
  rw [h hfirst (by omega), Scan.andThen_ok, hnext rest hthen (by omega), Scan.precede_ok]

theorem ite {c : Prop} [Decidable c] (hpos : Within k x y) (hneg : Within k x' y') :
    Within k (if c then x else x') (if c then y else y') := by
  split
  · exact hpos
  · exact hneg

end Within

/-- What is read with some fuel is read with any fuel that is no less than the length of what is read, twice, and
`extra` more. -/
def Suffices (f : Nat → List Char → Scan) (n extra : Nat) : Prop :=
  ∀ ⦃s k m⦄, k + extra ≤ m → Within k (f n s) (f m s)

/-- A scanner that reads something needs some fuel at least. -/
theorem suffices_succ {f : Nat → List Char → Scan} {g : List Char → Scan} {n extra : Nat}
    (hreads : ReadsAs (f (n + 1)) g)
    (h : ∀ ⦃s k m⦄, k + extra ≤ m + 1 → Within k (f (n + 1) s) (f (m + 1) s)) : Suffices f (n + 1) extra := by
  intro s k m hk p r hp hlength
  have hpos := List.length_pos_of_ne_nil (hreads hp).1
  obtain ⟨m, rfl⟩ : ∃ m', m = m' + 1 := ⟨m - 1, by omega⟩
  exact h hk hp hlength

/-- What the scanners of a level read does not take more fuel than there is text. -/
structure LevelSuffices (jsx : Bool) (n : Nat) : Prop where
  template : Suffices (templateRest jsx) n 0
  embedded : ∀ inner last, Suffices (embeddedRest jsx · inner last) n 0
  element : Suffices (elementRest jsx) n 1
  attributes : Suffices (attributesRest jsx) n 0
  children : Suffices (childrenRest jsx) n 0

section Fuel

variable {jsx : Bool} {n : Nat} (h : LevelSuffices jsx n)
include h

theorem templateRest_suffices : Suffices (templateRest jsx) (n + 1) 0 := by
  refine suffices_succ (templateRest_readsAs (levelReadsAs jsx (Nat.le_refl n))) fun s k m hk => ?_
  conv => arg 2; unfold templateRest
  split
  case h_1 | h_2 | h_3 => exact .error _ _ _
  case h_4 c t heq =>
    cases heq
    exact .behind (List.cons_ne_nil _ _) fun j hj => h.template (by omega)
  case h_5 t heq =>
    cases heq
    refine .behind (List.cons_ne_nil _ _) fun j hj => .andThen ?_ fun s => h.template (by omega)
    exact h.embedded _ _ (by omega)
  case h_6 c t hlast hescape hexpr heq =>
    cases heq
    rw [templateRest]
    · exact .ite (.refl _ _) (.behind (List.cons_ne_nil _ _) fun j hj => h.template (by omega))
    all_goals assumption

theorem embeddedRest_suffices (inner : Nat) (last : Char) : Suffices (embeddedRest jsx · inner last) (n + 1) 0 := by
  refine suffices_succ (embeddedRest_readsAs (levelReadsAs jsx (Nat.le_refl n)) inner last) fun s k m hk => ?_
  have hrest (inner : Nat) (last : Char) (s : List Char) : ∀ j, j + 2 ≤ k →
      Within j (embeddedRest jsx n inner last s) (embeddedRest jsx m inner last s) := fun j hj =>
    h.embedded inner last (by omega)
  cases s with
  | nil => exact .error _ _ _
  | cons c t =>
  have hchar : [c] ≠ [] := List.cons_ne_nil _ _
  unfold embeddedRest
  refine .ite (.behind hchar (hrest _ _ _)) (.ite ?_ (.ite ?_ (.ite ?_ (.ite ?_ (.ite ?_ (.ite ?_ ?_))))))
  · -- a brace closes the expression or one inside it
    cases inner with
    | zero => exact .refl _ _
    | succ inner => exact .behind hchar (hrest _ _ _)
  · exact .behind hchar fun j hj => .andThen (.refl _ _) fun s => hrest _ _ s j hj
  · exact .behind hchar fun j hj => .andThen (h.template (by omega)) fun s => hrest _ _ s j hj
  · exact .behind hchar fun j hj => .andThen (.refl _ _) fun s => hrest _ _ s j hj
  · exact .behind hchar fun j hj => .andThen (.refl _ _) fun s => hrest _ _ s j hj
  · exact .behind hchar fun j hj => .andThen (h.element (by omega)) fun s => hrest _ _ s j hj
  · exact .behind hchar (hrest _ _ _)

theorem elementRest_suffices : Suffices (elementRest jsx) (n + 1) 1 := by
  refine suffices_succ (elementRest_readsAs (levelReadsAs jsx (Nat.le_refl n))) fun s k m hk => ?_
  unfold elementRest
  split
  · exact .behind (List.cons_ne_nil _ _) fun j hj => h.children (by omega)
  · -- the attributes may begin where the element does
    exact .precede _ (.andThen (.refl _ _) fun s => h.attributes (by omega))

theorem attributesRest_suffices : Suffices (attributesRest jsx) (n + 1) 0 := by
  refine suffices_succ (attributesRest_readsAs (levelReadsAs jsx (Nat.le_refl n))) fun s k m hk => ?_
  have hrest (s : List Char) : ∀ j, j + 2 ≤ k → Within j (attributesRest jsx n s) (attributesRest jsx m s) :=
    fun j hj => h.attributes (by omega)
  cases s with
  | nil => exact .error _ _ _
  | cons c t =>
  have hchar : [c] ≠ [] := List.cons_ne_nil _ _
  unfold attributesRest
  refine .ite (.behind hchar (hrest _)) (.ite (.refl _ _) (.ite ?_ (.ite ?_ (.ite ?_ (.refl _ _)))))
  · exact .behind hchar fun j hj => h.children (by omega)
  · exact .behind hchar fun j hj => .andThen (h.embedded _ _ (by omega)) fun s => hrest s j hj
  · -- a name, and its value if there is one
    refine .behind (List.cons_ne_nil _ _) fun j hj => .andThen ?_ fun s => hrest s j hj
    split
    · exact .ite (.refl _ _) (.ite (.precede _ (h.embedded _ _ (by omega))) (.refl _ _))
    · exact .refl _ _
    · exact .refl _ _

theorem childrenRest_suffices : Suffices (childrenRest jsx) (n + 1) 0 := by
  refine suffices_succ (childrenRest_readsAs (levelReadsAs jsx (Nat.le_refl n))) fun s k m hk => ?_
  have hrest (s : List Char) : ∀ j, j + 2 ≤ k → Within j (childrenRest jsx n s) (childrenRest jsx m s) :=
    fun j hj => h.children (by omega)
  cases s with
  | nil => exact .error _ _ _
  | cons c t =>
  have hchar : [c] ≠ [] := List.cons_ne_nil _ _
  unfold childrenRest
  refine .ite ?_ (.ite (.ite (.refl _ _) ?_) (.behind hchar (hrest _)))
  · exact .behind hchar fun j hj => .andThen (h.embedded _ _ (by omega)) fun s => hrest s j hj
  · exact .behind hchar fun j hj => .andThen (h.element (by omega)) fun s => hrest s j hj

end Fuel

/-- **Less fuel changes nothing** either, as long as there is as much as there is text. -/
theorem levelSuffices (jsx : Bool) (n : Nat) : LevelSuffices jsx n := by
  induction n with
  | zero =>
    constructor
    · exact fun s k m _ => .error _ _ _
    · exact fun inner last s k m _ => .error _ _ _
    · exact fun s k m _ => .error _ _ _
    · exact fun s k m _ => .error _ _ _
    · exact fun s k m _ => .error _ _ _
  | succ n ih =>
    exact ⟨templateRest_suffices ih, embeddedRest_suffices ih, elementRest_suffices ih, attributesRest_suffices ih,
      childrenRest_suffices ih⟩

end Lexeme

end AppBundler
