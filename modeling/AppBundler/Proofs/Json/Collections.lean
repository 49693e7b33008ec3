import Mathlib.Data.List.Basic
import Mathlib.Data.String.Basic
import AppBundler.Schema.Node
/-!
# Lists and maps that are read back

A list is written element by element, and it is read back when each element is. A map is written in the order of
its keys, and reading puts each entry behind those that were read before it.
-/

namespace AppBundler

/-! ## Lists -/

section Lists

variable {α β γ : Type}

/-- What is written of each element of a list is read together. -/
theorem mapM_map_eq_map {write : α → β} {read? : β → Option γ} {f : α → γ} {l : List α}
    (h : ∀ a ∈ l, read? (write a) = some (f a)) : (l.map write).mapM read? = some (l.map f) := by
  induction l with
  | nil => rfl
  | cons a l ih =>
    obtain ⟨ha, hl⟩ := List.forall_mem_cons.mp h
    simp [List.mapM_cons, ha, ih hl]

/-- Texts that are each read back are read back together. -/
theorem mapM_map_eq_some {write : α → β} {read? : β → Option α} {l : List α}
    (h : ∀ a ∈ l, read? (write a) = some a) : (l.map write).mapM read? = some l := by
  rw [mapM_map_eq_map (f := id) h, List.map_id]

/-- Nothing is read of a list just when some element of it cannot be read. -/
theorem mapM_eq_none_iff {read? : α → Option β} {l : List α} : l.mapM read? = none ↔ ∃ a ∈ l, read? a = none := by
  induction l with
  | nil => simp
  | cons a l ih =>
    have hcons : (∃ b ∈ a :: l, read? b = none) ↔ read? a = none ∨ l.mapM read? = none := by simp [ih]
    rw [List.mapM_cons, hcons]
    cases read? a with
    | none => simp
    | some b => cases l.mapM read? <;> simp

end Lists

/-! ## Maps -/

section Maps

variable {α : Type} {map : List (String × α)} {key : String} {value : α}

/-- The entries stand in the order of their keys, each key once. -/
def InKeyOrder (map : List (String × α)) : Prop := map.Pairwise fun a b => a.1 < b.1

/-- An entry of a map after another one was put in is that one or was there before. -/
theorem mem_putSorted {entry : String × α} (hmem : entry ∈ putSorted key value map) :
    entry = (key, value) ∨ entry ∈ map := by
  induction map with
  | nil => exact Or.inl (List.mem_singleton.mp hmem)
  | cons a map ih =>
    rw [putSorted] at hmem
    split at hmem
    · exact (List.mem_cons.mp hmem).imp_right (List.mem_cons_of_mem _)
    · split at hmem
      · exact List.mem_cons.mp hmem
      · rcases List.mem_cons.mp hmem with rfl | hmem
        · exact Or.inr List.mem_cons_self
        · exact (ih hmem).imp_right (List.mem_cons_of_mem _)

/-- Entries that are put in keep the order. -/
theorem InKeyOrder.putSorted (h : InKeyOrder map) (key : String) (value : α) :
    InKeyOrder (putSorted key value map) := by
  induction map with
  | nil => exact List.pairwise_singleton _ _
  | cons a map ih =>
    obtain ⟨hfirst, hrest⟩ := List.pairwise_cons.mp h
    rw [AppBundler.putSorted]
    split
    · rename_i hsame
      exact List.pairwise_cons.mpr ⟨fun b hb => hsame ▸ hfirst b hb, hrest⟩
    · rename_i hother
      split
      · rename_i hbefore
        refine List.pairwise_cons.mpr ⟨fun b hb => ?_, h⟩
        rcases List.mem_cons.mp hb with rfl | hb
        · exact hbefore
        · exact hbefore.trans (hfirst b hb)
      · rename_i hnotBefore
        refine List.pairwise_cons.mpr ⟨fun b hb => ?_, ih hrest⟩
        rcases mem_putSorted hb with rfl | hb
        · exact lt_of_le_of_ne (not_lt.mp hnotBefore) hother
        · exact hfirst b hb

/-- An entry whose key comes after all others is put at the end. -/
theorem putSorted_last (h : ∀ a ∈ map, a.1 < key) : putSorted key value map = map ++ [(key, value)] := by
  induction map with
  | nil => rfl
  | cons a map ih =>
    obtain ⟨hfirst, hrest⟩ := List.forall_mem_cons.mp h
    rw [putSorted, if_neg hfirst.ne, if_neg hfirst.not_gt, ih hrest]
    rfl

/-- **A map in order** is what comes of putting its entries in one after the other. -/
theorem InKeyOrder.foldl_putSorted (h : InKeyOrder map) :
    map.foldl (fun map (key, value) => AppBundler.putSorted key value map) [] = map := by
  have hfold : ∀ rest read : List (String × α), InKeyOrder (read ++ rest) →
      rest.foldl (fun map (key, value) => AppBundler.putSorted key value map) read = read ++ rest := by
    intro rest
    induction rest with
    | nil =>
      intro read _
      rw [List.foldl_nil, List.append_nil]
    | cons a rest ih =>
      intro read horder
      have hlast : ∀ b ∈ read, b.1 < a.1 := fun b hb => (List.pairwise_append.mp horder).2.2 b hb a List.mem_cons_self
      rw [List.foldl_cons]
      dsimp only
      rw [putSorted_last hlast, ih _ (by simpa using horder), List.append_assoc]
      rfl
  exact hfold map [] h

end Maps

end AppBundler
