import Mathlib.Data.String.Basic
import AppBundler.Bundle.Artifact
/-!
# Finding records in an artifact

Records of different specifiers stand in strictly increasing order in an artifact, whatever the order in which
they were made. In such an artifact halving finds every record, and content is found under the specifier of a
module and, through one redirect, under those that redirect to it.
-/

namespace AppBundler

namespace Artifact

variable {a : Artifact} {roots : List String} {records : List GraphModule} {g : GraphModule} {specifier : String}

/-- Each specifier has at most one record, and the records stand in the order of their specifiers. -/
def IsSorted (a : Artifact) : Prop := a.modules.Pairwise fun g g' => g.specifier < g'.specifier

/-! ## Building -/

/-- An artifact has the records that it was made of. -/
theorem mem_ofModules : g ∈ (ofModules roots records).modules ↔ g ∈ records := List.mem_mergeSort

/-- **Records of different specifiers are sorted.** -/
theorem isSorted_ofModules (h : (records.map GraphModule.specifier).Nodup) : (ofModules roots records).IsSorted := by
  have hle : (ofModules roots records).modules.Pairwise fun g g' => g.specifier ≤ g'.specifier := by
    have hsorted : (ofModules roots records).modules.Pairwise fun g g' => decide (g.specifier ≤ g'.specifier) := by
      refine List.pairwise_mergeSort ?_ ?_ records
      · intro a b c hab hbc
        simp only [decide_eq_true_eq] at hab hbc ⊢
        exact le_trans hab hbc
      · intro a b
        simpa using le_total a.specifier b.specifier
    exact hsorted.imp fun hab => by simpa using hab
  have hne : (ofModules roots records).modules.Pairwise fun g g' => g.specifier ≠ g'.specifier := by
    have hperm := (List.mergeSort_perm records fun a b => decide (a.specifier ≤ b.specifier)).map GraphModule.specifier
    exact List.pairwise_map.mp (hperm.nodup_iff.mpr h)
  exact hle.imp₂ (fun _ _ hle hne => lt_of_le_of_ne hle hne) hne

/-- Artifacts of the same records are the same: the order in which they were made does not show. -/
theorem ofModules_congr {records' : List GraphModule} (h : (records.map GraphModule.specifier).Nodup)
    (hperm : records.Perm records') : ofModules roots records = ofModules roots records' := by
  have h' : (records'.map GraphModule.specifier).Nodup := (hperm.map _).nodup_iff.mp h
  have hmodules : (ofModules roots records).modules = (ofModules roots records').modules := by
    refine List.Perm.eq_of_pairwise ?_ (isSorted_ofModules h) (isSorted_ofModules h') ?_
    · exact fun a b _ _ hab hba => absurd hba (lt_asymm hab)
    · exact ((List.mergeSort_perm _ _).trans hperm).trans (List.mergeSort_perm _ _).symm
  exact congrArg (Artifact.mk graphFormat roots) hmodules

/-! ## Halving -/

/-- In sorted records, an earlier place has a smaller specifier. -/
theorem IsSorted.lt_of_lt (h : a.IsSorted) {i j : Nat} {g g' : GraphModule} (hi : a.modules[i]? = some g)
    (hj : a.modules[j]? = some g') (hij : i < j) : g.specifier < g'.specifier := by
  obtain ⟨hilt, rfl⟩ := List.getElem?_eq_some_iff.mp hi
  obtain ⟨hjlt, rfl⟩ := List.getElem?_eq_some_iff.mp hj
  exact List.pairwise_iff_getElem.mp h i j hilt hjlt hij

/-- **Halving finds the place of a record** that stands among the places searched. -/
theorem probe_eq (h : a.IsSorted) {i : Nat} (hi : a.modules[i]? = some g) {fuel base size : Nat}
    (hlow : base ≤ i) (hhigh : i < base + size) (hsize : base + size ≤ a.modules.length) (hfuel : size ≤ fuel + 1) :
    probe a.modules.toArray g.specifier fuel base size = i := by
  induction fuel generalizing base size with
  | zero =>
    rw [probe]
    omega
  | succ fuel ih =>
    rw [probe]
    split
    · omega
    · have hmiddle : base + size / 2 < a.modules.length := by omega
      obtain ⟨m, hm⟩ : ∃ m, a.modules[base + size / 2]? = some m := ⟨_, List.getElem?_eq_getElem hmiddle⟩
      simp only [List.getElem?_toArray, hm]
      by_cases hbeyond : g.specifier < m.specifier
      · -- The record stands before the middle.
        have hbefore : i < base + size / 2 := by
          by_contra hnot
          rcases Nat.lt_or_eq_of_le (Nat.le_of_not_lt hnot) with hlt | heq
          · exact lt_asymm hbeyond (h.lt_of_lt hm hi hlt)
          · rw [heq, hi] at hm
            obtain rfl := Option.some.inj hm
            exact lt_irrefl _ hbeyond
        simp only [hbeyond, decide_true, if_true]
        exact ih hlow (by omega) (by omega) (by omega)
      · have hafter : base + size / 2 ≤ i := by
          by_contra hnot
          exact hbeyond (h.lt_of_lt hi hm (Nat.lt_of_not_le hnot))
        simp only [hbeyond, decide_false, Bool.false_eq_true, if_false]
        have hhigh' : i < base + size / 2 + (size - size / 2) := by omega
        have hsize' : base + size / 2 + (size - size / 2) ≤ a.modules.length := by omega
        exact ih hafter hhigh' hsize' (by omega)

/-- **A record is found exactly under its specifier.** -/
theorem module?_eq_some_iff (h : a.IsSorted) :
    a.module? specifier = some g ↔ g ∈ a.modules ∧ g.specifier = specifier := by
  constructor
  · intro hfound
    obtain ⟨hmem, hspecifier⟩ := Option.filter_eq_some_iff.mp hfound
    rw [List.getElem?_toArray] at hmem
    exact ⟨List.mem_of_getElem? hmem, by simpa using hspecifier⟩
  · rintro ⟨hmem, rfl⟩
    obtain ⟨i, hi⟩ := List.mem_iff_getElem?.mp hmem
    obtain ⟨hlt, -⟩ := List.getElem?_eq_some_iff.mp hi
    have hprobe : probe a.modules.toArray g.specifier a.modules.length 0 a.modules.length = i :=
      probe_eq h hi (Nat.zero_le i) (by omega) (by omega) (by omega)
    simp [module?, hprobe, hi]

/-- **Content is found under the specifier of a module and through one redirect to it.** -/
theorem content?_eq_some_iff (h : a.IsSorted) {text : String} :
    a.content? specifier = some text ↔ ∃ m, .module m ∈ a.modules ∧ m.content = text ∧
      (m.specifier = specifier ∨ .redirect specifier m.specifier ∈ a.modules) := by
  constructor
  · intro hfound
    unfold content? at hfound
    split at hfound
    · rename_i m hmodule
      obtain ⟨hm, hspecifier⟩ := (module?_eq_some_iff h).mp hmodule
      exact ⟨m, hm, Option.some.inj hfound, Or.inl hspecifier⟩
    · rename_i s target hredirect
      obtain ⟨hr, rfl⟩ := (module?_eq_some_iff h).mp hredirect
      split at hfound
      · rename_i m hmodule
        obtain ⟨hm, rfl⟩ := (module?_eq_some_iff h).mp hmodule
        exact ⟨m, hm, Option.some.inj hfound, Or.inr hr⟩
      · cases hfound
    · cases hfound
  · rintro ⟨m, hm, rfl, hname⟩
    have hmodule : a.module? m.specifier = some (.module m) := (module?_eq_some_iff h).mpr ⟨hm, rfl⟩
    rcases hname with rfl | hr
    · rw [content?, hmodule]
    · have hredirect : a.module? specifier = some (.redirect specifier m.specifier) :=
        (module?_eq_some_iff h).mpr ⟨hr, rfl⟩
      simp only [content?, hredirect, hmodule]

end Artifact

end AppBundler
