import Mathlib.Data.List.Basic
import AppBundler.Remote.Cache
/-!
# Which modules have one key

A key is a specifier and a target with a mark between them. Either of the two may hold the mark as well, and then
nothing tells which of the marks is the one between: what stands between two marks can be taken for the end of the
specifier or for the beginning of the target. This is the only way in which two keys meet, as the mark does not
overlap with itself. Within one build, where the target is the same, keys are different.
-/

namespace AppBundler

namespace ModuleCache

/-! ## The mark -/

/-- What stands between a specifier and a target. -/
def mark : String := "][target-"

/-- The mark begins with a character that it does not hold again. -/
theorem mark_eq_cons : ∃ rest, mark.toList = ']' :: rest ∧ ']' ∉ rest :=
  ⟨"[target-".toList, by decide, by decide⟩

/-- A text that begins with the mark has the next one at the beginning, too, or behind the whole first one. -/
theorem eq_nil_or_mark_of_append_eq {x b b' : List Char} (h : mark.toList ++ b = x ++ (mark.toList ++ b')) :
    x = [] ∧ b = b' ∨ ∃ m, x = mark.toList ++ m ∧ b = m ++ (mark.toList ++ b') := by
  rcases List.append_eq_append_iff.mp h with ⟨m, hx, hb⟩ | ⟨c, hmark, hrest⟩
  · exact .inr ⟨m, hx, hb⟩
  · obtain ⟨rest, hcons, hmem⟩ := mark_eq_cons
    -- The second mark begins inside the first one. Its first character is nowhere but at the beginning.
    rcases x with _ | ⟨a, x⟩
    · rw [List.nil_append] at hmark
      rw [← hmark, List.append_cancel_left_eq] at hrest
      exact .inl ⟨rfl, hrest.symm⟩
    · rcases c with _ | ⟨a', c⟩
      · rw [List.append_nil] at hmark
        rw [List.nil_append] at hrest
        exact .inr ⟨[], by rw [List.append_nil, hmark], hrest.symm⟩
      · rw [hcons, List.cons_append, List.cons_append, List.cons.injEq] at hrest
        rw [hcons, List.cons_append, List.cons.injEq] at hmark
        obtain ⟨rfl, -⟩ := hrest
        refine absurd ?_ hmem
        rw [hmark.2]
        exact List.mem_append_right _ List.mem_cons_self

/-! ## Keys -/

/-- A part of the target that a mark ends has become a part of the specifier that a mark begins. -/
def Shifts (specifier target other target' : String) : Prop :=
  ∃ part, other = specifier ++ mark ++ part ∧ target = part ++ mark ++ target'

variable {c : ModuleCache} {specifier target other target' : String}

theorem Shifts.of_toList {m : List Char} (hother : other.toList = specifier.toList ++ (mark.toList ++ m))
    (htarget : target.toList = m ++ (mark.toList ++ target'.toList)) : Shifts specifier target other target' := by
  refine ⟨String.ofList m, ?_, ?_⟩ <;> rw [← String.toList_inj]
  · simp only [hother, String.toList_append, String.toList_ofList, List.append_assoc]
  · simp only [htarget, String.toList_append, String.toList_ofList, List.append_assoc]

/-- What a target is shifted out of holds the bracket of the mark. -/
theorem Shifts.bracket_mem (h : Shifts specifier target other target') : '[' ∈ target.toList := by
  obtain ⟨part, -, rfl⟩ := h
  have hmark : '[' ∈ mark.toList := by decide
  simp only [String.toList_append, List.mem_append]
  exact .inl (.inr hmark)

theorem key_eq_iff_marked :
    c.key specifier target = c.key other target' ↔
      specifier.toList ++ (mark.toList ++ target.toList) = other.toList ++ (mark.toList ++ target'.toList) := by
  have hkey : ∀ s t, c.key s t = c.nameSpace ++ "-" ++ toString c.epoch ++ "[" ++ (s ++ (mark ++ t)) ++ "]" := by
    intro s t
    simp only [key, mark, String.append_assoc]
  simp only [hkey, ← String.toList_inj, String.toList_append, List.append_cancel_left_eq, List.append_cancel_right_eq]

theorem Shifts.key_eq (h : Shifts specifier target other target') : c.key specifier target = c.key other target' := by
  obtain ⟨part, rfl, rfl⟩ := h
  rw [key_eq_iff_marked]
  simp only [String.toList_append, List.append_assoc]

/-- Where one of the specifiers ends, the other one ends as well or goes on with a mark. -/
theorem eq_or_shifts_of_key_eq (h : c.key specifier target = c.key other target') :
    specifier = other ∧ target = target' ∨
      Shifts specifier target other target' ∨ Shifts other target' specifier target := by
  rw [key_eq_iff_marked] at h
  rcases List.append_eq_append_iff.mp h with ⟨x, hother, hrest⟩ | ⟨x, hspecifier, hrest⟩
  · rcases eq_nil_or_mark_of_append_eq hrest with ⟨rfl, htarget⟩ | ⟨m, rfl, htarget⟩
    · rw [List.append_nil] at hother
      exact .inl ⟨(String.toList_inj.mp hother).symm, String.toList_inj.mp htarget⟩
    · exact .inr (.inl (.of_toList hother htarget))
  · rcases eq_nil_or_mark_of_append_eq hrest with ⟨rfl, htarget⟩ | ⟨m, rfl, htarget⟩
    · rw [List.append_nil] at hspecifier
      exact .inl ⟨String.toList_inj.mp hspecifier, (String.toList_inj.mp htarget).symm⟩
    · exact .inr (.inr (.of_toList hspecifier htarget))

/-- **Two keys are equal** when they are made of the same or when a part has been shifted between the specifier and the
target, and in no other case. -/
theorem key_eq_key_iff (c : ModuleCache) (specifier target other target' : String) :
    c.key specifier target = c.key other target' ↔
      specifier = other ∧ target = target' ∨
        Shifts specifier target other target' ∨ Shifts other target' specifier target := by
  constructor
  · exact eq_or_shifts_of_key_eq
  · rintro (⟨rfl, rfl⟩ | hshifts | hshifts)
    · rfl
    · exact hshifts.key_eq
    · exact hshifts.key_eq.symm

/-- A module for another target is taken for the one that is asked for. -/
theorem get_shifted_default :
    default.key "https://x.test/a.js" "deno][target-node" = default.key "https://x.test/a.js][target-deno" "node" ∧
    "https://x.test/a.js" ≠ "https://x.test/a.js][target-deno" ∧ "deno][target-node" ≠ "node" ∧
    let world : RemoteWorld := ⟨fun _ => .silent, .all .sound, 0⟩
    let stored := default.set world "https://x.test/a.js" "deno][target-node"
      ⟨"https://x.test/a.js", [], "export default 1;"⟩ ⟨⟨[]⟩, 0, []⟩
    (default.get world "https://x.test/a.js][target-deno" "node" stored).1.map (·.content) =
      some "export default 1;" := by
  refine ⟨by decide, by decide, by decide, ?_⟩
  decide +kernel

/-- **For one target, specifiers have different keys.** -/
theorem key_injective_of_target (h : c.key specifier target = c.key other target) : specifier = other := by
  rw [key_eq_iff_marked, List.append_cancel_right_eq, String.toList_inj] at h
  exact h

end ModuleCache

end AppBundler
