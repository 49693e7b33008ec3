import AppBundler.Proofs.Bundle.Closure
/-!
# Where records come from

Every record was made when some URL arrived that had been asked for. A module was either recorded under the
specifier that was asked for, or it claimed another one that nothing had claimed before.
-/

namespace AppBundler

namespace Resolution

variable {brings : Url → Loaded → Prop} {start s s' final : Resolution} {url : Url} {roots : List String}

/-! ## Who claims a specifier -/

/-- A URL is pending in some order. -/
def Asked (brings : Url → Loaded → Prop) (start : Resolution) (url : Url) : Prop :=
  ∃ s, Steps brings start s ∧ url ∈ s.pending

/-- In some order a module claims a specifier that it was not asked for under. -/
def Claimed (brings : Url → Loaded → Prop) (start : Resolution) (m : SourceModule) : Prop :=
  ∃ s url, Steps brings start s ∧ url ∈ s.pending ∧ brings url (.source m) ∧ m.specifier ≠ url.text ∧
    m.specifier ∉ s.seen

/-! ## Origins -/

/-- How a record was made in some order, in which the given specifiers were seen. -/
inductive Origin (brings : Url → Loaded → Prop) (start : Resolution) (seen : List String) : GraphModule → Prop
  | external {v : Url} (hv : Asked brings start v) (hload : brings v .external) :
      Origin brings start seen (.external v.text)
  | redirect {v : Url} {m : SourceModule} (hv : Asked brings start v) (hload : brings v (.source m))
      (hother : m.specifier ≠ v.text) (hseen : m.specifier ∈ seen) :
      Origin brings start seen (.redirect v.text m.specifier)
  | plain {v : Url} {m : SourceModule} {urls : List Url} (hv : Asked brings start v)
      (hload : brings v (.source m)) (hsame : m.specifier = v.text) (hdeps : dependencies m v = .ok urls)
      (hseen : ∀ u ∈ urls, u.text ∈ seen) : Origin brings start seen (.module m)
  | claimed {m : SourceModule} {base : Url} {urls : List Url} (hm : Claimed brings start m)
      (hbase : Url.parse m.specifier = .ok base) (hdeps : dependencies m base = .ok urls)
      (hseen : ∀ u ∈ urls, u.text ∈ seen) : Origin brings start seen (.module m)

/-- An origin stays one while more is seen. -/
theorem Origin.mono {seen seen' : List String} (hsub : seen ⊆ seen') {g : GraphModule}
    (h : Origin brings start seen g) : Origin brings start seen' g := by
  cases h with
  | external hv hload => exact .external hv hload
  | redirect hv hload hother hseen => exact .redirect hv hload hother (hsub hseen)
  | plain hv hload hsame hdeps hseen => exact .plain hv hload hsame hdeps fun u hu => hsub (hseen u hu)
  | claimed hm hbase hdeps hseen => exact .claimed hm hbase hdeps fun u hu => hsub (hseen u hu)

/-- All URLs that are asked for have been seen. -/
theorem mem_seen_foldl_request {urls : List Url} {u : Url} (hu : u ∈ urls) (s : Resolution) :
    u.text ∈ (urls.foldl request s).seen := by
  obtain ⟨new, heq, -, -, -, hall⟩ := exists_foldl_request urls s
  rw [heq]
  rcases hall u hu with h | h
  · exact List.mem_append_right _ h
  · exact List.mem_append_left _ (List.mem_reverse.mpr h)

/-- **Every record has an origin.** -/
theorem origin_of_steps (h : Steps brings start s)
    (hstart : start.records = []) : ∀ g ∈ s.records, Origin brings start s.seen g := by
  induction h with
  | refl => simp [hstart]
  | @tail s s' hsteps hstep ih =>
    obtain @⟨url, loaded, _, hpending, hload, harrive⟩ := hstep
    have harrival := arrive_eq_ok_iff.mp harrive
    have hold : ∀ g ∈ s.records, Origin brings start s'.seen g := fun g hg =>
      (ih g hg).mono harrival.seen_subset
    have hasked : Asked brings start url := ⟨s, hsteps, hpending⟩
    intro g hg
    cases harrival with
    | external =>
      rcases List.mem_append.mp hg with hg | hg
      · exact hold g hg
      · obtain rfl := List.mem_singleton.mp hg
        exact .external hasked hload
    | plain hsame hdeps =>
      rw [record, records_foldl_request] at hg
      rcases List.mem_append.mp hg with hg | hg
      · exact hold g hg
      · obtain rfl := List.mem_singleton.mp hg
        exact .plain hasked hload hsame hdeps fun u hu => mem_seen_foldl_request hu _
    | known hother hseen =>
      rcases List.mem_append.mp hg with hg | hg
      · exact hold g hg
      · obtain rfl := List.mem_singleton.mp hg
        exact .redirect hasked hload hother hseen
    | claimed hother hnew hbase hdeps =>
      rw [record, records_foldl_request] at hg
      rcases List.mem_append.mp hg with hg | hg
      · rcases List.mem_append.mp hg with hg | hg
        · exact hold g hg
        · obtain rfl := List.mem_singleton.mp hg
          exact .redirect hasked hload hother (seen_subset_foldl_request _ _ List.mem_cons_self)
      · obtain rfl := List.mem_singleton.mp hg
        exact .claimed ⟨s, url, hsteps, hpending, hload, hother, hnew⟩ hbase hdeps
          fun u hu => mem_seen_foldl_request hu _

/-! ## Runs that have ended -/

/-- A run that has ended. -/
structure Ended (roots : List String) (brings : Url → Loaded → Prop) (start final : Resolution) : Prop where
  begun : ofRoots roots = .ok start
  steps : Steps brings start final
  done : final.pending = []

/-- Nothing has been recorded when a graph begins. -/
theorem records_ofRoots (h : ofRoots roots = .ok start) : start.records = [] := by
  obtain ⟨urls, rfl, -⟩ := ofRoots_eq_ok h
  exact records_foldl_request urls _

/-- When a run has ended, what was seen has a record, and the record an origin. -/
theorem Ended.exists_record (h : Ended roots brings start final) {t : String} (ht : t ∈ final.seen) :
    ∃ g ∈ final.records, g.specifier = t ∧ Origin brings start final.seen g := by
  have hlinked := (linked_ofRoots h.begun).1.steps h.steps
  obtain ⟨g, hg, hgt⟩ := List.mem_map.mp (by simpa [h.done] using (hlinked.seen t).mp ht :
    t ∈ final.records.map GraphModule.specifier)
  exact ⟨g, hg, hgt, origin_of_steps h.steps (records_ofRoots h.begun) g hg⟩

end Resolution

end AppBundler
