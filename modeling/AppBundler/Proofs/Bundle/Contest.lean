import Mathlib.Data.List.Nodup
import Mathlib.Data.List.Perm.Subperm
import AppBundler.Proofs.Bundle.Lookup
import AppBundler.Proofs.Bundle.Origins
/-!
# When the order of loading shows

A module that arrives under another specifier than the one asked for claims that specifier if nothing has
claimed it before, so two loads may race for one. Here the outcome of a load is a function of its URL, and the
races are the only thing that is left to the order: when all who could claim a specifier bring the same module
under it, a run that ends can be compared with any other, which stays below it, cannot fail and ends in the same
records. Conversely, when no order fails and all end alike, then no specifier was contested.
-/

namespace AppBundler

namespace Resolution

variable {outcome : Url → Built Loaded} {start s s' final : Resolution} {url : Url} {roots : List String}

/-! ## Contests -/

/-- A URL brings its outcome. -/
abbrev Brought (outcome : Url → Built Loaded) : Url → Loaded → Prop := fun url loaded => outcome url = .ok loaded

/-- A URL has one outcome. -/
theorem Brought.unique {loaded loaded' : Loaded} (h : Brought outcome url loaded)
    (h' : Brought outcome url loaded') : loaded = loaded' := Except.ok.inj (h.symm.trans h')

/-- All who could claim one specifier bring the same module under it. -/
structure Uncontested (outcome : Url → Built Loaded) (start : Resolution) : Prop where
  asked : ∀ m v, Claimed (Brought outcome) start m → Asked (Brought outcome) start v → v.text = m.specifier →
    outcome v = .ok (.source m)
  claimed : ∀ m m', Claimed (Brought outcome) start m → Claimed (Brought outcome) start m' → m.specifier = m'.specifier → m = m'

/-- One of the pending loads fails, or what it brings cannot be taken in. -/
def Fails (outcome : Url → Built Loaded) (s : Resolution) : Prop :=
  ∃ url ∈ s.pending, (∃ e, outcome url = .error e) ∨
    ∃ loaded e, outcome url = .ok loaded ∧ { s with pending := s.pending.erase url }.arrive url loaded = .error e

/-! ## Comparing an order with one that has ended -/

/-- What asking adds was seen before or asked for. -/
theorem seen_foldl_request_subset {urls : List Url} {seen : List String} (hs : s.seen ⊆ seen)
    (hurls : ∀ u ∈ urls, u.text ∈ seen) : (urls.foldl request s).seen ⊆ seen := by
  obtain ⟨new, heq, hsub, -⟩ := exists_foldl_request urls s
  rw [heq]
  intro t ht
  rcases List.mem_append.mp ht with ht | ht
  · obtain ⟨u, hu, rfl⟩ := List.mem_map.mp (List.mem_reverse.mp ht)
    exact hurls u (hsub hu)
  · exact hs ht

section Comparison

variable (hread : ∀ v, Asked (Brought outcome) start v → Url.parse v.text = .ok v) (hfree : Uncontested outcome start)
include hread hfree

/-- Uncontested modules stand in the records of a run that has ended, with all that they name. -/
theorem Ended.settled (h : Ended roots (Brought outcome) start final) {m : SourceModule} (hm : Claimed (Brought outcome) start m)
    (hseen : m.specifier ∈ final.seen) :
    ∃ base urls, Url.parse m.specifier = .ok base ∧ dependencies m base = .ok urls ∧
      (∀ u ∈ urls, u.text ∈ final.seen) ∧ .module m ∈ final.records := by
  obtain ⟨g, hg, hspecifier, horigin⟩ := h.exists_record hseen
  cases horigin with
  | @external v hv hload =>
    cases Brought.unique hload (hfree.asked m v hm hv hspecifier)
  | @redirect v m' hv hload hother =>
    cases Brought.unique hload (hfree.asked m v hm hv hspecifier)
    exact absurd hspecifier.symm hother
  | @plain v m' urls hv hload hsame hdeps hnamed =>
    have hspecifier : m'.specifier = m.specifier := hspecifier
    have hvm : v.text = m.specifier := hsame.symm.trans hspecifier
    cases Brought.unique hload (hfree.asked m v hm hv hvm)
    exact ⟨v, urls, by rw [← hvm, hread v hv], hdeps, hnamed, hg⟩
  | @claimed m' base urls hm' hbase hdeps hnamed =>
    obtain rfl := hfree.claimed m' m hm' hm hspecifier
    exact ⟨base, urls, hbase, hdeps, hnamed, hg⟩

/-- **Nothing fails in any order** that stays below a run that has ended, and one more step stays below it. -/
theorem Ended.exists_arrive (h : Ended roots (Brought outcome) start final)
    (hsteps : Steps (Brought outcome) start s) (hseen : s.seen ⊆ final.seen)
    (hrecords : s.records ⊆ final.records) (hurl : url ∈ s.pending) :
    ∃ loaded s', outcome url = .ok loaded ∧
      { s with pending := s.pending.erase url }.arrive url loaded = .ok s' ∧
      s'.seen ⊆ final.seen ∧ s'.records ⊆ final.records := by
  have hasked : Asked (Brought outcome) start url := ⟨s, hsteps, hurl⟩
  have hlinked := (linked_ofRoots h.begun).1.steps hsteps
  have hurlSeen : url.text ∈ s.seen := (hlinked.seen _).mpr (Or.inr (Or.inl (List.mem_map_of_mem hurl)))
  have hsame : ∀ v, Asked (Brought outcome) start v → v.text = url.text → v = url := by
    intro v hv htext
    have hparse := hread v hv
    rw [htext, hread url hasked] at hparse
    exact (Except.ok.inj hparse).symm
  have hadd : ∀ {g : GraphModule}, g ∈ final.records → s.records ++ [g] ⊆ final.records := fun hg t ht => by
    rcases List.mem_append.mp ht with ht | ht
    · exact hrecords ht
    · rw [List.mem_singleton.mp ht]
      exact hg
  obtain ⟨g, hg, hspecifier, horigin⟩ := h.exists_record (hseen hurlSeen)
  cases horigin with
  | @external v hv hload =>
    obtain rfl := hsame v hv hspecifier
    exact ⟨.external, _, hload, arrive_eq_ok_iff.mpr .external, hseen, hadd hg⟩
  | @redirect v m hv hload hother hknown =>
    obtain rfl := hsame v hv hspecifier
    by_cases hs : m.specifier ∈ s.seen
    · exact ⟨.source m, _, hload, arrive_eq_ok_iff.mpr (.known hother hs), hseen, hadd hg⟩
    · have hclaimed : Claimed (Brought outcome) start m := ⟨s, v, hsteps, hurl, hload, hother, hs⟩
      obtain ⟨base, urls, hbase, hdeps, hnamed, hm⟩ := h.settled hread hfree hclaimed hknown
      refine ⟨.source m, _, hload, arrive_eq_ok_iff.mpr (.claimed hother hs hbase hdeps), ?_, ?_⟩
      · exact seen_foldl_request_subset (List.cons_subset.mpr ⟨hknown, hseen⟩) hnamed
      · simp only [record, records_foldl_request]
        intro t ht
        rcases List.mem_append.mp ht with ht | ht
        · exact hadd hg ht
        · rw [List.mem_singleton.mp ht]
          exact hm
  | @plain v m urls hv hload hsameText hdeps hnamed =>
    have hspecifier : m.specifier = url.text := hspecifier
    obtain rfl := hsame v hv (hsameText.symm.trans hspecifier)
    refine ⟨.source m, _, hload, arrive_eq_ok_iff.mpr (.plain hsameText hdeps), ?_, ?_⟩
    · exact seen_foldl_request_subset hseen hnamed
    · rw [record, records_foldl_request]
      exact hadd hg
  | @claimed m base urls hm hbase hdeps hnamed =>
    have hspecifier : m.specifier = url.text := hspecifier
    have hload := hfree.asked m url hm hasked hspecifier.symm
    rw [hspecifier, hread url hasked] at hbase
    cases hbase
    refine ⟨.source m, _, hload, arrive_eq_ok_iff.mpr (.plain hspecifier hdeps), ?_, ?_⟩
    · exact seen_foldl_request_subset hseen hnamed
    · rw [record, records_foldl_request]
      exact hadd hg

/-- **Every order stays below** a run that has ended. -/
theorem Ended.below (h : Ended roots (Brought outcome) start final) (hsteps : Steps (Brought outcome) start s) :
    s.seen ⊆ final.seen ∧ s.records ⊆ final.records := by
  induction hsteps with
  | refl =>
    refine ⟨h.steps.seen_subset, ?_⟩
    rw [records_ofRoots h.begun]
    exact List.nil_subset _
  | @tail s s' hsteps hstep ih =>
    obtain @⟨url, loaded, _, hpending, hload, harrive⟩ := hstep
    obtain ⟨loaded', s'', hload', harrive', hbelow⟩ := h.exists_arrive hread hfree hsteps ih.1 ih.2 hpending
    rw [hload] at hload'
    cases hload'
    rw [harrive] at harrive'
    cases harrive'
    exact hbelow

/-- When one order ends, no other one fails. -/
theorem Ended.not_fails (h : Ended roots (Brought outcome) start final)
    (hsteps : Steps (Brought outcome) start s) : ¬ Fails outcome s := by
  rintro ⟨url, hpending, hfails⟩
  obtain ⟨hseen, hrecords⟩ := h.below hread hfree hsteps
  obtain ⟨loaded, s', hload, harrive, -⟩ := h.exists_arrive hread hfree hsteps hseen hrecords hpending
  rcases hfails with ⟨e, he⟩ | ⟨loaded', e, hload', he⟩
  · rw [hload] at he
    cases he
  · rw [hload] at hload'
    cases hload'
    rw [harrive] at he
    cases he

end Comparison

/-- The records of a run differ. -/
theorem nodup_records (hbegun : ofRoots roots = .ok start) (hsteps : Steps (Brought outcome) start s) :
    (s.records.map GraphModule.specifier).Nodup :=
  (List.nodup_append.mp ((linked_ofRoots hbegun).1.steps hsteps).nodup).2.1

/-- An arrival makes a record. -/
theorem Arrival.length_lt {loaded : Loaded} (h : Arrival s url loaded s') : s.records.length < s'.records.length := by
  cases h with
  | external => simp [record]
  | plain => simp [record, records_foldl_request]
  | known => simp [record]
  | claimed =>
    simp only [record, records_foldl_request, List.length_append, List.length_cons, List.length_nil]
    omega

section Comparison

variable (hread : ∀ v, Asked (Brought outcome) start v → Url.parse v.text = .ok v) (hfree : Uncontested outcome start)
include hread hfree

/-- **When one order ends, every other one does**: each step makes another of its records. -/
theorem Ended.exists_end (h : Ended roots (Brought outcome) start final)
    (hsteps : Steps (Brought outcome) start s) :
    ∃ s', Steps (Brought outcome) s s' ∧ s'.pending = [] := by
  obtain ⟨n, hn⟩ : ∃ n, final.records.length - s.records.length = n := ⟨_, rfl⟩
  induction n using Nat.strongRecOn generalizing s with
  | ind n ih =>
    cases hp : s.pending with
    | nil => exact ⟨s, .refl, hp⟩
    | cons url r =>
      have hpending : url ∈ s.pending := by simp [hp]
      obtain ⟨hseen, hrecords⟩ := h.below hread hfree hsteps
      obtain ⟨loaded, s', hload, harrive, -, hrecords'⟩ :=
        h.exists_arrive hread hfree hsteps hseen hrecords hpending
      have hstep : Step (Brought outcome) s s' := ⟨hpending, hload, harrive⟩
      have hlt : s.records.length < s'.records.length := (arrive_eq_ok_iff.mp harrive).length_lt
      have hle : s'.records.length ≤ final.records.length :=
        ((List.Nodup.of_map _ (nodup_records h.begun (hsteps.tail hstep))).subperm hrecords').length_le
      obtain ⟨s'', hrest, hdone⟩ := ih _ (by omega) (hsteps.tail hstep) rfl
      exact ⟨s'', .head hstep hrest, hdone⟩

/-- **All orders that end have the same records.** -/
theorem Ended.perm {final' : Resolution} (h : Ended roots (Brought outcome) start final)
    (h' : Ended roots (Brought outcome) start final') : final'.records.Perm final.records := by
  have hnodup := List.Nodup.of_map _ (nodup_records h.begun h.steps)
  have hnodup' := List.Nodup.of_map _ (nodup_records h.begun h'.steps)
  refine (List.perm_ext_iff_of_nodup hnodup' hnodup).mpr fun g => ⟨fun hg => ?_, fun hg => ?_⟩
  · exact (h.below hread hfree h'.steps).2 hg
  · exact (h'.below hread hfree h.steps).2 hg

end Comparison

/-! ## When all orders end alike -/

/-- Every order goes on without failing until it ends in an artifact. -/
def AllEndIn (roots : List String) (outcome : Url → Built Loaded) (start : Resolution) (a : Artifact) : Prop :=
  ∀ s, Steps (Brought outcome) start s → ¬ Fails outcome s ∧
    ∃ final, Steps (Brought outcome) s final ∧ final.pending = [] ∧
      Artifact.ofModules roots final.records = a

/-- Records stay in a run. -/
theorem Steps.records_subset {brings : Url → Loaded → Prop} (h : Steps brings s s') : s.records ⊆ s'.records := by
  induction h with
  | refl => exact List.Subset.refl _
  | tail _ hstep ih =>
    obtain ⟨-, -, harrive⟩ := hstep
    have hsub := (arrive_eq_ok_iff.mp harrive).records_subset
    exact List.Subset.trans ih hsub

/-- Where nothing fails, a pending URL arrives and its record comes into the artifact. -/
theorem AllEndIn.exists_arrival {a : Artifact} (h : AllEndIn roots outcome start a)
    (hsteps : Steps (Brought outcome) start s) (hurl : url ∈ s.pending) :
    ∃ loaded s', outcome url = .ok loaded ∧ Arrival { s with pending := s.pending.erase url } url loaded s' ∧
      s'.records ⊆ a.modules := by
  obtain ⟨hfails, -⟩ := h s hsteps
  cases hload : outcome url with
  | error e => exact absurd ⟨url, hurl, Or.inl ⟨e, hload⟩⟩ hfails
  | ok loaded =>
    cases harrive : { s with pending := s.pending.erase url }.arrive url loaded with
    | error e => exact absurd ⟨url, hurl, Or.inr ⟨loaded, e, hload, harrive⟩⟩ hfails
    | ok s' =>
      obtain ⟨-, final, hrest, -, rfl⟩ := h s' (hsteps.tail ⟨hurl, hload, harrive⟩)
      refine ⟨loaded, s', rfl, arrive_eq_ok_iff.mp harrive, fun g hg => ?_⟩
      exact Artifact.mem_ofModules.mpr (hrest.records_subset hg)

/-- A module that claims a specifier stands in the artifact in which all orders end. -/
theorem AllEndIn.mem_of_claimed {a : Artifact} {m : SourceModule} (h : AllEndIn roots outcome start a)
    (hm : Claimed (Brought outcome) start m) : .module m ∈ a.modules := by
  obtain ⟨s, u, hsteps, hurl, hload, hother, hnew⟩ := hm
  obtain ⟨loaded, s', hload', harrival, hsub⟩ := h.exists_arrival hsteps hurl
  rw [hload] at hload'
  cases hload'
  cases harrival with
  | plain hsame => exact absurd hsame hother
  | known _ hseen => exact absurd hseen hnew
  | claimed => exact hsub (by simp [record])

/-- **No specifier was contested when all orders end alike.** -/
theorem AllEndIn.uncontested {a : Artifact} (hbegun : ofRoots roots = .ok start)
    (h : AllEndIn roots outcome start a) : Uncontested outcome start := by
  -- Records of one specifier are one record.
  have hone : ∀ g ∈ a.modules, ∀ g' ∈ a.modules, g.specifier = g'.specifier → g = g' := by
    obtain ⟨-, final, hsteps, -, rfl⟩ := h start .refl
    intro g hg g' hg' hspecifier
    exact List.inj_on_of_nodup_map (nodup_records hbegun hsteps) (Artifact.mem_ofModules.mp hg)
      (Artifact.mem_ofModules.mp hg') hspecifier
  refine ⟨fun m v hm hv htext => ?_, fun m m' hm hm' hspecifier => ?_⟩
  · obtain ⟨s, hsteps, hpending⟩ := hv
    obtain ⟨loaded, s', hload, harrival, hsub⟩ := h.exists_arrival hsteps hpending
    have hmem := h.mem_of_claimed hm
    have hnot : ∀ g ∈ s'.records, g.specifier = v.text → g = .module m := fun g hg hspecifier =>
      hone g (hsub hg) _ hmem (hspecifier.trans htext)
    cases harrival with
    | external => cases hnot (.external v.text) (by simp [record]) rfl
    | @plain m' urls hsame hdeps =>
      obtain rfl : m' = m := by
        have heq := hnot (.module m') (by simp [record]) hsame
        cases heq
        rfl
      exact hload
    | @known m' => cases hnot (.redirect v.text m'.specifier) (by simp [record]) rfl
    | @claimed m' => cases hnot (.redirect v.text m'.specifier) (by simp [record, records_foldl_request]) rfl
  · have heq := hone _ (h.mem_of_claimed hm) _ (h.mem_of_claimed hm') hspecifier
    cases heq
    rfl

/-- **The order does not show exactly when no specifier is contested**, once some order has ended. -/
theorem Ended.allEndIn_iff (h : Ended roots (Brought outcome) start final)
    (hread : ∀ v, Asked (Brought outcome) start v → Url.parse v.text = .ok v) :
    AllEndIn roots outcome start (Artifact.ofModules roots final.records) ↔ Uncontested outcome start := by
  refine ⟨AllEndIn.uncontested h.begun, fun hfree s hsteps => ⟨h.not_fails hread hfree hsteps, ?_⟩⟩
  obtain ⟨s', hrest, hdone⟩ := h.exists_end hread hfree hsteps
  have hended : Ended roots (Brought outcome) start s' := ⟨h.begun, hsteps.trans hrest, hdone⟩
  exact ⟨s', hrest, hdone, Artifact.ofModules_congr (nodup_records h.begun hended.steps) (h.perm hread hfree hended)⟩

end Resolution

end AppBundler
