import Mathlib.Data.String.Basic
import AppBundler.Proofs.Bundle.Orders
/-!
# Finished graphs are closed

A graph is finished when nothing is pending. Whatever the order in which the loads ended, it then holds one
record for each specifier, a record for everything that its roots, redirects and modules name, and nothing
else. The invariant behind this is `Linked`: what has been seen is what is pending or recorded, once each.
While an arrival is taken in, some specifiers are claimed that are neither yet, so the invariant carries the
list of these *claims*; it is empty between two steps. It also carries the records by which specifiers are
reached, which are those made once the arrival is over.
-/

namespace AppBundler

/-! ## Reaching a specifier -/

/-- A specifier is reached from the roots, at a URL, through redirects and dependencies. -/
inductive Reached (roots : List String) (records : List GraphModule) : String → Url → Prop
  | root {r : String} {u : Url} (hr : r ∈ roots) (hu : Url.parse r = .ok u) : Reached roots records u.text u
  | redirect {r t : String} {u v : Url} (hr : Reached roots records r u) (ht : .redirect r t ∈ records)
      (hv : Url.parse t = .ok v) : Reached roots records t v
  | dependency {m : SourceModule} {u v : Url} {urls : List Url} (hr : Reached roots records m.specifier u)
      (hm : .module m ∈ records) (hdeps : dependencies m u = .ok urls) (hv : v ∈ urls) :
      Reached roots records v.text v

/-- More records reach more. -/
theorem Reached.mono {roots : List String} {records records' : List GraphModule} (hsub : records ⊆ records')
    {t : String} {u : Url} (h : Reached roots records t u) : Reached roots records' t u := by
  induction h with
  | root hr hu => exact .root hr hu
  | redirect _ ht hv ih => exact .redirect ih (hsub ht) hv
  | dependency _ hm hdeps hv ih => exact .dependency ih (hsub hm) hdeps hv

namespace Resolution

variable {roots : List String} {records records' : List GraphModule} {claims : List String}
variable {s s' : Resolution} {url : Url} {loaded : Loaded}

/-! ## The invariant -/

/-- What a record names has been seen, and the record itself is reached. -/
structure Supported (roots : List String) (records : List GraphModule) (seen : List String)
    (g : GraphModule) : Prop where
  reached : ∃ u, Reached roots records g.specifier u
  target : ∀ r t, g = .redirect r t → t ∈ seen
  named : ∀ m, g = .module m → ∃ base urls, Reached roots records m.specifier base ∧
    dependencies m base = .ok urls ∧ ∀ u ∈ urls, u.text ∈ seen

/-- What has been seen is claimed, pending or recorded, once each, and everything named has been seen. -/
structure Linked (roots : List String) (records : List GraphModule) (claims : List String)
    (s : Resolution) : Prop where
  nodup : (claims ++ s.pending.map Url.text ++ s.records.map GraphModule.specifier).Nodup
  seen : ∀ t, t ∈ s.seen ↔ t ∈ claims ∨ t ∈ s.pending.map Url.text ∨ t ∈ s.records.map GraphModule.specifier
  pending_reached : ∀ u ∈ s.pending, Reached roots records u.text u
  supported : ∀ g ∈ s.records, Supported roots records s.seen g

/-- A record stays supported while a graph grows. -/
theorem Supported.mono {seen seen' : List String} {g : GraphModule} (hrecords : records ⊆ records')
    (hseen : seen ⊆ seen') (h : Supported roots records seen g) : Supported roots records' seen' g := by
  refine ⟨?_, fun r t hg => hseen (h.target r t hg), fun m hg => ?_⟩
  · obtain ⟨u, hu⟩ := h.reached
    exact ⟨u, hu.mono hrecords⟩
  · obtain ⟨base, urls, hbase, hdeps, hnamed⟩ := h.named m hg
    exact ⟨base, urls, hbase.mono hrecords, hdeps, fun u hu => hseen (hnamed u hu)⟩

/-- What is reached stays reached when there are more records. -/
theorem Linked.mono (hrecords : records ⊆ records') (h : Linked roots records claims s) :
    Linked roots records' claims s :=
  ⟨h.nodup, h.seen, fun u hu => (h.pending_reached u hu).mono hrecords,
    fun g hg => (h.supported g hg).mono hrecords (List.Subset.refl _)⟩

/-! ## What keeps it -/

/-- A pending URL that has arrived is a claim until its record is made. -/
theorem Linked.pick (h : Linked roots records [] s) (hurl : url ∈ s.pending) :
    Linked roots records [url.text] { s with pending := s.pending.erase url } := by
  have hperm : (s.pending.map Url.text).Perm (url.text :: (s.pending.erase url).map Url.text) := by
    simpa using (List.perm_cons_erase hurl).map Url.text
  refine ⟨?_, fun t => ?_, fun u hu => h.pending_reached u (List.mem_of_mem_erase hu), h.supported⟩
  · have hnodup := (hperm.append_right (s.records.map GraphModule.specifier)).nodup_iff.mp (by simpa using h.nodup)
    simpa using hnodup
  · rw [h.seen t, hperm.mem_iff]
    simp [or_assoc]

/-- A specifier that was not seen can be claimed. -/
theorem Linked.claim {t : String} (h : Linked roots records claims s) (ht : t ∉ s.seen) :
    Linked roots records (t :: claims) { s with seen := t :: s.seen } := by
  refine ⟨?_, fun r => ?_, h.pending_reached, ?_⟩
  · rw [List.cons_append, List.cons_append, List.nodup_cons]
    refine ⟨fun hmem => ht ((h.seen t).mpr ?_), h.nodup⟩
    simpa [or_assoc] using hmem
  · rw [List.mem_cons, h.seen r, List.mem_cons, or_assoc]
  · exact fun g hg => (h.supported g hg).mono (List.Subset.refl _) (List.subset_cons_self _ _)

/-- A claim is settled by a record that is supported. -/
theorem Linked.settle {g : GraphModule} (h : Linked roots records (g.specifier :: claims) s)
    (hg : Supported roots records s.seen g) : Linked roots records claims (s.record g) := by
  refine ⟨?_, fun t => ?_, h.pending_reached, fun g' hg' => ?_⟩
  · refine (List.Perm.nodup_iff ?_).mp h.nodup
    simp only [record, List.map_append, List.map_cons, List.map_nil, List.cons_append, ← List.append_assoc]
    exact (List.perm_append_singleton _ _).symm
  · simp only [record, h.seen t, List.map_append, List.mem_append, List.mem_cons, List.map_cons, List.map_nil,
      List.not_mem_nil, or_false]
    tauto
  · rcases List.mem_append.mp hg' with hold | hnew
    · exact h.supported g' hold
    · obtain rfl := List.mem_singleton.mp hnew
      exact hg

/-- URLs that are reached may be asked for; all of them have been seen afterwards. -/
theorem Linked.foldl_request {urls : List Url} (h : Linked roots records claims s)
    (hreached : ∀ u ∈ urls, Reached roots records u.text u) :
    Linked roots records claims (urls.foldl request s) ∧ ∀ u ∈ urls, u.text ∈ (urls.foldl request s).seen := by
  obtain ⟨new, heq, hsub, hnodup, hnew, hall⟩ := exists_foldl_request urls s
  rw [heq]
  have hseen : s.seen ⊆ (new.map Url.text).reverse ++ s.seen := List.subset_append_right _ _
  refine ⟨⟨?_, fun t => ?_, ?_, ?_⟩, fun u hu => ?_⟩
  · refine (List.Perm.nodup_iff ?_).mp (?_ : (new.map Url.text ++
      (claims ++ s.pending.map Url.text ++ s.records.map GraphModule.specifier)).Nodup)
    · simp only [List.map_append, ← List.append_assoc]
      refine List.Perm.append_right _ ?_
      rw [List.append_assoc]
      exact List.perm_append_comm
    · refine List.nodup_append.mpr ⟨hnodup, h.nodup, ?_⟩
      rintro t ht t' ht' rfl
      obtain ⟨u, hu, rfl⟩ := List.mem_map.mp ht
      exact hnew u hu ((h.seen u.text).mpr (by simpa [or_assoc] using ht'))
  · simp only [List.mem_append, List.mem_reverse, h.seen t, List.map_append]
    tauto
  · intro u hu
    rcases List.mem_append.mp hu with hold | hadded
    · exact h.pending_reached u hold
    · exact hreached u (hsub hadded)
  · exact fun g hg => (h.supported g hg).mono (List.Subset.refl _) hseen
  · rcases hall u hu with hu | hu
    · exact hseen hu
    · simp [hu]

/-- Taking in a module that was reached settles the claim to its specifier. -/
theorem Linked.takeIn {m : SourceModule} {base : Url} {urls : List Url}
    (h : Linked roots records (m.specifier :: claims) s) (hm : .module m ∈ records)
    (hbase : Reached roots records m.specifier base) (hdeps : dependencies m base = .ok urls) :
    Linked roots records claims ((urls.foldl request s).record (.module m)) := by
  obtain ⟨hasked, hseen⟩ := h.foldl_request fun u hu => .dependency hbase hm hdeps hu
  refine hasked.settle ⟨⟨base, hbase⟩, ?_, ?_⟩
  · rintro r t ⟨⟩
  · rintro m ⟨⟩
    exact ⟨base, urls, hbase, hdeps, hseen⟩

/-! ## Runs keep it -/

/-- What was asked for keeps the records. -/
theorem records_foldl_request (urls : List Url) (s : Resolution) : (urls.foldl request s).records = s.records := by
  obtain ⟨new, heq, -⟩ := exists_foldl_request urls s
  rw [heq]

/-- An arrival keeps the records that were made. -/
theorem Arrival.records_subset (h : Arrival s url loaded s') : s.records ⊆ s'.records := by
  cases h with
  | external => exact List.subset_append_left _ _
  | plain => simp [record, records_foldl_request]
  | known => exact List.subset_append_left _ _
  | claimed =>
    rw [record, records_foldl_request]
    exact List.Subset.trans (List.subset_append_left _ _) (List.subset_append_left _ _)

/-- **Arrivals keep the invariant.** -/
theorem Linked.arrive (h : Linked roots s.records [url.text] s) (hreached : Reached roots s.records url.text url)
    (harrive : Arrival s url loaded s') : Linked roots s'.records [] s' := by
  have hsub := harrive.records_subset
  have h := h.mono hsub
  have hreached := hreached.mono hsub
  cases harrive with
  | external => exact h.settle ⟨⟨url, hreached⟩, by rintro r t ⟨⟩, by rintro m ⟨⟩⟩
  | plain hsame hdeps =>
    rw [← hsame] at h hreached
    exact h.takeIn (by simp [record]) hreached hdeps
  | known hother hseen =>
    refine h.settle ⟨⟨url, hreached⟩, ?_, by rintro m ⟨⟩⟩
    rintro r t ⟨⟩
    exact hseen
  | @claimed m base urls hother hnew hbase hdeps =>
    have hredirect : GraphModule.redirect url.text m.specifier ∈ ((urls.foldl request
        { s.record (.redirect url.text m.specifier) with seen := m.specifier :: s.seen }).record
          (.module m)).records := by
      simp [record, records_foldl_request]
    -- The claim to the new specifier comes after the one that the redirect settles.
    have hclaims := (h.claim hnew).mono (List.Subset.refl _)
    have hswap : Linked roots _ [url.text, m.specifier] { s with seen := m.specifier :: s.seen } :=
      ⟨(List.Perm.nodup_iff ((List.Perm.swap _ _ _).append_right _ |>.append_right _)).mp hclaims.nodup,
        fun t => by rw [hclaims.seen t]; simp only [List.mem_cons, List.not_mem_nil, or_false]; tauto,
        hclaims.pending_reached, hclaims.supported⟩
    have hrecorded := hswap.settle (g := .redirect url.text m.specifier)
      ⟨⟨url, hreached⟩, by rintro r t ⟨⟩; exact List.mem_cons_self, by rintro m ⟨⟩⟩
    exact hrecorded.takeIn (by simp [record]) (.redirect hreached hredirect hbase) hdeps

/-- **A step keeps the invariant.** -/
theorem Linked.step {brings : Url → Loaded → Prop} (h : Linked roots s.records [] s) (hstep : Step brings s s') :
    Linked roots s'.records [] s' := by
  obtain @⟨url, loaded, _, hpending, -, harrive⟩ := hstep
  exact Linked.arrive (s := { s with pending := s.pending.erase url }) (h.pick hpending)
    (h.pending_reached _ hpending) (arrive_eq_ok_iff.mp harrive)

/-- **A run keeps the invariant.** -/
theorem Linked.steps {brings : Url → Loaded → Prop} (h : Linked roots s.records [] s)
    (hsteps : Steps brings s s') : Linked roots s'.records [] s' := by
  induction hsteps with
  | refl => exact h
  | tail _ hstep ih => exact ih.step hstep

/-- What was seen stays seen while URLs are asked for. -/
theorem seen_subset_foldl_request (urls : List Url) (s : Resolution) : s.seen ⊆ (urls.foldl request s).seen := by
  obtain ⟨new, heq, -⟩ := exists_foldl_request urls s
  rw [heq]
  exact List.subset_append_right _ _

/-- What was seen stays seen in an arrival. -/
theorem Arrival.seen_subset (h : Arrival s url loaded s') : s.seen ⊆ s'.seen := by
  cases h with
  | external => exact List.Subset.refl _
  | plain => exact seen_subset_foldl_request _ _
  | known => exact List.Subset.refl _
  | claimed =>
    intro t ht
    exact seen_subset_foldl_request _ _ (List.mem_cons_of_mem _ ht)

/-- What was seen stays seen in a run. -/
theorem Steps.seen_subset {brings : Url → Loaded → Prop} (h : Steps brings s s') : s.seen ⊆ s'.seen := by
  induction h with
  | refl => exact List.Subset.refl _
  | tail _ hstep ih =>
    obtain ⟨-, -, harrive⟩ := hstep
    have hsub := (arrive_eq_ok_iff.mp harrive).seen_subset
    exact List.Subset.trans ih hsub

/-! ## Beginning -/

/-- The roots are asked for in order. -/
theorem ofRoots_eq_ok {start : Resolution} (h : ofRoots roots = .ok start) :
    ∃ urls : List Url, start = urls.foldl request Resolution.start ∧ (∀ u ∈ urls, ∃ r ∈ roots, Url.parse r = .ok u) ∧
      ∀ r ∈ roots, ∃ u ∈ urls, Url.parse r = .ok u := by
  unfold ofRoots at h
  generalize Resolution.start = s at h ⊢
  induction roots generalizing s with
  | nil =>
    obtain rfl : s = start := by simpa [pure, Except.pure] using h
    exact ⟨[], by simp⟩
  | cons r rest ih =>
    cases hu : Url.parse r with
    | error e => simp [List.foldlM_cons, hu, bind, Except.bind] at h
    | ok u =>
      obtain ⟨urls, heq, hof, hall⟩ := ih (s.request u) (by simpa [List.foldlM_cons, hu, bind, Except.bind] using h)
      refine ⟨u :: urls, heq, ?_, ?_⟩
      · intro v hv
        rcases List.mem_cons.mp hv with rfl | hv
        · exact ⟨r, List.mem_cons_self, hu⟩
        · obtain ⟨q, hq, hparse⟩ := hof v hv
          exact ⟨q, List.mem_cons_of_mem _ hq, hparse⟩
      · intro q hq
        rcases List.mem_cons.mp hq with rfl | hq
        · exact ⟨u, List.mem_cons_self, hu⟩
        · obtain ⟨v, hv, hparse⟩ := hall q hq
          exact ⟨v, List.mem_cons_of_mem _ hv, hparse⟩

/-- A graph begins with the invariant, and its roots are seen. -/
theorem linked_ofRoots {start : Resolution} (h : ofRoots roots = .ok start) :
    Linked roots start.records [] start ∧ ∀ r ∈ roots, ∃ u, Url.parse r = .ok u ∧ u.text ∈ start.seen := by
  obtain ⟨urls, rfl, hof, hall⟩ := ofRoots_eq_ok h
  have hempty : Linked roots [] [] Resolution.start := by constructor <;> simp [Resolution.start]
  have hreached : ∀ u ∈ urls, Reached roots [] u.text u := by
    intro u hu
    obtain ⟨r, hr, hparse⟩ := hof u hu
    exact .root hr hparse
  obtain ⟨hlinked, hseen⟩ := hempty.foldl_request hreached
  refine ⟨hlinked.mono (List.nil_subset _), fun r hr => ?_⟩
  obtain ⟨u, hu, hparse⟩ := hall r hr
  exact ⟨u, hparse, hseen u hu⟩

end Resolution

end AppBundler
