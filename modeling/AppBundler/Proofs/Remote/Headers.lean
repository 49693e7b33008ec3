import AppBundler.Proofs.Json.Collections
import AppBundler.Proofs.Json.RoundTrip
import AppBundler.Remote.Cache
/-!
# Modules are read back from their JSON

The headers of a module are kept in the order of their names, each name once. Whatever is made of headers keeps
that order, and headers in order are read back from their JSON as they were; so is the module they belong to.
-/

namespace AppBundler

/-- Headers in the order of their names, each name once. -/
def HeadersInOrder (headers : List (String × String)) : Prop := headers.Pairwise fun a b => a.1 < b.1

variable {headers : List (String × String)}

namespace HeadersInOrder

/-- A header can be put among others. -/
theorem putSorted (h : HeadersInOrder headers) (name value : String) : HeadersInOrder (putSorted name value headers) :=
  InKeyOrder.putSorted h name value

theorem filter (h : HeadersInOrder headers) (keep : String × String → Bool) : HeadersInOrder (headers.filter keep) :=
  List.Pairwise.sublist List.filter_sublist h

/-- What is read from JSON is in order. -/
theorem of_headersOfJson? {j : Json} (h : headersOfJson? j = some headers) : HeadersInOrder headers := by
  cases j with
  | object ms =>
    have hfold : ∀ (ms : List (String × Json)) (read : List (String × String)), HeadersInOrder read →
        ms.foldlM (fun headers m => m.2.string?.map fun v => AppBundler.putSorted m.1 v headers) read = some headers →
        HeadersInOrder headers := by
      intro ms
      induction ms with
      | nil =>
        intro read hread heq
        exact Option.some.inj heq ▸ hread
      | cons m ms ih =>
        intro read hread heq
        rw [List.foldlM_cons] at heq
        obtain ⟨next, hnext, heq⟩ := Option.bind_eq_some_iff.mp heq
        obtain ⟨v, -, rfl⟩ := Option.map_eq_some_iff.mp hnext
        exact ih _ (hread.putSorted m.1 v) heq
    exact hfold ms [] List.Pairwise.nil h
  | _ => cases h

end HeadersInOrder

/-- Headers in order are read back. -/
theorem headersOfJson?_headersJson (h : HeadersInOrder headers) : headersOfJson? (headersJson headers) = some headers := by
  have hfold : ∀ rest read : List (String × String), HeadersInOrder (read ++ rest) →
      (rest.map fun h => (h.1, Json.string h.2)).foldlM
        (fun headers m => m.2.string?.map fun v => putSorted m.1 v headers) read = some (read ++ rest) := by
    intro rest
    induction rest with
    | nil =>
      intro read _
      simp
    | cons a rest ih =>
      intro read horder
      have hlast : ∀ b ∈ read, b.1 < a.1 := fun b hb =>
        (List.pairwise_append.mp horder).2.2 b hb a List.mem_cons_self
      rw [List.map_cons, List.foldlM_cons, Json.string?, Option.map_some, putSorted_last hlast]
      simpa using ih (read ++ [a]) (by simpa using horder)
  exact hfold headers [] h

/-! ## Modules -/

namespace SourceModule

/-- The headers of a module are in order. -/
def IsTidy (m : SourceModule) : Prop := HeadersInOrder m.headers

/-- A tidy module is read back. -/
theorem ofJson?_toJson {m : SourceModule} (h : m.IsTidy) : ofJson? m.toJson = some m := by
  simp [toJson, ofJson?, Json.only?, Json.string?, headersOfJson?_headersJson h]

/-- What is read from JSON is tidy. -/
theorem isTidy_of_ofJson? {j : Json} {m : SourceModule} (h : ofJson? j = some m) : m.IsTidy := by
  unfold ofJson? at h
  split at h
  · simp only [Option.bind_eq_bind, Option.bind_eq_some_iff, Option.some.injEq] at h
    obtain ⟨_, -, specifier, -, _, -, headers, hheaders, _, -, content, -, rfl⟩ := h
    exact HeadersInOrder.of_headersOfJson? hheaders
  · obtain ⟨headers, hheaders, rfl⟩ := Option.map_eq_some_iff.mp h
    exact HeadersInOrder.of_headersOfJson? hheaders
  · cases h

theorem fits_toJson (m : SourceModule) {d : Nat} : Json.Fits (d + 2) m.toJson := by
  have hheaders : Json.Fits (d + 1) (headersJson m.headers) := .object fun _ hm => by
    obtain ⟨h, -, rfl⟩ := List.mem_map.mp hm
    exact .string h.2
  exact .object (by simp [Json.Fits.string, hheaders])

end SourceModule

/-- The record of a tidy module is tidy. -/
theorem CacheRecord.isTidy_of_ofText? {text : String} {r : CacheRecord} (h : ofText? text = some r) : r.module.IsTidy := by
  unfold ofText? at h
  split at h
  · unfold ofJson? at h
    split at h
    · simp only [Option.bind_eq_bind, Option.bind_eq_some_iff, Option.some.injEq] at h
      obtain ⟨_, -, m, hm, _, -, storedAt, -, rfl⟩ := h
      exact SourceModule.isTidy_of_ofJson? hm
    · simp only [Option.bind_eq_bind, Option.bind_eq_some_iff, Option.some.injEq] at h
      obtain ⟨m, hm, storedAt, -, rfl⟩ := h
      exact SourceModule.isTidy_of_ofJson? hm
    · cases h
  · cases h

/-! ## Loads through the cache -/

/-- A fetcher that brings tidy modules only. -/
def Fetcher.IsTidy (fetch : Fetcher) : Prop := ∀ specifier m, fetch specifier = .answered (.ok m) → m.IsTidy

namespace ModuleCache

variable {c : ModuleCache} {w : RemoteWorld} {specifier target : String} {s : RemoteState} {m : SourceModule}

/-- What is found in the cache is tidy. -/
theorem isTidy_of_get (h : (c.get w specifier target s).1 = some m) : m.IsTidy := by
  obtain ⟨r, hread, rfl⟩ := Option.map_eq_some_iff.mp h
  obtain ⟨text, -, htext⟩ := Option.bind_eq_some_iff.mp hread
  exact (CacheRecord.isTidy_of_ofText? htext).putSorted _ _

/-- What is loaded through the cache is tidy. -/
theorem isTidy_of_load {limit : Option Nat} (hfetch : w.fetch.IsTidy)
    (h : (c.load w limit specifier target s).1 = .answered (.ok m)) : m.IsTidy := by
  unfold load at h
  cases hget : c.get w specifier target s with
  | mk found s₁ =>
  rw [hget] at h
  by_cases hpast : isPast limit s₁
  · simp [hpast] at h
  · simp only [hpast, Bool.false_eq_true, if_false] at h
    cases found with
    | some found =>
      obtain rfl : found = m := by simpa using h
      exact isTidy_of_get (by rw [hget])
    | none =>
      cases hanswer : w.fetch specifier with
      | silent => simp [ask, hanswer] at h
      | answered outcome =>
        cases outcome with
        | error e => simp [ask, hanswer] at h
        | ok fetched =>
          simp only [ask, hanswer] at h
          split at h
          · cases h
          · obtain rfl : fetched = m := by simpa using h
            exact hfetch specifier fetched hanswer

end ModuleCache

end AppBundler
