import Mathlib.Data.List.Induction
import AppBundler.Proofs.Bundle.Caching
import AppBundler.Proofs.Number.Digits
/-!
# Loads one after the other

A cache is visited for any specifiers at any times, and every call to its table may fail or never end. Whatever
came before, a visit fails only as the fetcher fails, and it brings what the fetcher brings: either as it was just
fetched, or as it was stored last and then older by the whole seconds since. `LastStored` tells when that was; the
invariant is that every entry under the key of a specifier is the record of that time.
-/

namespace AppBundler

/-- A load: what for, at which time, and how the calls to the table end in it. -/
structure Visit where
  specifier : String
  /-- Milliseconds of the calendar. -/
  calendar : Int
  /-- Milliseconds that have gone by on the clock of the table since the visit before. -/
  pause : Nat
  health : TableHealth

/-- What a visit depends on. -/
def Visit.world (v : Visit) (fetch : Fetcher) : RemoteWorld := ⟨fetch, v.health, v.calendar⟩

/-- A time after the beginning of the calendar, in 64 bits. -/
def Visit.IsDated (v : Visit) : Prop := 0 ≤ v.calendar ∧ v.calendar < 2 ^ 63

/-! ## Ages -/

/-- A header that is put among others is there. -/
theorem headerIn?_putSorted (name value : String) (headers : List (String × String)) :
    headerIn? (putSorted name value headers) name = some value := by
  induction headers with
  | nil => simp [putSorted, headerIn?]
  | cons h headers ih =>
    rw [putSorted]
    split
    · simp [headerIn?]
    · rename_i hother
      split
      · simp [headerIn?]
      · rw [headerIn?, List.find?_cons_of_neg (by simpa using hother)]
        exact ih

namespace Lifetime

/-- A header gives an age of 64 bits. -/
theorem age?_bounds (headers : List (String × String)) :
    -2 ^ 63 ≤ (age? headers).getD 0 ∧ (age? headers).getD 0 < 2 ^ 63 := by
  cases h : age? headers with
  | none => decide
  | some n =>
    obtain ⟨a, -, ha⟩ := Option.bind_eq_some_iff.mp h
    exact ((Number.int64?_eq_some_iff (by decide)).mp ha).2

/-- A number that is not too small is brought into the range of 64 bits from above only. -/
theorem saturate_eq_min {n : Int} (h : -2 ^ 63 ≤ n) : saturate n = min n (2 ^ 63 - 1) := by
  have hpow : Int.pow 2 63 = 2 ^ 63 := rfl
  rw [saturate, hpow]
  omega

end Lifetime

namespace CacheRecord

/-- **A record grows older by the whole seconds** since it was stored, as far as 64 bits go. -/
theorem age_aged {r : CacheRecord} {calendar : Int} (hstored : 0 ≤ r.storedAt) (hle : r.storedAt ≤ calendar)
    (hlt : calendar < 2 ^ 63) :
    headerIn? (r.aged calendar).headers "age" =
      some (toString (min ((Lifetime.age? r.module.headers).getD 0 + (calendar - r.storedAt) / 1000) (2 ^ 63 - 1))) := by
  have hseconds : r.secondsSince calendar = (calendar - r.storedAt) / 1000 := by
    rw [secondsSince, Lifetime.saturate_eq_min (by omega)]
    congr 1
    omega
  have hage := Lifetime.age?_bounds r.module.headers
  rw [aged, headerIn?_putSorted, hseconds, Lifetime.saturate_eq_min (by omega)]

end CacheRecord

/-! ## The table -/

namespace KeyTable

variable {t : KeyTable} {key key' value value' : String}

/-- A text stands under a key, be it still to be seen or not. -/
def Has (t : KeyTable) (key value : String) : Prop := ∃ e ∈ t.entries, e.1 = key ∧ e.2.value = value

/-- What is seen under a key stands there. -/
theorem has_of_get? {now : Nat} (h : t.get? now key = some value) : t.Has key value := by
  obtain ⟨e, hlive, hvalue⟩ := Option.map_eq_some_iff.mp h
  exact ⟨(key, e), mem_of_live? hlive, rfl, hvalue⟩

/-- After an entry was put into the table, its text stands under its key and no other one does. -/
theorem has_put {e : TableEntry} (h : (t.put key e).Has key' value') :
    key' = key ∧ value' = e.value ∨ t.Has key' value' ∧ key' ≠ key := by
  obtain ⟨other, hmem, rfl, rfl⟩ := h
  rcases List.mem_cons.mp hmem with rfl | hmem
  · exact Or.inl ⟨rfl, rfl⟩
  · obtain ⟨hmem, hother⟩ := List.mem_filter.mp hmem
    exact Or.inr ⟨⟨other, hmem, rfl, rfl⟩, by simpa using hother⟩

/-- Letting an entry expire changes no text. -/
theorem has_expire {now seconds : Nat} (h : (t.expire now key seconds).2.Has key' value') : t.Has key' value' := by
  unfold expire at h
  cases hlive : t.live? now key with
  | none =>
    rw [hlive] at h
    exact h
  | some e =>
    rw [hlive] at h
    rcases has_put h with ⟨rfl, rfl⟩ | ⟨h, -⟩
    · exact ⟨(key', e), mem_of_live? hlive, rfl, rfl⟩
    · exact h

end KeyTable

namespace ModuleCache

variable {c : ModuleCache} {w : RemoteWorld} {fetch : Fetcher} {specifier target : String} {s : RemoteState}
variable {m : SourceModule} {v : Visit} {visits : List Visit}

/-- A module is written into the table: it may stay there for some time, and the call ends well. -/
def Writes (w : RemoteWorld) (m : SourceModule) : Prop := 0 < Lifetime.ofHeaders m.headers ∧ w.health.set = .sound

/-- What stands in the table after a module was put into the cache is its record, when that is written, or was there
before, then under another key. -/
theorem has_table_set {key value : String} (h : (c.set w specifier target m s).table.Has key value) :
    (Writes w m ∧ key = c.key specifier target ∧ value = CacheRecord.text ⟨m, w.calendar⟩) ∨
      s.table.Has key value ∧ (Writes w m → key ≠ c.key specifier target) := by
  unfold ModuleCache.set at h
  by_cases hold : Lifetime.ofHeaders m.headers ≤ 0
  · rw [if_pos hold] at h
    exact Or.inr ⟨h, fun hwrites => absurd hwrites.1 (by omega)⟩
  · simp only [hold, if_false] at h
    cases hset : w.health.set with
    | sound =>
      -- Whether the entry gets a time to expire or not, its text is that of the record.
      have hput : (s.table.set (c.key specifier target) (CacheRecord.text ⟨m, w.calendar⟩)).Has key value := by
        cases hexpire : w.health.expire with
        | sound => exact KeyTable.has_expire (by simpa [call, hset, hexpire] using h)
        | failing => simpa [call, hset, hexpire] using h
        | silent => simpa [call, hset, hexpire] using h
      rcases KeyTable.has_put hput with ⟨hkey, hvalue⟩ | ⟨hthere, hother⟩
      · exact Or.inl ⟨⟨by omega, hset⟩, hkey, hvalue⟩
      · exact Or.inr ⟨hthere, fun _ => hother⟩
    | failing =>
      exact Or.inr ⟨by simpa [call, hset] using h, fun hwrites => by simp [Writes, hset] at hwrites⟩
    | silent =>
      exact Or.inr ⟨by simpa [call, hset] using h, fun hwrites => by simp [Writes, hset] at hwrites⟩

/-- Putting a module into the cache asks for nothing. -/
theorem asked_set : (c.set w specifier target m s).asked = s.asked := by
  unfold ModuleCache.set
  by_cases hold : Lifetime.ofHeaders m.headers ≤ 0
  · simp [hold]
  · cases w.health.set <;> cases w.health.expire <;> simp [hold, call]

/-! ## Visits -/

/-- A visit to the cache for one target. -/
def visit (c : ModuleCache) (fetch : Fetcher) (target : String) (v : Visit) (s : RemoteState) :
    FetchAnswer × RemoteState :=
  c.load (v.world fetch) none v.specifier target { s with now := s.now + v.pause }

/-- What a visit can do. -/
inductive Outcome (c : ModuleCache) (fetch : Fetcher) (target : String) (v : Visit) (s : RemoteState) :
    FetchAnswer → RemoteState → Prop
  /-- The module of a record in the table comes, and nothing is asked for or written. -/
  | hit {text : String} {r : CacheRecord} {after : RemoteState} (hhas : s.table.Has (c.key v.specifier target) text)
      (hread : CacheRecord.ofText? text = some r) (htable : after.table = s.table) (hasked : after.asked = s.asked) :
    Outcome c fetch target v s (.answered (.ok (r.aged v.calendar))) after
  /-- The module is fetched. Its record is in the table when it could be written, and all else stays. -/
  | fetched {m : SourceModule} {after : RemoteState} (hfetch : fetch v.specifier = .answered (.ok m))
      (htable : ∀ key text, after.table.Has key text →
        (Writes (v.world fetch) m ∧ key = c.key v.specifier target ∧ text = CacheRecord.text ⟨m, v.calendar⟩) ∨
          s.table.Has key text ∧ (Writes (v.world fetch) m → key ≠ c.key v.specifier target))
      (hasked : after.asked = s.asked ++ [v.specifier]) :
    Outcome c fetch target v s (.answered (.ok m)) after
  /-- The fetcher is asked and brings no module. -/
  | failed {after : RemoteState} (hfetch : ∀ m, fetch v.specifier ≠ .answered (.ok m)) (htable : after.table = s.table) :
    Outcome c fetch target v s (fetch v.specifier) after

/-- What is found in the cache is the module of a record in the table, older by the time since. -/
theorem exists_record_of_found? (h : c.found? w specifier target s = some m) : ∃ text r,
    s.table.Has (c.key specifier target) text ∧ CacheRecord.ofText? text = some r ∧ m = r.aged w.calendar := by
  cases hget : w.health.get with
  | sound =>
    simp only [found?, get, call, hget, Option.join_some] at h
    obtain ⟨r, hread, rfl⟩ := Option.map_eq_some_iff.mp h
    obtain ⟨text, htext, hr⟩ := Option.bind_eq_some_iff.mp hread
    exact ⟨text, r, KeyTable.has_of_get? htext, hr, rfl⟩
  | failing => simp [found?, get, call, hget] at h
  | silent => simp [found?, get, call, hget] at h

/-- **A visit does one of the three.** -/
theorem visit_outcome (c : ModuleCache) (fetch : Fetcher) (target : String) (v : Visit) (s : RemoteState) :
    Outcome c fetch target v s (c.visit fetch target v s).1 (c.visit fetch target v s).2 := by
  unfold visit load
  rw [get_eq]
  cases hfound : c.found? (v.world fetch) v.specifier target { s with now := s.now + v.pause } with
  | some m =>
    obtain ⟨text, r, hhas, hread, rfl⟩ := exists_record_of_found? hfound
    exact .hit hhas hread rfl rfl
  | none =>
    have hworld : (v.world fetch).fetch = fetch := rfl
    cases hfetch : fetch v.specifier with
    | silent =>
      simp only [isPast, Option.any_none, Bool.false_eq_true, if_false, ask, hworld, hfetch]
      exact hfetch ▸ .failed (by simp [hfetch]) rfl
    | answered outcome =>
      cases outcome with
      | error e =>
        simp only [isPast, Option.any_none, Bool.false_eq_true, if_false, ask, hworld, hfetch]
        exact hfetch ▸ .failed (by simp [hfetch]) rfl
      | ok m =>
        simp only [isPast, Option.any_none, Bool.false_eq_true, if_false, ask, hworld, hfetch]
        exact .fetched hfetch (fun key text => has_table_set) asked_set

/-- The state after visits one after the other. -/
def afterVisits (c : ModuleCache) (fetch : Fetcher) (target : String) (s : RemoteState) (visits : List Visit) :
    RemoteState :=
  visits.foldl (fun s v => (c.visit fetch target v s).2) s

/-- A visit stores a module for its specifier: the module is asked for, it comes, and it is written into the table. -/
def Stores (c : ModuleCache) (fetch : Fetcher) (target : String) (v : Visit) (s : RemoteState) : Prop :=
  (c.visit fetch target v s).2.asked = s.asked ++ [v.specifier] ∧
    ∃ m, fetch v.specifier = .answered (.ok m) ∧ Writes (v.world fetch) m

/-- The time of the last one among visits that stored the module of a specifier. -/
inductive LastStored (c : ModuleCache) (fetch : Fetcher) (target : String) (s : RemoteState) (specifier : String) :
    List Visit → Int → Prop
  | here {visits : List Visit} {v : Visit} (hsame : v.specifier = specifier)
      (hstores : c.Stores fetch target v (c.afterVisits fetch target s visits)) :
      LastStored c fetch target s specifier (visits ++ [v]) v.calendar
  | before {visits : List Visit} {v : Visit} {time : Int} (h : LastStored c fetch target s specifier visits time)
      (hother : v.specifier = specifier → ¬ c.Stores fetch target v (c.afterVisits fetch target s visits)) :
      LastStored c fetch target s specifier (visits ++ [v]) time

theorem afterVisits_concat : c.afterVisits fetch target s (visits ++ [v]) =
    (c.visit fetch target v (c.afterVisits fetch target s visits)).2 := by
  simp [afterVisits]

/-- A module that was stored was stored by one of the visits. -/
theorem LastStored.exists_visit {time : Int} (h : LastStored c fetch target s specifier visits time) :
    ∃ u ∈ visits, u.calendar = time := by
  induction h with
  | here => exact ⟨_, List.mem_append_right _ (List.mem_singleton_self _), rfl⟩
  | before _ _ ih =>
    obtain ⟨u, hu, htime⟩ := ih
    exact ⟨u, List.mem_append_left _ hu, htime⟩

/-- Every text under the key of a specifier is the record of the module that is fetched for it, of the time at which
it was stored last. -/
def Holds (c : ModuleCache) (fetch : Fetcher) (target : String) (s : RemoteState) (visits : List Visit) : Prop :=
  ∀ specifier text, (c.afterVisits fetch target s visits).table.Has (c.key specifier target) text →
    ∃ time m, LastStored c fetch target s specifier visits time ∧ fetch specifier = .answered (.ok m) ∧
      text = CacheRecord.text ⟨m, time⟩

/-- Nothing is held in an empty table. -/
theorem Holds.nil (hempty : s.table.entries = []) : Holds c fetch target s [] := by
  rintro specifier text ⟨e, hmem, -⟩
  rw [show (c.afterVisits fetch target s []).table.entries = [] from hempty] at hmem
  cases hmem

/-- **A visit keeps what the table holds.** -/
theorem Holds.visit (h : Holds c fetch target s visits) (v : Visit) : Holds c fetch target s (visits ++ [v]) := by
  intro specifier text hhas
  rw [afterVisits_concat] at hhas
  have houtcome := c.visit_outcome fetch target v (c.afterVisits fetch target s visits)
  -- What is not written anew was stored when it was stored before.
  have hkept : (c.afterVisits fetch target s visits).table.Has (c.key specifier target) text →
      (v.specifier = specifier → ¬ c.Stores fetch target v (c.afterVisits fetch target s visits)) →
      ∃ time m, LastStored c fetch target s specifier (visits ++ [v]) time ∧ fetch specifier = .answered (.ok m) ∧
        text = CacheRecord.text ⟨m, time⟩ := by
    intro hthere hother
    obtain ⟨time, m, hlast, hfetch, htext⟩ := h specifier text hthere
    exact ⟨time, m, hlast.before hother, hfetch, htext⟩
  generalize hafter : (c.visit fetch target v (c.afterVisits fetch target s visits)).2 = after at hhas houtcome
  generalize (c.visit fetch target v (c.afterVisits fetch target s visits)).1 = answer at houtcome
  cases houtcome with
  | hit _ _ htable hasked =>
    refine hkept (htable ▸ hhas) fun _ hstores => ?_
    rw [Stores, hafter, hasked] at hstores
    simp at hstores
  | failed hfetch htable =>
    exact hkept (htable ▸ hhas) fun _ ⟨_, m, hm, _⟩ => hfetch m hm
  | @fetched m _ hfetch htable hasked =>
    rcases htable _ _ hhas with ⟨hwrites, hkey, rfl⟩ | ⟨hthere, hother⟩
    · obtain rfl := key_injective hkey
      exact ⟨v.calendar, m, .here rfl ⟨hafter ▸ hasked, m, hfetch, hwrites⟩, hfetch, rfl⟩
    · refine hkept hthere fun hsame ⟨_, m', hm', hwrites⟩ => ?_
      obtain rfl : m = m' := by simpa [hfetch] using hm'
      exact hother hwrites (by rw [hsame])

/-- **After any visits every text is the record of the last time** at which it was stored. -/
theorem holds_afterVisits (hempty : s.table.entries = []) (visits : List Visit) : Holds c fetch target s visits := by
  induction visits using List.reverseRecOn with
  | nil => exact .nil hempty
  | append_singleton visits v ih => exact ih.visit v

/-- **The cache is transparent.** Of a table that was empty, whatever was visited before at earlier times and
whatever calls to the table failed, a visit brings what the fetcher brings: its failure, its module as it was just
fetched, or, without asking it, its module under an age that is greater by the whole seconds since it was stored
last. -/
theorem visit_transparent (hempty : s.table.entries = []) (htidy : fetch.IsTidy)
    (htimes : (visits ++ [v]).Pairwise fun u w => u.calendar ≤ w.calendar) (hdated : ∀ u ∈ visits ++ [v], u.IsDated) :
    let before := c.afterVisits fetch target s visits
    let visited := c.visit fetch target v before
    (∀ m, fetch v.specifier = .answered (.ok m) →
      (visited.1 = .answered (.ok m) ∧ visited.2.asked = before.asked ++ [v.specifier]) ∨
        (∃ found time, visited.1 = .answered (.ok found) ∧ visited.2.asked = before.asked ∧
          LastStored c fetch target s v.specifier visits time ∧ found.withoutAge = m.withoutAge ∧
          headerIn? found.headers "age" = some (toString
            (min ((Lifetime.age? m.headers).getD 0 + (v.calendar - time) / 1000) (2 ^ 63 - 1))))) ∧
      ((∀ m, fetch v.specifier ≠ .answered (.ok m)) → visited.1 = fetch v.specifier) := by
  have houtcome := c.visit_outcome fetch target v (c.afterVisits fetch target s visits)
  dsimp only
  generalize (c.visit fetch target v (c.afterVisits fetch target s visits)).2 = after at houtcome ⊢
  generalize (c.visit fetch target v (c.afterVisits fetch target s visits)).1 = answer at houtcome ⊢
  cases houtcome with
  | @hit text r _ hhas hread _ hasked =>
    obtain ⟨time, m, hlast, hfetch, rfl⟩ := holds_afterVisits hempty visits v.specifier text hhas
    refine ⟨fun m' hm' => Or.inr ⟨_, time, rfl, hasked, hlast, ?_⟩, fun hfail => absurd hfetch (hfail m)⟩
    obtain rfl : m = m' := by simpa [hfetch] using hm'
    obtain ⟨u, hu, rfl⟩ := hlast.exists_visit
    have hle : u.calendar ≤ v.calendar :=
      (List.pairwise_append.mp htimes).2.2 u hu v (List.mem_singleton_self v)
    obtain ⟨hstored, hstored'⟩ := hdated u (List.mem_append_left _ hu)
    obtain ⟨-, hlt⟩ := hdated v (List.mem_append_right _ (List.mem_singleton_self v))
    have htext := CacheRecord.ofText?_text (r := ⟨m, u.calendar⟩) (htidy _ m hfetch) (by dsimp only; omega) hstored'
    obtain rfl := Option.some.inj (hread.symm.trans htext)
    exact ⟨CacheRecord.withoutAge_aged _ _, CacheRecord.age_aged hstored hle hlt⟩
  | fetched hfetch _ hasked =>
    refine ⟨fun m' hm' => Or.inl ⟨hfetch ▸ hm', hasked⟩, fun hfail => absurd hfetch (hfail _)⟩
  | failed hfetch _ => exact ⟨fun m hm => absurd hm (hfetch m), fun _ => rfl⟩

/-- A module that is five seconds old when it is fetched. -/
def agedScript : SourceModule := ⟨"https://a/x.js", [("age", "5"), ("cache-control", "max-age=600")], "1;"⟩

/-- A fetcher that brings that module only. -/
def agedFetcher : Fetcher := fun specifier =>
  if specifier = "https://a/x.js" then .answered (.ok agedScript) else Fetcher.offline specifier

/-- Two visits to it. At the second one the table cannot be read, so that the module is fetched and stored again. -/
def agedVisits : List Visit :=
  [⟨"https://a/x.js", 1000, 0, .all .sound⟩, ⟨"https://a/x.js", 3000, 2000, ⟨.failing, .sound, .sound⟩⟩]

/-- A later visit to it. -/
def agedVisit : Visit := ⟨"https://a/x.js", 8500, 5500, .all .sound⟩

/-- The later visit finds the module in the table, older by the time since it was stored. -/
theorem visit_transparent_aged :
    agedFetcher.IsTidy ∧ (agedVisits ++ [agedVisit]).Pairwise (fun u w => u.calendar ≤ w.calendar) ∧
      (∀ u ∈ agedVisits ++ [agedVisit], u.IsDated) ∧
      ∃ found time, (default.visit agedFetcher "deno" agedVisit
          (default.afterVisits agedFetcher "deno" ⟨⟨[]⟩, 0, []⟩ agedVisits)).1 = .answered (.ok found) ∧
        LastStored default agedFetcher "deno" ⟨⟨[]⟩, 0, []⟩ "https://a/x.js" agedVisits time ∧
        found.withoutAge = agedScript.withoutAge ∧
        headerIn? found.headers "age" = some (toString (min (5 + (8500 - time) / 1000) (2 ^ 63 - 1))) := by
  have htidy : agedFetcher.IsTidy := by
    intro specifier m hm
    by_cases hscript : specifier = "https://a/x.js"
    · obtain rfl : agedScript = m := by simpa [agedFetcher, hscript] using hm
      unfold SourceModule.IsTidy HeadersInOrder
      decide
    · simp [agedFetcher, hscript, Fetcher.offline] at hm
  have htimes : (agedVisits ++ [agedVisit]).Pairwise fun u w => u.calendar ≤ w.calendar := by decide
  have hdated : ∀ u ∈ agedVisits ++ [agedVisit], u.IsDated := by
    simp only [Visit.IsDated]
    decide
  have hage : Lifetime.age? agedScript.headers = some 5 := by decide +kernel
  have hasked : (default.visit agedFetcher "deno" agedVisit
      (default.afterVisits agedFetcher "deno" ⟨⟨[]⟩, 0, []⟩ agedVisits)).2.asked =
        ["https://a/x.js", "https://a/x.js"] ∧
      (default.afterVisits agedFetcher "deno" ⟨⟨[]⟩, 0, []⟩ agedVisits).asked = ["https://a/x.js", "https://a/x.js"] := by
    decide +kernel
  refine ⟨htidy, htimes, hdated, ?_⟩
  have hvisit := @visit_transparent default agedFetcher "deno" ⟨⟨[]⟩, 0, []⟩ agedVisit agedVisits rfl htidy htimes hdated
  rcases hvisit.1 agedScript rfl with ⟨-, hfresh⟩ | ⟨found, time, hanswer, -, hlast, hsame, hfound⟩
  · rw [hasked.1, hasked.2] at hfresh
    simp at hfresh
  · rw [hage] at hfound
    exact ⟨found, time, hanswer, hlast, hsame, hfound⟩

end ModuleCache

end AppBundler
