import Mathlib.Algebra.Ring.Int.Defs
import AppBundler.Proofs.Bundle.Loads
import AppBundler.Proofs.Remote.Headers
import AppBundler.Proofs.Remote.Keys
/-!
# A cache is not noticed

The cache holds what was fetched. Whatever was loaded before, for whichever target and at whichever time, a load
through the cache brings the module that the fetcher brings, up to its age, which builds leave out. Only how long a
load takes can be noticed, when the table lets it wait; `TableHealth.IsSteady` leaves that out.

A key is made of a specifier and a target without telling where one ends, so a target with a bracket in it could be
taken for a part of another specifier. Targets are plain here.
-/

namespace AppBundler

/-! ## Keys -/

/-- A target that no part of a specifier can be taken for. -/
def IsPlainTarget (target : String) : Prop := '[' ∉ target.toList

instance (target : String) : Decidable (IsPlainTarget target) := inferInstanceAs (Decidable ('[' ∉ target.toList))

namespace ModuleCache

/-- **Specifiers have different keys** for plain targets, be they the same target or not. -/
theorem key_injective_of_plain {c : ModuleCache} {specifier other target target' : String}
    (htarget : IsPlainTarget target) (htarget' : IsPlainTarget target')
    (h : c.key specifier target = c.key other target') : specifier = other := by
  rcases eq_or_shifts_of_key_eq h with ⟨hsame, -⟩ | hshifts | hshifts
  · exact hsame
  · exact absurd hshifts.bracket_mem htarget
  · exact absurd hshifts.bracket_mem htarget'

end ModuleCache

/-! ## Records -/

namespace CacheRecord

variable {r : CacheRecord}

theorem ofJson?_toJson (hm : r.module.IsTidy) (hhigh : r.storedAt < 2 ^ 63) : ofJson? r.toJson = some r := by
  have htime : time? (.int r.storedAt) = some r.storedAt := by
    have hlimit : r.storedAt < Int.pow 2 63 := hhigh
    rw [time?, Json.int?, Option.filter_some, if_pos (decide_eq_true hlimit)]
  simp [toJson, ofJson?, Json.only?, SourceModule.ofJson?_toJson hm, htime]

/-- The text of a record is read back. -/
theorem ofText?_text (hm : r.module.IsTidy) (hlow : -2 ^ 63 ≤ r.storedAt) (hhigh : r.storedAt < 2 ^ 63) :
    ofText? r.text = some r := by
  have hmodule : Json.Fits (Json.depthLimit - 1) r.module.toJson := r.module.fits_toJson
  have htime : Json.Fits (Json.depthLimit - 1) (.int r.storedAt) := .int hlow (by omega)
  have hfits : Json.Fits Json.depthLimit r.toJson := .object (by simpa using ⟨hmodule, htime⟩)
  rw [ofText?, text, hfits.parseAsWritten]
  exact ofJson?_toJson hm hhigh

end CacheRecord

/-- A world whose calendar can be written down. -/
def RemoteWorld.IsDated (w : RemoteWorld) : Prop := -2 ^ 63 ≤ w.calendar ∧ w.calendar < 2 ^ 63

/-- A module without its age. -/
def SourceModule.withoutAge (m : SourceModule) : SourceModule :=
  { m with headers := m.headers.filter fun h => h.1 ≠ "age" }

/-- What is put under a name does not count when the name is left out. -/
theorem filter_putSorted (name value : String) (headers : List (String × String)) :
    ((putSorted name value headers).filter fun h => h.1 ≠ name) = headers.filter fun h => h.1 ≠ name := by
  induction headers with
  | nil => simp [putSorted]
  | cons a headers ih =>
    rw [putSorted]
    split
    · rename_i hsame
      simp [hsame]
    · split
      · simp
      · rw [List.filter_cons, List.filter_cons, ih]

/-- A record differs from its module in the age only. -/
theorem CacheRecord.withoutAge_aged (r : CacheRecord) (calendar : Int) :
    (r.aged calendar).withoutAge = r.module.withoutAge := by
  simp only [SourceModule.withoutAge, aged, filter_putSorted]

/-! ## What the cache holds -/

namespace KeyTable

variable {t : KeyTable} {key : String} {now : Nat} {e : TableEntry}

/-- An entry that is there stands in the table. -/
theorem mem_of_live? (h : t.live? now key = some e) : (key, e) ∈ t.entries := by
  obtain ⟨⟨k, e'⟩, hfind, rfl⟩ := Option.map_eq_some_iff.mp h
  obtain ⟨rfl, -⟩ : k = key ∧ isLive now e' = true := by simpa using List.find?_some hfind
  exact List.mem_of_find?_eq_some hfind

end KeyTable

namespace ModuleCache

variable {c : ModuleCache} {w : RemoteWorld} {fetch : Fetcher} {t : KeyTable} {s : RemoteState}
variable {specifier target : String} {m : SourceModule}

/-- What may stand under a key: for any specifier and plain target that the key is made of, nothing but what is fetched
for the specifier can be read. -/
def Stands (c : ModuleCache) (fetch : Fetcher) (key text : String) : Prop :=
  ∀ specifier target, IsPlainTarget target → key = c.key specifier target →
    ∀ r, CacheRecord.ofText? text = some r → fetch specifier = .answered (.ok r.module)

/-- A table that holds nothing but what is fetched. -/
def Mirrors (c : ModuleCache) (fetch : Fetcher) (t : KeyTable) : Prop :=
  ∀ e ∈ t.entries, c.Stands fetch e.1 e.2.value

theorem Mirrors.put (h : c.Mirrors fetch t) {key : String} {e : TableEntry} (he : c.Stands fetch key e.value) :
    c.Mirrors fetch (t.put key e) := by
  intro other hother
  rcases List.mem_cons.mp hother with rfl | hother
  · exact he
  · exact h other (List.mem_of_mem_filter hother)

theorem Mirrors.expire (h : c.Mirrors fetch t) (now : Nat) (key : String) (seconds : Nat) :
    c.Mirrors fetch (t.expire now key seconds).2 := by
  unfold KeyTable.expire
  cases hlive : t.live? now key with
  | none => exact h
  | some e => exact h.put (h _ (KeyTable.mem_of_live? hlive))

/-- What is fetched may stand under its key. -/
theorem stands_text (htarget : IsPlainTarget target) (hdated : w.IsDated) (hm : m.IsTidy)
    (hfetch : fetch specifier = .answered (.ok m)) :
    c.Stands fetch (c.key specifier target) (CacheRecord.text ⟨m, w.calendar⟩) := by
  intro other target' htarget' hkey r hr
  obtain rfl := key_injective_of_plain htarget htarget' hkey
  rw [CacheRecord.ofText?_text hm hdated.1 hdated.2] at hr
  exact Option.some.inj hr ▸ hfetch

/-- Putting what was fetched into the cache keeps it a mirror. -/
theorem Mirrors.set (h : c.Mirrors fetch s.table)
    (htext : c.Stands fetch (c.key specifier target) (CacheRecord.text ⟨m, w.calendar⟩)) :
    c.Mirrors fetch (c.set w specifier target m s).table := by
  unfold ModuleCache.set
  by_cases hold : Lifetime.ofHeaders m.headers ≤ 0
  · simpa [hold] using h
  · cases w.health.set with
    | sound =>
      have hset : c.Mirrors fetch (s.table.set (c.key specifier target) (CacheRecord.text ⟨m, w.calendar⟩)) := h.put htext
      cases w.health.expire with
      | sound => simpa [hold, call] using hset.expire _ _ _
      | failing => simpa [hold, call] using hset
      | silent => simpa [hold, call] using hset
    | failing => simpa [hold, call] using h
    | silent => simpa [hold, call] using h

/-- **A load keeps the cache a mirror.** -/
theorem Mirrors.load (h : c.Mirrors w.fetch s.table) (htarget : IsPlainTarget target) (hdated : w.IsDated)
    (htidy : w.fetch.IsTidy) (limit : Option Nat) : c.Mirrors w.fetch (c.load w limit specifier target s).2.table := by
  rw [ModuleCache.load, get_eq]
  by_cases hlate : isPast limit { s with now := s.now + c.delay w.health.get }
  · simpa [hlate, atLimit] using h
  · simp only [hlate, Bool.false_eq_true, if_false]
    cases c.found? w specifier target s with
    | some m => exact h
    | none =>
      cases hfetch : w.fetch specifier with
      | silent => simpa [ask, hfetch, atLimit] using h
      | answered outcome =>
        cases outcome with
        | error e => simpa [ask, hfetch] using h
        | ok m =>
          have hset := fun s (hs : c.Mirrors w.fetch s.table) =>
            Mirrors.set (s := s) hs (stands_text htarget hdated (htidy specifier m hfetch) hfetch)
          simp only [ask, hfetch]
          split <;> exact hset _ h

/-! ## What is found -/

/-- What is found under a specifier is what is fetched for it, up to its age, and is found only when the table is
read. -/
def Reflects (w : RemoteWorld) (specifier : String) (found : Option SourceModule) : Prop :=
  ∀ m, found = some m → w.health.get = .sound ∧
    ∃ fetched, w.fetch specifier = .answered (.ok fetched) ∧ m.withoutAge = fetched.withoutAge

/-- **What is found in a mirror is what is fetched.** -/
theorem Mirrors.reflects (h : c.Mirrors w.fetch s.table) (htarget : IsPlainTarget target) :
    Reflects w specifier (c.found? w specifier target s) := by
  intro m hfound
  cases hget : w.health.get with
  | sound =>
    simp only [found?, get, call, hget, Option.join_some] at hfound
    obtain ⟨r, hread, rfl⟩ := Option.map_eq_some_iff.mp hfound
    obtain ⟨text, htext, hr⟩ := Option.bind_eq_some_iff.mp hread
    obtain ⟨e, hlive, rfl⟩ := Option.map_eq_some_iff.mp htext
    exact ⟨rfl, r.module, h _ (KeyTable.mem_of_live? hlive) specifier target htarget rfl r hr, r.withoutAge_aged _⟩
  | failing => simp [found?, get, call, hget] at hfound
  | silent => simp [found?, get, call, hget] at hfound

/-- When the table is read and is not waited for, putting a module into it takes no time. -/
theorem setDelay_eq_zero (hsteady : w.health.IsSteady) (hget : w.health.get = .sound) (m : SourceModule) :
    c.delay w.health.get + c.setDelay w m = 0 := by
  obtain ⟨hset, hexpire⟩ := hsteady hget
  simp [setDelay, delay, hget, hset, hexpire]

/-- **Whatever else is found, the same module comes**, up to its age, unless the table lets a load wait. -/
theorem answer_of_answered {timeout : Nat} {found found' : Option SourceModule} (hfound : Reflects w specifier found)
    (hfound' : Reflects w specifier found') (h : c.answer w timeout specifier found = .answered (.ok m)) :
    (∃ m', c.answer w timeout specifier found' = .answered (.ok m') ∧ m'.withoutAge = m.withoutAge) ∨
      ¬ w.health.IsSteady ∧ c.answer w timeout specifier found' = .silent := by
  unfold answer at h ⊢
  by_cases hlate : timeout < c.delay w.health.get
  · simp [hlate] at h
  · simp only [hlate, if_false] at h ⊢
    cases found with
    | some m₀ =>
      obtain rfl : m₀ = m := by simpa using h
      obtain ⟨hget, fetched, hfetch, hage⟩ := hfound m₀ rfl
      cases found' with
      | some m' =>
        obtain ⟨-, fetched', hfetch', hage'⟩ := hfound' m' rfl
        obtain rfl : fetched = fetched' := by simpa [hfetch] using hfetch'
        exact Or.inl ⟨m', rfl, hage'.trans hage.symm⟩
      | none =>
        -- Now the module is fetched and put into the cache, which must not take too long.
        simp only [hfetch]
        by_cases hslow : timeout < c.delay w.health.get + c.setDelay w fetched
        · refine Or.inr ⟨fun hsteady => ?_, by simp [hslow]⟩
          rw [setDelay_eq_zero hsteady hget] at hslow
          exact Nat.not_lt_zero _ hslow
        · exact Or.inl ⟨fetched, by simp [hslow], hage.symm⟩
    | none =>
      cases found' with
      | some m' =>
        obtain ⟨-, fetched, hfetch, hage⟩ := hfound' m' rfl
        simp only [hfetch] at h
        split at h
        · cases h
        · obtain rfl : fetched = m := by simpa using h
          exact Or.inl ⟨m', rfl, hage⟩
      | none => exact Or.inl ⟨m, h, rfl⟩

end ModuleCache

/-! ## Builds through the cache -/

/-- The same surroundings at another time of the calendar. -/
def Surroundings.onDate (around : Surroundings) (calendar : Int) : Surroundings :=
  { around with remote := { around.remote with calendar := calendar } }

namespace BuildContext

variable {c : BuildContext} {around : Surroundings} {url : Url} {loaded : Loaded} {w w' : LoadState} {calendar : Int}

/-- The same build for another target. -/
def retarget (c : BuildContext) (target : String) : BuildContext := { c with target := target }

/-- A state of loading in which the cache holds nothing but what is fetched. -/
def Mirrors (c : BuildContext) (around : Surroundings) (w : LoadState) : Prop :=
  c.cache.Mirrors around.remote.fetch w.remote.table

/-- **A load keeps the cache a mirror**, whether it succeeds or not. -/
theorem Mirrors.load (h : c.Mirrors around w) (htarget : IsPlainTarget c.target) (hdated : around.remote.IsDated)
    (htidy : around.remote.fetch.IsTidy) (url : Url) : c.Mirrors around (c.load around url w).2 := by
  unfold BuildContext.load
  cases c.namespaces.classify url with
  | none => exact h
  | some k =>
    cases k with
    | external => exact h
    | app => exact h
    | framework => exact h
    | platformRemote =>
      cases hfetch : around.remote.fetch url.text with
      | silent => simpa [Mirrors, loadPlatform, ModuleCache.ask, hfetch] using h
      | answered outcome => simpa [Mirrors, loadPlatform, ModuleCache.ask, hfetch] using h
    | remote => exact ModuleCache.Mirrors.load h htarget hdated htidy _

/-- What a load from the network brings follows from what is found in the cache. -/
theorem loadRemote_fst (c : BuildContext) (world : RemoteWorld) (url : Url) (s : RemoteState) :
    (c.loadRemote world url s).1 = (c.inTime (c.cache.answer world c.config.networkTimeout url.text
      (c.cache.found? world url.text c.target s))).map SourceModule.withoutAge := by
  rw [← ModuleCache.load_fst]
  rfl

/-- A load from the network brings the same again, unless it is let wait for the table for too long. -/
theorem loadRemote_of_loadRemote {target : String} {m : SourceModule} (hw : c.Mirrors around w)
    (hw' : c.Mirrors around w') (htarget : IsPlainTarget c.target) (htarget' : IsPlainTarget target)
    (h : (c.loadRemote around.remote url w.remote).1 = .ok m) :
    ((c.retarget target).loadRemote (around.onDate calendar).remote url w'.remote).1 = .ok m ∨
      ¬ around.remote.health.IsSteady ∧ ((c.retarget target).loadRemote (around.onDate calendar).remote url w'.remote).1 =
        .error (.timedOut c.config.networkTimeout) := by
  have hagain : ((c.retarget target).loadRemote (around.onDate calendar).remote url w'.remote).1 =
      (c.inTime (c.cache.answer around.remote c.config.networkTimeout url.text
        (c.cache.found? (around.onDate calendar).remote url.text target w'.remote))).map SourceModule.withoutAge :=
    loadRemote_fst (c.retarget target) (around.onDate calendar).remote url w'.remote
  rw [loadRemote_fst] at h
  obtain ⟨found, hanswer, rfl⟩ : ∃ found, c.cache.answer around.remote c.config.networkTimeout url.text
      (c.cache.found? around.remote url.text c.target w.remote) = .answered (.ok found) ∧ found.withoutAge = m := by
    cases hanswer : c.cache.answer around.remote c.config.networkTimeout url.text
        (c.cache.found? around.remote url.text c.target w.remote) with
    | silent => simp [hanswer, inTime, Except.map] at h
    | answered outcome =>
      cases outcome with
      | error e => simp [hanswer, inTime, Except.map] at h
      | ok found => exact ⟨found, rfl, by simpa [hanswer, inTime, Except.map] using h⟩
  have hfound' : ModuleCache.Reflects (around.onDate calendar).remote url.text
      (c.cache.found? (around.onDate calendar).remote url.text target w'.remote) :=
    ModuleCache.Mirrors.reflects hw' htarget'
  rcases ModuleCache.answer_of_answered (hw.reflects htarget) hfound' hanswer with ⟨m', hm', hage⟩ | ⟨hslow, hsilent⟩
  · rw [hagain, hm']
    exact Or.inl (congrArg Except.ok hage)
  · rw [hagain, hsilent]
    exact Or.inr ⟨hslow, rfl⟩

/-- **What was loaded before is not noticed**, nor are the target and the time: a load brings the same again, unless
it is let wait for the table for too long. -/
theorem load_of_load {target : String} (hw : c.Mirrors around w) (hw' : c.Mirrors around w')
    (htarget : IsPlainTarget c.target) (htarget' : IsPlainTarget target) (h : (c.load around url w).1 = .ok loaded) :
    ((c.retarget target).load (around.onDate calendar) url w').1 = .ok loaded ∨
      ¬ around.remote.health.IsSteady ∧ ((c.retarget target).load (around.onDate calendar) url w').1 =
        .error (.load url.text (.timedOut c.config.networkTimeout)) := by
  unfold load at h ⊢
  have hnamespaces : (c.retarget target).namespaces = c.namespaces := rfl
  rw [hnamespaces]
  cases hclass : c.namespaces.classify url with
  | none => simp [hclass] at h
  | some k =>
    simp only [hclass] at h ⊢
    cases k with
    | external => exact Or.inl h
    | app => exact Or.inl h
    | framework => exact Or.inl h
    | platformRemote =>
      have hagain : ((c.retarget target).loadPlatform (around.onDate calendar).remote url w'.remote).1 =
          (c.loadPlatform around.remote url w.remote).1 := by
        unfold loadPlatform ModuleCache.ask Surroundings.onDate
        cases around.remote.fetch url.text <;> rfl
      rw [hagain]
      exact Or.inl h
    | remote =>
      cases hm : (c.loadRemote around.remote url w.remote).1 with
      | error fault => simp [hm] at h
      | ok m =>
        obtain rfl : .source m = loaded := by simpa [hm] using h
        rcases loadRemote_of_loadRemote hw hw' htarget htarget' hm with hsame | ⟨hslow, hlate⟩
        · exact Or.inl (by rw [hsame])
        · exact Or.inr ⟨hslow, by rw [hlate]⟩

end BuildContext

end AppBundler
