import Mathlib.Tactic.Common
import AppBundler.Bundle.Context
/-!
# What a load brings depends on its URL

A load may change the cache and the clock, so what the next one brings could depend on those before it. It does
not: a load only sees the cache entry of its own specifier, an entry is only changed by the load of its
specifier, and what passes on the clock counts from the beginning of the load. The one thing that could come
between is a table that answers questions but lets a load wait when it is written to, so that an entry expires
meanwhile; `TableHealth.IsSteady` leaves that out.
-/

namespace AppBundler

/-- A table that is read is not waited for when it is written. -/
def TableHealth.IsSteady (h : TableHealth) : Prop := h.get = .sound → h.set ≠ .silent ∧ h.expire ≠ .silent

/-- Calls that all end in one way are steady. -/
theorem TableHealth.isSteady_all (h : CallHealth) : (TableHealth.all h).IsSteady := by
  rintro rfl
  exact ⟨CallHealth.noConfusion, CallHealth.noConfusion⟩

namespace KeyTable

variable {t : KeyTable} {key other : String} {now : Nat}

/-- Putting an entry leaves those under other keys. -/
theorem live?_put {entry : TableEntry} (h : other ≠ key) : (t.put key entry).live? now other = t.live? now other := by
  have hfilter : ∀ entries : List (String × TableEntry),
      (entries.filter fun e => e.1 ≠ key).find? (fun e => e.1 = other && isLive now e.2) =
        entries.find? fun e => e.1 = other && isLive now e.2 := by
    intro entries
    rw [List.find?_filter]
    congr 1
    funext e
    by_cases he : e.1 = other
    · simp [he, h]
    · simp [he]
  simp only [live?, put, List.find?_cons, Ne.symm h, decide_false, Bool.false_and, hfilter]

/-- Setting a text leaves those under other keys. -/
theorem get?_set {value : String} (h : other ≠ key) : (t.set key value).get? now other = t.get? now other := by
  rw [get?, set, live?_put h, get?]

/-- Letting an entry expire leaves those under other keys. -/
theorem get?_expire {time seconds : Nat} (h : other ≠ key) :
    (t.expire time key seconds).2.get? now other = t.get? now other := by
  unfold expire
  cases t.live? time key with
  | none => rfl
  | some e => rw [get?, live?_put h, get?]

end KeyTable

namespace ModuleCache

variable {c : ModuleCache} {w : RemoteWorld} {specifier other target : String} {s s' : RemoteState}

/-- Specifiers have different keys. -/
theorem key_injective (h : c.key specifier target = c.key other target) : specifier = other := by
  simp only [key, ← String.toList_inj, String.toList_append, List.append_assoc, List.append_cancel_left_eq] at h
  rw [← String.toList_inj]
  have hends : specifier.toList ++ ("][target-".toList ++ (target.toList ++ "]".toList)) =
      other.toList ++ ("][target-".toList ++ (target.toList ++ "]".toList)) := by simpa using h
  exact List.append_cancel_right hends

/-- What a load finds in the cache. -/
def found? (c : ModuleCache) (w : RemoteWorld) (specifier target : String) (s : RemoteState) :
    Option SourceModule := (c.get w specifier target s).1

/-- How long a call to the table lasts. -/
def delay (c : ModuleCache) (h : CallHealth) : Nat := if h = .silent then c.timeout else 0

/-- Looking into the cache changes the clock only. -/
theorem get_eq : c.get w specifier target s =
    (c.found? w specifier target s, { s with now := s.now + c.delay w.health.get }) := by
  cases h : w.health.get <;> simp [found?, get, call, delay, h]

/-- What is found is what the table has, if it can be read. -/
theorem found?_congr (h : w.health.get = .sound →
      s.table.get? s.now (c.key specifier target) = s'.table.get? s'.now (c.key specifier target)) :
    c.found? w specifier target s = c.found? w specifier target s' := by
  cases hget : w.health.get with
  | sound => simp [found?, get, call, hget, h hget]
  | failing => simp [found?, get, call, hget]
  | silent => simp [found?, get, call, hget]

/-- How long it takes to put a module into the cache. -/
def setDelay (c : ModuleCache) (w : RemoteWorld) (m : SourceModule) : Nat :=
  if Lifetime.ofHeaders m.headers ≤ 0 then 0
  else if w.health.set = .sound then c.delay w.health.expire
  else c.delay w.health.set

/-- Putting a module into the cache takes its time. -/
theorem now_set {m : SourceModule} : (c.set w specifier target m s).now = s.now + c.setDelay w m := by
  unfold set setDelay
  by_cases hold : Lifetime.ofHeaders m.headers ≤ 0
  · simp [hold]
  · cases w.health.set with
    | sound => cases w.health.expire <;> simp [hold, call, delay]
    | failing => simp [hold, call, delay]
    | silent => simp [hold, call, delay]

/-- Putting a module into the cache leaves the entries of other specifiers. -/
theorem get?_table_set {m : SourceModule} {now : Nat} (h : other ≠ specifier) :
    (c.set w specifier target m s).table.get? now (c.key other target) = s.table.get? now (c.key other target) := by
  have hkey : c.key other target ≠ c.key specifier target := fun hkey => h (key_injective hkey)
  unfold set
  by_cases hold : Lifetime.ofHeaders m.headers ≤ 0
  · simp [hold]
  · cases w.health.set with
    | sound =>
      cases w.health.expire <;> simp [hold, call, KeyTable.get?_set hkey, KeyTable.get?_expire hkey]
    | failing => simp [hold, call]
    | silent => simp [hold, call]

/-- The answer to a load that may last for some time, with what was found in the cache. -/
def answer (c : ModuleCache) (w : RemoteWorld) (timeout : Nat) (specifier : String) (found : Option SourceModule) :
    FetchAnswer :=
  if timeout < c.delay w.health.get then .silent
  else
    match found with
    | some m => .answered (.ok m)
    | none =>
      match w.fetch specifier with
      | .silent => .silent
      | .answered (.error e) => .answered (.error e)
      | .answered (.ok m) => if timeout < c.delay w.health.get + c.setDelay w m then .silent else .answered (.ok m)

/-- **A load only sees its own entry**: the answer follows from what is found under the specifier. -/
theorem load_fst {timeout : Nat} :
    (c.load w (some (s.now + timeout)) specifier target s).1 =
      c.answer w timeout specifier (c.found? w specifier target s) := by
  have hpast : ∀ (delay : Nat) (after : RemoteState), after.now = s.now + delay →
      isPast (some (s.now + timeout)) after = decide (timeout < delay) := by
    intro delay after hafter
    simp [isPast, hafter]
  rw [load, get_eq]
  unfold answer
  simp only [hpast _ { s with now := s.now + c.delay w.health.get } rfl]
  by_cases hlate : timeout < c.delay w.health.get
  · simp [hlate]
  · simp only [hlate, decide_false, Bool.false_eq_true, if_false]
    cases c.found? w specifier target s with
    | some m => rfl
    | none =>
      cases hfetch : w.fetch specifier with
      | silent => simp [ask, hfetch]
      | answered outcome =>
        cases outcome with
        | error e => simp [ask, hfetch]
        | ok m =>
          simp only [ask, hfetch]
          rw [hpast (c.delay w.health.get + c.setDelay w m) _ (by rw [now_set, Nat.add_assoc])]
          by_cases hslow : timeout < c.delay w.health.get + c.setDelay w m <;> simp [hslow]

/-- With the same module found, the same answer comes within the same time. -/
theorem load_fst_congr {timeout : Nat} (h : c.found? w specifier target s = c.found? w specifier target s') :
    (c.load w (some (s.now + timeout)) specifier target s).1 =
      (c.load w (some (s'.now + timeout)) specifier target s').1 := by
  rw [load_fst, load_fst, h]

/-- A load that is answered takes no time when the table is read, and leaves the entries of others. -/
theorem load_snd {limit : Option Nat} {answer : Except FetchError SourceModule} (hsteady : w.health.IsSteady)
    (hget : w.health.get = .sound) (hother : other ≠ specifier)
    (h : (c.load w limit specifier target s).1 = .answered answer) :
    (c.load w limit specifier target s).2.now = s.now ∧
      (c.load w limit specifier target s).2.table.get? s.now (c.key other target) =
        s.table.get? s.now (c.key other target) := by
  obtain ⟨hset, hexpire⟩ := hsteady hget
  have hdelay : c.delay w.health.get = 0 := by simp [delay, hget]
  have hsetDelay : ∀ m, c.setDelay w m = 0 := by
    intro m
    simp [setDelay, delay, hset, hexpire]
  rw [load, get_eq, hdelay] at h ⊢
  simp only [Nat.add_zero] at h ⊢
  by_cases hpast : isPast limit s
  · simp [hpast] at h
  · simp only [hpast, Bool.false_eq_true, if_false] at h ⊢
    cases hfound : c.found? w specifier target s with
    | some m => exact ⟨rfl, rfl⟩
    | none =>
      rw [hfound] at h
      cases hfetch : w.fetch specifier with
      | silent => simp [ask, hfetch] at h
      | answered outcome =>
        cases outcome with
        | error e => simp [ask, hfetch]
        | ok m =>
          simp only [ask, hfetch] at h ⊢
          by_cases hslow : isPast limit (c.set w specifier target m { s with asked := s.asked ++ [specifier] })
          · simp [hslow] at h
          · simp only [hslow, Bool.false_eq_true, if_false]
            exact ⟨by rw [now_set, hsetDelay, Nat.add_zero], get?_table_set hother⟩

end ModuleCache

namespace BuildContext

variable {c : BuildContext} {around : Surroundings} {url : Url} {loaded : Loaded} {w w' : LoadState}

/-- What a build finds in the cache under a specifier. -/
def found? (c : BuildContext) (around : Surroundings) (specifier : String) (w : LoadState) : Option SourceModule :=
  c.cache.found? around.remote specifier c.target w.remote

/-- **What a load brings depends on its URL** and on what is found in the cache under it. -/
theorem load_fst_congr (h : c.found? around url.text w = c.found? around url.text w') :
    (c.load around url w).1 = (c.load around url w').1 := by
  unfold load
  cases c.namespaces.classify url with
  | none => rfl
  | some k =>
    cases k with
    | external => rfl
    | app => rfl
    | framework => rfl
    | platformRemote =>
      cases hfetch : around.remote.fetch url.text with
      | silent => simp [loadPlatform, ModuleCache.ask, hfetch]
      | answered outcome => simp [loadPlatform, ModuleCache.ask, hfetch]
    | remote =>
      simp only [loadRemote, deadline, ModuleCache.load_fst_congr h]

/-- **A successful load leaves what is found under other specifiers.** -/
theorem found?_load {specifier : String} (hsteady : around.remote.health.IsSteady) (hother : specifier ≠ url.text)
    (h : c.load around url w = (.ok loaded, w')) : c.found? around specifier w' = c.found? around specifier w := by
  refine ModuleCache.found?_congr fun hget => ?_
  unfold load at h
  cases hclass : c.namespaces.classify url with
  | none => simp [hclass] at h
  | some k =>
    simp only [hclass] at h
    cases k with
    | external =>
      obtain rfl : w = w' := congrArg Prod.snd h
      rfl
    | app =>
      obtain rfl : w = w' := congrArg Prod.snd h
      rfl
    | framework =>
      obtain rfl := congrArg Prod.snd h
      rfl
    | platformRemote =>
      obtain rfl := congrArg Prod.snd h
      cases hfetch : around.remote.fetch url.text with
      | silent => simp [loadPlatform, ModuleCache.ask, hfetch, inTime] at h
      | answered outcome => simp [loadPlatform, ModuleCache.ask, hfetch]
    | remote =>
      obtain rfl := congrArg Prod.snd h
      -- The outcome is a module, so the load was answered.
      cases hanswer : (c.cache.load around.remote (some (c.deadline w.remote)) url.text c.target w.remote).1 with
      | silent => simp [loadRemote, hanswer, inTime, Except.map] at h
      | answered outcome =>
        obtain ⟨hnow, htable⟩ := ModuleCache.load_snd hsteady hget hother hanswer
        simp only [loadRemote, hnow]
        exact htable

end BuildContext

end AppBundler
