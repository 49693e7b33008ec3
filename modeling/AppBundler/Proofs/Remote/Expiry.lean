import AppBundler.Proofs.Remote.Visits
/-!
# How long a cached module stays

A module is stored in two calls to the table: one puts its record there, without a time to expire, and the next one
sets that time. Either of them may fail or never end. `Storing` is what a call to the cache writes when the first of the
two ends well, and the entry under a key is always that of the last storing under it (`live?_afterCalls`). So an entry
has the time that its headers allow exactly when the second call ended well; when it did not, the record stays for good.

A call to the table that has its effect although its answer is lost is not a case of its own. When the record was put
there, the cache gives up, and the table is as after a second call that failed; when the time was set, it is as after
one that ended well.
-/

namespace AppBundler

namespace Lifetime

/-- No module may stay for more than one year. -/
theorem ofHeaders_le_longest (headers : List (String × String)) : ofHeaders headers ≤ longest := by
  unfold ofHeaders
  split
  · exact min_le_right _ _
  · decide

/-- The time at which an entry expires can be told. -/
theorem toNat_ofHeaders_lt_untellable (headers : List (String × String)) :
    (ofHeaders headers).toNat < KeyTable.untellable := by
  have hlongest : longest.toNat < KeyTable.untellable := by decide +kernel
  have hle := ofHeaders_le_longest headers
  omega

end Lifetime

namespace KeyTable

variable {t : KeyTable} {key : String} {now : Nat} {e e' : TableEntry}

/-- What was put under a key counts no more when something else is put there. -/
theorem put_put : (t.put key e).put key e' = t.put key e' := by
  simp [put, List.filter_filter]

/-- What is put under a key is there until it expires. -/
theorem live?_put_self : (t.put key e).live? now key = (some e).filter (isLive now) := by
  have hothers : (t.entries.filter fun e => e.1 ≠ key).find? (fun e => e.1 = key && isLive now e.2) = none := by
    rw [List.find?_eq_none]
    intro other hmem
    have hother : other.1 ≠ key := by simpa using (List.mem_filter.mp hmem).2
    simp [hother]
  rw [live?, put, List.find?_cons, Option.filter_some, hothers]
  cases hlive : isLive now e with
  | true => simp
  | false => simp

/-- A text that was just set gets its time to expire. -/
theorem expire_set {value : String} {seconds : Nat} (h : seconds < untellable) :
    (t.set key value).expire now key seconds = (true, t.put key ⟨value, some (now + 1000 * seconds)⟩) := by
  have hlive : (t.set key value).live? now key = some ⟨value, none⟩ := by
    rw [set, live?_put_self]
    rfl
  rw [expire, hlive]
  simp only [if_neg (Nat.not_le.mpr h), set, put_put]

end KeyTable

/-- What is asked of the cache. -/
inductive CacheRequest where
  | set (m : SourceModule)
  | get
  | load

/-- A call to the cache. -/
structure CacheCall where
  request : CacheRequest
  specifier : String
  target : String
  /-- Milliseconds that have gone by on the clock of the table since the call before. -/
  pause : Nat
  world : RemoteWorld

/-- A module that is written into the table. -/
structure Storing where
  module : SourceModule
  /-- Milliseconds of the calendar. -/
  calendar : Int
  /-- Milliseconds on the clock of the table. -/
  clock : Nat
  /-- How the call ends that lets the record expire. -/
  expire : CallHealth

namespace Storing

/-- The seconds for which the module may stay in the cache. -/
def lifetime (st : Storing) : Int := Lifetime.ofHeaders st.module.headers

/-- What is in the table then. -/
def entry (st : Storing) : TableEntry where
  value := CacheRecord.text ⟨st.module, st.calendar⟩
  expiresAt := if st.expire = .sound then some (st.clock + 1000 * st.lifetime.toNat) else none

/-- The last time at which a record may be there: its lifetime, and one year at most, after it was stored. -/
def deadline (st : Storing) : Nat := st.clock + 1000 * (min st.lifetime Lifetime.longest).toNat

end Storing

/-- An entry is gone from some time on that is not later than a deadline. -/
def TableEntry.ExpiresBy (e : TableEntry) (deadline : Nat) : Prop := ∃ time, e.expiresAt = some time ∧ time ≤ deadline

/-- **A record expires in time exactly when the table did what it was asked.** -/
theorem Storing.expiresBy_entry_iff {st : Storing} : st.entry.ExpiresBy st.deadline ↔ st.expire = .sound := by
  have hdeadline : st.deadline = st.clock + 1000 * st.lifetime.toNat := by
    rw [deadline, lifetime, min_eq_left (Lifetime.ofHeaders_le_longest _)]
  constructor
  · rintro ⟨time, htime, -⟩
    by_contra hfailed
    simp [entry, hfailed] at htime
  · intro hsound
    exact ⟨st.deadline, by simp [entry, hsound, hdeadline], le_refl _⟩

namespace ModuleCache

variable {c : ModuleCache} {w : RemoteWorld} {specifier target key : String} {s : RemoteState} {m : SourceModule}
variable {call : CacheCall} {calls : List CacheCall} {st : Storing}

instance : Decidable (Writes w m) := inferInstanceAs (Decidable (_ ∧ _))

/-- What is written when a module is put into the cache. -/
def writing? (w : RemoteWorld) (m : SourceModule) (clock : Nat) : Option Storing :=
  if Writes w m then some ⟨m, w.calendar, clock, w.health.expire⟩ else none

/-- A table after something was stored under a key. -/
def putStoring (t : KeyTable) (key : String) : Option Storing → KeyTable
  | none => t
  | some st => t.put key st.entry

/-- **Putting a module into the cache** leaves the table alone or puts one entry there. -/
theorem table_set : (c.set w specifier target m s).table =
    putStoring s.table (c.key specifier target) (writing? w m s.now) := by
  by_cases hwrites : Writes w m
  · have hsome : writing? w m s.now = some ⟨m, w.calendar, s.now, w.health.expire⟩ := if_pos hwrites
    obtain ⟨hlifetime, hset⟩ := hwrites
    rw [hsome, putStoring, Storing.entry, Storing.lifetime, ModuleCache.set, if_neg (by omega)]
    -- The record is put there first, and how the second call ends decides on its time.
    cases hexpire : w.health.expire with
    | sound =>
      simp [call, hset, KeyTable.expire_set (Lifetime.toNat_ofHeaders_lt_untellable m.headers)]
    | failing => simp [call, hset, KeyTable.set]
    | silent => simp [call, hset, KeyTable.set]
  · have hnone : writing? w m s.now = none := if_neg hwrites
    rw [hnone, putStoring, ModuleCache.set]
    by_cases hold : Lifetime.ofHeaders m.headers ≤ 0
    · rw [if_pos hold]
    · rw [if_neg hold]
      cases hset : w.health.set with
      | sound => exact absurd ⟨by omega, hset⟩ hwrites
      | failing => simp [call]
      | silent => simp [call]

/-! ## Calls one after the other -/

/-- The state after a call. -/
def afterCall (c : ModuleCache) (call : CacheCall) (s : RemoteState) : RemoteState :=
  let s := { s with now := s.now + call.pause }
  match call.request with
  | .set m => c.set call.world call.specifier call.target m s
  | .get => (c.get call.world call.specifier call.target s).2
  | .load => (c.load call.world none call.specifier call.target s).2

/-- The state after calls one after the other. -/
def afterCalls (c : ModuleCache) (s : RemoteState) (calls : List CacheCall) : RemoteState :=
  calls.foldl (fun s call => c.afterCall call s) s

/-- What a call stores: the module that it is given, or the one that it fetches as there is none in the cache. -/
def storing? (c : ModuleCache) (call : CacheCall) (s : RemoteState) : Option Storing :=
  let s := { s with now := s.now + call.pause }
  match call.request with
  | .set m => writing? call.world m s.now
  | .get => none
  | .load =>
    match c.found? call.world call.specifier call.target s, call.world.fetch call.specifier with
    | none, .answered (.ok m) => writing? call.world m (s.now + c.delay call.world.health.get)
    | _, _ => none

/-- What was stored last under a key. -/
def lastStoring? (c : ModuleCache) (key : String) : List CacheCall → RemoteState → Option Storing
  | [], _ => none
  | call :: calls, s =>
    lastStoring? c key calls (c.afterCall call s) <|>
      if c.key call.specifier call.target = key then c.storing? call s else none

/-- **What a call does to the table.** -/
theorem table_afterCall (c : ModuleCache) (call : CacheCall) (s : RemoteState) : (c.afterCall call s).table =
    putStoring s.table (c.key call.specifier call.target) (c.storing? call s) := by
  unfold afterCall storing?
  cases call.request with
  | set m => exact table_set
  | get =>
    simp only [get_eq]
    rfl
  | load =>
    -- Nothing is stored unless the module is missing and comes from the fetcher.
    simp only [load, get_eq, isPast, Option.any_none, Bool.false_eq_true, if_false]
    cases c.found? call.world call.specifier call.target { s with now := s.now + call.pause } with
    | some m => rfl
    | none =>
      simp only [ask]
      cases call.world.fetch call.specifier with
      | silent => rfl
      | answered outcome =>
        cases outcome with
        | error e => rfl
        | ok m => exact table_set

/-- **What is seen under a key after any calls** is what was stored there last, until it expires, or else what was there
before. -/
theorem live?_afterCalls (c : ModuleCache) (key : String) (now : Nat) (calls : List CacheCall) (s : RemoteState) :
    (c.afterCalls s calls).table.live? now key =
      match c.lastStoring? key calls s with
      | some st => (some st.entry).filter (KeyTable.isLive now)
      | none => s.table.live? now key := by
  induction calls generalizing s with
  | nil => rfl
  | cons call calls ih =>
    rw [afterCalls, List.foldl_cons]
    refine (ih (c.afterCall call s)).trans ?_
    rw [lastStoring?, table_afterCall]
    -- What is stored under the key by a later call counts more than what this call stores.
    cases c.lastStoring? key calls (c.afterCall call s) with
    | some st => rfl
    | none =>
      by_cases hkey : c.key call.specifier call.target = key
      · subst hkey
        cases c.storing? call s with
        | none => simp [putStoring]
        | some st => simp [putStoring, KeyTable.live?_put_self]
      · cases c.storing? call s with
        | none => simp [putStoring, hkey]
        | some st => simp [putStoring, hkey, KeyTable.live?_put (Ne.symm hkey)]

/-- **A cached module outlives its lifetime exactly when the call that should let it expire did not end well.** Of a
table that was empty, whatever was asked of the cache and whatever calls to the table failed, a record that can be read
is the one that was stored last under its key. It expires in time when the second call of that storing ended well, and
never when it did not. -/
theorem expiresBy_iff_of_live (hempty : s.table.entries = []) {now : Nat} {e : TableEntry}
    (hlive : (c.afterCalls s calls).table.live? now key = some e) :
    ∃ st, c.lastStoring? key calls s = some st ∧ e.value = CacheRecord.text ⟨st.module, st.calendar⟩ ∧
      (e.ExpiresBy st.deadline ↔ st.expire = .sound) ∧ (st.expire ≠ .sound → e.expiresAt = none) := by
  rw [live?_afterCalls] at hlive
  cases hlast : c.lastStoring? key calls s with
  | none =>
    rw [hlast] at hlive
    simp [KeyTable.live?, hempty] at hlive
  | some st =>
    rw [hlast] at hlive
    obtain ⟨he, -⟩ := Option.filter_eq_some_iff.mp hlive
    obtain rfl : st.entry = e := Option.some.inj he
    exact ⟨st, rfl, rfl, Storing.expiresBy_entry_iff, fun hfailed => if_neg hfailed⟩

/-- A module that may stay for 500 seconds. -/
def briefScript : SourceModule := ⟨"https://x/a.js", [("age", "100"), ("cache-control", "max-age=600")], "1;"⟩

/-- It is put into the cache, and the call that should let it expire fails. -/
def briefCall : CacheCall where
  request := .set briefScript
  specifier := "https://x/a.js"
  target := "deno"
  pause := 0
  world := ⟨Fetcher.offline, ⟨.sound, .sound, .failing⟩, 1000⟩

/-- Two seconds later the table cannot be read, so that the module is fetched and stored again. -/
def briefReload : CacheCall where
  request := .load
  specifier := "https://x/a.js"
  target := "deno"
  pause := 2000
  world := ⟨fun _ => .answered (.ok briefScript), ⟨.failing, .sound, .sound⟩, 3000⟩

theorem ofHeaders_briefScript : Lifetime.ofHeaders briefScript.headers = 500 := by decide +kernel

/-- The record that is stored again expires in time. -/
theorem expiresBy_iff_of_live_briefReload :
    ∃ e, (default.afterCalls ⟨⟨[]⟩, 0, []⟩ [briefCall, briefReload]).table.live? 3000
        (default.key "https://x/a.js" "deno") = some e ∧ e.ExpiresBy (2000 + 1000 * 500) := by
  have hlast : default.lastStoring? (default.key "https://x/a.js" "deno") [briefCall, briefReload] ⟨⟨[]⟩, 0, []⟩ =
      some ⟨briefScript, 3000, 2000, .sound⟩ := by
    simp [lastStoring?, storing?, writing?, Writes, briefCall, briefReload, found?, get, call, delay,
      ofHeaders_briefScript, afterCall, now_set, setDelay]
  have hlive : (default.afterCalls ⟨⟨[]⟩, 0, []⟩ [briefCall, briefReload]).table.live? 3000
      (default.key "https://x/a.js" "deno") = some (Storing.entry ⟨briefScript, 3000, 2000, .sound⟩) := by
    rw [live?_afterCalls, hlast]
    simp [Storing.entry, Storing.lifetime, ofHeaders_briefScript, KeyTable.isLive]
  obtain ⟨st, hst, -, hexpires, -⟩ := expiresBy_iff_of_live rfl hlive
  obtain rfl := Option.some.inj (hlast.symm.trans hst)
  refine ⟨_, hlive, ?_⟩
  have hdeadline := hexpires.mpr rfl
  rwa [Storing.deadline, Storing.lifetime, ofHeaders_briefScript] at hdeadline

/-- The record that was stored first would have been there for good. -/
theorem stays_for_good_briefCall :
    ∃ e, (∀ now, (default.afterCalls ⟨⟨[]⟩, 0, []⟩ [briefCall]).table.live? now
        (default.key "https://x/a.js" "deno") = some e) ∧
      ∃ st, default.lastStoring? (default.key "https://x/a.js" "deno") [briefCall] ⟨⟨[]⟩, 0, []⟩ = some st ∧
        e.value = CacheRecord.text ⟨st.module, st.calendar⟩ ∧ st.lifetime = 500 ∧ ¬ e.ExpiresBy st.deadline := by
  have hlast : default.lastStoring? (default.key "https://x/a.js" "deno") [briefCall] ⟨⟨[]⟩, 0, []⟩ =
      some ⟨briefScript, 1000, 0, .failing⟩ := by
    simp [lastStoring?, storing?, writing?, Writes, briefCall, ofHeaders_briefScript]
  refine ⟨Storing.entry ⟨briefScript, 1000, 0, .failing⟩, fun now => ?_, _, hlast, rfl, ofHeaders_briefScript, ?_⟩
  · rw [live?_afterCalls, hlast]
    simp [Storing.entry, KeyTable.isLive]
  · simp [Storing.expiresBy_entry_iff]

end ModuleCache

end AppBundler
