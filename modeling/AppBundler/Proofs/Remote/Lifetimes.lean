import AppBundler.Proofs.Number.Digits
import AppBundler.Proofs.Remote.Expiry
import AppBundler.Proofs.Text.Parts
/-!
# Lifetimes are exact

The headers of a module allow an age when a directive for caches gives one, and they tell the age that the module already
has. Both are said here of the text of the headers: directives stand between commas, each has its name before the first
equals sign, and a number is made of digits and a sign, with a value of 64 bits. This is what is read from headers, and
the lifetime of a module is the exact difference of the two ages between the least number of 64 bits and one year.

A module is put into the cache by calls to the table. There are none of them exactly when its lifetime is not positive.
-/

namespace AppBundler

variable {headers : List (String × String)} {a m : Int}

namespace Lifetime

/-! ## What headers say -/

/-- A text spells an integer of 64 bits. -/
def SpellsInt64 (s : List Char) (n : Int) : Prop := Number.SpellsInteger 10 s n ∧ -2 ^ 63 ≤ n ∧ n < 2 ^ 63

/-- A directive gives a longest age behind its first equals sign. The name before it may be in letters of either case,
blanks may stand around both, and quotes around the number. -/
def GivesMaxAge (directive : List Char) (m : Int) : Prop :=
  ∃ before behind name value number, directive = before ++ '=' :: behind ∧ '=' ∉ before ∧
    Text.IsStripped isBlank before name ∧ name.map Char.toLower = "max-age".toList ∧
    Text.IsStripped isBlank behind value ∧ Text.IsStripped (· = '"') value number ∧ SpellsInt64 number m

/-- The first directive of the headers that gives a longest age gives this one. -/
def AllowsAge (headers : List (String × String)) (m : Int) : Prop :=
  ∃ text before directive behind, headerIn? headers "cache-control" = some text ∧
    text.toList.splitOn ',' = before ++ directive :: behind ∧ (∀ d ∈ before, ∀ n, ¬ GivesMaxAge d n) ∧
    GivesMaxAge directive m

/-- The headers tell this age; blanks may stand around it. -/
def HasAge (headers : List (String × String)) (a : Int) : Prop :=
  ∃ text number, headerIn? headers "age" = some text ∧ Text.IsStripped isBlank text.toList number ∧
    SpellsInt64 number a

/-! ## What is read from them -/

theorem int64?_ten_iff {s : List Char} {n : Int} : Number.int64? 10 s = some n ↔ SpellsInt64 s n :=
  Number.int64?_eq_some_iff (by decide)

theorem unquoted_eq_iff {s t : List Char} : unquoted s = t ↔ Text.IsStripped (· = '"') s t := Text.isStripped_iff.symm

theorem maxAgeOf?_eq_some_iff {directive : List Char} : maxAgeOf? directive = some m ↔ GivesMaxAge directive m := by
  constructor
  · intro h
    unfold maxAgeOf? at h
    split at h
    · rename_i before behind hsplit
      obtain ⟨hdirective, hbefore⟩ := Text.splitOnce?_eq_some_iff.mp hsplit
      obtain ⟨hname, hread⟩ := Option.ite_none_right_eq_some.mp h
      exact ⟨before, behind, _, _, _, hdirective, hbefore, Text.trim_eq_iff.mp rfl, hname, Text.trim_eq_iff.mp rfl,
        unquoted_eq_iff.mp rfl, int64?_ten_iff.mp hread⟩
    · cases h
  · rintro ⟨before, behind, name, value, number, hdirective, hbefore, hstripped, hname, hvalue, hnumber, hspells⟩
    rw [maxAgeOf?, Text.splitOnce?_eq_some_iff.mpr ⟨hdirective, hbefore⟩]
    have hread := int64?_ten_iff.mpr hspells
    rw [← Text.trim_eq_iff] at hstripped hvalue
    rw [← unquoted_eq_iff] at hnumber
    subst hstripped hvalue hnumber
    exact (if_pos hname).trans hread

/-- **The longest age is read** from the first directive that gives one. -/
theorem allowsAge_iff : AllowsAge headers m ↔ (headerIn? headers "cache-control").bind maxAge? = some m := by
  have hnone (d : List Char) : maxAgeOf? d = none ↔ ∀ n, ¬ GivesMaxAge d n := by
    rw [Option.eq_none_iff_forall_ne_some]
    exact forall_congr' fun n => not_congr maxAgeOf?_eq_some_iff
  rw [AllowsAge, Option.bind_eq_some_iff]
  constructor
  · rintro ⟨text, before, directive, behind, htext, hsplit, hbefore, hgives⟩
    refine ⟨text, htext, ?_⟩
    rw [maxAge?, Text.splitAtChar_eq_splitOn, List.findSome?_eq_some_iff]
    exact ⟨before, directive, behind, hsplit, maxAgeOf?_eq_some_iff.mpr hgives, fun d hd =>
      (hnone d).mpr (hbefore d hd)⟩
  · rintro ⟨text, htext, hread⟩
    rw [maxAge?, Text.splitAtChar_eq_splitOn, List.findSome?_eq_some_iff] at hread
    obtain ⟨before, directive, behind, hsplit, hgives, hbefore⟩ := hread
    exact ⟨text, before, directive, behind, htext, hsplit, fun d hd => (hnone d).mp (hbefore d hd),
      maxAgeOf?_eq_some_iff.mp hgives⟩

/-- **The age is read** as it is told. -/
theorem hasAge_iff : HasAge headers a ↔ age? headers = some a := by
  rw [HasAge, age?, Option.bind_eq_some_iff]
  constructor
  · rintro ⟨text, number, htext, hstripped, hspells⟩
    obtain rfl := Text.trim_eq_iff.mpr hstripped
    exact ⟨text, htext, int64?_ten_iff.mpr hspells⟩
  · rintro ⟨text, htext, hread⟩
    exact ⟨text, Text.trim text.toList, htext, Text.trim_eq_iff.mp rfl, int64?_ten_iff.mp hread⟩

/-! ## The lifetime -/

/-- Of the range of 64 bits the upper end does not matter, as one year ends before it. -/
theorem min_saturate (n : Int) : min (saturate n) longest = min (max n (-2 ^ 63)) longest := by
  have hpow : Int.pow 2 63 = 2 ^ 63 := rfl
  have hlongest : longest = 31536000 := rfl
  rw [saturate, hpow, hlongest]
  omega

/-- **The lifetime is the exact difference** within its bounds. -/
theorem ofHeaders_eq_min (hage : HasAge headers a) (hmax : AllowsAge headers m) :
    ofHeaders headers = min (max (m - a) (-2 ^ 63)) longest := by
  rw [ofHeaders, allowsAge_iff.mp hmax, hasAge_iff.mp hage]
  exact min_saturate (m - a)

/-- **Without both ages the lifetime is the usual one.** -/
theorem ofHeaders_eq_usual (h : ¬ ∃ a m, HasAge headers a ∧ AllowsAge headers m) : ofHeaders headers = usual := by
  unfold ofHeaders
  split
  · rename_i m a hmax hage
    exact absurd ⟨a, m, hasAge_iff.mpr hage, allowsAge_iff.mpr hmax⟩ h
  · rfl

/-- No lifetime is below the range of 64 bits. -/
theorem le_ofHeaders (headers : List (String × String)) : -2 ^ 63 ≤ ofHeaders headers := by
  by_cases h : ∃ a m, HasAge headers a ∧ AllowsAge headers m
  · obtain ⟨a, m, hage, hmax⟩ := h
    rw [ofHeaders_eq_min hage hmax, longest]
    omega
  · rw [ofHeaders_eq_usual h, usual]
    omega

/-- **A lifetime does not grow** with the age of a module, and it does not shrink with the age that is allowed. -/
theorem ofHeaders_le_ofHeaders {headers' : List (String × String)} {a' m' : Int} (hage : HasAge headers a)
    (hmax : AllowsAge headers m) (hage' : HasAge headers' a') (hmax' : AllowsAge headers' m') (ha : a' ≤ a)
    (hm : m ≤ m') : ofHeaders headers ≤ ofHeaders headers' := by
  rw [ofHeaders_eq_min hage hmax, ofHeaders_eq_min hage' hmax']
  omega

end Lifetime

/-! ## What is written -/

/-- A call that changes a table. -/
inductive TableWrite where
  | set (key text : String)
  | expire (key : String) (seconds : Nat)

namespace TableWrite

/-- How such a call ends. -/
def health (h : TableHealth) : TableWrite → CallHealth
  | set _ _ => h.set
  | expire _ _ => h.expire

/-- A table after such a call that ended well. -/
def apply (now : Nat) (t : KeyTable) : TableWrite → KeyTable
  | set key text => t.set key text
  | expire key seconds => (t.expire now key seconds).2

end TableWrite

namespace ModuleCache

open Lifetime

variable {c : ModuleCache} {w : RemoteWorld} {specifier target : String} {s : RemoteState} {module : SourceModule}
variable {calendar : Int}

/-- Calls to the table one after the other, up to the first one that does not end well. -/
def perform (c : ModuleCache) (h : TableHealth) (s : RemoteState) : List TableWrite → RemoteState
  | [] => s
  | write :: writes =>
    match c.call (write.health h) s fun s => ((), { s with table := write.apply s.now s.table }) with
    | (none, s) => s
    | (some (), s) => c.perform h s writes

/-- The calls that put a module into the cache. -/
def writes (c : ModuleCache) (calendar : Int) (specifier target : String) (module : SourceModule) : List TableWrite :=
  let key := c.key specifier target
  let lifetime := ofHeaders module.headers
  if 0 < lifetime then [.set key (CacheRecord.text ⟨module, calendar⟩), .expire key lifetime.toNat] else []

/-- Nothing is written of a module that may not stay. -/
theorem writes_eq_nil_iff : c.writes calendar specifier target module = [] ↔ ofHeaders module.headers ≤ 0 := by
  rw [writes]
  split
  · rename_i hpositive
    exact iff_of_false (List.cons_ne_nil _ _) (by omega)
  · rename_i hnot
    exact iff_of_true rfl (by omega)

/-- A table is told the lifetime as it is. -/
theorem eq_ofHeaders_of_expire_mem {key : String} {seconds : Nat}
    (h : TableWrite.expire key seconds ∈ c.writes calendar specifier target module) :
    (seconds : Int) = ofHeaders module.headers := by
  rw [writes] at h
  split at h
  · rename_i hpositive
    obtain ⟨-, rfl⟩ : _ ∧ seconds = (ofHeaders module.headers).toNat := by simpa using h
    exact Int.toNat_of_nonneg (le_of_lt hpositive)
  · cases h

/-- **Putting a module into the cache makes these calls**, however they end. -/
theorem set_eq_perform :
    c.set w specifier target module s = c.perform w.health s (c.writes w.calendar specifier target module) := by
  by_cases hold : ofHeaders module.headers ≤ 0
  · rw [writes_eq_nil_iff.mpr hold, set, if_pos hold, perform]
  · rw [set, if_neg hold, writes, if_pos (by omega)]
    cases hset : w.health.set with
    | sound =>
      cases hexpire : w.health.expire with
      | sound => simp [perform, TableWrite.health, TableWrite.apply, call, hset, hexpire]
      | failing => simp [perform, TableWrite.health, TableWrite.apply, call, hset, hexpire]
      | silent => simp [perform, TableWrite.health, TableWrite.apply, call, hset, hexpire]
    | failing => simp [perform, TableWrite.health, call, hset]
    | silent => simp [perform, TableWrite.health, call, hset]

/-- A table that answers shows whether something was written. -/
theorem set_eq_self_iff (hset : w.health.set = .sound) :
    (∀ s, c.set w specifier target module s = s) ↔ ofHeaders module.headers ≤ 0 := by
  constructor
  · intro hself
    by_contra hnot
    -- an empty table would have the record
    have hwrites : Writes w module := ⟨by omega, hset⟩
    have htable := congrArg RemoteState.table (hself ⟨⟨[]⟩, 0, []⟩)
    rw [table_set, writing?, if_pos hwrites] at htable
    exact absurd (congrArg KeyTable.entries htable) (List.cons_ne_nil _ _)
  · intro hold s
    rw [set_eq_perform, writes_eq_nil_iff.mpr hold, perform]

/-- **Lifetimes are exact and bounded**, and they decide what is written. -/
theorem lifetime_exact (headers : List (String × String)) :
    (-2 ^ 63 ≤ ofHeaders headers ∧ ofHeaders headers ≤ 31536000) ∧
    (∀ a m, HasAge headers a → AllowsAge headers m →
      ofHeaders headers = min (max (m - a) (-2 ^ 63)) 31536000 ∧
      ∀ headers' a' m', HasAge headers' a' → AllowsAge headers' m' → a ≤ a' → m' ≤ m →
        ofHeaders headers' ≤ ofHeaders headers) ∧
    ((¬ ∃ a m, HasAge headers a ∧ AllowsAge headers m) → ofHeaders headers = 604800) ∧
    ∀ (c : ModuleCache) (found content specifier target : String) (w : RemoteWorld),
      let module : SourceModule := ⟨found, headers, content⟩
      (∀ s, c.set w specifier target module s = c.perform w.health s (c.writes w.calendar specifier target module)) ∧
      (c.writes w.calendar specifier target module = [] ↔ ofHeaders headers ≤ 0) ∧
      (∀ (key : String) (seconds : Nat), .expire key seconds ∈ c.writes w.calendar specifier target module →
        (seconds : Int) = ofHeaders headers) ∧
      (w.health.set = .sound → ((∀ s, c.set w specifier target module s = s) ↔ ofHeaders headers ≤ 0)) := by
  refine ⟨⟨le_ofHeaders headers, ofHeaders_le_longest headers⟩, ?_, ofHeaders_eq_usual, ?_⟩
  · intro a m hage hmax
    refine ⟨ofHeaders_eq_min hage hmax, ?_⟩
    intro headers' a' m' hage' hmax' ha hm
    exact ofHeaders_le_ofHeaders hage' hmax' hage hmax ha hm
  · intro c found content specifier target w
    refine ⟨fun s => set_eq_perform, writes_eq_nil_iff, ?_, set_eq_self_iff⟩
    intro key seconds hmem
    exact eq_ofHeaders_of_expire_mem hmem

/-- The ends of the range of 64 bits meet, and the lifetime is one year. -/
example : ofHeaders [("age", "-1"), ("cache-control", "max-age=9223372036854775807")] = 31536000 := by decide +kernel

/-- A module whose headers have blanks, quotes and letters of either case, a directive that gives no number and one more
that does not count. The difference of its ages is below the range of 64 bits. -/
def oddScript : SourceModule where
  specifier := "https://x/a.js"
  headers := [("age", " +1\t"),
    ("cache-control", "public,max-age=soon, Max-Age = \"-9223372036854775808\" ,max-age=600")]
  content := "1;"

/-- It is not written into a table that answers. -/
theorem lifetime_exact_odd :
    HasAge oddScript.headers 1 ∧ AllowsAge oddScript.headers (-2 ^ 63) ∧ ofHeaders oddScript.headers = -2 ^ 63 ∧
      ∀ s, default.set ⟨Fetcher.offline, .all .sound, 0⟩ "https://x/a.js" "deno" oddScript s = s := by
  have hage : HasAge oddScript.headers 1 := hasAge_iff.mpr (by decide +kernel)
  have hmax : AllowsAge oddScript.headers (-2 ^ 63) := allowsAge_iff.mpr (by decide +kernel)
  obtain ⟨-, hexact, -, hwrites⟩ := lifetime_exact oddScript.headers
  have hlifetime : ofHeaders oddScript.headers = -2 ^ 63 := (hexact 1 (-2 ^ 63) hage hmax).1
  obtain ⟨-, -, -, hself⟩ :=
    hwrites default "https://x/a.js" "1;" "https://x/a.js" "deno" ⟨Fetcher.offline, .all .sound, 0⟩
  refine ⟨hage, hmax, hlifetime, (hself rfl).mpr ?_⟩
  rw [hlifetime]
  decide

end ModuleCache

end AppBundler
