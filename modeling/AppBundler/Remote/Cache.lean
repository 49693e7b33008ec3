import AppBundler.Json.Parser
import AppBundler.Json.Printer
import AppBundler.Remote.Lifetime
import AppBundler.Remote.Table
/-!
# The cache of remote modules

Fetched modules are kept in a table under a key made of their specifier and the target of the build, for as
long as their headers allow. The table may fail or not answer at all; to the cache that is the same as having
nothing, so that a module can always be fetched instead.
-/

namespace AppBundler

/-- How a call to the table ends. -/
inductive CallHealth where
  | sound
  | failing
  /-- It never ends, so that the limit for calls is waited for. -/
  | silent
deriving DecidableEq

/-- How the calls of the three kinds end. -/
structure TableHealth where
  get : CallHealth
  set : CallHealth
  expire : CallHealth

/-- All calls end in one way. -/
def TableHealth.all (h : CallHealth) : TableHealth := ⟨h, h, h⟩

/-- A module with the time at which it was put into the cache, in milliseconds of the calendar. -/
structure CacheRecord where
  module : SourceModule
  storedAt : Int

namespace CacheRecord

/-- A record as JSON. -/
def toJson (r : CacheRecord) : Json := .object [
  ("moduleRecord", r.module.toJson), ("cachedTimestamp", .int r.storedAt)]

/-- The text of a record. -/
def text (r : CacheRecord) : String := r.toJson.compact

/-- A time: an integer of 64 bits. -/
def time? (j : Json) : Option Int := j.int?.filter fun n => n < Int.pow 2 63

/-- The record that JSON stands for: an object, or an array of its fields in order. -/
def ofJson? : Json → Option CacheRecord
  | .object ms => do
    let module ← SourceModule.ofJson? (← Json.only? "moduleRecord" ms)
    let storedAt ← time? (← Json.only? "cachedTimestamp" ms)
    some ⟨module, storedAt⟩
  | .array [module, storedAt] => do some ⟨← SourceModule.ofJson? module, ← time? storedAt⟩
  | _ => none

/-- The record of a text. -/
def ofText? (s : String) : Option CacheRecord :=
  match Json.parseAsWritten s.toList with
  | .ok j => ofJson? j
  | .error _ => none

/-- The whole seconds since a record was stored. -/
def secondsSince (r : CacheRecord) (calendar : Int) : Int := max 0 (Lifetime.saturate (calendar - r.storedAt)) / 1000

/-- The module of a record, older by the time that has passed. -/
def aged (r : CacheRecord) (calendar : Int) : SourceModule :=
  let age := Lifetime.saturate ((Lifetime.age? r.module.headers).getD 0 + r.secondsSince calendar)
  { r.module with headers := putSorted "age" (toString age) r.module.headers }

end CacheRecord

/-- What loading remote modules changes. -/
structure RemoteState where
  table : KeyTable
  /-- Milliseconds on the clock of the table and of all limits. -/
  now : Nat
  /-- The URLs that were asked for, in order. -/
  asked : List String
deriving Inhabited

/-- What loading remote modules depends on. -/
structure RemoteWorld where
  fetch : Fetcher
  health : TableHealth
  /-- Milliseconds of the calendar. -/
  calendar : Int

/-- How a cache names and reaches its entries. -/
structure ModuleCache where
  nameSpace : String
  epoch : Nat
  /-- How many milliseconds a call to the table may take. -/
  timeout : Nat

namespace ModuleCache

/-- The usual cache. -/
def default : ModuleCache := ⟨"applet-modules", 1, Duration.seconds 5⟩

instance : Inhabited ModuleCache := ⟨default⟩

/-- The key of a module for a target. -/
def key (c : ModuleCache) (specifier target : String) : String :=
  c.nameSpace ++ "-" ++ toString c.epoch ++ "[" ++ specifier ++ "][target-" ++ target ++ "]"

/-- A call to the table: its effect when it succeeds, and the time when it does not end. -/
def call {α : Type} (c : ModuleCache) (h : CallHealth) (s : RemoteState) (effect : RemoteState → α × RemoteState) :
    Option α × RemoteState :=
  match h with
  | .sound => let (a, s) := effect s; (some a, s)
  | .failing => (none, s)
  | .silent => (none, { s with now := s.now + c.timeout })

/-- The module in the cache. -/
def get (c : ModuleCache) (w : RemoteWorld) (specifier target : String) (s : RemoteState) :
    Option SourceModule × RemoteState :=
  let (text, s) := c.call w.health.get s fun s => (s.table.get? s.now (c.key specifier target), s)
  ((text.join.bind CacheRecord.ofText?).map fun r => r.aged w.calendar, s)

/-- Puts a module into the cache unless it is too old. -/
def set (c : ModuleCache) (w : RemoteWorld) (specifier target : String) (m : SourceModule) (s : RemoteState) :
    RemoteState :=
  let lifetime := Lifetime.ofHeaders m.headers
  if lifetime ≤ 0 then s
  else
    let key := c.key specifier target
    let (done, s) := c.call w.health.set s fun s =>
      ((), { s with table := s.table.set key (CacheRecord.text ⟨m, w.calendar⟩) })
    match done with
    | none => s
    | some () =>
      (c.call w.health.expire s fun s =>
        let (found, table) := s.table.expire s.now key lifetime.toNat
        (found, { s with table := table })).2

/-- Asks for a URL. -/
def ask (w : RemoteWorld) (specifier : String) (s : RemoteState) : FetchAnswer × RemoteState :=
  (w.fetch specifier, { s with asked := s.asked ++ [specifier] })

/-- Whether a time is later than a limit. -/
def isPast (limit : Option Nat) (s : RemoteState) : Bool := limit.any fun t => t < s.now

/-- A state at a limit that was waited for. -/
def atLimit (limit : Option Nat) (s : RemoteState) : RemoteState := { s with now := limit.getD s.now }

/-- The module in the cache, or else the one that is fetched, which is put into the cache. No answer comes when
the fetcher gives none or the limit, a time on the clock, goes by before. -/
def load (c : ModuleCache) (w : RemoteWorld) (limit : Option Nat) (specifier target : String) (s : RemoteState) :
    FetchAnswer × RemoteState :=
  let (found, s) := c.get w specifier target s
  if isPast limit s then (.silent, atLimit limit s)
  else
    match found with
    | some m => (.answered (.ok m), s)
    | none =>
      match ask w specifier s with
      | (.silent, s) => (.silent, atLimit limit s)
      | (.answered (.error e), s) => (.answered (.error e), s)
      | (.answered (.ok m), s) =>
        let s := c.set w specifier target m s
        if isPast limit s then (.silent, atLimit limit s) else (.answered (.ok m), s)

end ModuleCache

end AppBundler
