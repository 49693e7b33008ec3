/-!
# A table with expiry

Texts are kept under keys. An entry may have a time, on the table's own clock, from which on it is gone.
-/

namespace AppBundler

/-- A text and when it expires; without a time it never does. -/
structure TableEntry where
  value : String
  expiresAt : Option Nat
deriving DecidableEq

/-- Texts under keys, each of which stands there once. -/
structure KeyTable where
  entries : List (String × TableEntry)
deriving DecidableEq, Inhabited

namespace KeyTable

/-- Whether an entry is there at a time. -/
def isLive (now : Nat) (e : TableEntry) : Bool := e.expiresAt.all fun t => now < t

/-- The entry under a key at a time. -/
def live? (t : KeyTable) (now : Nat) (key : String) : Option TableEntry :=
  (t.entries.find? fun e => e.1 = key && isLive now e.2).map (·.2)

/-- The text under a key at a time. -/
def get? (t : KeyTable) (now : Nat) (key : String) : Option String := (t.live? now key).map (·.value)

/-- Puts an entry in place of what was under a key. -/
def put (t : KeyTable) (key : String) (entry : TableEntry) : KeyTable :=
  ⟨(key, entry) :: t.entries.filter fun e => e.1 ≠ key⟩

/-- Puts a text that does not expire in place of what was under a key. -/
def set (t : KeyTable) (key value : String) : KeyTable := t.put key ⟨value, none⟩

/-- Seconds from which on a time cannot be told, so that an entry never expires. -/
def untellable : Nat := Nat.pow 2 63 - Nat.pow 2 32

/-- Lets the entry under a key expire after some seconds; says whether there is one. -/
def expire (t : KeyTable) (now : Nat) (key : String) (seconds : Nat) : Bool × KeyTable :=
  match t.live? now key with
  | none => (false, t)
  | some e => (true, t.put key ⟨e.value, if untellable ≤ seconds then none else some (now + 1000 * seconds)⟩)

/-- The milliseconds that the entry under a key still has; none when it does not expire. -/
def remaining? (t : KeyTable) (now : Nat) (key : String) : Option Nat :=
  ((t.live? now key).bind (·.expiresAt)).map fun time => time - now

/-- The number of entries at a time. -/
def size (t : KeyTable) (now : Nat) : Nat := (t.entries.filter fun e => isLive now e.2).length

end KeyTable

end AppBundler
