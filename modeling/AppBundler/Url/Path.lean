import AppBundler.Url.Encoding
/-!
# Paths of URLs

A path is read character by character. When a segment ends, a segment of one point is dropped and one of two
points takes the segment before it away. The path of a local file may begin with the letter of a drive, which
is never taken away.
-/

namespace AppBundler

namespace Url

/-- What the rules for a path depend on. -/
structure PathRules where
  /-- The scheme is one of those with fixed rules, where a backslash counts as a slash. -/
  special : Bool
  /-- The path is one of a local file. -/
  file : Bool

/-- A path while it is read. -/
structure PathState where
  path : List Char
  /-- How many characters stand before the segment that is being read. -/
  segmentStart : Nat
  /-- Whether a drive was met that takes the host's place. -/
  drive : Bool

/-- The path with more text at its end. -/
def PathState.add (s : PathState) (text : List Char) : PathState := { s with path := s.path ++ text }

/-- A tab or a line end. They may stand anywhere in a URL and are no part of it. -/
def isBreak (c : Char) : Bool := c = '\t' || c = '\n' || c = '\r'

/-- A drive: a letter and a colon or a bar. -/
def isDrive : List Char → Bool
  | [a, b] => a.isAlpha && (b = ':' || b = '|')
  | _ => false

/-- A drive written with a colon. -/
def isNormalDrive : List Char → Bool
  | [a, b] => a.isAlpha && b = ':'
  | _ => false

/-- Whether a text begins with a drive that is a whole segment. -/
def beginsWithDrive : List Char → Bool
  | a :: b :: r =>
    isDrive [a, b] && match r with
      | [] => true
      | c :: _ => ['/', '\\', '?', '#'].contains c
  | _ => false

/-- A path up to its last slash. -/
def upToLastSlash (path : List Char) : List Char := (path.reverse.dropWhile (· ≠ '/')).reverse

/-- What follows the last slash of a path. -/
def afterLastSlash (path : List Char) : List Char := (path.reverse.takeWhile (· ≠ '/')).reverse

/-- Takes the last segment away, unless it is a drive. -/
def popSegment (rules : PathRules) (path : List Char) : List Char :=
  if rules.file && isNormalDrive (afterLastSlash path) then path else upToLastSlash path

/-- Takes the last segment away, unless it is a drive or there is none. -/
def shorten (rules : PathRules) (path : List Char) : List Char :=
  if path.isEmpty || (rules.file && isNormalDrive path) then path else popSegment rules path

/-- Whether the slash at the end of a path is neither its first one nor that of a drive. -/
def lastSlashIsRemovable (path : List Char) : Bool :=
  let before := path.dropLast
  let root := upToLastSlash before
  !root.isEmpty && !beginsWithDrive (path.drop root.length)

/-- The spellings of a segment of two points. -/
def doubleDots : List String :=
  ["..", "%2e%2e", "%2e%2E", "%2E%2e", "%2E%2E", "%2e.", "%2E.", ".%2e", ".%2E"]

/-- The spellings of a segment of one point. -/
def singleDots : List String := [".", "%2e", "%2E"]

/-- A path with a slash at its end. -/
def closeWithSlash (path : List Char) : List Char := if path.getLast? = some '/' then path else path ++ ['/']

/-- The path after a segment that ends with a slash or with the path. -/
def endSegment (rules : PathRules) (slash : Bool) (s : PathState) : PathState :=
  let segment := if slash then (s.path.drop s.segmentStart).dropLast else s.path.drop s.segmentStart
  let before := s.path.take s.segmentStart
  if doubleDots.contains (String.ofList segment) then
    let trimmed :=
      if before.getLast? = some '/' && lastSlashIsRemovable before then before.dropLast else before
    let shortened := shorten rules trimmed
    { s with path := if slash then closeWithSlash shortened else shortened }
  else if singleDots.contains (String.ofList segment) then { s with path := closeWithSlash before }
  else if rules.file && s.segmentStart = 1 && isDrive segment then
    ⟨before ++ segment.take 1 ++ [':'] ++ (if slash then ['/'] else []), s.segmentStart, true⟩
  else s

/-- Closes the path of a local file with a slash when it is a drive and nothing else. -/
def closeDrive (rules : PathRules) (s : PathState) : PathState :=
  if rules.file && isNormalDrive (s.path.drop 1) then ⟨s.path ++ ['/'], s.segmentStart + 1, s.drive⟩ else s

/-- Reads a path to its end or to the query or fragment. What was read of a segment waits in `pending` until
the segment ends or a break stands in it, so a drive is closed only where the path was begun with it or where
a break follows it. -/
def readPath (rules : PathRules) (s : PathState) (pending : List Char) : List Char → PathState × List Char
  | [] => (endSegment rules false (s.add pending), [])
  | c :: r =>
    if isBreak c then readPath rules (s.add pending) [] r
    else if c = '?' || c = '#' then (endSegment rules false (s.add pending), c :: r)
    else if c = '/' || (rules.special && c = '\\') then
      let s := endSegment rules true (s.add (pending ++ ['/']))
      readPath rules { s with segmentStart := s.path.length } [] r
    else readPath rules (closeDrive rules s) (pending ++ encodeChar pathSet c) r

/-- Reads on from a path that was begun. The path of a local file has one slash in front. -/
def continuePath (rules : PathRules) (path : List Char) (s : List Char) : PathState × List Char :=
  let (state, rest) := readPath rules ⟨path, path.length, false⟩ [] s
  if rules.file then ({ state with path := '/' :: state.path.dropWhile (· = '/') }, rest)
  else (state, rest)

end Url

end AppBundler
