import AppBundler.Url.Basic
import AppBundler.Url.Host
import AppBundler.Url.Path
/-!
# Reading URLs

A text that begins with a scheme is a URL by itself; any other is read relative to a base. Characters that
may not stand in a part are encoded, so that the text of a URL that was read is again a URL.
-/

namespace AppBundler

namespace Url

/-- A failed or successful reading. -/
abbrev Result := Except UrlError

/-! ## Cleaning and splitting -/

/-- A control character or the blank. -/
def isTrimmed (c : Char) : Bool := c.toNat ≤ 0x20

/-- The text without controls and blanks around it. -/
def trimmed (s : List Char) : List Char := ((s.dropWhile isTrimmed).reverse.dropWhile isTrimmed).reverse

/-- The text without tabs and line ends in it. -/
def withoutBreaks (s : List Char) : List Char := s.filter fun c => !isBreak c

/-- What follows the first character that is no break. -/
def afterNext (s : List Char) : List Char := (s.dropWhile isBreak).drop 1

/-- Characters that a scheme may go on with. -/
def isSchemeChar (c : Char) : Bool := c.isAlphanum || c = '+' || c = '-' || c = '.'

/-- The scheme of a text, in lower case, and what follows its colon. -/
def scheme? (s : List Char) : Option (String × List Char) :=
  match s with
  | [] => none
  | c :: _ =>
    if !c.isAlpha then none
    else
      match s.dropWhile isSchemeChar with
      | ':' :: r => some (String.ofList ((s.takeWhile isSchemeChar).map Char.toLower), r)
      | _ => none

/-- The rules for the path of a scheme. -/
def rulesFor (scheme : String) : PathRules := ⟨isSpecialScheme scheme, scheme = "file"⟩

/-- A slash, or a backslash where it counts as one. -/
def isSlash (special : Bool) (c : Char) : Bool := c = '/' || (special && c = '\\')

/-- The character that ends an authority. -/
def endsAuthority (special : Bool) (c : Char) : Bool := isSlash special c || c = '?' || c = '#'

/-! ## Query and fragment -/

/-- The fragment after its sign. -/
def readFragment (s : List Char) : String := String.ofList (s.flatMap (encodeChar fragmentSet))

/-- The URL with the query and the fragment that the rest of the text spells. -/
def withQueryAndFragment (u : Url) (s : List Char) : Url :=
  let (query, s) := match withoutBreaks s with
    | '?' :: r =>
      let set := querySet (isSpecialScheme u.scheme)
      (some (String.ofList ((r.takeWhile (· ≠ '#')).flatMap (encodeChar set))), r.dropWhile (· ≠ '#'))
    | s => (none, s)
  let fragment := match s with
    | '#' :: r => some (readFragment r)
    | _ => none
  { u with query := query, fragment := fragment }

/-! ## Authority -/

/-- The part up to the last sign of a user name before the authority ends, and what follows it. -/
def splitUserinfo (special : Bool) (s : List Char) : Option (List Char) × List Char :=
  let authority := s.takeWhile fun c => !endsAuthority special c
  let rest := s.dropWhile fun c => !endsAuthority special c
  if authority.contains '@' then
    let host := (authority.reverse.takeWhile (· ≠ '@')).reverse
    (some (authority.take (authority.length - host.length - 1)), host ++ rest)
  else (none, s)

/-- The written form of a user name and a password. An empty password is left out with its colon. -/
def userinfoText (s : List Char) : List Char :=
  let encode (cs : List Char) := cs.flatMap (encodeChar userinfoSet)
  let name := s.takeWhile (· ≠ ':')
  let password := (s.dropWhile (· ≠ ':')).drop 1
  let text := encode name ++ if password.isEmpty then [] else ':' :: encode password
  if text.isEmpty then [] else text ++ ['@']

/-- The part of an authority that is its host: colons count inside brackets only. -/
def splitHost (special inBrackets : Bool) : List Char → List Char × List Char
  | [] => ([], [])
  | c :: r =>
    if endsAuthority special c || (c = ':' && !inBrackets) then ([], c :: r)
    else
      let inside := if c = '[' then true else if c = ']' then false else inBrackets
      let (host, rest) := splitHost special inside r
      (c :: host, rest)

/-- The number after the colon of an authority; none when it is missing or the usual one. -/
def readPort (scheme : String) (s : List Char) : Result (Option Nat × List Char) :=
  let digits := s.takeWhile Char.isDigit
  let rest := s.dropWhile Char.isDigit
  let number := digits.foldl (fun n c => n * 10 + (c.toNat - 48)) 0
  let closed := match rest with
    | [] => true
    | c :: _ => endsAuthority true c
  if 65535 < number || !closed then .error .invalidPort
  else if digits.isEmpty || some number = defaultPort? scheme then .ok (none, rest)
  else .ok (some number, rest)

/-- The path that follows an authority. -/
def pathAfterAuthority (rules : PathRules) (s : List Char) : PathState × List Char :=
  if rules.special then
    match s with
    | c :: r => continuePath rules ['/'] (if isSlash true c then r else c :: r)
    | [] => continuePath rules ['/'] []
  else
    match s with
    | [] => continuePath rules [] []
    | c :: r =>
      if c = '?' || c = '#' then (⟨[], 0, false⟩, c :: r)
      else continuePath rules (if c = '/' then [] else ['/']) (c :: r)

/-- A URL from its authority on, whose slashes have been read. -/
def readAuthority (scheme : String) (s : List Char) : Result Url := do
  let rules := rulesFor scheme
  let (userinfo, afterUser) := splitUserinfo rules.special s
  if userinfo = some [] && afterUser.head?.any (endsAuthority rules.special) then .error .emptyHost
  else
    let user := (userinfo.map userinfoText).getD []
    let (hostText, rest) := splitHost rules.special false afterUser
    if rules.special && hostText.isEmpty then .error .emptyHost
    else
      let host ← if rules.special then parseHost hostText else parseOpaqueHost hostText
      if host.isEmpty && rest.head? = some ':' then .error .emptyHost
      else
        let (number, rest) ← match rest with
          | ':' :: r => readPort scheme r
          | r => .ok (none, r)
        if host.isEmpty && !user.isEmpty then .error .emptyHost
        else
          let (path, rest) := pathAfterAuthority rules rest
          let authority : Authority := ⟨String.ofList user, String.ofList host, number⟩
          .ok (withQueryAndFragment ⟨scheme, some authority, String.ofList path.path, none, none⟩ rest)

/-! ## Local files

Breaks are kept while the URL of a local file is read, because a break in its path ends a drive.
-/

/-- A URL of a local file with a host and a path. -/
def fileUrl (host : List Char) (path rest : List Char) : Url :=
  withQueryAndFragment ⟨"file", some ⟨"", String.ofList host, none⟩, String.ofList path, none, none⟩ rest

/-- A URL of a local file after two slashes. A drive in place of the host belongs to the path. -/
def readFileHost (s : List Char) : Result Url := do
  let rules := rulesFor "file"
  let hostText := withoutBreaks (s.takeWhile fun c => !endsAuthority true c)
  let (hostText, rest) :=
    if isDrive hostText then ([], s) else (hostText, s.dropWhile fun c => !endsAuthority true c)
  let host ← if hostText.isEmpty then .ok [] else parseHost hostText
  if host.isEmpty || host = ['l', 'o', 'c', 'a', 'l', 'h', 'o', 's', 't'] then
    let (path, rest) := continuePath rules ['/'] rest
    .ok (fileUrl [] path.path rest)
  else
    let (path, rest) := pathAfterAuthority rules rest
    .ok (fileUrl (if path.drive then [] else host) path.path rest)

/-- The first segment of a path. -/
def firstSegment (path : String) : List Char := (path.toList.drop 1).takeWhile (· ≠ '/')

/-- A URL of a local file after one slash. It keeps the drive, or else the host, of its base. -/
def readFilePath (base : Option Url) (s : List Char) : Url :=
  let rules := rulesFor "file"
  let (host, start) := match base with
    | some b =>
      if beginsWithDrive (withoutBreaks (afterNext s)) then ([], [])
      else if isNormalDrive (firstSegment b.path) then ([], '/' :: firstSegment b.path)
      else ((b.host?.getD "").toList, [])
    | none => ([], [])
  let (path, rest) := continuePath rules start s
  fileUrl host path.path rest

/-- A URL of a local file that is named relative to a base, or to the root. -/
def readFileRelative (base : Option Url) (s : List Char) : Url :=
  let rules := rulesFor "file"
  match base with
  | none =>
    let (path, rest) := continuePath rules ['/'] s
    fileUrl [] path.path rest
  | some b =>
    match withoutBreaks s with
    | [] => { b with fragment := none }
    | '#' :: r => { b with fragment := some (readFragment r) }
    | '?' :: r => withQueryAndFragment b ('?' :: r)
    | plain =>
      if beginsWithDrive plain then
        let (path, rest) := continuePath rules ['/'] s
        fileUrl [] path.path rest
      else
        let (path, rest) := continuePath rules (shorten rules b.path.toList) s
        withQueryAndFragment { b with path := String.ofList path.path } rest

/-- A URL of a local file after its scheme, or without one. -/
def readFile (base : Option Url) (s : List Char) : Result Url :=
  match (withoutBreaks s).takeWhile (isSlash true) with
  | [] => .ok (readFileRelative base s)
  | [_] => .ok (readFilePath base s)
  | _ => readFileHost (afterNext (afterNext s))

/-! ## Other URLs -/

/-- A URL of a scheme without fixed rules, after the scheme. -/
def readOther (scheme : String) (s : List Char) : Result Url :=
  match s with
  | '/' :: '/' :: r => readAuthority scheme r
  | '/' :: r =>
    let (path, rest) := continuePath (rulesFor scheme) ['/'] r
    .ok (withQueryAndFragment ⟨scheme, none, String.ofList path.path, none, none⟩ rest)
  | s =>
    let opaquePath := s.takeWhile fun c => c ≠ '?' && c ≠ '#'
    let rest := s.dropWhile fun c => c ≠ '?' && c ≠ '#'
    let path := String.ofList (opaquePath.flatMap (encodeChar []))
    .ok (withQueryAndFragment ⟨scheme, none, path, none, none⟩ rest)

/-- A URL relative to a base that is no local file. -/
def readRelative (base : Url) (s : List Char) : Result Url :=
  let rules := rulesFor base.scheme
  match s with
  | [] => .ok { base with fragment := none }
  | '?' :: _ => .ok (withQueryAndFragment base s)
  | '#' :: r => .ok { base with fragment := some (readFragment r) }
  | c :: r =>
    if c = '/' || c = '\\' then
      let slashes := s.takeWhile fun c => c = '/' || c = '\\'
      if 2 ≤ slashes.length then
        match s with
        | '/' :: '/' :: r => readAuthority base.scheme r
        | s => readAuthority base.scheme (s.drop slashes.length)
      else
        let (path, rest) := continuePath rules ['/'] r
        .ok (withQueryAndFragment { base with path := String.ofList path.path } rest)
    else
      let kept := popSegment rules base.path.toList
      let (path, rest) := continuePath rules (if kept.isEmpty then ['/'] else kept) s
      .ok (withQueryAndFragment { base with path := String.ofList path.path } rest)

/-- A URL after its scheme, which is none of a local file. -/
def readAfterScheme (base : Option Url) (scheme : String) (s : List Char) : Result Url :=
  if hostSchemes.contains scheme then
    let slashes := s.takeWhile fun c => c = '/' || c = '\\'
    match base with
    | some b =>
      if slashes.length < 2 && b.scheme = scheme then readRelative b s
      else readAuthority scheme (s.drop slashes.length)
    | none => readAuthority scheme (s.drop slashes.length)
  else readOther scheme s

/-- The URL that a text stands for, relative to a base if there is one. -/
def read (base : Option Url) (text : String) : Result Url :=
  let s := trimmed text.toList
  let plain := withoutBreaks s
  match scheme? plain with
  | some (scheme, rest) =>
    if scheme = "file" then
      readFile (base.filter fun b => b.scheme = "file") ((s.dropWhile (· ≠ ':')).drop 1)
    else readAfterScheme base scheme rest
  | none =>
    match base with
    | none => .error .relativeWithoutBase
    | some b =>
      if b.isOpaque then
        match plain with
        | '#' :: r => .ok { b with fragment := some (readFragment r) }
        | _ => .error .relativeWithOpaqueBase
      else if b.scheme = "file" then readFile (some b) s
      else readRelative b plain

/-- The URL that a text stands for by itself. -/
def parse (text : String) : Result Url := read none text

/-- The URL that a text stands for when it is found in another. -/
def join (base : Url) (text : String) : Result Url := read (some base) text

end Url

end AppBundler
