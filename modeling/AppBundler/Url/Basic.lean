/-!
# URLs

A URL is kept in its parts, each already in the form in which it is written. The text of a URL is put
together from them.
-/

namespace AppBundler

/-- What stands between the two slashes and the path. -/
structure Authority where
  /-- User name and password with the sign after them, or nothing. -/
  userinfo : String
  /-- Empty for the local file system. -/
  host : String
  /-- Left out when it is the usual one of the scheme. -/
  portNumber : Option Nat
deriving DecidableEq

/-- A parsed URL. -/
structure Url where
  scheme : String
  authority : Option Authority
  /-- Begins with a slash, is empty, or is opaque. -/
  path : String
  query : Option String
  fragment : Option String
deriving DecidableEq

/-- Why a text is no URL. -/
inductive UrlError where
  | relativeWithoutBase
  | relativeWithOpaqueBase
  | emptyHost
  | invalidPort
  | invalidIpv4
  | invalidIpv6
  | invalidDomain
  | invalidDomainCharacter
deriving DecidableEq

/-- The wording of an error. -/
def UrlError.message : UrlError → String
  | .relativeWithoutBase => "relative URL without a base"
  | .relativeWithOpaqueBase => "relative URL with a cannot-be-a-base base"
  | .emptyHost => "empty host"
  | .invalidPort => "invalid port number"
  | .invalidIpv4 => "invalid IPv4 address"
  | .invalidIpv6 => "invalid IPv6 address"
  | .invalidDomain => "invalid international domain name"
  | .invalidDomainCharacter => "invalid domain character"

namespace Url

/-- The schemes whose URLs always have an authority and a path, local files aside. -/
def hostSchemes : List String := ["http", "https", "ws", "wss", "ftp"]

/-- Whether a scheme is one of those with fixed rules. -/
def isSpecialScheme (scheme : String) : Bool := scheme = "file" || hostSchemes.contains scheme

/-- The usual number of a scheme. -/
def defaultPort? (scheme : String) : Option Nat :=
  if scheme = "http" || scheme = "ws" then some 80
  else if scheme = "https" || scheme = "wss" then some 443
  else if scheme = "ftp" then some 21
  else none

/-- The text of an authority with its slashes. -/
def authorityText (a : Authority) : String :=
  "//" ++ a.userinfo ++ a.host ++ a.portNumber.elim "" fun p => ":" ++ toString p

/-- The text up to the path. Without an authority, a path of two slashes is kept apart by a point. -/
def beforePath (u : Url) : String :=
  match u.authority with
  | some a => u.scheme ++ ":" ++ authorityText a
  | none => u.scheme ++ ":" ++ if ['/', '/'].isPrefixOf u.path.toList then "/." else ""

/-- The text up to the query. -/
def beforeQuery (u : Url) : String := u.beforePath ++ u.path

/-- The text up to the fragment. -/
def beforeFragment (u : Url) : String := u.beforeQuery ++ u.query.elim "" fun q => "?" ++ q

/-- The text of a URL. -/
def text (u : Url) : String := u.beforeFragment ++ u.fragment.elim "" fun f => "#" ++ f

/-- Whether the path is opaque, so that nothing can be joined to the URL. -/
def isOpaque (u : Url) : Bool := u.authority.isNone && u.path.toList.head? ≠ some '/'

/-- The host, if the URL has one. -/
def host? (u : Url) : Option String :=
  u.authority.bind fun a => if a.host.isEmpty then none else some a.host

end Url

end AppBundler
