import AppBundler.Source.Imports
import AppBundler.Url.Parser
/-!
# Module specifiers

A specifier with a scheme stands for itself. One that begins with a point is relative to the module that names
it, one that begins with a slash lies on the platform's host, and any other names a package, which is taken
from the package server. Source text is bundled with all its specifiers in their final form.
-/

namespace AppBundler

namespace Specifier

/-- A character of a scheme. -/
def isSchemeChar (c : Char) : Bool := c.isAlphanum || c = '+' || c = '-' || c = '.'

/-- Whether what precedes the first colon is a scheme. -/
def hasScheme (specifier : List Char) : Bool :=
  match Text.splitOnce? ':' specifier with
  | some (scheme, _) => !scheme.isEmpty && scheme.all isSchemeChar
  | none => false

/-- Whether a specifier begins with one or two points and a slash. -/
def isRelative (specifier : List Char) : Bool :=
  Text.beginsWith ['.', '/'] specifier || Text.beginsWith ['.', '.', '/'] specifier

end Specifier

/-- Where packages and the scripts of other apps are found. -/
structure ModuleHosts where
  cdnUrl : String
  platformHost : String

namespace ModuleHosts

/-- The final form of a specifier that a module at `referrer` names; none when it stays as it is. -/
def settle? (h : ModuleHosts) (specifier : String) (referrer : Url) : Option String :=
  let s := specifier.toList
  match Text.dropFront? ['n', 'p', 'm', ':'] s with
  | some package => some (h.cdnUrl ++ String.ofList (package.dropWhile (· = '/')))
  | none =>
    if Specifier.hasScheme s then none
    else if Specifier.isRelative s then
      match referrer.join specifier with
      | .ok url => some url.text
      | .error _ => none
    else if Text.beginsWith ['/'] s then some ("https://" ++ h.platformHost ++ specifier)
    else some (h.cdnUrl ++ specifier)

/-- A source text with all its specifiers in their final form. -/
def settleSource (h : ModuleHosts) (source : String) (referrer : Url) : Except SyntaxError String :=
  (Import.scan source).map fun imports =>
    Import.replace source imports fun i => h.settle? i.specifier referrer

end ModuleHosts

/-- Why the specifier of a bundled module stands for no module. -/
inductive SpecifierFault where
  | bare (base : String)
  | invalid (error : UrlError)
deriving DecidableEq

/-- The wording of a fault. -/
def SpecifierFault.message : SpecifierFault → String
  | .bare base => "bare specifier imported from " ++ base
  | .invalid e => "invalid specifier: " ++ e.message

/-- The URL that a specifier stands for in a module at `base`. -/
def Specifier.resolve (specifier : String) (base : Url) : Except SpecifierFault Url :=
  let s := specifier.toList
  if Specifier.hasScheme s then (Url.parse specifier).mapError .invalid
  else if Specifier.isRelative s || Text.beginsWith ['/'] s then (base.join specifier).mapError .invalid
  else .error (.bare base.text)

end AppBundler
