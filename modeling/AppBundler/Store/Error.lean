import AppBundler.Digest.Content
import AppBundler.Files.Tree
import AppBundler.Text.Duration
/-!
# Errors of stores
-/

namespace AppBundler

/-- Why a store did not do what it was asked for. -/
inductive StorageError where
  | notFound (digest : ContentDigest)
  | invalidDigest (text : String)
  | backend (reason : String)
  | writeTimedOut (milliseconds : Nat)
  | file (fault : FileFault)
deriving DecidableEq

/-- The wording of an error. -/
def StorageError.message : StorageError → String
  | .notFound d => "blob not found: " ++ d.hex
  | .invalidDigest s => "invalid content digest: " ++ s
  | .backend reason => "storage backend error: " ++ reason
  | .writeTimedOut t => "storage backend error: blob write timed out after " ++ Duration.text t
  | .file fault => "storage I/O error: " ++ fault.message

/-- The wording of an error and of what caused it, outermost first. -/
def StorageError.causes : StorageError → List String
  | .file fault => [StorageError.message (.file fault), fault.message]
  | e => [e.message]

end AppBundler
