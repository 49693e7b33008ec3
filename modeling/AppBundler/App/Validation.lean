import AppBundler.App.Model
import AppBundler.Schema.Extract
/-!
# Validation of apps

Before an app is published the schemas of its bundled scripts are extracted strictly. The first script that
cannot be described fails the whole app.
-/

namespace AppBundler

namespace App

/-- The schemas of scripts, added to those before them. -/
def schemasFrom (found : List (String × ScriptSchema)) : List Script → Extracted (List (String × ScriptSchema))
  | [] => .ok found
  | s :: r => do
    let schema ← ScriptSchema.ofSource s.code true
    schemasFrom (putSorted s.filename schema found) r

/-- The schema of every bundled script, in the order of the file names. -/
def schemas (a : App) : Extracted (List (String × ScriptSchema)) := schemasFrom [] a.bundled

end App

end AppBundler
