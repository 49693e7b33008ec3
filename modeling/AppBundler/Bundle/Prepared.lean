import AppBundler.Bundle.Metadata
import AppBundler.Schema.Extract
/-!
# Scripts ready for a bundle

A script is bundled with its schema and with the names that its handler and its actions are bound to. A script
that cannot be described is bundled without a schema.
-/

namespace AppBundler

/-- A script with its schema. -/
structure PreparedScript where
  /-- The name under which it is bundled. -/
  filename : String
  code : String
  schema : ScriptSchema
  /-- The name that the exported handler is bound to. -/
  handler : Option String
  /-- The name that the exported actions are bound to. -/
  actions : Option String

namespace PreparedScript

/-- The name that an export is bound to: its own when it is declared, else the one that an export list gives. -/
def boundName? (m : Module) (exported : String) : Option String :=
  let name := if (m.binding? exported).isSome then some exported else m.exportedLocal? exported
  name.filter fun n => (m.binding? n).isSome

/-- The script of a name and a code. -/
def ofCode (filename code : String) : PreparedScript :=
  match Module.ofSource code with
  | .error _ => ⟨filename, code, .empty, none, none⟩
  | .ok m =>
    let schema := match ScriptSchema.ofModule m false with
      | .ok schema => schema
      | .error _ => .empty
    ⟨filename, code, schema,
      schema.handler.bind fun _ => boundName? m Extract.handlerExport,
      schema.actions.bind fun _ => boundName? m Extract.actionsExport⟩

/-- The statements at the end of the bundled script. -/
def footer (s : PreparedScript) : String :=
  Metadata.footer s.filename s.handler s.actions ((s.schema.actions.getD []).map (·.1))

end PreparedScript

end AppBundler
