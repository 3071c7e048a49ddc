import Courier.Config.Fault
import Courier.Settings.Environment
import Courier.Toml.Document

/-!
Where a configuration comes from: variables of the environment before a file, and the file before
the standard values. Settings nobody knows are ignored; a setting under both of its names is
refused, and so is a configuration with a fault.
-/

namespace Courier

inductive LoadFault where
  | malformedFile
  | repeated (field : Config.Field)
  | mismatch (key : String) (why : Mismatch)

namespace LoadFault

def message : String := "Failed to load configuration"

/-- What is wrong, unless it is the form of the file. -/
def detail : LoadFault → Option String
  | .malformedFile => none
  | .repeated field => some s!"duplicate field `{field.name}`"
  | .mismatch _ why => some why.message

/-- Where it is wrong: the name of the setting as it is written. -/
def path : LoadFault → List String
  | .mismatch key _ => [key]
  | _ => []

end LoadFault

inductive ConfigError where
  | unreadable (fault : LoadFault)
  | invalid (fault : Config.Fault)

namespace Config

/-- Reads settings in their order. The fields in `seen` have been read. -/
def readEntries (c : Config) (seen : List String) :
    List (String × Setting) → Except LoadFault Config
  | [] => .ok c
  | (key, setting) :: rest =>
    match fields.find? (·.isNamed key) with
    | none => readEntries c seen rest
    | some field =>
      if seen.contains field.name then .error (.repeated field)
      else
        match field.read setting with
        | .error why => .error (.mismatch key why)
        | .ok set => readEntries (set c) (field.name :: seen) rest

/-- The configuration that a table of settings describes. -/
def ofSetting : Setting → Except LoadFault Config
  | .table entries => standard.readEntries [] entries
  | _ => .ok standard

/-- The configuration that the variables of the environment and the text of a file, if there is
one, describe. -/
def read (environment : List (String × String)) (file : Option String) :
    Except LoadFault Config := do
  let defaults := Setting.table (Setting.overlayEntries [] standard.toSettings)
  let written ← match file with
    | none => .ok (.table [])
    | some text => (Toml.ofText text).elim (.error .malformedFile) .ok
  ofSetting ((defaults.overlay written).overlay (Environment.ofVariables environment))

/-- The configuration that both describe, if the service can work with it. -/
def load (environment : List (String × String)) (file : Option String) :
    Except ConfigError Config := do
  let c ← (read environment file).mapError .unreadable
  match c.fault? with
  | none => return c
  | some fault => .error (.invalid fault)

end Config
end Courier
