import Courier.Config.Uses
import Courier.Json.Value
import Courier.Wire.Settings

/-!
The written form of a configuration.
-/

namespace Courier.Wire

open Json

mutual

def setting : Setting → Value
  | .absent => .null
  | .boolean b => .boolean b
  | .unsigned n => .integer n
  | .signed n => .integer n
  | .float (.finite x) => .float x
  | .float _ => .null
  | .text s => .string s
  | .list vs => .list (settings vs)
  | .table entries => .object (settingEntries entries)

def settings : List Setting → List Value
  | [] => []
  | v :: rest => setting v :: settings rest

def settingEntries : List (String × Setting) → List (String × Value)
  | [] => []
  | (name, v) :: rest => (name, setting v) :: settingEntries rest

end

def config (c : Config) : Value := Value.ofEntries (settingEntries c.toSettings)

end Courier.Wire
