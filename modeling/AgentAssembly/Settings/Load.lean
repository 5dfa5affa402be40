import AgentAssembly.Settings
import AgentAssembly.Settings.Library

/-!
Loading settings. Three layers lie over one another: the defaults, a file, and the variables of
the environment.
-/

namespace AgentAssembly

open Json

/-- Why settings cannot be loaded: a source or a field cannot be read, or a rule is broken. -/
inductive LoadFault
  | unreadable
  | refused (fault : SettingsFault)
deriving DecidableEq, Repr

namespace Library

variable (lib : Library)

def format? (j : Json) : Option LogFormat :=
  (lib.name? LogFormat.names j).bind LogFormat.ofName?

def logging? : Json → Option Logging
  | .object members => do
    let m : Members := members
    return { level := ← m.required "level" lib.text?, format := ← m.required "format" lib.format? }
  | .array (level :: format :: _) => do
    return { level := ← lib.text? level, format := ← lib.format? format }
  | _ => none

def settings? (j : Json) : Option Settings := do
  let m ← j.members?
  return {
    maxAgents := ← m.required "max_agents_per_project" lib.word?
    maxTools := ← m.required "max_tools_per_project" lib.word?
    sessionTimeoutMinutes := ← m.required "session_timeout_minutes" lib.word?
    sweepIntervalSeconds := ← m.required "sweep_interval_seconds" lib.word?
    outputBase := ← m.required "output_base_dir" lib.text?
    defaultModel := ← m.required "default_model" lib.text?
    logging := ← m.required "logging" lib.logging? }

end Library

namespace Settings

def defaultFile : String := "config/agent-smith"

def variableOptions : VariableOptions := ⟨"AGENT_SMITH", "_", "__", true⟩

def defaultEntries : List (String × Json) :=
  let defaults : Settings := {}
  [("max_agents_per_project", .int defaults.maxAgents.toNat),
   ("max_tools_per_project", .int defaults.maxTools.toNat),
   ("session_timeout_minutes", .int defaults.sessionTimeoutMinutes.toNat),
   ("sweep_interval_seconds", .int defaults.sweepIntervalSeconds.toNat),
   ("output_base_dir", .text defaults.outputBase),
   ("default_model", .text defaults.defaultModel),
   ("logging.level", .text defaults.logging.level),
   ("logging.format", .text "pretty")]

def layers? (lib : Library) (files : String → Option String)
    (environment : List (String × String)) (path : String) : Option Json := do
  let defaults ← defaultEntries.foldlM lib.setDefault? (.object [])
  let entries ← lib.fileEntries? files path
  return lib.addSource (lib.variableEntries variableOptions environment)
    (lib.addSource entries defaults)

/-- Loads settings from the file of a path, which need not exist, and from variables. -/
def load (lib : Library) (files : String → Option String) (environment : List (String × String))
    (path : String) : Except LoadFault Settings :=
  match (layers? lib files environment path).bind lib.settings? with
  | none => .error .unreadable
  | some settings =>
    match settings.fault? with
    | some fault => .error (.refused fault)
    | none => .ok settings

end Settings
end AgentAssembly
