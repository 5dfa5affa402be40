import AgentAssembly.Data.Record
import AgentAssembly.Project

/-!
The settings of the process: limits, timeouts, the place of generated packages, and logging.
-/

namespace AgentAssembly

open Json

inductive Panic
  | overflow
deriving DecidableEq, Repr

abbrev Outcome := Except Panic

inductive Build
  | checked
  | wrapping
deriving DecidableEq, Repr

def Build.product (build : Build) (a b : UInt64) : Outcome UInt64 :=
  match build with
  | .checked => if a.toNat * b.toNat < UInt64.size then .ok (a * b) else .error .overflow
  | .wrapping => .ok (a * b)

inductive LogFormat
  | pretty
  | json
deriving DecidableEq, Repr

structure Logging where
  level : String := "info"
  format : LogFormat := .pretty
deriving DecidableEq, Repr

structure Settings where
  maxAgents : UInt64 := 10
  maxTools : UInt64 := 20
  sessionTimeoutMinutes : UInt64 := 30
  /-- The period of background sweeps; zero turns them off. -/
  sweepIntervalSeconds : UInt64 := 60
  outputBase : String := "./generated_agents"
  /-- The model of an agent that is added without one. -/
  defaultModel : String := "gemini-2.0-flash"
  logging : Logging := {}
deriving DecidableEq, Repr

namespace LogFormat

def name : LogFormat → String
  | .pretty => "pretty"
  | .json => "json"

def names : List String := [LogFormat.pretty, .json].map name

def ofName? : String → Option LogFormat
  | "pretty" => some .pretty
  | "json" => some .json
  | _ => none

def ofJson? : Json → Option LogFormat
  | .text s => ofName? s
  | .object [(s, .null)] => ofName? s
  | _ => none

end LogFormat

namespace Logging

def toJson (l : Logging) : Json :=
  record [("level", some (.text l.level)), ("format", some (.text l.format.name))]

def ofJson? (j : Json) : Option Logging := do
  let m ← j.fields? ["level", "format"] 2
  return { level := ← m.required "level" text?, format := ← m.required "format" LogFormat.ofJson? }

end Logging

namespace Settings

def fault? (s : Settings) : Option SettingsFault :=
  if s.maxAgents = 0 then some .noAgents
  else if s.maxTools = 0 then some .noTools
  else if s.sessionTimeoutMinutes = 0 then some .noTimeout
  else if s.outputBase = "" then some .emptyOutputDirectory
  else if Text.isBlank s.defaultModel then some .blankModel
  else if Text.isBlank s.logging.level then some .blankLogLevel
  else none

def sessionTimeoutSeconds (s : Settings) (build : Build) : Outcome UInt64 :=
  build.product s.sessionTimeoutMinutes 60

def sweepInterval? (s : Settings) : Option UInt64 :=
  if s.sweepIntervalSeconds = 0 then none else some s.sweepIntervalSeconds

def limits (s : Settings) : Limits := ⟨s.maxAgents.toNat, s.maxTools.toNat⟩

def toJson (s : Settings) : Json :=
  record
    [("max_agents_per_project", some (.int s.maxAgents.toNat)),
     ("max_tools_per_project", some (.int s.maxTools.toNat)),
     ("session_timeout_minutes", some (.int s.sessionTimeoutMinutes.toNat)),
     ("sweep_interval_seconds", some (.int s.sweepIntervalSeconds.toNat)),
     ("output_base_dir", some (.text s.outputBase)),
     ("default_model", some (.text s.defaultModel)),
     ("logging", some s.logging.toJson)]

def ofJson? (j : Json) : Option Settings := do
  let m ← j.fields?
    ["max_agents_per_project", "max_tools_per_project", "session_timeout_minutes",
     "sweep_interval_seconds", "output_base_dir", "default_model", "logging"] 7
  return {
    maxAgents := ← m.required "max_agents_per_project" word64?
    maxTools := ← m.required "max_tools_per_project" word64?
    sessionTimeoutMinutes := ← m.required "session_timeout_minutes" word64?
    sweepIntervalSeconds := ← m.required "sweep_interval_seconds" word64?
    outputBase := ← m.required "output_base_dir" text?
    defaultModel := ← m.required "default_model" text?
    logging := ← m.required "logging" Logging.ofJson? }

end Settings
end AgentAssembly
