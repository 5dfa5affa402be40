import AgentAssembly.Mutation
import AgentAssembly.Settings

/-!
Installing logging. A process has one output for its log records, and what a filter is and when two
outputs clash is up to the library that writes them.
-/

namespace AgentAssembly

structure LogOutput (φ : Type) where
  filter : φ
  format : LogFormat
  showsTarget : Bool
deriving DecidableEq, Repr

structure LogLibrary (φ : Type) where
  filter : String → Except String φ
  /-- What is said of a second output. -/
  alreadyInstalled : String

namespace Logging

variable {φ : Type}

/-- A filter from the environment goes before the level, unless it cannot be read. -/
def filter (lib : LogLibrary φ) (environment : Option String) (l : Logging) :
    Except SettingsFault φ :=
  match environment.map lib.filter with
  | some (.ok filter) => .ok filter
  | _ => (lib.filter l.level).mapError (.badLogLevel l.level)

def install (lib : LogLibrary φ) (environment : Option String) (l : Logging) :
    Mutation (Option (LogOutput φ)) SettingsFault Unit := do
  let filter ← (l.filter lib environment : Except SettingsFault φ)
  Mutation.refuseIf Option.isSome (.loggingInstalled lib.alreadyInstalled)
  set (some (LogOutput.mk filter l.format (l.format = .json)))

end Logging
end AgentAssembly
