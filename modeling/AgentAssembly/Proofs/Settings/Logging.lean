import AgentAssembly.Proofs.Mutation
import AgentAssembly.Settings.LogFilter

/-!
Installing logging more than once. Main statement: the first filter that can be read decides the
output of the process, and later attempts are refused and change nothing.
-/

namespace AgentAssembly.Logging

open Mutation

variable {φ : Type} {lib : LogLibrary φ} {environment : Option String} {l : Logging}

/-- An attempt to give the process an output: the filter of the environment, and the settings. -/
abbrev Attempt := Option String × Logging

def Attempt.output? (lib : LogLibrary φ) (a : Attempt) : Option (LogOutput φ) :=
  match a.2.filter lib a.1 with
  | .ok filter => some ⟨filter, a.2.format, a.2.format = .json⟩
  | .error _ => none

theorem install_of_bad_filter {fault : SettingsFault} (h : l.filter lib environment = .error fault)
    (installed : Option (LogOutput φ)) :
    l.install lib environment installed = (.error fault, installed) := by
  rw [install, h]
  rfl

theorem install_of_filter {filter : φ} (h : l.filter lib environment = .ok filter)
    (installed : Option (LogOutput φ)) :
    l.install lib environment installed =
      match installed with
      | some output => (.error (.loggingInstalled lib.alreadyInstalled), some output)
      | none => (.ok (), some ⟨filter, l.format, l.format = .json⟩) := by
  rw [install, h]
  cases installed <;> rfl

theorem install_snd (installed : Option (LogOutput φ)) :
    (l.install lib environment installed).2 =
      installed.or (Attempt.output? lib (environment, l)) := by
  cases h : l.filter lib environment with
  | error fault => rw [install_of_bad_filter h, Attempt.output?, h, Option.or_none]
  | ok filter =>
    rw [install_of_filter h, Attempt.output?, h]
    cases installed <;> rfl

theorem install_installed (lib : LogLibrary φ) (environment : Option String) (l : Logging)
    (output : LogOutput φ) :
    ∃ fault, l.install lib environment (some output) = (.error fault, some output) := by
  cases h : l.filter lib environment with
  | error fault => exact ⟨fault, install_of_bad_filter h _⟩
  | ok filter => exact ⟨_, install_of_filter h _⟩

/-- Of all attempts, the first with a filter that can be read decides the output. -/
theorem installed_of_attempts (lib : LogLibrary φ) (attempts : List Attempt)
    (installed : Option (LogOutput φ)) :
    attempts.foldl (fun installed a => (a.2.install lib a.1 installed).2) installed =
      installed.or (attempts.findSome? (Attempt.output? lib)) := by
  induction attempts generalizing installed with
  | nil => rw [List.foldl_nil, List.findSome?_nil, Option.or_none]
  | cons a rest ih =>
    rw [List.foldl_cons, ih, install_snd, Option.or_assoc, List.findSome?_cons]
    congr 1
    cases Attempt.output? lib a <;> rfl

example : Attempt.output? LogFilter.library (some "[", { level := "warn,store=debug" }) =
    some ⟨"warn,store=debug", .pretty, false⟩ := by decide +kernel

end AgentAssembly.Logging
