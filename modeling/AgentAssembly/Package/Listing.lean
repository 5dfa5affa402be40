import AgentAssembly.Project
import AgentAssembly.Text.Lines

/-!
The files of a package that list lines: requirements and example variables.
-/

namespace AgentAssembly.Listing

def frameworkRequirement : String := "google-adk"

/-- The lines of the requirements file: the framework first, then the project's own, trimmed and
without a second mention of the framework. -/
def requirementLines (p : Project) : List String :=
  frameworkRequirement ::
    (p.requirements.map Text.trim).filter (· ≠ frameworkRequirement)

def defaultVariables : Dict String String :=
  .ofList [("GOOGLE_API_KEY", "your-api-key"), ("GOOGLE_GENAI_USE_VERTEXAI", "FALSE")]

def exampleVariables (p : Project) : Dict String String :=
  defaultVariables.extend p.buildContext.environment

def variableLines (p : Project) : List String :=
  (exampleVariables p).entries.map fun e => e.1 ++ "=" ++ e.2

def variableHeader (p : Project) : String :=
  "# Environment for " ++ Text.oneLine p.name ++
    ". Copy to .env and fill in real values."

end AgentAssembly.Listing
