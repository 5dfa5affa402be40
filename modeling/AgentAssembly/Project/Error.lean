import AgentAssembly.Data.Json
import AgentAssembly.Text.Shown

/-!
Why an operation on a project is refused, and the wording of each reason.
-/

namespace AgentAssembly

inductive Named
  | agent
  | tool
  | primaryAgent
  | project
deriving DecidableEq, Repr

def Named.title : Named → String
  | .agent => "Agent"
  | .tool => "Tool"
  | .primaryAgent => "Primary agent"
  | .project => "Project"

inductive Referred
  | tool
  | subAgent
deriving DecidableEq, Repr

def Referred.title : Referred → String
  | .tool => "tool"
  | .subAgent => "sub-agent"

inductive SingleLine
  | projectName
  | requirement
  | variableName
  | variableValue
deriving DecidableEq, Repr

def SingleLine.title : SingleLine → String
  | .projectName => "Project name"
  | .requirement => "Requirement"
  | .variableName => "Environment variable name"
  | .variableValue => "Environment variable value"

inductive InputFault
  | blankName (what : Named)
  | missingModel (agent : String)
  | blankModel
  | blankReference (what : Referred)
  | temperatureOutOfRange (temperature : Double)
  | noOutputTokens
  | blankImport
  | unnamedParameter (tool : String)
  | unnamedParameters
  | blankBuiltinType
  | blankOutputDirectory
  | blankRequirement
  | badVariableName
  | lineBreak (what : SingleLine) (value : String)
  | projectNameNotText (value : Json)
  | stated (text : String)
deriving DecidableEq, Repr

def InputFault.message : InputFault → String
  | .blankName what => what.title ++ " name cannot be empty"
  | .missingModel agent => "Agent '" ++ agent ++ "' must name a model"
  | .blankModel => "Agent model cannot be empty"
  | .blankReference what => what.title ++ " references cannot be empty"
  | .temperatureOutOfRange t => "Temperature must be between 0.0 and 2.0, got " ++ t.plainText
  | .noOutputTokens => "max_output_tokens must be positive"
  | .blankImport => "Tool imports cannot be empty"
  | .unnamedParameter tool => "Tool '" ++ tool ++ "' has a parameter without a name"
  | .unnamedParameters => "Tool parameters must be named"
  | .blankBuiltinType => "Builtin type cannot be empty"
  | .blankOutputDirectory => "Output directory cannot be empty"
  | .blankRequirement => "Requirement lines cannot be empty"
  | .badVariableName => "Environment variable names cannot be empty or contain '='"
  | .lineBreak what value => what.title ++ " cannot contain line breaks: " ++ Text.shown value
  | .projectNameNotText value => "Project name must be a string, got " ++ value.compact
  | .stated text => text

inductive SettingsFault
  | noAgents
  | noTools
  | noTimeout
  | emptyOutputDirectory
  | blankModel
  | blankLogLevel
  | badLogLevel (level reason : String)
  | loggingInstalled (reason : String)
  | stated (text : String)
deriving DecidableEq, Repr

def SettingsFault.message : SettingsFault → String
  | .noAgents => "max_agents_per_project must be greater than zero"
  | .noTools => "max_tools_per_project must be greater than zero"
  | .noTimeout => "session_timeout_minutes must be greater than zero"
  | .emptyOutputDirectory => "output_base_dir cannot be empty"
  | .blankModel => "default_model cannot be empty"
  | .blankLogLevel => "logging.level cannot be empty"
  | .badLogLevel level reason => "Invalid log level '" ++ level ++ "': " ++ reason
  | .loggingInstalled reason => "Failed to initialize logging: " ++ reason
  | .stated text => text

inductive ProjectError
  | invalidInput (fault : InputFault)
  | agentNotFound (name : String)
  | toolNotFound (name : String)
  | duplicateName (kind name : String)
  | agentLimitExceeded (limit : Nat)
  | toolLimitExceeded (limit : Nat)
  | configuration (fault : SettingsFault)
deriving DecidableEq, Repr

namespace ProjectError

def message : ProjectError → String
  | .invalidInput fault => "Invalid input: " ++ fault.message
  | .agentNotFound name => "Agent not found: " ++ name
  | .toolNotFound name => "Tool not found: " ++ name
  | .duplicateName kind name => "Duplicate " ++ kind ++ " name: " ++ name
  | .agentLimitExceeded limit =>
    "Agent limit exceeded: a project holds at most " ++ toString limit ++ " agents"
  | .toolLimitExceeded limit =>
    "Tool limit exceeded: a project holds at most " ++ toString limit ++ " tools"
  | .configuration fault => "Configuration error: " ++ fault.message

def category : ProjectError → String
  | .invalidInput _ => "invalid_input"
  | .agentNotFound _ => "agent_not_found"
  | .toolNotFound _ => "tool_not_found"
  | .duplicateName .. => "duplicate_name"
  | .agentLimitExceeded _ => "agent_limit_exceeded"
  | .toolLimitExceeded _ => "tool_limit_exceeded"
  | .configuration _ => "configuration"

def isNotFound : ProjectError → Bool
  | .agentNotFound _ | .toolNotFound _ => true
  | _ => false

def isLimitExceeded : ProjectError → Bool
  | .agentLimitExceeded _ | .toolLimitExceeded _ => true
  | _ => false

end ProjectError
end AgentAssembly
