import AgentAssembly.Session.Store
import AgentAssembly.Settings

/-!
The requests that build up the project of a session, and their replies. Each request concerns at
most one session and is carried out whole or not at all.
-/

namespace AgentAssembly

structure Policy where
  limits : Limits
  /-- The model of an agent that is added without one. -/
  defaultModel : String
deriving DecidableEq, Repr

structure Fresh where
  session : String
  project : Uuid
deriving DecidableEq, Repr

inductive Request
  | createProject (name : String)
  | updateMetadata (session : String) (patch : Dict String Json)
  | addAgent (session : String) (agent : Agent)
  | updateAgent (session name : String) (patch : AgentPatch)
  | addTool (session : String) (tool : Tool)
  | updateTool (session name : String) (patch : ToolPatch)
  | updateBuildContext (session : String) (patch : BuildContextPatch)
  | getProject (session : String)
  | getSummary (session : String)
  | deleteSession (session : String)
  | listSessions
deriving DecidableEq

inductive Reply
  | created (session : String)
  | metadata (metadata : Dict String Json)
  | agent (agent : Agent)
  | tool (tool : Tool)
  | buildContext (context : BuildContext)
  | project (project : Project)
  | summary (summary : Summary)
  | deleted (present : Bool)
  | sessions (sessions : List SessionInfo)
deriving DecidableEq

namespace Policy

def ofSettings (s : Settings) : Policy := ⟨s.limits, s.defaultModel⟩

def complete (policy : Policy) (agent : Agent) : Agent :=
  if Text.isBlank agent.model then { agent with model := policy.defaultModel } else agent

def handle (policy : Policy) (now : Timestamp) (fresh : Fresh) (store : Store) :
    Request → Except StoreError Reply × Store
  | .createProject name =>
    match Project.new fresh.project now name with
    | .error e => (.error (.project e), store)
    | .ok project => (.ok (.created fresh.session), store.insert now fresh.session project)
  | .updateMetadata session patch =>
    store.update now session <|
      (Project.mergeMetadata now patch).answering fun _ p => .metadata p.metadata
  | .addAgent session agent =>
    store.update now session <|
      (Project.addAgent now policy.limits (policy.complete agent)).answering fun a _ => .agent a
  | .updateAgent session name patch =>
    store.update now session <|
      (Project.updateAgent now name patch).answering fun a _ => .agent a
  | .addTool session tool =>
    store.update now session <|
      (Project.addTool now policy.limits tool).answering fun t _ => .tool t
  | .updateTool session name patch =>
    store.update now session <|
      (Project.updateTool now name patch).answering fun t _ => .tool t
  | .updateBuildContext session patch =>
    store.update now session <|
      (Project.updateBuildContext now patch).answering fun c _ => .buildContext c
  | .getProject session => store.inspect now session .project
  | .getSummary session => store.inspect now session fun p => .summary p.summary
  | .deleteSession session =>
    let (present, store) := store.delete session
    (.ok (.deleted present), store)
  | .listSessions => (.ok (.sessions (store.list now)), store)

end Policy

structure Statistics where
  sessions : Nat
  agents : Nat
  tools : Nat
deriving DecidableEq, Repr

def Store.statistics (s : Store) (now : Timestamp) : Statistics where
  sessions := (s.list now).length
  agents := (s.list now).foldr (·.agentCount + ·) 0
  tools := (s.list now).foldr (·.toolCount + ·) 0

structure Manager where
  settings : Settings
  store : Store
  sweeping : Bool := false
deriving DecidableEq

namespace Manager

def new (build : Build) (settings : Settings) : Outcome (Except StoreError Manager) :=
  match settings.fault? with
  | some fault => return .error (.project (.configuration fault))
  | none => do
    let seconds ← settings.sessionTimeoutSeconds build
    return .ok { settings, store := { timeout := seconds.toNat * Timestamp.nanosPerSecond } }

def policy (m : Manager) : Policy := .ofSettings m.settings

/-- Starts the sweeper if sweeps are turned on, and tells whether one is running now. -/
def startSweeper (m : Manager) : Bool × Manager :=
  match m.settings.sweepInterval? with
  | none => (false, m)
  | some _ => (true, { m with sweeping := true })

def shutdown (m : Manager) : Manager := { m with sweeping := false }

end Manager
end AgentAssembly
