import AgentAssembly.Project

/-!
Sessions, each over one project, and the store that holds them. Every operation is given the
reading of the clock at which it is carried out. A session that has been idle for longer than its
timeout is as good as gone: whoever looks for it evicts it. Looking a session up renews its
activity; listing and sweeping do not.
-/

namespace AgentAssembly

structure Session where
  id : String
  project : Project
  lastActivity : Timestamp
  /-- In nanoseconds. -/
  timeout : Nat
deriving DecidableEq

structure SessionInfo where
  sessionId : String
  name : String
  agentCount : Nat
  toolCount : Nat
  updatedAt : Timestamp
deriving DecidableEq

namespace Session

def isExpiredAt (s : Session) (now : Timestamp) : Bool :=
  (s.timeout : Int) < now.nanos - s.lastActivity.nanos

def touched (s : Session) (now : Timestamp) : Session := { s with lastActivity := now }

def info (s : Session) : SessionInfo where
  sessionId := s.id
  name := s.project.name
  agentCount := s.project.agents.length
  toolCount := s.project.tools.length
  updatedAt := s.project.updatedAt

end Session

inductive StoreError
  | sessionNotFound (id : String)
  | project (error : ProjectError)
deriving DecidableEq, Repr

namespace StoreError

def message : StoreError → String
  | .sessionNotFound id => "Session not found: " ++ id
  | .project error => "Core domain error: " ++ error.message

def category : StoreError → String
  | .sessionNotFound _ => "session_not_found"
  | .project error => error.category

end StoreError

structure Store where
  /-- The timeout of new sessions, in nanoseconds. -/
  timeout : Nat
  sessions : Dict String Session := ∅
deriving DecidableEq

namespace Store

variable {α : Type}

def put (s : Store) (id : String) (session : Session) : Store :=
  { s with sessions := s.sessions.insert id session }

def remove (s : Store) (id : String) : Store := { s with sessions := s.sessions.erase id }

/-- Removes the session of an identifier if it is still this one, and tells whether it was. -/
def evict (s : Store) (id : String) (session : Session) : Bool × Store :=
  if s.sessions.get? id = some session then (true, s.remove id) else (false, s)

def insert (s : Store) (now : Timestamp) (id : String) (project : Project) : Store :=
  s.put id { id, project, lastActivity := now, timeout := s.timeout }

/-- The session of an identifier, if it is live; one that has expired is evicted. -/
def access (s : Store) (now : Timestamp) (id : String) : Except StoreError Session × Store :=
  match s.sessions.get? id with
  | none => (.error (.sessionNotFound id), s)
  | some session =>
    if session.isExpiredAt now then (.error (.sessionNotFound id), (s.evict id session).2)
    else (.ok session, s)

/-- Edits a copy of the project, which replaces the stored one only if the edit succeeds. -/
def update (s : Store) (now : Timestamp) (id : String) (edit : Edit α) :
    Except StoreError α × Store :=
  match s.access now id with
  | (.error e, s) => (.error e, s)
  | (.ok session, s) =>
    let session := session.touched now
    match edit session.project with
    | (.error e, _) => (.error (.project e), s.put id session)
    | (.ok a, project) => (.ok a, s.put id { session with project })

def inspect (s : Store) (now : Timestamp) (id : String) (view : Project → α) :
    Except StoreError α × Store :=
  match s.access now id with
  | (.error e, s) => (.error e, s)
  | (.ok session, s) => (.ok (view session.project), s.put id (session.touched now))

def get (s : Store) (now : Timestamp) (id : String) : Except StoreError Project × Store :=
  s.inspect now id fun p => p

def delete (s : Store) (id : String) : Bool × Store := (s.sessions.contains id, s.remove id)

def list (s : Store) (now : Timestamp) : List SessionInfo :=
  (s.sessions.values.filter (!·.isExpiredAt now)).map (·.info)

/-- Goes through sessions that were found earlier, evicts each that has expired under the
identifier that it carries itself, and tells which were evicted. -/
def evictExpired (now : Timestamp) : List Session → Store → List String × Store
  | [], s => ([], s)
  | session :: rest, s =>
    if session.isExpiredAt now then
      let (evicted, s) := s.evict session.id session
      let (ids, s) := evictExpired now rest s
      (if evicted then session.id :: ids else ids, s)
    else evictExpired now rest s

def sweep (s : Store) (now : Timestamp) : List String × Store :=
  evictExpired now s.sessions.values s

/-- How many sessions are held, those included that have expired and not been evicted. -/
def size (s : Store) : Nat := s.sessions.size

end Store
end AgentAssembly
