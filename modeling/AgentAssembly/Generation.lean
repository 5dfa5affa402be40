import AgentAssembly.Disk.Staging
import AgentAssembly.Session.Service
import AgentAssembly.Validation

/-!
Generation of packages: validation first, then rendering, then the disk. Only a project without
findings is rendered, and what is written is what a preview shows.
-/

namespace AgentAssembly

inductive GenerationError
  | invalid (report : Report)
  | writing (fault : WriteFault)
  | rendering (fault : RenderFault)
  | store (error : StoreError)
  | project (error : ProjectError)
deriving DecidableEq, Repr

namespace GenerationError

def message : GenerationError → String
  | .invalid report => "Configuration is not valid: " ++ report.message
  | .writing fault =>
    "Failed to write " ++ fault.path ++ (fault.obstacle.reason?.map (": " ++ ·)).getD ""
  | .rendering fault => "Template rendering error: " ++ fault.message
  | .store error => "Storage error: " ++ error.message
  | .project error => "Core domain error: " ++ error.message

def category : GenerationError → String
  | .invalid _ => "validation"
  | .writing _ => "generation"
  | .rendering _ => "template_rendering"
  | .store error => error.category
  | .project error => error.category

def report? : GenerationError → Option Report
  | .invalid report => some report
  | _ => none

end GenerationError

/-- What a generation did: where, the files written, and the earlier files removed. -/
structure Generated where
  outputDirectory : String
  files : List String
  removed : List String
deriving DecidableEq, Repr

def Generated.toJson (g : Generated) : Json :=
  Json.record
    [("output_directory", some (.text g.outputDirectory)),
     ("files", some (Json.texts g.files)),
     ("removed", some (Json.texts g.removed))]

namespace Project

def preview (p : Project) : Except GenerationError FileSet :=
  if p.validate.isOk then p.render.mapError .rendering else .error (.invalid p.validate)

def generate (p : Project) (temp : TempDir) (fails : Nat → Bool) (output : String) (t : Tree) :
    Except GenerationError Generated × Tree :=
  match p.preview with
  | .error e => (.error e, t)
  | .ok files =>
    match files.write temp fails output t with
    | (.error fault, t) => (.error (.writing fault), t)
    | (.ok removed, t) => (.ok ⟨output, files.keys, removed⟩, t)

/-- Where the package goes: the directory asked for, else that of the build context seen from the
base directory, else a directory in the base named for the project. -/
def outputDirectory (p : Project) (base : String) (asked : Option String) : String :=
  asked.getD (Path.join base (p.buildContext.outputDirectory.getD (Identifier.moduleName p.name)))

end Project

namespace Manager

def snapshot (m : Manager) (now : Timestamp) (session : String) :
    Except GenerationError Project × Manager :=
  let (result, store) := m.store.get now session
  (result.mapError .store, { m with store })

def validate (m : Manager) (now : Timestamp) (session : String) :
    Except GenerationError Report × Manager :=
  let (project, m) := m.snapshot now session
  (project.map (·.validate), m)

def preview (m : Manager) (now : Timestamp) (session : String) :
    Except GenerationError FileSet × Manager :=
  let (project, m) := m.snapshot now session
  (project.bind (·.preview), m)

def outputDirectory (m : Manager) (now : Timestamp) (session : String) (asked : Option String) :
    Except GenerationError String × Manager :=
  let (project, m) := m.snapshot now session
  (project.map (·.outputDirectory m.settings.outputBase asked), m)

def generate (m : Manager) (now : Timestamp) (session : String) (asked : Option String)
    (temp : TempDir) (fails : Nat → Bool) (t : Tree) :
    Except GenerationError Generated × Manager × Tree :=
  match m.snapshot now session with
  | (.error e, m) => (.error e, m, t)
  | (.ok project, m) =>
    let (result, t) :=
      project.generate temp fails (project.outputDirectory m.settings.outputBase asked) t
    (result, m, t)

end Manager
end AgentAssembly
