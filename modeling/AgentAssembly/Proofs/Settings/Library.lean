import AgentAssembly.Settings.Load
import AgentAssembly.Settings.Scalar
import AgentAssembly.Text.Lines

/-!
What a library of layers is documented to do, as far as settings from variables rely on it.
-/

namespace AgentAssembly

open Json

def Json.at? : List String → Json → Option Json
  | [], j => some j
  | name :: rest, j => (j.members?.bind (Dict.find? name)).bind (at? rest)

theorem Json.at?_cons (name : String) (names : List String) (j : Json) :
    j.at? (name :: names) = (j.at? [name]).bind (Json.at? names) := by
  simp only [Json.at?, Option.bind_assoc, Option.bind_some]

/-- The paths lead to different members of one table, or of tables below them. -/
def KeyPath.apart : KeyPath → KeyPath → Bool
  | .member key :: p, .member key' :: q => if key = key' then apart p q else true
  | _, _ => false

def KeyPath.ofNames (names : List String) : KeyPath := names.map .member

theorem KeyPath.ne_nil_of_apart {p q : KeyPath} (h : p.apart q = true) : p ≠ [] ∧ q ≠ [] := by
  constructor <;> rintro rfl
  · simp [apart] at h
  · cases p with
    | nil => simp [apart] at h
    | cons step p => cases step <;> simp [apart] at h

def keyNames (key : String) : List String :=
  (Text.pieces (· == '.') key.toList).map String.ofList

/-- The variable of a key: its names in capitals, with separators between them. -/
def VariableOptions.nameOf (options : VariableOptions) (key : String) : String :=
  options.start ++ options.startSeparator ++ options.separator.intercalate
    ((keyNames key).map fun name => String.ofList (name.toList.map Char.toUpper))

namespace Library

structure Documented (lib : Library) : Prop where
  /-- A text is tried for a truth value, an integer and a double, in this order. -/
  variableValue_eq : ∀ options text, options.parsing = true →
    lib.variableValue options text = (Scalar.ofText text).toJson
  /-- A text field takes the display form of a scalar. -/
  text?_toJson : ∀ scalar : Scalar, lib.text? scalar.toJson = some scalar.shown
  /-- A dot leads into a table. -/
  path?_key : ∀ entry ∈ Settings.defaultEntries,
    lib.path? entry.1 = some (KeyPath.ofNames (keyNames entry.1))
  /-- A variable is named after its key. -/
  variableKey?_nameOf : ∀ entry ∈ Settings.defaultEntries,
    lib.variableKey? Settings.variableOptions (Settings.variableOptions.nameOf entry.1) =
      some entry.1
  /-- A value that is set lies over what stood at its path. -/
  at?_set_self : ∀ (scalar : Scalar) (names : List String) (j : Json), names ≠ [] →
    (lib.set (KeyPath.ofNames names) scalar.toJson j).at? names = some scalar.toJson
  /-- A value that is set leaves the values at other paths as they are. -/
  at?_set_of_apart : ∀ (scalar : Scalar) (names names' : List String) (j : Json),
    (KeyPath.ofNames names).apart (KeyPath.ofNames names') = true →
    (lib.set (KeyPath.ofNames names) scalar.toJson j).at? names' = j.at? names'
  /-- The values of one source are set in any order, unless their paths meet. -/
  set_comm : ∀ (scalar scalar' : Scalar) (p q : KeyPath) (j : Json), p.apart q = true →
    lib.set p scalar.toJson (lib.set q scalar'.toJson j) =
      lib.set q scalar'.toJson (lib.set p scalar.toJson j)

variable {lib : Library} {j : Json} {s : Settings} {l : Logging} {scalar : Scalar}

theorem required_eq_some_iff {α : Type} {key : String} {read : Json → Option α} {a : α}
    {m : Members} (h : j.members? = some m) :
    m.required key read = some a ↔ (j.at? [key]).bind read = some a := by
  simp only [Members.required, Json.at?, h, Option.bind_some, Option.bind_assoc]

theorem settings?_eq_some_iff : lib.settings? j = some s ↔
    (j.at? ["max_agents_per_project"]).bind lib.word? = some s.maxAgents ∧
    (j.at? ["max_tools_per_project"]).bind lib.word? = some s.maxTools ∧
    (j.at? ["session_timeout_minutes"]).bind lib.word? = some s.sessionTimeoutMinutes ∧
    (j.at? ["sweep_interval_seconds"]).bind lib.word? = some s.sweepIntervalSeconds ∧
    (j.at? ["output_base_dir"]).bind lib.text? = some s.outputBase ∧
    (j.at? ["default_model"]).bind lib.text? = some s.defaultModel ∧
    (j.at? ["logging"]).bind lib.logging? = some s.logging := by
  cases hm : j.members? with
  | none => simp [settings?, Json.at?, hm]
  | some m =>
    simp only [settings?, hm, Option.bind_eq_bind, Option.bind_some, Option.bind_eq_some_iff,
      Option.pure_def, Option.some.injEq, ← required_eq_some_iff hm]
    constructor
    · rintro ⟨_, hagents, _, htools, _, htimeout, _, hsweep, _, hbase, _, hmodel, _, hlogging, rfl⟩
      exact ⟨hagents, htools, htimeout, hsweep, hbase, hmodel, hlogging⟩
    · rintro ⟨hagents, htools, htimeout, hsweep, hbase, hmodel, hlogging⟩
      exact ⟨_, hagents, _, htools, _, htimeout, _, hsweep, _, hbase, _, hmodel, _, hlogging, rfl⟩

theorem logging?_eq_some_iff {members : Members} : lib.logging? (.object members) = some l ↔
    ((Json.object members).at? ["level"]).bind lib.text? = some l.level ∧
      ((Json.object members).at? ["format"]).bind lib.format? = some l.format := by
  simp only [logging?, Option.bind_eq_bind, Option.bind_eq_some_iff, Option.pure_def,
    Option.some.injEq, ← required_eq_some_iff (members?.eq_1 members)]
  constructor
  · rintro ⟨_, hlevel, _, hformat, rfl⟩
    exact ⟨hlevel, hformat⟩
  · rintro ⟨hlevel, hformat⟩
    exact ⟨_, hlevel, _, hformat, rfl⟩

/-- Scalars that are set at paths apart from one path do not show in what is set there. -/
theorem Documented.addSource_set (hlib : lib.Documented) {p : KeyPath}
    {entries : List (String × Json)}
    (h : ∀ e ∈ entries, (∃ scalar : Scalar, e.2 = scalar.toJson) ∧
      p.apart (lib.keyPath e.1) = true) (j : Json) :
    lib.addSource entries (lib.set p scalar.toJson j) =
      lib.set p scalar.toJson (lib.addSource entries j) := by
  induction entries generalizing j with
  | nil => rfl
  | cons e rest ih =>
    obtain ⟨⟨⟨scalar', hscalar⟩, hapart⟩, hrest⟩ := List.forall_mem_cons.mp h
    simp only [addSource, List.foldl_cons] at ih ⊢
    rw [hscalar, ← hlib.set_comm scalar scalar' p _ j hapart, ih hrest]

end Library
end AgentAssembly
