import AgentAssembly.Proofs.Settings.Layered
import AgentAssembly.Proofs.Settings.Scalar

/-!
Settings from variables. Main statement: a variable of a text setting lays its text, in the display
form of what it is taken for, over what the other layers give, and changes nothing else.
-/

namespace AgentAssembly

open Json

inductive TextSetting
  | outputBase
  | defaultModel
  | logLevel
deriving DecidableEq, Repr

namespace TextSetting

def variableName : TextSetting → String
  | .outputBase => "AGENT_SMITH_OUTPUT_BASE_DIR"
  | .defaultModel => "AGENT_SMITH_DEFAULT_MODEL"
  | .logLevel => "AGENT_SMITH_LOGGING__LEVEL"

def names : TextSetting → List String
  | .outputBase => ["output_base_dir"]
  | .defaultModel => ["default_model"]
  | .logLevel => ["logging", "level"]

def path (setting : TextSetting) : KeyPath := KeyPath.ofNames setting.names

theorem exists_default (setting : TextSetting) : ∃ entry ∈ Settings.defaultEntries,
    setting.variableName = Settings.variableOptions.nameOf entry.1 ∧
      setting.names = keyNames entry.1 := by
  cases setting <;> decide

def write (setting : TextSetting) (text : String) (s : Settings) : Settings :=
  match setting with
  | .outputBase => { s with outputBase := text }
  | .defaultModel => { s with defaultModel := text }
  | .logLevel => { s with logging := { s.logging with level := text } }

/-- The setting stands in a table of the layers; logging could also be a list. -/
def InTable : TextSetting → Json → Prop
  | .logLevel, j => ∃ members, j.at? ["logging"] = some (.object members)
  | _, _ => True

end TextSetting

namespace Library.Documented

variable {lib : Library} {j : Json} {s : Settings} {scalar : Scalar} {setting : TextSetting}

theorem variableKey?_setting (hlib : lib.Documented) (setting : TextSetting) :
    ∃ key, lib.variableKey? Settings.variableOptions setting.variableName = some key ∧
      lib.keyPath key = setting.path := by
  obtain ⟨entry, hentry, hname, hnames⟩ := setting.exists_default
  refine ⟨entry.1, hname ▸ hlib.variableKey?_nameOf entry hentry, ?_⟩
  rw [keyPath, hlib.path?_key entry hentry, Option.getD_some, TextSetting.path, hnames]

theorem at?_setting (hlib : lib.Documented) (setting : TextSetting) (scalar : Scalar) (j : Json) :
    (lib.set setting.path scalar.toJson j).at? setting.names = some scalar.toJson :=
  hlib.at?_set_self scalar setting.names j (by cases setting <;> decide)

theorem text?_setting (hlib : lib.Documented) (setting : TextSetting) (scalar : Scalar)
    (j : Json) : ((lib.set setting.path scalar.toJson j).at? setting.names).bind lib.text? =
      some scalar.shown := by
  rw [hlib.at?_setting setting scalar j, Option.bind_some, hlib.text?_toJson]

theorem at?_beside_setting (hlib : lib.Documented) {setting : TextSetting} {names : List String}
    (h : setting.path.apart (KeyPath.ofNames names) = true) (scalar : Scalar) (j : Json) :
    (lib.set setting.path scalar.toJson j).at? names = j.at? names :=
  hlib.at?_set_of_apart scalar setting.names names j h

theorem logging?_set (hlib : lib.Documented) {l : Logging}
    (h : (j.at? ["logging"]).bind lib.logging? = some l) (htable : TextSetting.logLevel.InTable j) :
    ((lib.set TextSetting.logLevel.path scalar.toJson j).at? ["logging"]).bind lib.logging? =
      some { l with level := scalar.shown } := by
  obtain ⟨below, hbelow⟩ := htable
  rw [hbelow, Option.bind_some, Library.logging?_eq_some_iff] at h
  have hlevel := hlib.at?_setting .logLevel scalar j
  have hapart : TextSetting.logLevel.path.apart (KeyPath.ofNames ["logging", "format"]) = true := by
    decide
  have hformat := hlib.at?_beside_setting hapart scalar j
  rw [TextSetting.names, Json.at?_cons] at hlevel
  rw [Json.at?_cons, Json.at?_cons _ _ j, hbelow, Option.bind_some] at hformat
  obtain ⟨table, htable, hlevel⟩ := Option.bind_eq_some_iff.mp hlevel
  rw [htable, Option.bind_some] at hformat ⊢
  cases table with
  | object members =>
    rw [Library.logging?_eq_some_iff, hlevel, hformat]
    exact ⟨hlib.text?_toJson scalar, h.2⟩
  | _ => cases hlevel

theorem settings?_set (hlib : lib.Documented) (h : lib.settings? j = some s)
    (htable : setting.InTable j) :
    lib.settings? (lib.set setting.path scalar.toJson j) =
      some (setting.write scalar.shown s) := by
  have hset := hlib.text?_setting setting scalar j
  rw [Library.settings?_eq_some_iff] at h ⊢
  obtain ⟨hagents, htools, htimeout, hsweep, hbase, hmodel, hlogging⟩ := h
  cases setting with
  | outputBase =>
    refine ⟨?_, ?_, ?_, ?_, hset, ?_, ?_⟩
    all_goals rw [hlib.at?_beside_setting (by decide)]; assumption
  | defaultModel =>
    refine ⟨?_, ?_, ?_, ?_, ?_, hset, ?_⟩
    all_goals rw [hlib.at?_beside_setting (by decide)]; assumption
  | logLevel =>
    refine ⟨?_, ?_, ?_, ?_, ?_, ?_, hlib.logging?_set hlogging htable⟩
    all_goals rw [hlib.at?_beside_setting (by decide)]; assumption

end Library.Documented

namespace Settings

variable {lib : Library} {files : String → Option String}
  {environment before after : List (String × String)} {path v : String} {s : Settings}
  {setting : TextSetting}

theorem load_eq_ok_iff : load lib files environment path = .ok s ↔
    ∃ j, layers? lib files environment path = some j ∧ lib.settings? j = some s ∧
      s.fault? = none := by
  rw [load]
  cases hlayers : (layers? lib files environment path).bind lib.settings? with
  | none =>
    simp only [reduceCtorEq, false_iff]
    rintro ⟨j, hj, hread, -⟩
    rw [hj, Option.bind_some, hread] at hlayers
    cases hlayers
  | some settings =>
    obtain ⟨j, hj, hread⟩ := Option.bind_eq_some_iff.mp hlayers
    simp only [hj, Option.some.injEq, exists_eq_left', hread]
    cases hfault : settings.fault? with
    | none => exact ⟨fun h => ⟨Except.ok.inj h, Except.ok.inj h ▸ hfault⟩, fun h => h.1 ▸ rfl⟩
    | some fault =>
      simp only [reduceCtorEq, false_iff, not_and]
      rintro rfl
      simp [hfault]

theorem fault?_eq_none_iff : s.fault? = none ↔
    s.maxAgents ≠ 0 ∧ s.maxTools ≠ 0 ∧ s.sessionTimeoutMinutes ≠ 0 ∧ s.outputBase ≠ "" ∧
      Text.isBlank s.defaultModel = false ∧ Text.isBlank s.logging.level = false := by
  unfold fault?
  repeat' split
  all_goals simp_all

theorem fault?_write {text : String} (h : s.fault? = none) (htext : Text.isBlank text = false) :
    (setting.write text s).fault? = none := by
  have hne : text ≠ "" := by
    rintro rfl
    cases htext
  rw [fault?_eq_none_iff] at h ⊢
  obtain ⟨hagents, htools, htimeout, hbase, hmodel, hlevel⟩ := h
  cases setting with
  | outputBase => exact ⟨hagents, htools, htimeout, hne, hmodel, hlevel⟩
  | defaultModel => exact ⟨hagents, htools, htimeout, hbase, htext, hlevel⟩
  | logLevel => exact ⟨hagents, htools, htimeout, hbase, hmodel, htext⟩

/-- None of the variables leads to the setting, through it or to the table it is in. -/
def PassesBy (lib : Library) (setting : TextSetting) (environment : List (String × String)) :
    Prop :=
  ∀ e ∈ environment, ∀ key ∈ lib.variableKey? variableOptions e.1,
    setting.path.apart (lib.keyPath key) = true

theorem layers?_variable (hlib : lib.Documented) (h : PassesBy lib setting after) :
    layers? lib files (before ++ (setting.variableName, v) :: after) path =
      (layers? lib files (before ++ after) path).map
        (lib.set setting.path (Scalar.ofText v).toJson) := by
  obtain ⟨key, hkey, hpath⟩ := hlib.variableKey?_setting setting
  have hvalue : ∀ text, lib.variableValue variableOptions text = (Scalar.ofText text).toJson :=
    fun text => hlib.variableValue_eq variableOptions text rfl
  have hentries : ∀ e ∈ lib.variableEntries variableOptions after,
      (∃ scalar : Scalar, e.2 = scalar.toJson) ∧
        setting.path.apart (lib.keyPath e.1) = true := by
    intro e he
    obtain ⟨entry, hentry, he⟩ := List.mem_filterMap.mp he
    obtain ⟨key, hkey, rfl⟩ := Option.map_eq_some_iff.mp he
    exact ⟨⟨_, hvalue _⟩, h entry hentry key hkey⟩
  have hset : ∀ below, lib.addSource (lib.variableEntries variableOptions
      (before ++ (setting.variableName, v) :: after)) below =
        lib.set setting.path (Scalar.ofText v).toJson
          (lib.addSource (lib.variableEntries variableOptions (before ++ after)) below) := by
    intro below
    simp only [Library.variableEntries, List.filterMap_append, List.filterMap_cons, hkey,
      Option.map_some]
    simp only [Library.addSource, List.foldl_append, List.foldl_cons, hpath, hvalue v]
    exact hlib.addSource_set hentries _
  simp only [layers?, hset, Option.bind_eq_bind, Option.map_bind, Option.pure_def,
    Function.comp_def, Option.map_some]

/-- The variable of a text setting decides it, whatever a file or the defaults say, and decides
nothing else. Text that is taken for no truth value and no number stays as it is. -/
theorem load_textSetting (hlib : lib.Documented)
    (hload : load lib files (before ++ after) path = .ok s)
    (hv : Text.isBlank v = false) (hafter : PassesBy lib setting after)
    (htable : ∀ j ∈ layers? lib files (before ++ after) path, setting.InTable j) :
    load lib files (before ++ (setting.variableName, v) :: after) path =
        .ok (setting.write (Scalar.ofText v).shown s) ∧
      (Scalar.ofText v = .wording v → (Scalar.ofText v).shown = v) ∧
      (Scalar.IsWording v → Scalar.ofText v = .wording v) := by
  obtain ⟨j, hj, hread, hfault⟩ := load_eq_ok_iff.mp hload
  refine ⟨load_eq_ok_iff.mpr ⟨lib.set setting.path (Scalar.ofText v).toJson j, ?_, ?_, ?_⟩,
    Scalar.shown_of_ofText, Scalar.ofText_of_isWording⟩
  · rw [layers?_variable hlib hafter, hj, Option.map_some]
  · exact hlib.settings?_set hread (htable j hj)
  · exact fault?_write hfault (Scalar.isBlank_shown hv)

def warningFiles (path : String) : Option String :=
  if path = "conf.toml" then
    some "max_agents_per_project = 3\n[logging]\nlevel = \"warn\""
  else none

theorem load_textSetting_debug :
    load (Layer.library [.toml, .json]) warningFiles
        [("AGENT_SMITH_LOGGING__FORMAT", "JSON"), ("AGENT_SMITH_LOGGING__LEVEL", "debug"),
          ("AGENT_SMITH_DEFAULT_MODEL", "gemini-1.5-pro")] "conf" =
      .ok { maxAgents := 3, defaultModel := "gemini-1.5-pro", logging := ⟨"debug", .json⟩ } := by
  have hload : load (Layer.library [.toml, .json]) warningFiles
      ([("AGENT_SMITH_LOGGING__FORMAT", "JSON")] ++
        [("AGENT_SMITH_DEFAULT_MODEL", "gemini-1.5-pro")]) "conf" =
      .ok { maxAgents := 3, defaultModel := "gemini-1.5-pro", logging := ⟨"warn", .json⟩ } := by
    decide +kernel
  have hpasses : PassesBy (Layer.library [.toml, .json]) .logLevel
      [("AGENT_SMITH_DEFAULT_MODEL", "gemini-1.5-pro")] := by
    unfold PassesBy
    decide
  have hlogging : (layers? (Layer.library [.toml, .json]) warningFiles
      ([("AGENT_SMITH_LOGGING__FORMAT", "JSON")] ++
        [("AGENT_SMITH_DEFAULT_MODEL", "gemini-1.5-pro")]) "conf").map (Json.at? ["logging"]) =
      some (some (.object [("format", .text "JSON"), ("level", .text "warn")])) := by
    decide +kernel
  have htable : ∀ j ∈ layers? (Layer.library [.toml, .json]) warningFiles
      ([("AGENT_SMITH_LOGGING__FORMAT", "JSON")] ++
        [("AGENT_SMITH_DEFAULT_MODEL", "gemini-1.5-pro")]) "conf",
      TextSetting.logLevel.InTable j := by
    intro j hj
    rw [Option.mem_def.mp hj, Option.map_some, Option.some.injEq] at hlogging
    exact ⟨_, hlogging⟩
  have hwording : Scalar.IsWording "debug" := ⟨⟨'u', by decide, by decide⟩, by decide, by decide⟩
  obtain ⟨hset, hshown, htext⟩ :=
    load_textSetting (Layer.documented_library [.toml, .json]) hload (v := "debug") (by decide)
      hpasses htable
  rw [hshown (htext hwording)] at hset
  exact hset

/-- Text that looks like a number does not come back as it was written. -/
theorem load_respells_digits :
    load (Layer.library []) (fun _ => none) [] "conf" = .ok {} ∧ Text.isBlank "007" = false ∧
      load (Layer.library []) (fun _ => none) [("AGENT_SMITH_DEFAULT_MODEL", "007")] "conf" =
        .ok { defaultModel := "7" } ∧
      load (Layer.library []) (fun _ => none) [("AGENT_SMITH_DEFAULT_MODEL", "007")] "conf" ≠
        .ok { defaultModel := "007" } := by
  have hload : load (Layer.library []) (fun _ => none)
      [("AGENT_SMITH_DEFAULT_MODEL", "007")] "conf" = .ok { defaultModel := "7" } := by
    decide +kernel
  refine ⟨by decide +kernel, by decide, hload, ?_⟩
  rw [hload]
  decide

end Settings
end AgentAssembly
