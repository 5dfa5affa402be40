import AgentAssembly.Project.Record
import AgentAssembly.Proofs.Data.Record
import AgentAssembly.Proofs.Data.Timestamp
import AgentAssembly.Proofs.Data.Uuid

/-!
Projects and their parts come back from their records.
-/

namespace AgentAssembly

open Json Json.Members

theorem ToolKind.ofJson?_toJson (kind : ToolKind) : ofJson? kind.toJson = some kind := by
  cases kind <;> rfl

theorem ToolKind.toJson_ne_null (kind : ToolKind) : kind.toJson ≠ .null := by
  cases kind <;> simp [toJson]

namespace Agent

def HasFiniteTemperature (a : Agent) : Prop := ∀ d ∈ a.temperature, d.isFinite

def form : Form Agent where
  write := toJson
  read? := ofJson?
  fields _ :=
    [("name", defaultsTo text? ""), ("model", defaultsTo text? ""),
     ("description", defaultsTo text? ""), ("instruction", defaultsTo text? ""),
     ("tools", defaultsTo (list? text?) []), ("sub_agents", defaultsTo (list? text?) []),
     ("temperature", defaultsToNull), ("max_output_tokens", defaultsToNull)]

theorem ofJson?_toJson {a : Agent} (h : a.HasFiniteTemperature) : ofJson? a.toJson = some a := by
  refine read_record (by simp) fun m hm => ?_
  simp only [List.forall_mem_cons] at hm
  obtain ⟨hname, hmodel, hdescription, hinstruction, htools, hsubAgents, htemperature, htokens,
    -⟩ := hm
  have htemperature := optional_eq_of_map htemperature
    (fun d hd => double?_ofDouble (h d hd)) (fun d hd => ofDouble_ne_null (h d hd))
  have htokens := optional_eq_of_map htokens (fun n _ => word32?_toNat n) (by simp)
  simp only [ofJson?, fields?_object, Option.bind_eq_bind, Option.bind_some, Option.pure_def,
    withDefault_text hname, withDefault_text hmodel, withDefault_text hdescription,
    withDefault_text hinstruction, withDefault_texts htools, withDefault_texts hsubAgents,
    htemperature, htokens]

theorem readsOnly (a : Agent) : ReadsOnly (form.fields a) fun m => ofJson? (.object m) := by
  unfold ofJson?
  refine .object ?_
  refine .bind (.withDefault rfl) fun _ => .bind (.withDefault rfl) fun _ => ?_
  refine .bind (.withDefault rfl) fun _ => .bind (.withDefault rfl) fun _ => ?_
  refine .bind (.withDefault rfl) fun _ => .bind (.withDefault rfl) fun _ => ?_
  exact .bind (.optional rfl) fun _ => .bind (.optional rfl) fun _ => .pure _

theorem form_survives : form.Survives HasFiniteTemperature :=
  ⟨fun _ => ofJson?_toJson, fun a => (readsOnly a).kept a⟩

example : ofJson? (.array [.text "helper", .text "gemini-2.0-flash"]) =
    some { name := "helper", model := "gemini-2.0-flash" } := by decide

end Agent

namespace AgentPatch

def HasFiniteTemperature (p : AgentPatch) : Prop := ∀ d ∈ p.temperature, d.isFinite

def form : Form AgentPatch where
  write := toJson
  read? := ofJson?
  fields _ :=
    [("model", defaultsToNull), ("description", defaultsToNull), ("instruction", defaultsToNull),
     ("tools", defaultsToNull), ("sub_agents", defaultsToNull), ("temperature", defaultsToNull),
     ("max_output_tokens", defaultsToNull), ("replace_references", defaultsTo bool? false)]

theorem ofJson?_toJson {p : AgentPatch} (h : p.HasFiniteTemperature) :
    ofJson? p.toJson = some p := by
  refine read_record (by simp) fun m hm => ?_
  simp only [List.forall_mem_cons] at hm
  obtain ⟨hmodel, hdescription, hinstruction, htools, hsubAgents, htemperature, htokens, hreplace,
    -⟩ := hm
  have htemperature := optional_eq_of_ofOption htemperature
    (fun d hd => double?_ofDouble (h d hd)) (fun d hd => ofDouble_ne_null (h d hd))
  have htokens := optional_eq_of_ofOption htokens (fun n _ => word32?_toNat n) (by simp)
  have hreplace : withDefault m "replace_references" bool? false = some p.replaceReferences :=
    withDefault_eq hreplace rfl
  simp only [ofJson?, fields?_object, Option.bind_eq_bind, Option.bind_some, Option.pure_def,
    optional_text hmodel, optional_text hdescription, optional_text hinstruction,
    optional_texts htools, optional_texts hsubAgents, htemperature, htokens, hreplace]

theorem readsOnly (p : AgentPatch) : ReadsOnly (form.fields p) fun m => ofJson? (.object m) := by
  unfold ofJson?
  refine .object ?_
  refine .bind (.optional rfl) fun _ => .bind (.optional rfl) fun _ => ?_
  refine .bind (.optional rfl) fun _ => .bind (.optional rfl) fun _ => ?_
  refine .bind (.optional rfl) fun _ => .bind (.optional rfl) fun _ => ?_
  exact .bind (.optional rfl) fun _ => .bind (.withDefault rfl) fun _ => .pure _

theorem form_survives : form.Survives HasFiniteTemperature :=
  ⟨fun _ => ofJson?_toJson, fun p => (readsOnly p).kept p⟩

end AgentPatch

namespace Parameter

def form : Form Parameter where
  write := toJson
  read? := ofJson?
  fields _ := [("name", none), ("type_hint", defaultsToNull), ("default", defaultsToNull)]

theorem ofJson?_toJson (p : Parameter) : ofJson? p.toJson = some p := by
  refine read_record (by simp) fun m hm => ?_
  simp only [List.forall_mem_cons] at hm
  obtain ⟨hname, hhint, hdefault, -⟩ := hm
  simp only [ofJson?, fields?_object, Option.bind_eq_bind, Option.bind_some, Option.pure_def,
    required_text hname, optional_text_of_map hhint, optional_text_of_map hdefault]

theorem readsOnly (p : Parameter) : ReadsOnly (form.fields p) fun m => ofJson? (.object m) := by
  unfold ofJson?
  refine .object ?_
  refine .bind (.required rfl) fun _ => ?_
  exact .bind (.optional rfl) fun _ => .bind (.optional rfl) fun _ => .pure _

theorem form_survives : form.Survives fun _ => True :=
  ⟨fun p _ => ofJson?_toJson p, fun p => (readsOnly p).kept p⟩

end Parameter

namespace Tool

def form : Form Tool where
  write := toJson
  read? := ofJson?
  fields _ :=
    [("name", defaultsTo text? ""), ("kind", defaultsTo ToolKind.ofJson? .generated),
     ("description", defaultsTo text? ""),
     ("parameters", defaultsTo (list? Parameter.ofJson?) []), ("code", defaultsTo text? ""),
     ("imports", defaultsTo (list? text?) []), ("builtin_type", defaultsToNull)]

theorem ofJson?_toJson (t : Tool) : ofJson? t.toJson = some t := by
  refine read_record (by simp) fun m hm => ?_
  simp only [List.forall_mem_cons] at hm
  obtain ⟨hname, hkind, hdescription, hparameters, hcode, himports, hbuiltin, -⟩ := hm
  have hkind : withDefault m "kind" ToolKind.ofJson? .generated = some t.kind :=
    withDefault_eq hkind t.kind.ofJson?_toJson
  have hparameters : withDefault m "parameters" (list? Parameter.ofJson?) [] = some t.parameters :=
    withDefault_eq hparameters (list?_ofList fun p _ => p.ofJson?_toJson)
  simp only [ofJson?, fields?_object, Option.bind_eq_bind, Option.bind_some, Option.pure_def,
    withDefault_text hname, hkind, withDefault_text hdescription, hparameters,
    withDefault_text hcode, withDefault_texts himports, optional_text_of_map hbuiltin]

theorem readsOnly (t : Tool) : ReadsOnly (form.fields t) fun m => ofJson? (.object m) := by
  unfold ofJson?
  refine .object ?_
  refine .bind (.withDefault rfl) fun _ => .bind (.withDefault rfl) fun _ => ?_
  refine .bind (.withDefault rfl) fun _ => .bind (.withDefault rfl) fun _ => ?_
  refine .bind (.withDefault rfl) fun _ => .bind (.withDefault rfl) fun _ => ?_
  exact .bind (.optional rfl) fun _ => .pure _

theorem form_survives : form.Survives fun _ => True :=
  ⟨fun t _ => ofJson?_toJson t, fun t => (readsOnly t).kept t⟩

end Tool

namespace ToolPatch

def form : Form ToolPatch where
  write := toJson
  read? := ofJson?
  fields _ :=
    [("kind", defaultsToNull), ("description", defaultsToNull), ("parameters", defaultsToNull),
     ("code", defaultsToNull), ("imports", defaultsToNull), ("builtin_type", defaultsToNull),
     ("replace_imports", defaultsTo bool? false)]

theorem ofJson?_toJson (p : ToolPatch) : ofJson? p.toJson = some p := by
  refine read_record (by simp) fun m hm => ?_
  simp only [List.forall_mem_cons] at hm
  obtain ⟨hkind, hdescription, hparameters, hcode, himports, hbuiltin, hreplace, -⟩ := hm
  have hkind := optional_eq_of_ofOption hkind
    (fun kind _ => kind.ofJson?_toJson) (fun kind _ => kind.toJson_ne_null)
  have hparameters := optional_eq_of_ofOption hparameters
    (fun ps _ => list?_ofList fun p _ => p.ofJson?_toJson) (by simp [ofList])
  have hreplace : withDefault m "replace_imports" bool? false = some p.replaceImports :=
    withDefault_eq hreplace rfl
  simp only [ofJson?, fields?_object, Option.bind_eq_bind, Option.bind_some, Option.pure_def, hkind,
    optional_text hdescription, hparameters, optional_text hcode, optional_texts himports,
    optional_text hbuiltin, hreplace]

theorem readsOnly (p : ToolPatch) : ReadsOnly (form.fields p) fun m => ofJson? (.object m) := by
  unfold ofJson?
  refine .object ?_
  refine .bind (.optional rfl) fun _ => .bind (.optional rfl) fun _ => ?_
  refine .bind (.optional rfl) fun _ => .bind (.optional rfl) fun _ => ?_
  refine .bind (.optional rfl) fun _ => .bind (.optional rfl) fun _ => ?_
  exact .bind (.withDefault rfl) fun _ => .pure _

theorem form_survives : form.Survives fun _ => True :=
  ⟨fun p _ => ofJson?_toJson p, fun p => (readsOnly p).kept p⟩

end ToolPatch

namespace BuildContext

def form : Form BuildContext where
  write := toJson
  read? := ofJson?
  fields _ :=
    [("output_directory", defaultsToNull), ("primary_agent_name", defaultsToNull),
     ("flags", defaultsTo (dict? any?) ∅), ("requirements", defaultsTo (list? text?) []),
     ("environment", defaultsTo (dict? text?) ∅)]

theorem ofJson?_toJson (c : BuildContext) : ofJson? c.toJson = some c := by
  refine read_record (by simp) fun m hm => ?_
  simp only [List.forall_mem_cons] at hm
  obtain ⟨houtput, hprimary, hflags, hrequirements, henvironment, -⟩ := hm
  have hflags : withDefault m "flags" (dict? any?) ∅ = some c.flags :=
    withDefault_eq hflags (dict?_ofValues _)
  have henvironment : withDefault m "environment" (dict? text?) ∅ = some c.environment :=
    withDefault_eq henvironment (dict?_ofDict _ fun _ => rfl)
  simp only [ofJson?, fields?_object, Option.bind_eq_bind, Option.bind_some, Option.pure_def,
    optional_text houtput, optional_text hprimary, hflags, withDefault_texts hrequirements,
    henvironment]

theorem readsOnly (c : BuildContext) : ReadsOnly (form.fields c) fun m => ofJson? (.object m) := by
  unfold ofJson?
  refine .object ?_
  refine .bind (.optional rfl) fun _ => .bind (.optional rfl) fun _ => ?_
  refine .bind (.withDefault rfl) fun _ => .bind (.withDefault rfl) fun _ => ?_
  exact .bind (.withDefault rfl) fun _ => .pure _

theorem form_survives : form.Survives fun _ => True :=
  ⟨fun c _ => ofJson?_toJson c, fun c => (readsOnly c).kept c⟩

end BuildContext

namespace BuildContextPatch

def form : Form BuildContextPatch where
  write := toJson
  read? := ofJson?
  fields _ :=
    [("output_directory", defaultsToNull), ("primary_agent_name", defaultsToNull),
     ("flags", defaultsTo (dict? any?) ∅), ("requirements", defaultsToNull),
     ("environment", defaultsTo (dict? text?) ∅)]

theorem ofJson?_toJson (p : BuildContextPatch) : ofJson? p.toJson = some p := by
  refine read_record (by simp) fun m hm => ?_
  simp only [List.forall_mem_cons] at hm
  obtain ⟨houtput, hprimary, hflags, hrequirements, henvironment, -⟩ := hm
  have hflags : withDefault m "flags" (dict? any?) ∅ = some p.flags :=
    withDefault_eq hflags (dict?_ofValues _)
  have henvironment : withDefault m "environment" (dict? text?) ∅ = some p.environment :=
    withDefault_eq henvironment (dict?_ofDict _ fun _ => rfl)
  simp only [ofJson?, fields?_object, Option.bind_eq_bind, Option.bind_some, Option.pure_def,
    optional_text houtput, optional_text hprimary, hflags, optional_texts hrequirements,
    henvironment]

theorem readsOnly (p : BuildContextPatch) :
    ReadsOnly (form.fields p) fun m => ofJson? (.object m) := by
  unfold ofJson?
  refine .object ?_
  refine .bind (.optional rfl) fun _ => .bind (.optional rfl) fun _ => ?_
  refine .bind (.withDefault rfl) fun _ => .bind (.optional rfl) fun _ => ?_
  exact .bind (.withDefault rfl) fun _ => .pure _

theorem form_survives : form.Survives fun _ => True :=
  ⟨fun p _ => ofJson?_toJson p, fun p => (readsOnly p).kept p⟩

end BuildContextPatch

/-- Nothing is lost when an identifier, or a moment in the years of the calendar, is exchanged. -/
structure TextForms.Lossless (forms : TextForms) : Prop where
  identifier : ∀ id, forms.identifier.read? (forms.identifier.write id) = some id
  moment : ∀ t : Timestamp, t.IsDated → forms.moment.read? (forms.moment.write t) = some t

theorem TextForms.standard_lossless : standard.Lossless :=
  ⟨Uuid.ofText?_text, fun _ => Timestamp.ofText?_text⟩

section dated

variable {forms : TextForms} {m : Members} {key : String}

theorem required_identifier (hforms : forms.Lossless) {id : Uuid}
    (h : Dict.find? key m = some (forms.identifier.toJson id)) :
    m.required key forms.identifier.ofJson? = some id := required_eq h (hforms.identifier id)

theorem required_moment (hforms : forms.Lossless) {t : Timestamp} (ht : t.IsDated)
    (h : Dict.find? key m = some (forms.moment.toJson t)) :
    m.required key forms.moment.ofJson? = some t := required_eq h (hforms.moment t ht)

theorem required_context {c : BuildContext} (h : Dict.find? key m = some c.toJson) :
    m.required key BuildContext.ofJson? = some c := required_eq h c.ofJson?_toJson

end dated

namespace Project

variable {forms : TextForms}

/-- What numbers and moments of a project have to be to be written: temperatures finite, and times
in the years that have a text. -/
structure IsWritable (p : Project) : Prop where
  agents : ∀ a ∈ p.agents, a.HasFiniteTemperature
  createdAt : p.createdAt.IsDated
  updatedAt : p.updatedAt.IsDated

def form (forms : TextForms) : Form Project where
  write := toJson forms
  read? := ofJson? forms
  fields _ :=
    [("id", none), ("name", none), ("metadata", none), ("agents", none), ("tools", none),
     ("build_context", none), ("created_at", none), ("updated_at", none)]

theorem ofJson?_toJson (hforms : forms.Lossless) {p : Project} (h : p.IsWritable) :
    ofJson? forms (p.toJson forms) = some p := by
  refine read_record (by simp) fun m hm => ?_
  simp only [List.forall_mem_cons] at hm
  obtain ⟨hid, hname, hmetadata, hagents, htools, hcontext, hcreated, hupdated, -⟩ := hm
  have hagents := required_eq hagents
    (list?_ofList fun a ha => Agent.ofJson?_toJson (h.agents a ha))
  have htools := required_eq htools (list?_ofList fun t _ => t.ofJson?_toJson)
  simp only [ofJson?, fields?_object, Option.bind_eq_bind, Option.bind_some, Option.pure_def,
    required_identifier hforms hid, required_text hname,
    required_eq hmetadata (dict?_ofValues _), hagents, htools, required_context hcontext, required_moment hforms h.createdAt hcreated,
    required_moment hforms h.updatedAt hupdated]

theorem readsOnly (forms : TextForms) (p : Project) :
    ReadsOnly ((form forms).fields p) fun m => ofJson? forms (.object m) := by
  unfold ofJson?
  refine .object ?_
  refine .bind (.required rfl) fun _ => .bind (.required rfl) fun _ => ?_
  refine .bind (.required rfl) fun _ => .bind (.required rfl) fun _ => ?_
  refine .bind (.required rfl) fun _ => .bind (.required rfl) fun _ => ?_
  exact .bind (.required rfl) fun _ => .bind (.required rfl) fun _ => .pure _

theorem form_survives (hforms : forms.Lossless) : (form forms).Survives IsWritable :=
  ⟨fun _ => ofJson?_toJson hforms, fun p => (readsOnly forms p).kept p⟩

end Project

namespace Summary

variable {forms : TextForms}

structure IsWritable (s : Summary) : Prop where
  agentCount : s.agentCount < UInt64.size
  toolCount : s.toolCount < UInt64.size
  createdAt : s.createdAt.IsDated
  updatedAt : s.updatedAt.IsDated

def form (forms : TextForms) : Form Summary where
  write := toJson forms
  read? := ofJson? forms
  fields _ :=
    [("project_id", none), ("name", none), ("agent_names", none), ("tool_names", none),
     ("agent_count", none), ("tool_count", none), ("build_context", none), ("created_at", none),
     ("updated_at", none)]

theorem ofJson?_toJson (hforms : forms.Lossless) {s : Summary} (h : s.IsWritable) :
    ofJson? forms (s.toJson forms) = some s := by
  refine read_record (by simp) fun m hm => ?_
  simp only [List.forall_mem_cons] at hm
  obtain ⟨hid, hname, hagentNames, htoolNames, hagentCount, htoolCount, hcontext, hcreated,
    hupdated, -⟩ := hm
  simp only [ofJson?, fields?_object, Option.bind_eq_bind, Option.bind_some, Option.pure_def,
    required_identifier hforms hid, required_text hname, required_eq hagentNames (list?_texts _),
    required_eq htoolNames (list?_texts _), required_eq hagentCount (natBelow?_of_lt h.agentCount),
    required_eq htoolCount (natBelow?_of_lt h.toolCount), required_context hcontext,
    required_moment hforms h.createdAt hcreated, required_moment hforms h.updatedAt hupdated]

theorem readsOnly (forms : TextForms) (s : Summary) :
    ReadsOnly ((form forms).fields s) fun m => ofJson? forms (.object m) := by
  unfold ofJson?
  refine .object ?_
  refine .bind (.required rfl) fun _ => .bind (.required rfl) fun _ => ?_
  refine .bind (.required rfl) fun _ => .bind (.required rfl) fun _ => ?_
  refine .bind (.required rfl) fun _ => .bind (.required rfl) fun _ => ?_
  refine .bind (.required rfl) fun _ => .bind (.required rfl) fun _ => ?_
  exact .bind (.required rfl) fun _ => .pure _

theorem form_survives (hforms : forms.Lossless) : (form forms).Survives IsWritable :=
  ⟨fun _ => ofJson?_toJson hforms, fun s => (readsOnly forms s).kept s⟩

end Summary
end AgentAssembly
