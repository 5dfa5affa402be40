import AgentAssembly.Validation.Finding
import AgentAssembly.Proofs.Data.Record

/-!
Findings and reports come back from their records. Main statement: an object is read as a finding
exactly when it holds the tag and the fields of the finding.
-/

namespace AgentAssembly

open Json Json.Members

namespace Json

theorem text?_eq_some_iff {j : Json} {s : String} : text? j = some s ↔ j = .text s := by
  cases j <;> simp [text?]

theorem list?_text?_eq_some_iff {j : Json} {values : List String} :
    list? text? j = some values ↔ j = texts values := by
  constructor
  · intro h
    cases j with
    | array items =>
      have hitems : ∀ {items : List Json} {values : List String},
          items.mapM text? = some values → items = values.map .text := by
        intro items
        induction items with
        | nil => simp
        | cons item rest ih =>
          intro values h
          rw [List.mapM_cons, Option.bind_eq_bind, Option.bind_eq_some_iff] at h
          obtain ⟨s, hs, h⟩ := h
          obtain ⟨rest', hrest, hvalues⟩ := Option.bind_eq_some_iff.mp h
          obtain rfl := Option.some.inj hvalues
          rw [text?_eq_some_iff.mp hs, ih hrest, List.map_cons]
      rw [texts, hitems h]
    | _ => simp [list?] at h
  · intro h
    rw [h, list?_texts]

variable {m : Members} {key s : String}

theorem required_text_iff :
    m.required key text? = some s ↔ Dict.find? key m = some (.text s) := by
  rw [Members.required, Option.bind_eq_some_iff]
  simp [text?_eq_some_iff]

theorem required_texts_iff {values : List String} :
    m.required key (list? text?) = some values ↔ Dict.find? key m = some (texts values) := by
  rw [Members.required, Option.bind_eq_some_iff]
  simp [list?_text?_eq_some_iff]

end Json

namespace Finding

theorem snakeCase_variant (f : Finding) : snakeCase f.variant = f.kind := by
  cases f <;> simp only [variant, kind] <;> decide

def members (f : Finding) : Members := ("kind", .text f.kind) :: f.fields

theorem ofJson?_of_members {m : Members} {f : Finding}
    (h : ∀ e ∈ f.members, Dict.find? e.1 m = some e.2) : ofJson? (.object m) = some f := by
  cases f <;> simp only [members, fields, kind, List.forall_mem_cons] at h <;>
    simp only [ofJson?, tagged?, fields?_object, Members.required, Option.bind_eq_bind,
      Option.bind_some, Option.map_some, Option.pure_def, text?, list?_texts, h]

theorem ofJson?_eq_some_iff {m : Members} {f : Finding} :
    ofJson? (.object m) = some f ↔ ∀ e ∈ f.members, Dict.find? e.1 m = some e.2 := by
  refine ⟨fun h => ?_, ofJson?_of_members⟩
  unfold ofJson? at h
  simp only [tagged?, Option.bind_eq_bind, Option.pure_def, Option.bind_map,
    Function.comp_def] at h
  obtain ⟨kind, hkind, h⟩ := Option.bind_eq_some_iff.mp h
  rw [required_text_iff] at hkind
  -- One branch for each tag: its fields are those that were read.
  split at h <;> simp only [fields?_object, Option.bind_some, Option.bind_eq_some_iff,
    required_text_iff, required_texts_iff, Option.some.injEq, reduceCtorEq] at h
  · obtain ⟨agent, hagent, tool, htool, rfl⟩ := h
    simp_all [members, fields, Finding.kind]
  · obtain ⟨agent, hagent, subAgent, hsubAgent, rfl⟩ := h
    simp_all [members, fields, Finding.kind]
  · obtain ⟨path, hpath, rfl⟩ := h
    simp_all [members, fields, Finding.kind]
  · obtain ⟨name, hname, rfl⟩ := h
    simp_all [members, fields, Finding.kind]
  · obtain ⟨tool, htool, rfl⟩ := h
    simp_all [members, fields, Finding.kind]
  · subst h
    simp_all [members, fields, Finding.kind]
  · obtain ⟨tool, htool, parameter, hparameter, reason, hreason, rfl⟩ := h
    simp_all [members, fields, Finding.kind]
  · obtain ⟨tool, htool, reference, hreference, rfl⟩ := h
    simp_all [members, fields, Finding.kind]
  · obtain ⟨identifier, hidentifier, first, hfirst, second, hsecond, rfl⟩ := h
    simp_all [members, fields, Finding.kind]

theorem nodup_members (f : Finding) : (f.members.map (·.1)).Nodup := by
  cases f <;> simp [members, fields]

theorem toJson_eq (f : Finding) : f.toJson = ofMembers f.members := by
  rw [toJson, snakeCase_variant, members]

theorem find?_members {f : Finding} {e : String × Json} (h : e ∈ f.members) :
    Dict.find? e.1 (sortedMembers f.members) = some e.2 := by
  rw [find?_sortedMembers f.nodup_members, lookup_of_mem f.nodup_members h]

theorem ofJson?_toJson (f : Finding) : ofJson? f.toJson = some f := by
  rw [toJson_eq]
  exact ofJson?_of_members fun _ => find?_members

def form : Form Finding where
  write := toJson
  read? := ofJson?
  fields f := f.members.map fun e => (e.1, none)

theorem read_kept (f : Finding) {members : Members} {kept : String × Json → Bool}
    (hkeys : (members.map (·.1)).Nodup)
    (hidle : ∀ e ∈ members, kept e = false → IsIdle (form.fields f) e) :
    ofJson? (ofMembers (members.filter kept)) = some f ↔ ofJson? (ofMembers members) = some f := by
  have hsame := sameFields_filter hkeys hidle
  have hfind : ∀ e ∈ f.members, Dict.find? e.1 (sortedMembers (members.filter kept)) =
      Dict.find? e.1 (sortedMembers members) := by
    intro e he
    have hfields : ((form.fields f).map (·.1)).Nodup := by
      simpa [form, Function.comp_def] using f.nodup_members
    have hknown : (form.fields f).lookup e.1 = some none :=
      lookup_of_mem hfields (List.mem_map_of_mem he)
    obtain hsame | ⟨-, IsDefault, hdefault, -⟩ := hsame e.1 none hknown
    · exact hsame
    · cases hdefault
  calc ofJson? (ofMembers (members.filter kept)) = some f
      ↔ ∀ e ∈ f.members, Dict.find? e.1 (sortedMembers (members.filter kept)) = some e.2 :=
        ofJson?_eq_some_iff
    _ ↔ ∀ e ∈ f.members, Dict.find? e.1 (sortedMembers members) = some e.2 :=
        forall₂_congr fun e he => by rw [hfind e he]
    _ ↔ ofJson? (ofMembers members) = some f := ofJson?_eq_some_iff.symm

theorem form_survives : form.Survives fun _ => True :=
  ⟨fun f _ => ofJson?_toJson f, fun f _ _ => read_kept f⟩

end Finding

namespace Report

def form : Form Report where
  write := toJson
  read? := ofJson?
  fields _ := [("findings", none)]

theorem ofJson?_toJson (r : Report) : ofJson? r.toJson = some r := by
  refine read_record (by simp) fun m hm => ?_
  simp only [List.forall_mem_cons] at hm
  have hfindings := required_eq hm.1 (list?_ofList fun f _ => f.ofJson?_toJson)
  simp only [ofJson?, fields?_object, Option.bind_eq_bind, Option.bind_some,
    Option.pure_def, hfindings]

theorem readsOnly (r : Report) : ReadsOnly (form.fields r) fun m => ofJson? (.object m) := by
  unfold ofJson?
  refine .object ?_
  exact .bind (.required rfl) fun _ => .pure _

theorem form_survives : form.Survives fun _ => True :=
  ⟨fun r _ => ofJson?_toJson r, fun r => (readsOnly r).kept r⟩

end Report
end AgentAssembly
