import AgentAssembly.Data.Record
import AgentAssembly.Proofs.Collections

/-!
Reading records. Main statements: a record reads the fields it wrote, and what is read depends on
the known fields alone, where a missing field is as good as one that holds its default.
-/

namespace AgentAssembly

namespace Json

variable {α β : Type}

def sortedMembers (members : Members) : Members := (Dict.ofList members).entries

theorem find?_sortedMembers {members : Members} (h : (members.map (·.1)).Nodup) (key : String) :
    Dict.find? key (sortedMembers members) = members.lookup key := by
  cases hkey : members.lookup key with
  | none =>
    have hcontains : ¬ (Dict.ofList members).contains key = true := by
      rw [Dict.contains_ofList]
      exact lookup_eq_none_iff_keys.mp hkey
    simpa [Dict.contains, Dict.get?, sortedMembers] using hcontains
  | some value =>
    obtain ⟨before, after, rfl, -⟩ := List.lookup_eq_some_iff.mp hkey
    rw [List.map_append, List.map_cons, List.nodup_middle, List.nodup_cons, List.mem_append,
      not_or] at h
    exact Dict.get?_ofList_of_split h.1.2

def recordMembers (fields : List (String × Option Json)) : Members :=
  fields.filterMap fun (key, value) => value.map (key, ·)

theorem lookup_recordMembers {fields : List (String × Option Json)}
    (h : (fields.map (·.1)).Nodup) (key : String) :
    (recordMembers fields).lookup key = (fields.lookup key).join := by
  induction fields with
  | nil => rfl
  | cons field rest ih =>
    obtain ⟨name, value⟩ := field
    obtain ⟨hname, hrest⟩ := List.nodup_cons.mp h
    have ih := ih hrest
    by_cases hkey : key = name
    · subst hkey
      rw [lookup_eq_none_iff_keys.mpr hname] at ih
      cases value with
      | none => simpa [recordMembers] using ih
      | some value => simp [recordMembers]
    · have hne : (key == name) = false := by simpa using hkey
      cases value <;> simpa [recordMembers, List.lookup_cons, hne] using ih

theorem nodup_recordMembers {fields : List (String × Option Json)}
    (h : (fields.map (·.1)).Nodup) : ((recordMembers fields).map (·.1)).Nodup := by
  have hsublist : ((recordMembers fields).map (·.1)).Sublist (fields.map (·.1)) := by
    clear h
    induction fields with
    | nil => exact .slnil
    | cons field rest ih =>
      obtain ⟨name, value⟩ := field
      cases value with
      | none => simpa [recordMembers] using ih.cons name
      | some value => simpa [recordMembers] using ih.cons_cons name
  exact h.sublist hsublist

theorem find?_record {fields : List (String × Option Json)} (h : (fields.map (·.1)).Nodup)
    {field : String × Option Json} (hfield : field ∈ fields) :
    Dict.find? field.1 (sortedMembers (recordMembers fields)) = field.2 := by
  rw [find?_sortedMembers (nodup_recordMembers h), lookup_recordMembers h, lookup_of_mem h hfield,
    Option.join_some]

theorem read_record {fields : List (String × Option Json)} {read : Json → Option α} {a : α}
    (hkeys : (fields.map (·.1)).Nodup)
    (h : ∀ m, (∀ field ∈ fields, Dict.find? field.1 m = field.2) → read (.object m) = some a) :
    read (record fields) = some a :=
  h _ fun _ => find?_record hkeys

@[simp] theorem fields?_object (keys : List String) (needed : Nat) (m : Members) :
    (Json.object m).fields? keys needed = some m := rfl

namespace Members

variable {m : Members} {key : String} {read : Json → Option α} {write : α → Json} {j : Json}
  {a unset : α} {value : Option α}

theorem required_eq (h : Dict.find? key m = some j) (hread : read j = some a) :
    m.required key read = some a := by
  rw [required, h, Option.bind_some, hread]

theorem withDefault_eq (h : Dict.find? key m = some j) (hread : read j = some a) :
    m.withDefault key read unset = some a := by
  simp only [withDefault, h, hread]

theorem optional_eq_of_map (h : Dict.find? key m = value.map write)
    (hread : ∀ a ∈ value, read (write a) = some a) (hnull : ∀ a ∈ value, write a ≠ .null) :
    m.optional key read = some value := by
  cases value with
  | none => simp only [optional, h, Option.map_none]
  | some a =>
    have hvalue := hread a rfl
    cases hj : write a <;> simp_all [optional]

theorem optional_eq_of_ofOption (h : Dict.find? key m = some (ofOption write value))
    (hread : ∀ a ∈ value, read (write a) = some a) (hnull : ∀ a ∈ value, write a ≠ .null) :
    m.optional key read = some value := by
  cases value with
  | none => simp only [optional, h, ofOption]
  | some a =>
    refine optional_eq_of_map ?_ hread hnull
    simpa [ofOption] using h

end Members

/-! ### What is read -/

/-- The fields that a reader knows, each with the values that stand for its default, where it has
one. -/
abbrev KnownFields := List (String × Option (Json → Prop))

def defaultsTo (read : Json → Option α) (unset : α) : Option (Json → Prop) :=
  some fun j => read j = some unset

def defaultsToNull : Option (Json → Prop) := some fun j => j = .null

/-- Objects with the same known fields. A field with a default may be missing from the first where
the second has the default. -/
def SameFields (fields : KnownFields) (m m' : Members) : Prop :=
  ∀ key unset, fields.lookup key = some unset →
    Dict.find? key m = Dict.find? key m' ∨
      Dict.find? key m = none ∧ ∃ IsDefault ∈ unset, ∃ j ∈ Dict.find? key m', IsDefault j

/-- A reader that knows these fields and no others, and takes their defaults for missing ones. -/
def ReadsOnly (fields : KnownFields) (read : Members → α) : Prop :=
  ∀ m m', SameFields fields m m' → read m = read m'

namespace ReadsOnly

variable {fields : KnownFields} {key : String}

theorem pure (a : α) : ReadsOnly fields fun _ => a := fun _ _ _ => rfl

theorem object {read : Members → Option α} (h : ReadsOnly fields read) {keys : List String}
    {needed : Nat} : ReadsOnly fields fun m => (Json.object m).fields? keys needed >>= read := h

theorem bind {first : Members → Option α} {next : α → Members → Option β}
    (hfirst : ReadsOnly fields first) (hnext : ∀ a, ReadsOnly fields (next a)) :
    ReadsOnly fields fun m => first m >>= fun a => next a m := by
  intro m m' h
  simp only [hfirst m m' h, fun a => hnext a m m' h]

theorem required {read : Json → Option α} (hkey : fields.lookup key = some none) :
    ReadsOnly fields fun m => m.required key read := by
  intro m m' h
  obtain hsame | ⟨-, IsDefault, hdefault, -⟩ := h key none hkey
  · simp only [Members.required, hsame]
  · cases hdefault

theorem withDefault {read : Json → Option α} {unset : α}
    (hkey : fields.lookup key = some (defaultsTo read unset)) :
    ReadsOnly fields fun m => m.withDefault key read unset := by
  intro m m' h
  obtain hsame | ⟨hnone, IsDefault, hdefault, j, hj, hvalue⟩ := h key _ hkey
  · simp only [Members.withDefault, hsame]
  · obtain rfl := Option.some.inj hdefault
    simp only [Members.withDefault, hnone, Option.mem_def.mp hj, hvalue]

theorem optional {read : Json → Option α} (hkey : fields.lookup key = some defaultsToNull) :
    ReadsOnly fields fun m => m.optional key read := by
  intro m m' h
  obtain hsame | ⟨hnone, IsDefault, hdefault, j, hj, hvalue⟩ := h key _ hkey
  · simp only [Members.optional, hsame]
  · obtain rfl := Option.some.inj hdefault
    simp only [Members.optional, hnone, Option.mem_def.mp hj, hvalue]

end ReadsOnly

/-- A member that makes no difference: its key is unknown, or it holds the default. -/
def IsIdle (fields : KnownFields) (member : String × Json) : Prop :=
  ∀ unset, fields.lookup member.1 = some unset → ∃ IsDefault ∈ unset, IsDefault member.2

section idle

variable {fields : KnownFields} {key : String} {j : Json}

theorem isIdle_of_unknown (h : fields.lookup key = none) : IsIdle fields (key, j) := by
  intro unset hunset
  rw [h] at hunset
  cases hunset

theorem isIdle_of_default {IsDefault : Json → Prop}
    (h : fields.lookup key = some (some IsDefault)) (hj : IsDefault j) :
    IsIdle fields (key, j) := by
  intro unset hunset
  obtain rfl := Option.some.inj (h.symm.trans hunset)
  exact ⟨IsDefault, rfl, hj⟩

theorem sameFields_filter {members : Members} (hkeys : (members.map (·.1)).Nodup)
    {kept : String × Json → Bool} (h : ∀ e ∈ members, kept e = false → IsIdle fields e) :
    SameFields fields (sortedMembers (members.filter kept)) (sortedMembers members) := by
  intro key unset hunset
  have hfilter : ((members.filter kept).map (·.1)).Nodup :=
    hkeys.sublist (List.filter_sublist.map _)
  rw [find?_sortedMembers hkeys, find?_sortedMembers hfilter, lookup_filter hkeys]
  cases hkey : members.lookup key with
  | none => exact .inl rfl
  | some value =>
    cases hkept : kept (key, value) with
    | true => exact .inl (by simp [Option.filter, hkept])
    | false =>
      obtain ⟨before, after, rfl, -⟩ := List.lookup_eq_some_iff.mp hkey
      obtain ⟨IsDefault, hdefault, hvalue⟩ := h (key, value) (by simp) hkept unset hunset
      exact .inr ⟨by simp [Option.filter, hkept], IsDefault, hdefault, value, rfl, hvalue⟩

end idle

/-- How records of one kind are written and read, and the fields of each record. -/
structure Form (α : Type) where
  write : α → Json
  read? : Json → Option α
  fields : α → KnownFields

/-- Records come back from their form, and so do they from objects with other members more and
members with defaults fewer. -/
structure Form.Survives (form : Form α) (IsLawful : α → Prop) : Prop where
  read_write : ∀ a, IsLawful a → form.read? (form.write a) = some a
  read_kept : ∀ a members kept, (members.map (·.1)).Nodup →
    (∀ e ∈ members, kept e = false → IsIdle (form.fields a) e) →
    (form.read? (ofMembers (members.filter kept)) = some a ↔
      form.read? (ofMembers members) = some a)

theorem ReadsOnly.kept {fields : KnownFields} {read : Json → Option α}
    (h : ReadsOnly fields fun m => read (.object m)) (a : α) (members : Members)
    (kept : String × Json → Bool) (hkeys : (members.map (·.1)).Nodup)
    (hidle : ∀ e ∈ members, kept e = false → IsIdle fields e) :
    read (ofMembers (members.filter kept)) = some a ↔ read (ofMembers members) = some a := by
  have hsame := h _ _ (sameFields_filter hkeys hidle)
  exact iff_of_eq (congrArg (· = some a) hsame)

/-! ### Values in fields -/

theorem list?_ofList {read : Json → Option α} {write : α → Json} {items : List α}
    (h : ∀ a ∈ items, read (write a) = some a) : list? read (ofList write items) = some items := by
  simp only [list?, ofList]
  induction items with
  | nil => rfl
  | cons a rest ih =>
    obtain ⟨ha, hrest⟩ := List.forall_mem_cons.mp h
    simp [ha, ih hrest]

@[simp] theorem list?_texts (values : List String) : list? text? (texts values) = some values :=
  list?_ofList fun _ _ => rfl

theorem ofList_entries (d : Dict String α) : Dict.ofList d.entries = d :=
  Dict.ext fun k => by
    rw [Dict.ofList, Dict.get?_insertAll d.sorted, Dict.get?_empty, Option.or_none, Dict.get?]

theorem dict?_ofDict {read : Json → Option α} {write : α → Json} (d : Dict String α)
    (h : ∀ a, read (write a) = some a) : dict? read (ofDict write d) = some d := by
  have hentries : ∀ entries : List (String × α),
      (entries.map fun e => (e.1, write e.2)).mapM (fun e => (read e.2).map (e.1, ·)) =
        some entries := by
    intro entries
    induction entries with
    | nil => rfl
    | cons e rest ih => simp [h, ih]
  simp only [dict?, ofDict, ofValues, Dict.map, hentries, Option.map_some, ofList_entries]

@[simp] theorem dict?_ofValues (d : Dict String Json) : dict? any? (ofValues d) = some d := by
  have hmap : d.map id = d := by
    cases d
    simp [Dict.map]
  have h := @dict?_ofDict Json any? id d fun _ => rfl
  rwa [ofDict, hmap] at h

@[simp] theorem natBelow?_of_lt {bound n : Nat} (h : n < bound) :
    natBelow? bound (.int n) = some n := by
  simp [natBelow?, h]

@[simp] theorem word32?_toNat (n : UInt32) : word32? (.int n.toNat) = some n := by
  rw [word32?, natBelow?_of_lt n.toNat_lt_size]
  simp

theorem double?_ofDouble {d : Double} (h : d.isFinite) : double? (ofDouble d) = some d := by
  rw [ofDouble, if_pos h, double?]

theorem ofDouble_ne_null {d : Double} (h : d.isFinite) : ofDouble d ≠ .null := by
  simp [ofDouble, h]

namespace Members

variable {m : Members} {key s unset : String} {values : List String} {value : Option String}

theorem required_text (h : Dict.find? key m = some (.text s)) :
    m.required key text? = some s := required_eq h rfl

theorem withDefault_text (h : Dict.find? key m = some (.text s)) :
    m.withDefault key text? unset = some s := withDefault_eq h rfl

theorem withDefault_texts (h : Dict.find? key m = some (texts values)) :
    m.withDefault key (list? text?) [] = some values := withDefault_eq h (list?_texts values)

theorem optional_text (h : Dict.find? key m = some (ofOption .text value)) :
    m.optional key text? = some value :=
  optional_eq_of_ofOption h (fun _ _ => rfl) (by simp)

theorem optional_text_of_map (h : Dict.find? key m = value.map .text) :
    m.optional key text? = some value := optional_eq_of_map h (fun _ _ => rfl) (by simp)

theorem optional_texts {values : Option (List String)}
    (h : Dict.find? key m = some (ofOption texts values)) :
    m.optional key (list? text?) = some values :=
  optional_eq_of_ofOption h (fun values _ => list?_texts values) (by simp [texts])

end Members

end Json
end AgentAssembly
