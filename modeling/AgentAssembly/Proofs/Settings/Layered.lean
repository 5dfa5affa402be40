import Mathlib.Data.List.Basic
import AgentAssembly.Proofs.Settings.Library
import AgentAssembly.Settings.Layered

/-!
Values set at key paths of layers. Main statement: the library of layers does what is documented of
such libraries, whatever formats of files it reads.
-/

namespace AgentAssembly.Layer

open Json

variable {value value' : Json} {p q : KeyPath} {key key' : String} {m : Members}

def IsLeaf (value : Json) : Prop := ∀ below, merge value below = value

theorem isLeaf_toJson (scalar : Scalar) : IsLeaf scalar.toJson := by
  intro below
  cases scalar <;> rw [Scalar.toJson, merge] <;> simp

def setUnder (value : Json) : KeyPath → Option Json → Json
  | [], _ => value
  | step :: rest, found => setPath value (step :: rest) (found.getD .null)

theorem setPath_member (hvalue : IsLeaf value) (key : String) (rest : KeyPath) (j : Json) :
    setPath value (.member key :: rest) j =
      .object (Dict.put key (setUnder value rest (Dict.find? key (j.members?.getD [])))
        (j.members?.getD [])) := by
  cases rest with
  | nil => simp only [setPath, mergeMembers, setUnder, hvalue _]
  | cons step rest => rfl

theorem find?_put_of_ne (h : key' ≠ key) :
    Dict.find? key' (Dict.put key value m) = Dict.find? key' m := by
  rw [Dict.find?_put, if_neg fun heq => h (Std.LawfulEqCmp.eq_of_compare heq)]

theorem find?_put_self : Dict.find? key (Dict.put key value m) = some value := by
  rw [Dict.find?_put, if_pos (by simp)]

theorem setUnder_of_ne_nil (h : p ≠ []) (found : Option Json) :
    setUnder value p found = setPath value p (found.getD .null) := by
  cases p with
  | nil => exact absurd rfl h
  | cons step p => rfl

theorem setPath_comm (hvalue : IsLeaf value) (hvalue' : IsLeaf value') (h : p.apart q = true)
    (j : Json) :
    setPath value p (setPath value' q j) = setPath value' q (setPath value p j) := by
  fun_induction KeyPath.apart p q generalizing j with
  | case1 key p q ih =>
    -- Both paths go on under one key.
    obtain ⟨hp, hq⟩ := KeyPath.ne_nil_of_apart h
    simp only [setPath_member hvalue, setPath_member hvalue', members?, Option.getD_some,
      setUnder_of_ne_nil hp, setUnder_of_ne_nil hq, find?_put_self, Dict.put_put, ih h]
  | case2 key p key' q hkey =>
    simp only [setPath_member hvalue, setPath_member hvalue', members?, Option.getD_some,
      find?_put_of_ne hkey, find?_put_of_ne (Ne.symm hkey), Dict.put_comm hkey]
  | case3 => simp at h

theorem found_members (name : String) (j : Json) :
    Dict.find? name (j.members?.getD []) = j.members?.bind (Dict.find? name) := by
  cases j <;> rfl

theorem at?_getD_null {names : List String} (h : names ≠ []) (found : Option Json) :
    (found.getD .null).at? names = found.bind (Json.at? names) := by
  cases found with
  | some j => rfl
  | none =>
    cases names with
    | nil => exact absurd rfl h
    | cons name rest => rfl

theorem at?_setPath_self (hvalue : IsLeaf value) {names : List String} (h : names ≠ []) (j : Json) :
    (setPath value (KeyPath.ofNames names) j).at? names = some value := by
  induction names generalizing j with
  | nil => exact absurd rfl h
  | cons name rest ih =>
    rw [KeyPath.ofNames, List.map_cons, setPath_member hvalue, Json.at?, members?,
      Option.bind_some, find?_put_self, Option.bind_some]
    cases rest with
    | nil => rfl
    | cons next rest => exact ih (List.cons_ne_nil _ _) _

theorem at?_setPath_of_apart (hvalue : IsLeaf value) {names names' : List String}
    (h : (KeyPath.ofNames names).apart (KeyPath.ofNames names') = true) (j : Json) :
    (setPath value (KeyPath.ofNames names) j).at? names' = j.at? names' := by
  induction names generalizing names' j with
  | nil => exact absurd rfl (KeyPath.ne_nil_of_apart h).1
  | cons name rest ih =>
    obtain _ | ⟨name', rest'⟩ := names'
    · exact absurd rfl (KeyPath.ne_nil_of_apart h).2
    rw [KeyPath.ofNames, List.map_cons, setPath_member hvalue, Json.at?, Json.at?, members?,
      Option.bind_some]
    simp only [KeyPath.ofNames, List.map_cons, KeyPath.apart] at h
    split at h
    · rename_i heq
      subst heq
      obtain ⟨hrest, hrest'⟩ := KeyPath.ne_nil_of_apart h
      rw [find?_put_self, Option.bind_some, setUnder_of_ne_nil hrest]
      refine (ih h _).trans ?_
      rw [← found_members, at?_getD_null fun heq => hrest' (by rw [heq, List.map_nil])]
    · rename_i hne
      rw [find?_put_of_ne (Ne.symm hne), found_members]

theorem read?_key : ∀ entry ∈ Settings.defaultEntries,
    KeyPath.read? entry.1.toList = some (KeyPath.ofNames (keyNames entry.1)) := by
  decide

theorem variableKey?_nameOf : ∀ entry ∈ Settings.defaultEntries,
    variableKey? Settings.variableOptions (Settings.variableOptions.nameOf entry.1) =
      some entry.1 := by
  decide

theorem documented_library (formats : List FileFormat) : (library formats).Documented where
  variableValue_eq options text h := if_pos h
  text?_toJson scalar := by cases scalar <;> rfl
  path?_key := read?_key
  variableKey?_nameOf := variableKey?_nameOf
  at?_set_self scalar names j h := at?_setPath_self (isLeaf_toJson scalar) h j
  at?_set_of_apart scalar names names' j h := at?_setPath_of_apart (isLeaf_toJson scalar) h j
  set_comm scalar scalar' p q j h := setPath_comm (isLeaf_toJson scalar) (isLeaf_toJson scalar') h j

end AgentAssembly.Layer
