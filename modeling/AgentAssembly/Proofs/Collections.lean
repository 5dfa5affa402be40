import Mathlib.Data.List.Nodup
import Mathlib.Data.List.Perm.Basic
import AgentAssembly.Data.Dict
import AgentAssembly.Data.Distinct

/-!
Traversals that may fail, lists without repetition, and maps made by insertions. Main statements: a
traversal fails exactly when it fails at some member, and entries of distinct keys are the entries
of the map they make.
-/

namespace AgentAssembly

section traversals

variable {α β ε : Type} {f : α → Except ε β}

theorem mapM_eq_ok_iff {l : List α} {bs : List β} :
    l.mapM f = .ok bs ↔ l.map f = bs.map .ok := by
  induction l generalizing bs with
  | nil => cases bs <;> simp [pure, Except.pure]
  | cons a rest ih =>
    rw [List.mapM_cons, List.map_cons]
    cases ha : f a with
    | error e => cases bs <;> simp [bind, Except.bind]
    | ok b =>
      cases hr : rest.mapM f with
      | error e => cases bs <;> simp [bind, Except.bind, ← ih, hr]
      | ok cs => cases bs <;> simp [bind, Except.bind, pure, Except.pure, ← ih, hr]

theorem map_eq_ok_iff {x : Except ε α} {h : α → β} {b : β} :
    x.map h = .ok b ↔ ∃ a, x = .ok a ∧ h a = b := by
  cases x <;> simp [Except.map]

theorem map_eq_of_mapM_eq_ok {γ : Type} {h : β → γ} {k : α → γ} {l : List α} {bs : List β}
    (hl : l.mapM f = .ok bs) (hf : ∀ a b, f a = .ok b → h b = k a) : bs.map h = l.map k := by
  rw [mapM_eq_ok_iff] at hl
  induction l generalizing bs with
  | nil => cases bs <;> simp_all
  | cons a rest ih =>
    cases bs with
    | nil => simp at hl
    | cons b bs =>
      obtain ⟨hb, hrest⟩ := List.cons.inj hl
      rw [List.map_cons, List.map_cons, hf a b hb, ih hrest]

theorem exists_mapM_error_iff {l : List α} :
    (∃ e, l.mapM f = .error e) ↔ ∃ a ∈ l, ∃ e, f a = .error e := by
  induction l with
  | nil => simp [pure, Except.pure]
  | cons a rest ih =>
    rw [List.mapM_cons, List.exists_mem_cons_iff, ← ih]
    cases ha : f a with
    | error e => simp [bind, Except.bind]
    | ok b => cases hr : rest.mapM f <;> simp [bind, Except.bind, pure, Except.pure]

variable {g : α → Option β} {e : α → ε}

theorem mapM_lookup_eq_ok_iff (hf : ∀ a, f a = (g a).elim (.error (e a)) .ok) {l : List α}
    {bs : List β} : l.mapM f = .ok bs ↔ l.map g = bs.map some := by
  rw [mapM_eq_ok_iff, List.map_congr_left fun a _ => hf a]
  induction l generalizing bs with
  | nil => cases bs <;> simp
  | cons a rest ih =>
    cases bs with
    | nil => simp
    | cons b bs => cases h : g a <;> simp [ih, h]

theorem exists_mapM_lookup_error_iff (hf : ∀ a, f a = (g a).elim (.error (e a)) .ok)
    {l : List α} : (∃ e, l.mapM f = .error e) ↔ ∃ a ∈ l, g a = none := by
  have hnone : ∀ a, (∃ e, f a = .error e) ↔ g a = none := by
    intro a
    rw [hf]
    cases g a <;> simp
  simp only [exists_mapM_error_iff, hnone]

end traversals

section names

variable {α : Type} {f : α → String} {l m : List α}

theorem find?_name_eq_some_iff (h : (l.map f).Nodup) {name : String} {a : α} :
    l.find? (f · == name) = some a ↔ a ∈ l ∧ f a = name := by
  constructor
  · intro hfind
    exact ⟨List.mem_of_find?_eq_some hfind, by simpa using List.find?_some hfind⟩
  · rintro ⟨ha, rfl⟩
    have hsome : (l.find? (f · == f a)).isSome := List.find?_isSome.mpr ⟨a, ha, by simp⟩
    obtain ⟨b, hb⟩ := Option.isSome_iff_exists.mp hsome
    have hname : f b = f a := by simpa using List.find?_some hb
    rw [hb, List.inj_on_of_nodup_map h (List.mem_of_find?_eq_some hb) ha hname]

theorem find?_name_eq_of_perm (h : l.Perm m) (hm : (m.map f).Nodup) (name : String) :
    l.find? (f · == name) = m.find? (f · == name) := by
  refine Option.ext fun a => ?_
  rw [find?_name_eq_some_iff ((h.map f).nodup_iff.mpr hm), find?_name_eq_some_iff hm, h.mem_iff]

end names

section tables

variable {α : Type} {table : List (String × α)} {k : String}

theorem lookup_eq_none_iff_keys :
    table.lookup k = none ↔ k ∉ table.map (·.1) := by
  rw [List.lookup_eq_none_iff, List.mem_map]
  constructor
  · intro h hmem
    obtain ⟨e, he, rfl⟩ := hmem
    simpa using h e he
  · intro h e he
    simpa using fun hk => h ⟨e, he, hk.symm⟩

theorem lookup_of_mem (h : (table.map (·.1)).Nodup) {e : String × α} (he : e ∈ table) :
    table.lookup e.1 = some e.2 := by
  obtain ⟨before, after, rfl⟩ := List.append_of_mem he
  rw [List.map_append, List.map_cons, List.nodup_middle, List.nodup_cons, List.mem_append,
    not_or] at h
  obtain ⟨k, a⟩ := e
  rw [List.lookup_append, lookup_eq_none_iff_keys.mpr h.1.1]
  simp

theorem lookup_filter (h : (table.map (·.1)).Nodup) (kept : String × α → Bool) :
    (table.filter kept).lookup k = (table.lookup k).filter fun a => kept (k, a) := by
  induction table with
  | nil => rfl
  | cons e rest ih =>
    obtain ⟨name, a⟩ := e
    obtain ⟨hname, hrest⟩ := List.nodup_cons.mp h
    have ih := ih hrest
    by_cases hk : k = name
    · subst hk
      have hnone : rest.lookup k = none := lookup_eq_none_iff_keys.mpr hname
      cases hkept : kept (k, a) <;> simp [hkept, ih, hnone, Option.filter]
    · have hne : (k == name) = false := by simpa using hk
      cases hkept : kept (name, a) <;> simp [hkept, List.lookup_cons, ih, hne]

end tables

section distinct

variable {α : Type} [DecidableEq α]

theorem distinct_filter (p : α → Bool) (l : List α) :
    distinct (l.filter p) = (distinct l).filter p := by
  induction l with
  | nil => rfl
  | cons a rest ih =>
    by_cases ha : p a
    · rw [List.filter_cons_of_pos ha, distinct, distinct, List.filter_cons_of_pos ha, ih,
        List.filter_comm]
    · -- What is filtered out for being `a` would not pass `p` either.
      have hother : ∀ b ∈ distinct rest, p b = true → (b ≠ a : Bool) = true := by
        intro b _ hb
        have hne : b ≠ a := fun heq => ha (heq ▸ hb)
        simpa using hne
      rw [List.filter_cons_of_neg ha, distinct, List.filter_cons_of_neg ha, ih,
        List.filter_filter]
      refine List.filter_congr fun b hb => ?_
      cases hp : p b with
      | false => rfl
      | true => rw [hother b hb hp, Bool.and_self]

/-- What is joined to a list may be joined to the list without its repetitions. -/
theorem distinct_distinct_append (l m : List α) :
    distinct (distinct l ++ m) = distinct (l ++ m) := by
  induction l with
  | nil => rfl
  | cons a rest ih =>
    have hfront : ((distinct rest).filter (· ≠ a) ++ m).filter (· ≠ a) =
        (distinct rest ++ m).filter (· ≠ a) := by
      simp only [List.filter_append, List.filter_filter, Bool.and_self]
    rw [distinct, List.cons_append, List.cons_append, distinct, distinct, ← ih,
      ← distinct_filter _ (distinct rest ++ m), ← hfront, distinct_filter]

theorem distinct_concat (l : List α) (a : α) :
    distinct (l ++ [a]) = if a ∈ l then distinct l else distinct l ++ [a] := by
  induction l with
  | nil => rfl
  | cons b rest ih =>
    rw [List.cons_append, distinct, ih, distinct]
    by_cases hb : a = b
    · subst hb
      by_cases hrest : a ∈ rest <;> simp [hrest]
    · by_cases hrest : a ∈ rest <;> simp [hb, hrest]

theorem distinct_append_of_subset {l m : List α} (h : m ⊆ l) : distinct (l ++ m) = distinct l := by
  induction m generalizing l with
  | nil => rw [List.append_nil]
  | cons a m ih =>
    obtain ⟨ha, hm⟩ := List.cons_subset.mp h
    have hcons : l ++ a :: m = (l ++ [a]) ++ m := by simp
    rw [hcons, ih fun x hx => List.mem_append_left [a] (hm hx), distinct_concat, if_pos ha]

end distinct

namespace Dict

open Std

variable {κ : Type} [Ord κ] [LawfulEqOrd κ] {α : Type}

theorem put_perm {k : κ} {a : α} {l : List (κ × α)} (h : k ∉ l.map (·.1)) :
    (put k a l).Perm ((k, a) :: l) := by
  induction l with
  | nil => exact .refl _
  | cons e rest ih =>
    rw [List.map_cons, List.mem_cons, not_or] at h
    rw [put]
    cases hk : compare k e.1 with
    | lt => exact .refl _
    | eq => exact absurd (LawfulEqCmp.eq_of_compare hk) h.1
    | gt => exact ((ih h.2).cons e).trans (.swap (k, a) e rest)

theorem find?_eq_some_iff {k : κ} {a : α} {l : List (κ × α)}
    (h : l.Pairwise fun a b => compare a.1 b.1 = .lt) :
    find? k l = some a ↔ (k, a) ∈ l := by
  have hself : ∀ k : κ, compare k k = .eq := fun _ => ReflCmp.compare_self
  induction l with
  | nil => simp [find?]
  | cons e rest ih =>
    obtain ⟨he, hr⟩ := List.pairwise_cons.mp h
    rw [find?, List.mem_cons]
    by_cases hk : compare k e.1 = .eq
    · obtain rfl : k = e.1 := LawfulEqCmp.eq_of_compare hk
      have hrest : (e.1, a) ∉ rest := fun hmem => by simpa [hself] using he _ hmem
      rw [if_pos hk, or_iff_left hrest, Option.some.injEq, Prod.ext_iff]
      simp [eq_comm]
    · have hne : (k, a) ≠ e := fun heq => hk (heq ▸ hself k)
      rw [if_neg hk, or_iff_right hne]
      exact ih hr

theorem get?_eq_some_iff {d : Dict κ α} {k : κ} {a : α} : d.get? k = some a ↔ (k, a) ∈ d.entries :=
  find?_eq_some_iff d.sorted

theorem get?_filter {p : κ → α → Bool} {d : Dict κ α} {k : κ} {a : α} :
    (d.filter p).get? k = some a ↔ d.get? k = some a ∧ p k a = true := by
  rw [get?_eq_some_iff, get?_eq_some_iff, filter, List.mem_filter]

theorem mem_values_of_get? {d : Dict κ α} {k : κ} {a : α} (h : d.get? k = some a) :
    a ∈ d.values := List.mem_map.mpr ⟨(k, a), get?_eq_some_iff.mp h, rfl⟩

omit [LawfulEqOrd κ] in
theorem sorted_keys (d : Dict κ α) : d.keys.Pairwise (compare · · = .lt) :=
  List.pairwise_map.mpr d.sorted

theorem nodup_of_sorted {l : List κ} (h : l.Pairwise (compare · · = .lt)) : l.Nodup := by
  refine h.imp fun {a b} hlt heq => ?_
  simp [heq] at hlt

theorem mem_keys {d : Dict κ α} {k : κ} : k ∈ d.keys ↔ ∃ a, d.get? k = some a := by
  simp [keys, get?_eq_some_iff]

theorem contains_iff_mem_keys {d : Dict κ α} {k : κ} : d.contains k = true ↔ k ∈ d.keys := by
  rw [mem_keys, contains, Option.isSome_iff_exists]

variable [TransOrd κ]

theorem insertAll_perm {d : Dict κ α} {entries : List (κ × α)}
    (h : ((d.entries ++ entries).map (·.1)).Nodup) :
    (d.insertAll entries).entries.Perm (d.entries ++ entries) := by
  induction entries generalizing d with
  | nil => rw [List.append_nil, insertAll, List.foldl_nil]
  | cons e rest ih =>
    -- The invariant is that all keys differ, so an insertion never writes over an entry.
    have hperm : (d.entries ++ e :: rest).Perm (e :: (d.entries ++ rest)) := List.perm_middle
    have hkey : e.1 ∉ d.entries.map (·.1) := by
      have hnodup := ((hperm.map (·.1)).nodup_iff).mp h
      rw [List.map_cons, List.nodup_cons, List.map_append, List.mem_append, not_or] at hnodup
      exact hnodup.1.1
    have hput : ((d.insert e.1 e.2).entries ++ rest).Perm (d.entries ++ e :: rest) :=
      ((put_perm hkey).append_right rest).trans hperm.symm
    exact (ih (((hput.map (·.1)).nodup_iff).mpr h)).trans hput

/-- Entries of distinct keys are the entries of their map, whatever their order. -/
theorem ofList_perm {entries : List (κ × α)} (h : (entries.map (·.1)).Nodup) :
    (ofList entries).entries.Perm entries := insertAll_perm (d := ∅) h

theorem contains_insertAll {d : Dict κ α} {entries : List (κ × α)} {k : κ} :
    (d.insertAll entries).contains k = true ↔ d.contains k = true ∨ k ∈ entries.map (·.1) := by
  induction entries generalizing d with
  | nil => simp [insertAll]
  | cons e rest ih =>
    have hinsert : (d.insert e.1 e.2).contains k = true ↔ k = e.1 ∨ d.contains k = true := by
      rw [contains, get?_insert]
      by_cases hk : compare k e.1 = .eq
      · simp [LawfulEqCmp.eq_of_compare hk]
      · have hne : k ≠ e.1 := fun heq => hk (heq ▸ ReflCmp.compare_self)
        simp [hk, hne, contains]
    rw [insertAll, List.foldl_cons, ← insertAll, ih, hinsert, List.map_cons, List.mem_cons]
    tauto

theorem contains_ofList {entries : List (κ × α)} {k : κ} :
    (ofList entries).contains k = true ↔ k ∈ entries.map (·.1) := by
  rw [ofList, contains_insertAll, contains, get?_empty]
  simp

theorem erase_insert {d : Dict κ α} {k : κ} {a : α} (h : d.get? k = none) :
    (d.insert k a).erase k = d := by
  refine ext fun k' => ?_
  by_cases hk : k' = k
  · simp [get?_erase, hk, h]
  · simp [get?_erase, get?_insert, hk, Ne.symm hk]

theorem insert_after_erase {d : Dict κ α} {k : κ} {a : α} :
    (d.erase k).insert k a = d.insert k a := by
  refine ext fun k' => ?_
  by_cases hk : k' = k
  · simp [get?_insert, hk]
  · simp [get?_erase, get?_insert, hk, Ne.symm hk]

theorem insert_erase {d : Dict κ α} {k : κ} {a : α} (h : d.get? k = some a) :
    (d.erase k).insert k a = d := by
  rw [insert_after_erase]
  refine ext fun k' => ?_
  by_cases hk : k' = k
  · simp [get?_insert, hk, h]
  · simp [get?_insert, hk]

theorem get?_insertAll {d : Dict κ α} {entries : List (κ × α)}
    (h : entries.Pairwise fun a b => compare a.1 b.1 = .lt) (k : κ) :
    (d.insertAll entries).get? k = (find? k entries).or (d.get? k) := by
  induction entries generalizing d with
  | nil => simp [insertAll, find?]
  | cons e rest ih =>
    obtain ⟨he, hrest⟩ := List.pairwise_cons.mp h
    rw [insertAll, List.foldl_cons, ← insertAll, ih hrest, get?_insert, find?]
    by_cases hk : compare k e.1 = .eq
    · obtain rfl : k = e.1 := LawfulEqCmp.eq_of_compare hk
      rw [if_pos hk, if_pos hk, find?_eq_none_of_lt he, Option.none_or, Option.some_or]
    · rw [if_neg hk, if_neg hk]

theorem get?_insertAll_of_not_mem {d : Dict κ α} {entries : List (κ × α)} {k : κ}
    (h : k ∉ entries.map (·.1)) : (d.insertAll entries).get? k = d.get? k := by
  induction entries generalizing d with
  | nil => rfl
  | cons e rest ih =>
    rw [List.map_cons, List.mem_cons, not_or] at h
    have hk : compare k e.1 ≠ .eq := fun heq => h.1 (LawfulEqCmp.eq_of_compare heq)
    rw [insertAll, List.foldl_cons, ← insertAll, ih h.2, get?_insert, if_neg hk]

theorem get?_ofList_of_split {before after : List (κ × α)} {e : κ × α}
    (h : e.1 ∉ after.map (·.1)) : (ofList (before ++ e :: after)).get? e.1 = some e.2 := by
  have hsplit : ofList (before ++ e :: after) = ((ofList before).insert e.1 e.2).insertAll after :=
    List.foldl_append
  rw [hsplit, get?_insertAll_of_not_mem h, get?_insert, if_pos ReflCmp.compare_self]

theorem get?_extend (d more : Dict κ α) (k : κ) :
    (d.extend more).get? k = (more.get? k).or (d.get? k) := get?_insertAll more.sorted k

@[simp] theorem extend_empty (d : Dict κ α) : d.extend ∅ = d := rfl

theorem extend_again (d more : Dict κ α) : (d.extend more).extend more = d.extend more := by
  refine ext fun k => ?_
  rw [get?_extend, get?_extend, ← Option.or_assoc, Option.or_self]

theorem extend_extend (d more last : Dict κ α) :
    d.extend (more.extend last) = (d.extend more).extend last := by
  refine ext fun k => ?_
  simp only [get?_extend, Option.or_assoc]

end Dict
end AgentAssembly
