/-!
Finite maps with their entries in the order of the keys. Main statements: `get?_insert` and
`get?_erase` say what the two operations do to look-ups, and `ext` that look-ups determine a map.
-/

namespace AgentAssembly

open Std

structure Dict (κ : Type) [Ord κ] (α : Type) where
  entries : List (κ × α)
  sorted : entries.Pairwise fun a b => compare a.1 b.1 = .lt

namespace Dict

variable {κ : Type} [Ord κ] {α β : Type}

def put (k : κ) (a : α) : List (κ × α) → List (κ × α)
  | [] => [(k, a)]
  | e :: rest =>
    match compare k e.1 with
    | .lt => (k, a) :: e :: rest
    | .eq => (k, a) :: rest
    | .gt => e :: put k a rest

theorem mem_put {k : κ} {a : α} {e : κ × α} {l : List (κ × α)} (h : e ∈ put k a l) :
    e = (k, a) ∨ e ∈ l := by
  induction l with
  | nil => simpa [put] using h
  | cons b rest ih =>
    simp only [put] at h
    split at h
    · simpa using h
    · rcases List.mem_cons.mp h with h | h
      · exact .inl h
      · exact .inr (List.mem_cons_of_mem _ h)
    · rcases List.mem_cons.mp h with h | h
      · exact .inr (h ▸ List.mem_cons_self)
      · rcases ih h with h | h
        · exact .inl h
        · exact .inr (List.mem_cons_of_mem _ h)

theorem sorted_put [TransOrd κ] [LawfulEqOrd κ] (k : κ) (a : α) {l : List (κ × α)}
    (h : l.Pairwise fun a b => compare a.1 b.1 = .lt) :
    (put k a l).Pairwise fun a b => compare a.1 b.1 = .lt := by
  induction l with
  | nil => simp [put]
  | cons e rest ih =>
    obtain ⟨he, hr⟩ := List.pairwise_cons.mp h
    simp only [put]
    split
    · rename_i hk
      refine List.pairwise_cons.mpr ⟨?_, h⟩
      intro b hb
      rcases List.mem_cons.mp hb with rfl | hb
      · exact hk
      · exact TransCmp.lt_trans hk (he b hb)
    · rename_i hk
      have hk : k = e.1 := LawfulEqCmp.eq_of_compare hk
      exact List.pairwise_cons.mpr ⟨fun b hb => hk ▸ he b hb, hr⟩
    · rename_i hk
      refine List.pairwise_cons.mpr ⟨?_, ih hr⟩
      intro b hb
      rcases mem_put hb with rfl | hb
      · exact OrientedCmp.lt_of_gt hk
      · exact he b hb

def empty : Dict κ α := ⟨[], .nil⟩

instance : EmptyCollection (Dict κ α) := ⟨empty⟩
instance : Inhabited (Dict κ α) := ⟨empty⟩

instance [DecidableEq κ] [DecidableEq α] : DecidableEq (Dict κ α) := fun a b =>
  if h : a.entries = b.entries then .isTrue (by cases a; cases b; cases h; rfl)
  else .isFalse fun e => h (congrArg entries e)

def find? (k : κ) : List (κ × α) → Option α
  | [] => none
  | e :: rest => if compare k e.1 = .eq then some e.2 else find? k rest

def get? (d : Dict κ α) (k : κ) : Option α := find? k d.entries

def contains (d : Dict κ α) (k : κ) : Bool := (d.get? k).isSome

def keys (d : Dict κ α) : List κ := d.entries.map (·.1)

def values (d : Dict κ α) : List α := d.entries.map (·.2)

def size (d : Dict κ α) : Nat := d.entries.length

def insert [TransOrd κ] [LawfulEqOrd κ] (d : Dict κ α) (k : κ) (a : α) : Dict κ α :=
  ⟨put k a d.entries, sorted_put k a d.sorted⟩

def filter (p : κ → α → Bool) (d : Dict κ α) : Dict κ α :=
  ⟨d.entries.filter fun e => p e.1 e.2, d.sorted.filter _⟩

def erase (d : Dict κ α) (k : κ) : Dict κ α := d.filter fun k' _ => compare k k' ≠ .eq

def map (f : α → β) (d : Dict κ α) : Dict κ β :=
  ⟨d.entries.map fun e => (e.1, f e.2), List.pairwise_map.mpr d.sorted⟩

/-- Inserts entries from the left, so that the last of a key stands. -/
def insertAll [TransOrd κ] [LawfulEqOrd κ] (d : Dict κ α) (entries : List (κ × α)) : Dict κ α :=
  entries.foldl (fun d e => d.insert e.1 e.2) d

def ofList [TransOrd κ] [LawfulEqOrd κ] (entries : List (κ × α)) : Dict κ α :=
  (∅ : Dict κ α).insertAll entries

def extend [TransOrd κ] [LawfulEqOrd κ] (d more : Dict κ α) : Dict κ α :=
  d.insertAll more.entries

@[simp] theorem get?_empty (k : κ) : (∅ : Dict κ α).get? k = none := rfl

section lookups

variable [TransOrd κ] [LawfulEqOrd κ]

theorem find?_put (k k' : κ) (a : α) {l : List (κ × α)} :
    find? k' (put k a l) = if compare k' k = .eq then some a else find? k' l := by
  induction l with
  | nil => simp [put, find?]
  | cons e rest ih =>
    simp only [put]
    split
    · simp [find?]
    · rename_i hk
      have hk : k = e.1 := LawfulEqCmp.eq_of_compare hk
      subst hk
      by_cases h' : compare k' e.1 = .eq <;> simp [find?, h']
    · rename_i hk
      simp only [find?, ih]
      by_cases h' : compare k' e.1 = .eq
      · have : k' = e.1 := LawfulEqCmp.eq_of_compare h'
        subst this
        have : compare e.1 k ≠ .eq := by
          rw [OrientedCmp.lt_of_gt hk]; decide
        simp [this]
      · simp [h']

theorem get?_insert (d : Dict κ α) (k k' : κ) (a : α) :
    (d.insert k a).get? k' = if compare k' k = .eq then some a else d.get? k' :=
  find?_put k k' a

omit [TransOrd κ] in
theorem put_put (k : κ) (a b : α) (l : List (κ × α)) : put k a (put k b l) = put k a l := by
  induction l with
  | nil => simp [put]
  | cons e rest ih =>
    cases hk : compare k e.1 <;> simp [put, hk, ih]

theorem put_comm_of_lt {k k' : κ} (h : compare k k' = .lt) (a b : α) (l : List (κ × α)) :
    put k a (put k' b l) = put k' b (put k a l) := by
  have hgt : compare k' k = .gt := OrientedCmp.gt_of_lt h
  induction l with
  | nil => simp [put, h, hgt]
  | cons e rest ih =>
    -- The smaller key stops no later than the greater one.
    cases hk : compare k e.1 with
    | lt => cases hk' : compare k' e.1 <;> simp [put, h, hgt, hk, hk']
    | eq =>
      have hk' : compare k' e.1 = .gt := by
        rw [← LawfulEqCmp.eq_of_compare hk]
        exact hgt
      simp [put, hgt, hk, hk']
    | gt =>
      have hk' : compare k' e.1 = .gt :=
        OrientedCmp.gt_of_lt (TransCmp.lt_trans (OrientedCmp.lt_of_gt hk) h)
      simp [put, hk, hk', ih]

theorem put_comm {k k' : κ} (h : k ≠ k') (a b : α) (l : List (κ × α)) :
    put k a (put k' b l) = put k' b (put k a l) := by
  cases hk : compare k k' with
  | lt => exact put_comm_of_lt hk a b l
  | eq => exact absurd (LawfulEqCmp.eq_of_compare hk) h
  | gt => exact (put_comm_of_lt (OrientedCmp.lt_of_gt hk) b a l).symm

omit [TransOrd κ] [LawfulEqOrd κ] in
theorem find?_eq_none_of_lt {k : κ} {l : List (κ × α)}
    (h : ∀ e ∈ l, compare k e.1 = .lt) : find? k l = none := by
  induction l with
  | nil => rfl
  | cons e rest ih =>
    have he := h e List.mem_cons_self
    simp [find?, he, ih fun b hb => h b (List.mem_cons_of_mem _ hb)]

omit [TransOrd κ] in
theorem get?_filter_key (d : Dict κ α) (p : κ → Bool) (k : κ) :
    (d.filter fun k _ => p k).get? k = if p k then d.get? k else none := by
  obtain ⟨l, hl⟩ := d
  simp only [get?, filter]
  induction l with
  | nil => simp [find?]
  | cons e rest ih =>
    obtain ⟨_, hr⟩ := List.pairwise_cons.mp hl
    have ih := ih hr
    by_cases h : compare k e.1 = .eq
    · have : k = e.1 := LawfulEqCmp.eq_of_compare h
      subst this
      by_cases hp : p e.1
      · simp [find?, hp]
      · simp [hp, ih]
    · by_cases hp : p e.1 <;> simp [find?, h, hp, ih]

omit [TransOrd κ] in
theorem get?_erase (d : Dict κ α) (k k' : κ) :
    (d.erase k).get? k' = if compare k k' = .eq then none else d.get? k' := by
  rw [erase, get?_filter_key]
  by_cases h : compare k k' = .eq <;> simp [h]

theorem entries_eq_of_find? {l m : List (κ × α)}
    (hl : l.Pairwise fun a b => compare a.1 b.1 = .lt)
    (hm : m.Pairwise fun a b => compare a.1 b.1 = .lt)
    (h : ∀ k, find? k l = find? k m) : l = m := by
  induction l generalizing m with
  | nil =>
    cases m with
    | nil => rfl
    | cons f ms => simpa [find?] using h f.1
  | cons e ls ih =>
    obtain ⟨he, hls⟩ := List.pairwise_cons.mp hl
    cases m with
    | nil => simpa [find?] using h e.1
    | cons f ms =>
      obtain ⟨hf, hms⟩ := List.pairwise_cons.mp hm
      have hkey : compare e.1 f.1 = .eq := by
        cases hc : compare e.1 f.1 with
        | eq => rfl
        | lt =>
          have hn := find?_eq_none_of_lt (k := e.1) (l := f :: ms) (by
            intro b hb
            rcases List.mem_cons.mp hb with rfl | hb
            · exact hc
            · exact TransCmp.lt_trans hc (hf b hb))
          have he := h e.1
          rw [hn] at he
          simp [find?] at he
        | gt =>
          have hc := OrientedCmp.lt_of_gt hc
          have hn := find?_eq_none_of_lt (k := f.1) (l := e :: ls) (by
            intro b hb
            rcases List.mem_cons.mp hb with rfl | hb
            · exact hc
            · exact TransCmp.lt_trans hc (he b hb))
          have hf := h f.1
          rw [hn] at hf
          simp [find?] at hf
      have hkey : e.1 = f.1 := LawfulEqCmp.eq_of_compare hkey
      have hvalue : e.2 = f.2 := by simpa [find?, hkey] using h e.1
      have hef : e = f := Prod.ext hkey hvalue
      subst hef
      congr 1
      refine ih hls hms fun k => ?_
      by_cases hk : compare k e.1 = .eq
      · have : k = e.1 := LawfulEqCmp.eq_of_compare hk
        subst this
        rw [find?_eq_none_of_lt he, find?_eq_none_of_lt hf]
      · simpa [find?, hk] using h k

theorem ext {a b : Dict κ α} (h : ∀ k, a.get? k = b.get? k) : a = b := by
  obtain ⟨l, hl⟩ := a
  obtain ⟨m, hm⟩ := b
  have : l = m := entries_eq_of_find? hl hm h
  subst this
  rfl

end lookups

end Dict
end AgentAssembly
