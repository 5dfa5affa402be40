import AgentAssembly.Disk.Commit

/-!
Writing a package to disk. Its files are written to a temporary directory beside the output
directory, and moved from there into place. The temporary directory also holds what was parked,
and goes with all that is in it when the work is done.
-/

namespace AgentAssembly

/-- Temporary directories are named by a token, drawn until nothing in use has the name. -/
structure TempDir where
  token : List String → String
  isToken : ∀ used, ∀ c ∈ (token used).toList, c.isAlphanum = true
  fresh : ∀ used, ".agent-smith-" ++ token used ∉ used

namespace TempDir

def name (temp : TempDir) (used : List String) : String := ".agent-smith-" ++ temp.token used

theorem length_le_of_mem {used : List String} {name : String} (h : name ∈ used) :
    name.length ≤ (used.flatMap String.toList).length := by
  induction used with
  | nil => cases h
  | cons first rest ih =>
    rw [List.flatMap_cons, List.length_append, String.length_toList]
    obtain rfl | h := List.mem_cons.mp h
    · exact Nat.le_add_right _ _
    · exact Nat.le_add_left_of_le (ih h)

/-- The name is longer than all that are in use together. -/
def longest : TempDir where
  token used := .ofList (.replicate (used.flatMap String.toList).length 'a')
  isToken used c hc := by
    rw [String.toList_ofList] at hc
    rw [List.eq_of_mem_replicate hc]
    decide
  fresh used hmem := by
    have hprefix : 0 < ".agent-smith-".length := by decide
    have htoken (n : Nat) : (String.ofList (List.replicate n 'a')).length = n := by
      rw [String.length_ofList, List.length_replicate]
    have hlength := length_le_of_mem hmem
    rw [String.length_append, htoken] at hlength
    omega

/-- Works in a new directory, which is removed when the work is done. Its name is none of those in
the directory above it, and none of those to be avoided. -/
def within {α : Type} (temp : TempDir) (above : String) (avoided : List String) (t : Tree)
    (work : Place → Tree → Except WriteFault α × Tree) : Except WriteFault α × Tree :=
  match t.locate above with
  | .error _ => (.error ⟨above, .system⟩, t)
  | .ok place =>
    if t.entry? place = some .directory then
      let own := place ++ [temp.name (t.children place ++ avoided)]
      let (result, t) := work own (t.insert own .directory)
      (result, t.prune own)
    else (.error ⟨above, .system⟩, t)

end TempDir

/-- The directory in which a package is staged. -/
structure Staging where
  place : Place
deriving DecidableEq, Repr

namespace Staging

def package (s : Staging) (relative : String) : Place :=
  s.place ++ "package" :: Path.names relative

def previous (s : Staging) (relative : String) : Place :=
  s.place ++ "previous" :: Path.names relative

instance : Depot Staging where
  deliver s relative place :=
    (s.tree.move (s.kept.package relative) place).map ({ s with tree := · })
  park s place relative :=
    let above := ("previous" :: Path.names relative).dropLast
    ((s.tree.openBelow s.kept.place above).move place (s.kept.previous relative)).map
      ({ s with tree := · })
  restore s relative place :=
    (s.tree.move (s.kept.previous relative) place).map ({ s with tree := · })

/-- Writes the files of a package, up to one whose name is too long. -/
def stage (s : Staging) (output : String) (t : Tree) :
    List (String × String) → Except WriteFault Unit × Tree
  | [] => (.ok (), t)
  | (relative, content) :: rest =>
    if (Path.names relative).all Tree.fitsLimit then
      let t := t.openBelow s.place ("package" :: Path.names relative).dropLast
      s.stage output (t.insert (s.package relative) (.file content)) rest
    else (.error ⟨Path.join output relative, .system⟩, t)

end Staging

namespace FileSet

/-- Stages the files and moves them into place below the output directory. -/
def install (temp : TempDir) (fails : Nat → Bool) (above output : String) (files : FileSet)
    (t : Tree) : Except WriteFault (List String) × Tree :=
  temp.within above (Path.names output) t fun place t =>
    match Staging.stage ⟨place⟩ output t files.entries with
    | (.error fault, t) => (.error fault, t)
    | (.ok (), t) =>
      let (result, s) := Commit.runOn (κ := Staging) ⟨t, ⟨place⟩⟩ (Commit.apply fails output files)
      (result, s.tree)

/-- Writes the files below a directory, or leaves the tree as it was but for the directories above
that directory. -/
def write (temp : TempDir) (fails : Nat → Bool) (output : String) (files : FileSet) (t : Tree) :
    Except WriteFault (List String) × Tree :=
  let above := Path.directoryOf output
  match t.createDirectories above with
  | (.error _, t) => (.error ⟨above, .system⟩, t)
  | (.ok (), t) => files.install temp fails above output t

end FileSet
end AgentAssembly
