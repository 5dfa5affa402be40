import AgentAssembly.Proofs.Disk.Outcome

/-!
Commits that keep their files beside the tree. What is parked stays on a shelf under its relative
path, and new files come from a file set. A commit is understood here first, where what it keeps
is never in the way of what it reads.
-/

namespace AgentAssembly

variable {files : FileSet}

structure Shelf (files : FileSet) where
  parked : Dict String Entry := ∅
deriving DecidableEq

namespace Shelf

def put (s : Site (Shelf files)) (place : Place) (relative : String) (e : Entry) :
    Site (Shelf files) :=
  ⟨s.tree.erase place, ⟨s.kept.parked.insert relative e⟩⟩

def takeBack (s : Site (Shelf files)) (relative : String) (place : Place) (e : Entry) :
    Site (Shelf files) :=
  ⟨s.tree.insert place e, ⟨s.kept.parked.erase relative⟩⟩

instance : Depot (Shelf files) where
  deliver s relative place := (files.get? relative).map fun content =>
    { s with tree := s.tree.insert place (.file content) }
  park s place relative := (s.tree.entry? place).map (put s place relative)
  restore s relative place := (s.kept.parked.get? relative).map (takeBack s relative place)

variable {s : Site (Shelf files)} {place : Place} {relative : String}

theorem park_eq : Depot.park s place relative = (s.tree.entry? place).map (put s place relative) :=
  rfl

theorem deliver_eq : Depot.deliver s relative place = (files.get? relative).map fun content =>
    { s with tree := s.tree.insert place (.file content) } := rfl

theorem restore_eq : Depot.restore s relative place =
    (s.kept.parked.get? relative).map (takeBack s relative place) := rfl

end Shelf

/-- The outcome of a commit of files onto a tree, with a shelf beside it. -/
def Commit.shelved (fails : Nat → Bool) (output : String) (files : FileSet) (t : Tree) :
    Except WriteFault (List String) × Tree :=
  let (result, s) := Commit.runOn (κ := Shelf files) ⟨t, {}⟩ (Commit.apply fails output files)
  (result, s.tree)

end AgentAssembly
