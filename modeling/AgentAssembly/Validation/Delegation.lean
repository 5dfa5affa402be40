import AgentAssembly.Project

/-!
Cycles among sub-agents. The nodes are the places of the agents in their list; a name leads to
the first agent that bears it, and a name without an agent leads nowhere. A search in depth
notes one cycle for every edge that goes back to an agent it has entered and not yet left.
-/

namespace AgentAssembly.Delegation

def node? (agents : List Agent) (name : String) : Option Nat :=
  agents.findIdx? (·.name == name)

def successors (agents : List Agent) (node : Nat) : List Nat :=
  match agents[node]? with
  | none => []
  | some a => a.subAgents.filterMap (node? agents)

def nameOf (agents : List Agent) (node : Nat) : String :=
  match agents[node]? with
  | none => ""
  | some a => a.name

/-- What a search has found: the nodes it has left, and the cycles in the order of discovery. -/
structure Search where
  left : List Nat := []
  cycles : List (List Nat) := []
deriving DecidableEq, Repr

/-- The cycle made by an edge from the head of `path` back to `node`, from `node` to `node`. -/
def closing (path : List Nat) (node : Nat) : List Nat :=
  node :: ((path.takeWhile (· ≠ node)).reverse ++ [node])

/-- Follows edges from the head of `path`; `enter` is what happens at a node not yet met. -/
def follow (enter : Nat → Search → Search) (path : List Nat) : List Nat → Search → Search
  | [], s => s
  | n :: rest, s =>
    follow enter path rest <|
      if n ∈ path then { s with cycles := s.cycles ++ [closing path n] }
      else if n ∈ s.left then s
      else enter n s

/-- Enters a node, follows its edges and leaves it. `path` holds the nodes entered and not left,
the latest first; the fuel bounds how many more can be entered below one another. -/
def explore (next : Nat → List Nat) : Nat → List Nat → Nat → Search → Search
  | 0, _, _, s => s
  | fuel + 1, path, node, s =>
    let s := follow (explore next fuel (node :: path)) (node :: path) (next node) s
    { s with left := node :: s.left }

def searchFrom (next : Nat → List Nat) (fuel : Nat) : List Nat → Search → Search
  | [], s => s
  | n :: rest, s => searchFrom next fuel rest (if n ∈ s.left then s else explore next fuel [] n s)

/-- The cycles of a graph with the nodes below `size`, which cannot be entered more than `size`
deep. -/
def cyclesOf (next : Nat → List Nat) (size : Nat) : List (List Nat) :=
  (searchFrom next size (List.range size) {}).cycles

def cycles (agents : List Agent) : List (List String) :=
  (cyclesOf (successors agents) agents.length).map (·.map (nameOf agents))

end AgentAssembly.Delegation
