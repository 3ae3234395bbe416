import NodeScript.Graph.Reach

/-!
Where branches of execution meet again. A stack is sure to be reached from another if every way
execution can go passes it; the join of several stacks is the nearest one that is sure to be reached
from all of them.
-/

namespace NodeScript

/-- The members of a list that are members of another too. -/
def commonMembers (a b : List NodeId) : List NodeId := a.filter fun id => b.contains id

/-- What is sure to be reached from stacks, as far as it has been worked out. -/
abbrev ReachTable := OrderedMap NodeId (List NodeId)

namespace Graph

mutual

/-- The stacks that are sure to be reached from a stack, the stack first. A way that comes back to a
stack that is still being worked on counts as leaving there. The depth bounds how many stacks are
worked on at once. -/
def sureFrom (g : Graph) (depth : Nat) (pending : List NodeId) (table : ReachTable)
    (stack : NodeId) : List NodeId × ReachTable :=
  match table.get? stack with
  | some known => (known, table)
  | none =>
    if pending.contains stack then ([], table)
    else
      match depth with
      | 0 => ([stack], table)
      | depth + 1 =>
        let (through, table) := g.sureThrough depth (stack :: pending) table (g.successors stack)
        let result := stack :: (through.getD []).filter (· ≠ stack)
        (result, table.insert stack result)

/-- The stacks that are sure to be reached through every one of several ways, if there are any ways.
Nothing is reached through a way that leads nowhere. -/
def sureThrough (g : Graph) (depth : Nat) (pending : List NodeId) (table : ReachTable) :
    List (Option NodeId) → Option (List NodeId) × ReachTable
  | [] => (none, table)
  | way :: rest =>
    let (reached, table) := match way with
      | some next => g.sureFrom depth pending table next
      | none => ([], table)
    let (others, table) := g.sureThrough depth pending table rest
    (match others with
      | none => some reached
      | some others => some (commonMembers reached others), table)

end

/-- The stacks that are sure to be reached from a stack. Of the stacks that are worked on at once,
all but the last have a node. -/
def sureReach (g : Graph) (stack : NodeId) : List NodeId :=
  (g.sureFrom (g.nodes.size + 1) [] ∅ stack).1

/-- The stacks that execution may go on to, without ways that lead nowhere. -/
def nextStacks (g : Graph) (stack : NodeId) : List NodeId := (g.successors stack).filterMap id

/-- Adds stacks at a distance, unless they have one, to what was found and to what is still to be
looked at. -/
def settle (distance : Nat) (found queue : List (NodeId × Nat)) :
    List NodeId → List (NodeId × Nat) × List (NodeId × Nat)
  | [] => (found, queue)
  | next :: rest =>
    if found.any (·.1 = next) then settle distance found queue rest
    else settle distance (found ++ [(next, distance)]) (queue ++ [(next, distance)]) rest

/-- Looks at the stacks of a queue in order and settles what they lead to, one step further away. -/
def measure (g : Graph) : (steps : Nat) → (found queue : List (NodeId × Nat)) → List (NodeId × Nat)
  | 0, found, _ => found
  | _, found, [] => found
  | steps + 1, found, (current, distance) :: rest =>
    let (found, queue) := settle (distance + 1) found rest (g.nextStacks current)
    g.measure steps found queue

/-- The distances of the stacks that execution may come to from a stack. -/
def distances (g : Graph) (origin : NodeId) : List (NodeId × Nat) :=
  g.measure (g.edges.size + 1) [(origin, 0)] [(origin, 0)]

/-- The sum of the distances of a stack in several tables, if it is in all of them. -/
def totalDistance? (tables : List (List (NodeId × Nat))) (stack : NodeId) : Option Nat :=
  tables.foldl (fun total table => do
    let sum ← total
    let (_, distance) ← table.find? (·.1 = stack)
    return sum + distance) (some 0)

/-- A stack as a join: the sum of its distances and its place in the graph. -/
structure JoinRank where
  total : Nat
  place : Option Nat
  stack : NodeId
deriving DecidableEq, Repr

/-- Whether a stack is the better join: nearer, then earlier in the graph, then of smaller
identity. A stack that is not in the graph comes behind those that are. -/
def JoinRank.before (a b : JoinRank) : Bool :=
  if a.total ≠ b.total then a.total < b.total
  else
    match a.place, b.place with
    | some i, some j => if i ≠ j then i < j else a.stack.uuid.below b.stack.uuid
    | some _, none => true
    | none, some _ => false
    | none, none => a.stack.uuid.below b.stack.uuid

/-- The best of several joins. -/
def JoinRank.best? : List JoinRank → Option JoinRank
  | [] => none
  | a :: rest =>
    match best? rest with
    | none => some a
    | some b => if b.before a then some b else some a

/-- The join of stacks. -/
def joinOf? (g : Graph) (origins : List NodeId) : Option NodeId :=
  match origins.map g.sureReach with
  | [] => none
  | first :: others =>
    let candidates := others.foldl commonMembers first
    let tables := origins.map g.distances
    let ranks := candidates.filterMap fun stack =>
      (totalDistance? tables stack).map fun total => JoinRank.mk total (g.nodeIndex? stack) stack
    (JoinRank.best? ranks).map (·.stack)

/-- The join of two stacks. -/
def joinOfTwo? (g : Graph) (a b : NodeId) : Option NodeId := g.joinOf? [a, b]

end Graph

end NodeScript
