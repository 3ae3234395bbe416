import NodeScript.Code.Unit
import NodeScript.Graph.Basic

/-!
Execution with the decisions given: of generated statements, and of the graph that they come from.
A stream of decisions is known by its beginnings. A choice and every round of a loop take one
decision, and where a beginning is used up execution waits there.
-/

namespace NodeScript

/-- How execution comes to rest. -/
inductive Ending where
  /-- Nothing is left to execute. -/
  | finished
  /-- The function was left. -/
  | left
  /-- A decision is missing. -/
  | waiting
deriving DecidableEq, Repr, Inhabited

/-- What was executed: the nodes in order, how it ended, and the decisions that are left. -/
structure Outcome where
  visited : List NodeId
  ending : Ending
  rest : List Int64
deriving DecidableEq, Repr, Inhabited

namespace Outcome

/-- Nothing is executed. -/
def idle (decisions : List Int64) : Outcome := ⟨[], .finished, decisions⟩

/-- Execution behind nodes that were visited before. -/
def behind (o : Outcome) (before : List NodeId) : Outcome :=
  { o with visited := before ++ o.visited }

/-- Goes on with what is next unless execution has come to rest before. -/
def andThen (o : Outcome) (next : List Int64 → Outcome) : Outcome :=
  match o.ending with
  | .finished => (next o.rest).behind o.visited
  | _ => o

/-- Takes a decision, or waits for it. -/
def deciding (decisions : List Int64) (next : Int64 → List Int64 → Outcome) : Outcome :=
  match decisions with
  | [] => ⟨[], .waiting, []⟩
  | d :: rest => next d rest

/-- The rounds of a loop, as long as the decisions are not zero. Every round takes one, so there are
no more rounds than decisions. -/
def rounds (body : List Int64 → Outcome) : (bound : Nat) → List Int64 → Outcome
  | 0, decisions => ⟨[], .waiting, decisions⟩
  | bound + 1, decisions => deciding decisions fun d rest =>
    if d = 0 then idle rest else (body rest).andThen (rounds body bound)

/-- A loop. -/
def looping (body : List Int64 → Outcome) (decisions : List Int64) : Outcome :=
  rounds body (decisions.length + 1) decisions

end Outcome

mutual

/-- The execution of a statement. -/
def Stmt.run : Stmt → List Int64 → Outcome
  | .branch origin _ thenBody elseBody, decisions =>
    (Outcome.deciding decisions fun d rest =>
      if d = 0 then Stmt.runAll elseBody rest else Stmt.runAll thenBody rest).behind origin.toList
  | .select origin _ cases fallback, decisions =>
    (Outcome.deciding decisions fun d rest =>
      SwitchCase.runFirst cases d rest (Stmt.runAll fallback)).behind origin.toList
  | .repeated origin _ body, decisions
  | .forEach origin _ _ body, decisions =>
    (Outcome.looping (Stmt.runAll body) decisions).behind origin.toList
  | .leave origin _, decisions => ⟨origin.toList, .left, decisions⟩
  | .effect origin _, decisions
  | .declare origin _ _ _, decisions
  | .assign origin _ _, decisions
  | .comment origin _, decisions => (Outcome.idle decisions).behind origin.toList

/-- The execution of statements one after the other. -/
def Stmt.runAll : List Stmt → List Int64 → Outcome
  | [], decisions => .idle decisions
  | s :: rest, decisions => (s.run decisions).andThen (Stmt.runAll rest)

/-- The execution of the first case of a label, or of what is done without one. -/
def SwitchCase.runFirst :
    List SwitchCase → Int64 → List Int64 → (List Int64 → Outcome) → Outcome
  | [], _, decisions, otherwise => otherwise decisions
  | .mk label body :: rest, d, decisions, otherwise =>
    if d = label then Stmt.runAll body decisions
    else SwitchCase.runFirst rest d decisions otherwise

end

/-- The output that execution leaves a choice through: zero stands for false. -/
def NodeKind.exit : NodeKind → Int64 → String
  | .select cases, d => if d ∈ cases then caseOutput d else "Default"
  | _, d => if d = 0 then "Else" else "Then"

theorem NodeKind.isLeave_of_isBranching {kind : NodeKind} (choice : kind.isBranching = true) :
    kind.isLeave = false := by
  cases kind <;> simp_all [isBranching, isLeave]

theorem NodeKind.isLeave_of_isLoop {kind : NodeKind} (loop : kind.isLoop = true) :
    kind.isLeave = false ∧ kind.isBranching = false := by
  cases kind <;> simp_all [isLoop, isLeave, isBranching]

/-- A part of a graph that is still to be executed. -/
inductive Passage where
  /-- The stacks from a target on, if there is one. -/
  | way (target : Option NodeId)
  /-- The rest of the nodes of a stack, and what comes behind the stack. -/
  | nodes (stack : NodeId) (rest : List NodeId)
  /-- The rounds of a loop. -/
  | rounds (loop : NodeId)
deriving DecidableEq, Repr

/-- A walk through a graph at some moment: what is still to be executed, inner parts first, the
decisions that are left, and the nodes that were visited. -/
structure Walker where
  ahead : List Passage
  decisions : List Int64
  visited : List NodeId
deriving DecidableEq, Repr

namespace Walker

/-- The walk comes to rest. -/
def halt (w : Walker) (ending : Ending) : Outcome := ⟨w.visited, ending, w.decisions⟩

/-- Goes on with other parts. -/
def goto (w : Walker) (ahead : List Passage) : Walker := { w with ahead }

/-- Visits a node. -/
def visit (w : Walker) (node : NodeId) : Walker := { w with visited := w.visited ++ [node] }

/-- Takes a decision, or waits for it. -/
def deciding (w : Walker) (next : Int64 → List Passage) : Outcome ⊕ Walker :=
  match w.decisions with
  | [] => .inl (w.halt .waiting)
  | d :: decisions => .inr { w with ahead := next d, decisions }

/-- Executes a node of a stack. A choice goes on at the stack of the chosen output, and then nothing
else of its own stack is executed. -/
def enter (g : Graph) (w : Walker) (n : Node) (stack : NodeId) (others : List NodeId)
    (outer : List Passage) : Outcome ⊕ Walker :=
  let w := w.visit n.id
  if n.kind.isLeave then .inl (w.halt .left)
  else if n.kind.isBranching then
    w.deciding fun d => .way (g.execTarget? n.id (n.kind.exit d)) :: outer
  else if n.kind.isLoop then .inr (w.goto (.rounds n.id :: .nodes stack others :: outer))
  else .inr (w.goto (.nodes stack others :: outer))

/-- One step of a walk. -/
def step (g : Graph) (w : Walker) : Outcome ⊕ Walker :=
  match w.ahead with
  | [] => .inl (w.halt .finished)
  | .way none :: outer => .inr (w.goto outer)
  | .way (some stack) :: outer => .inr (w.goto (.nodes stack (g.children stack) :: outer))
  | .nodes stack [] :: outer => .inr (w.goto (.way (g.execTarget? stack "Out") :: outer))
  | .nodes stack (node :: others) :: outer =>
    match g.node? node with
    | none => .inr (w.goto (.nodes stack others :: outer))
    | some n => w.enter g n stack others outer
  | .rounds loop :: outer =>
    w.deciding fun d =>
      if d = 0 then outer else .way (g.execTarget? loop "Body") :: .rounds loop :: outer

/-- A walk comes to rest after finitely many steps. -/
inductive Ends (g : Graph) : Walker → Outcome → Prop
  | now {w o} : w.step g = .inl o → Ends g w o
  | later {w w' o} : w.step g = .inr w' → Ends g w' o → Ends g w o

theorem Ends.unique {g : Graph} {w : Walker} {o o' : Outcome} (ends : Ends g w o)
    (ends' : Ends g w o') : o = o' := by
  induction ends with
  | now step =>
    cases ends' with
    | now step' => exact Sum.inl.inj (step.symm.trans step')
    | later step' => simp [step] at step'
  | later step _ ih =>
    cases ends' with
    | now step' => simp [step] at step'
    | later step' rest => exact ih (Sum.inr.inj (step.symm.trans step') ▸ rest)

/-- The start of a walk at a stack. -/
def start (stack : NodeId) (decisions : List Int64) : Walker := ⟨[.way (some stack)], decisions, []⟩

namespace Ends

variable {g : Graph} {n : Node} {s c loop : NodeId} {rest visited : List NodeId}
  {outer : List Passage} {d : Int64} {decisions : List Int64} {o : Outcome}

theorem absent (gone : g.node? c = none)
    (walk : Ends g ⟨.nodes s rest :: outer, decisions, visited⟩ o) :
    Ends g ⟨.nodes s (c :: rest) :: outer, decisions, visited⟩ o :=
  .later (by simp only [step, gone, goto]) walk

theorem leave (found : g.node? c = some n) (leave : n.kind.isLeave = true) :
    Ends g ⟨.nodes s (c :: rest) :: outer, decisions, visited⟩
      ⟨visited ++ [n.id], .left, decisions⟩ :=
  .now (by simp only [step, found, enter, leave, if_true, halt, visit])

theorem undecided (found : g.node? c = some n) (choice : n.kind.isBranching = true) :
    Ends g ⟨.nodes s (c :: rest) :: outer, [], visited⟩ ⟨visited ++ [n.id], .waiting, []⟩ := by
  have stays := NodeKind.isLeave_of_isBranching choice
  exact .now (by simp [step, found, enter, stays, choice, halt, visit, Walker.deciding])

theorem decided (found : g.node? c = some n) (choice : n.kind.isBranching = true)
    (walk : Ends g ⟨.way (g.execTarget? n.id (n.kind.exit d)) :: outer, decisions,
      visited ++ [n.id]⟩ o) :
    Ends g ⟨.nodes s (c :: rest) :: outer, d :: decisions, visited⟩ o := by
  have stays := NodeKind.isLeave_of_isBranching choice
  exact .later (by simp [step, found, enter, stays, choice, visit, Walker.deciding]) walk

theorem entersLoop (found : g.node? c = some n) (loop : n.kind.isLoop = true)
    (walk : Ends g ⟨.rounds n.id :: .nodes s rest :: outer, decisions, visited ++ [n.id]⟩ o) :
    Ends g ⟨.nodes s (c :: rest) :: outer, decisions, visited⟩ o := by
  obtain ⟨stays, single⟩ := NodeKind.isLeave_of_isLoop loop
  exact .later (by simp [step, found, enter, stays, single, loop, visit, goto]) walk

theorem passes (found : g.node? c = some n) (leave : n.kind.isLeave = false)
    (choice : n.kind.isBranching = false) (loop : n.kind.isLoop = false)
    (walk : Ends g ⟨.nodes s rest :: outer, decisions, visited ++ [n.id]⟩ o) :
    Ends g ⟨.nodes s (c :: rest) :: outer, decisions, visited⟩ o :=
  .later (by simp [step, found, enter, leave, choice, loop, visit, goto]) walk

theorem undecidedRound :
    Ends g ⟨.rounds loop :: outer, [], visited⟩ ⟨visited, .waiting, []⟩ := .now rfl

theorem lastRound (walk : Ends g ⟨outer, decisions, visited⟩ o) :
    Ends g ⟨.rounds loop :: outer, 0 :: decisions, visited⟩ o := .later rfl walk

theorem round (goesOn : d ≠ 0)
    (walk : Ends g ⟨.way (g.execTarget? loop "Body") :: .rounds loop :: outer, decisions,
      visited⟩ o) :
    Ends g ⟨.rounds loop :: outer, d :: decisions, visited⟩ o :=
  .later (by simp only [step, Walker.deciding, goesOn, if_false]) walk

end Ends

end Walker

end NodeScript
