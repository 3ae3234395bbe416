import NodeScript.Proofs.Graph.Ports
import NodeScript.Translation.Value

/-!
What the expressions of values stand for. An expression is told without changing anything; it stands
for what it was asked for, a value that a local holds being read from there; and if there is none,
the error is one of those about values.
-/

namespace NodeScript

/-- No node of the graph is of a kind that an extension defines. -/
def Graph.BuiltIn (g : Graph) : Prop :=
  ∀ {id n}, g.node? id = some n → n.kind.isBuiltIn = true

theorem Graph.BuiltIn.of_entries {g : Graph}
    (all : ∀ entry ∈ g.nodes.entries, entry.2.kind.isBuiltIn = true) : g.BuiltIn := by
  intro id n found
  exact all _ (OrderedMap.get?_eq_some_iff.mp found)

/-- Locals that may be read, each with the output whose value it holds. -/
abbrev Scope := List (OutputRef × String)

/-- What an expression can stand for: the value at an input or at an output, or the call that a node
makes. -/
inductive Site where
  | input (node : NodeId) (name : String)
  | output (ref : OutputRef)
  | call (n : Node)

/-- An expression stands for a site where locals may be read. The value of a call that stands in a
stack and that of an item of a loop are only read from locals. -/
inductive TranslationEnv.Denotes (env : TranslationEnv) (scope : Scope) : Site → Expr → Prop
  | unconnected {node n input port e} : env.graph.node? node = some n →
      n.input? input = some port → env.graph.inputSource? node input = none →
      env.unconnectedInput { n with id := node } port input = .ok e →
      Denotes env scope (.input node input) e
  | connected {node input source port e} :
      env.graph.inputSource? node input = some (source, port) →
      Denotes env scope (.output ⟨source.id, port.name⟩) e → Denotes env scope (.input node input) e
  | held {ref name} : (ref, name) ∈ scope → Denotes env scope (.output ref) (.ident name)
  | constant {ref n value} : env.graph.node? ref.node = some n → n.kind = .constant value →
      Denotes env scope (.output ref) value.expr
  | stored {ref n id v} : env.graph.node? ref.node = some n → n.kind = .getVariable id →
      env.graph.variableDecl? id = some v → Denotes env scope (.output ref) (.ident (sanitize v.name))
  | self {ref n} : env.graph.node? ref.node = some n → n.kind = .this →
      Denotes env scope (.output ref) .this
  | binary {ref n op lhs rhs} : env.graph.node? ref.node = some n → n.kind = .binary op →
      Denotes env scope (.input n.id "A") lhs → Denotes env scope (.input n.id "B") rhs →
      Denotes env scope (.output ref) (.binary op.token lhs rhs)
  | unary {ref n op operand} : env.graph.node? ref.node = some n → n.kind = .unary op →
      Denotes env scope (.input n.id "Value") operand →
      Denotes env scope (.output ref) (.unary op.token operand)
  | called {ref n e} : env.graph.node? ref.node = some n → n.isStacked = false →
      Denotes env scope (.call n) e → Denotes env scope (.output ref) e
  | invoked {n decl m target types args} : n.kind = .call decl →
      env.oracle.method? decl.method = some m →
      (m.isStatic = true → target = .ident m.declaringType.name) →
      (m.isStatic = false → Denotes env scope (.input n.id "Instance") target) →
      args.length = m.parameters.length →
      (∀ pair ∈ (m.parameters.map (·.name)).zip args,
        Denotes env scope (.input n.id pair.1) pair.2) →
      Denotes env scope (.call n) (.callOn target m.name types args)

namespace TranslationEnv

/-- In an expression that was emitted for a site stands one that was emitted for another site: the
expression of an input is that of the output it is connected to, that of an output is put together
from those of the inputs of its node or is the call that the node makes, and the object and the
arguments of a call are those of its inputs. -/
inductive Occurs (env : TranslationEnv) (inner : Site) (y : Expr) : Site → Expr → Prop
  | here : Occurs env inner y inner y
  | connected {node input source port e} :
      env.graph.inputSource? node input = some (source, port) →
      Occurs env inner y (.output ⟨source.id, port.name⟩) e →
      Occurs env inner y (.input node input) e
  | left {ref n op lhs rhs} : env.graph.node? ref.node = some n → n.kind = .binary op →
      Occurs env inner y (.input n.id "A") lhs →
      Occurs env inner y (.output ref) (.binary op.token lhs rhs)
  | right {ref n op lhs rhs} : env.graph.node? ref.node = some n → n.kind = .binary op →
      Occurs env inner y (.input n.id "B") rhs →
      Occurs env inner y (.output ref) (.binary op.token lhs rhs)
  | operand {ref n op operand} : env.graph.node? ref.node = some n → n.kind = .unary op →
      Occurs env inner y (.input n.id "Value") operand →
      Occurs env inner y (.output ref) (.unary op.token operand)
  | called {ref n decl target name types args} : env.graph.node? ref.node = some n →
      n.kind = .call decl → Occurs env inner y (.call n) (.callOn target name types args) →
      Occurs env inner y (.output ref) (.callOn target name types args)
  | target {n decl m target types args} : n.kind = .call decl →
      env.oracle.method? decl.method = some m → m.isStatic = false →
      Occurs env inner y (.input n.id "Instance") target →
      Occurs env inner y (.call n) (.callOn target m.name types args)
  | argument {n decl m target types args pair} : n.kind = .call decl →
      env.oracle.method? decl.method = some m → pair ∈ (m.parameters.map (·.name)).zip args →
      Occurs env inner y (.input n.id pair.1) pair.2 →
      Occurs env inner y (.call n) (.callOn target m.name types args)

variable {env : TranslationEnv} {n : Node} {input : String → Evaluate Expr} {s : TranslatorState}
  {scope scope' : Scope} {site inner : Site} {e y : Expr} {ref : OutputRef}

/-- More locals do no harm. -/
theorem Denotes.mono (within : scope ⊆ scope') (denotes : env.Denotes scope site e) :
    env.Denotes scope' site e := by
  induction denotes with
  | unconnected found port free value => exact .unconnected found port free value
  | connected source _ ih => exact .connected source ih
  | held member => exact .held (within member)
  | constant found kind => exact .constant found kind
  | stored found kind declared => exact .stored found kind declared
  | self found kind => exact .self found kind
  | binary found kind _ _ lhs rhs => exact .binary found kind lhs rhs
  | unary found kind _ ih => exact .unary found kind ih
  | called found free _ ih => exact .called found free ih
  | invoked kind method static _ length _ target args =>
    exact .invoked kind method static target length args

/-- The value of a call that stands in a stack, or of an item of a loop, is read from a local. -/
theorem Denotes.exists_local (denotes : env.Denotes scope (.output ref) e)
    (found : env.graph.node? ref.node = some n)
    (kept : (∃ decl, n.kind = .call decl) ∧ n.isStacked = true ∨ n.kind = .forEach) :
    ∃ name, (ref, name) ∈ scope ∧ e = .ident name := by
  cases denotes with
  | held member => exact ⟨_, member, rfl⟩
  | called found' free call =>
    obtain rfl := Option.some.inj (found.symm.trans found')
    cases call with
    | invoked kind =>
      rcases kept with ⟨-, stacked⟩ | loop
      · exact absurd stacked (by simp [free])
      · exact absurd (kind.symm.trans loop) (by simp)
  | constant found' kind | stored found' kind | self found' kind | binary found' kind
  | unary found' kind =>
    obtain rfl := Option.some.inj (found.symm.trans found')
    simp [kind] at kept

theorem Denotes.of_connected {node : NodeId} {input : String} {source : Node} {port : Port}
    (denotes : env.Denotes scope (.input node input) e)
    (connected : env.graph.inputSource? node input = some (source, port)) :
    env.Denotes scope (.output ⟨source.id, port.name⟩) e := by
  cases denotes with
  | unconnected _ _ free => exact absurd (connected.symm.trans free) (by simp)
  | connected connected' value =>
    obtain ⟨rfl, rfl⟩ := Prod.mk.inj (Option.some.inj (connected.symm.trans connected'))
    exact value

theorem Denotes.of_binary {op : BinaryOperator} {token : String} {lhs rhs : Expr}
    (denotes : env.Denotes scope (.output ref) (.binary token lhs rhs))
    (found : env.graph.node? ref.node = some n) (kind : n.kind = .binary op) :
    env.Denotes scope (.input n.id "A") lhs ∧ env.Denotes scope (.input n.id "B") rhs := by
  generalize same : Expr.binary token lhs rhs = e at denotes
  cases denotes with
  | binary found' kind' left right =>
    obtain rfl := Option.some.inj (found.symm.trans found')
    obtain ⟨-, rfl, rfl⟩ := Expr.binary.inj same
    exact ⟨left, right⟩
  | held | self => exact nomatch same
  | constant found' kind' | stored found' kind' | unary found' kind' | called found' _ call =>
    obtain rfl := Option.some.inj (found.symm.trans found')
    first
      | exact absurd (kind.symm.trans kind') (by simp)
      | cases call; exact nomatch same

theorem Denotes.of_unary {op : UnaryOperator} {token : String} {operand : Expr}
    (denotes : env.Denotes scope (.output ref) (.unary token operand))
    (found : env.graph.node? ref.node = some n) (kind : n.kind = .unary op) :
    env.Denotes scope (.input n.id "Value") operand := by
  generalize same : Expr.unary token operand = e at denotes
  cases denotes with
  | unary found' kind' inner =>
    obtain rfl := Option.some.inj (found.symm.trans found')
    obtain ⟨-, rfl⟩ := Expr.unary.inj same
    exact inner
  | held | self => exact nomatch same
  | constant found' kind' | stored found' kind' | binary found' kind' | called found' _ call =>
    obtain rfl := Option.some.inj (found.symm.trans found')
    first
      | exact absurd (kind.symm.trans kind') (by simp)
      | cases call; exact nomatch same

/-- Only the call of a node that stands in no stack is written where its result is read. -/
theorem Denotes.of_call {decl : CallDecl} {target : Expr} {name : String} {types : List String}
    {args : List Expr}
    (denotes : env.Denotes scope (.output ref) (.callOn target name types args))
    (found : env.graph.node? ref.node = some n) (kind : n.kind = .call decl) :
    n.isStacked = false ∧ env.Denotes scope (.call n) (.callOn target name types args) := by
  generalize same : Expr.callOn target name types args = e at denotes ⊢
  cases denotes with
  | called found' free call =>
    obtain rfl := Option.some.inj (found.symm.trans found')
    exact ⟨free, call⟩
  | held | self => exact nomatch same
  | constant found' kind' | stored found' kind' | binary found' kind' | unary found' kind' =>
    obtain rfl := Option.some.inj (found.symm.trans found')
    exact absurd (kind.symm.trans kind') (by simp)

theorem Denotes.of_invoked {decl : CallDecl} {m : MethodSignature} {target : Expr} {name : String}
    {types : List String} {args : List Expr}
    (denotes : env.Denotes scope (.call n) (.callOn target name types args))
    (kind : n.kind = .call decl) (method : env.oracle.method? decl.method = some m) :
    (m.isStatic = false → env.Denotes scope (.input n.id "Instance") target) ∧
      ∀ pair ∈ (m.parameters.map (·.name)).zip args,
        env.Denotes scope (.input n.id pair.1) pair.2 := by
  generalize same : Expr.callOn target name types args = e at denotes
  cases denotes with
  | invoked kind' method' _ object _ each =>
    obtain rfl := NodeKind.call.inj (kind.symm.trans kind')
    obtain rfl := Option.some.inj (method.symm.trans method')
    obtain ⟨rfl, -, -, rfl⟩ := Expr.callOn.inj same
    exact ⟨object, each⟩

/-- What stands in an expression that stands for its site stands for its own. -/
theorem Denotes.of_occurs (denotes : env.Denotes scope site e)
    (occurs : env.Occurs inner y site e) : env.Denotes scope inner y := by
  induction occurs with
  | here => exact denotes
  | connected source _ ih => exact ih (denotes.of_connected source)
  | left found kind _ ih => exact ih (denotes.of_binary found kind).1
  | right found kind _ ih => exact ih (denotes.of_binary found kind).2
  | operand found kind _ ih => exact ih (denotes.of_unary found kind)
  | called found kind _ ih => exact ih (denotes.of_call found kind).2
  | target kind method object _ ih => exact ih ((denotes.of_invoked kind method).1 object)
  | argument kind method member _ ih => exact ih ((denotes.of_invoked kind method).2 _ member)

/-- The call that a node in a stack makes stands in no other expression. -/
theorem Denotes.eq_call (denotes : env.Denotes scope site e)
    (occurs : env.Occurs (.call n) y site e) (stacked : n.isStacked = true) : site = .call n := by
  induction occurs with
  | here => rfl
  | connected source _ ih => exact nomatch ih (denotes.of_connected source)
  | left found kind _ ih => exact nomatch ih (denotes.of_binary found kind).1
  | right found kind _ ih => exact nomatch ih (denotes.of_binary found kind).2
  | operand found kind _ ih => exact nomatch ih (denotes.of_unary found kind)
  | called found kind _ ih =>
    obtain ⟨free, call⟩ := denotes.of_call found kind
    obtain rfl := Site.call.inj (ih call)
    exact absurd stacked (by simp [free])
  | target kind method object _ ih => exact nomatch ih ((denotes.of_invoked kind method).1 object)
  | argument kind method member _ ih =>
    exact nomatch ih ((denotes.of_invoked kind method).2 _ member)

end TranslationEnv

/-- An error whose message does not begin as those about execution do. -/
def CompilerError.AboutValues (e : CompilerError) : Prop := e.message.toList.head? ≠ some 'E'

theorem CompilerError.AboutValues.of_head {e : CompilerError} {c : Char}
    (head : e.message.toList.head? = some c) (other : c ≠ 'E') : e.AboutValues := by
  rw [AboutValues, head]
  exact fun same => other (Option.some.inj same)

section Rules

variable {α β : Type} {m : Evaluate α} {s : TranslatorState} {ok P : α → Prop} {Q : β → Prop}

/-- An evaluation in a state leaves the state alone and tells what it should, or else an error about
values. -/
def Evaluates (m : Evaluate α) (s : TranslatorState) (ok : α → Prop) : Prop :=
  (m.run.run s).2 = s ∧
    match (m.run.run s).1 with
    | .ok a => ok a
    | .error e => e.AboutValues

theorem Evaluates.pure {a : α} (holds : ok a) : Evaluates (pure a) s ok := ⟨rfl, holds⟩

theorem Evaluates.throw {e : CompilerError} (about : e.AboutValues) :
    Evaluates (throw e : Evaluate α) s ok := ⟨rfl, about⟩

theorem Evaluates.ofExcept {r : Except CompilerError α} (holds : ∀ a, r = .ok a → ok a)
    (about : ∀ e, r = .error e → e.AboutValues) :
    Evaluates (MonadExcept.ofExcept r : Evaluate α) s ok := by
  cases r with
  | ok a => exact ⟨rfl, holds a rfl⟩
  | error e => exact ⟨rfl, about e rfl⟩

theorem Evaluates.mono (told : Evaluates m s P) (weaker : ∀ a, P a → ok a) : Evaluates m s ok := by
  obtain ⟨unchanged, told⟩ := told
  refine ⟨unchanged, ?_⟩
  split at told
  · exact weaker _ told
  · exact told

theorem Evaluates.bind {f : α → Evaluate β} (first : Evaluates m s P)
    (next : ∀ a, P a → Evaluates (f a) s Q) : Evaluates (m >>= f) s Q := by
  obtain ⟨unchanged, told⟩ := first
  generalize outcome : m.run.run s = after at unchanged told
  obtain ⟨result, s'⟩ := after
  obtain rfl : s' = s := unchanged
  unfold Evaluates
  rw [ExceptT.run_bind, StateT.run_bind, outcome]
  cases result with
  | ok a => exact next a told
  | error e => exact ⟨rfl, told⟩

end Rules

section Values

variable {env : TranslationEnv} {n : Node} {input : String → Evaluate Expr} {s : TranslatorState}

theorem nodeError_aboutValues {node : NodeId} {message : String}
    (start : message.toList.head? ≠ some 'E') : (nodeError node message).AboutValues := start

theorem readInputs_evaluates {D : String → Expr → Prop}
    (told : ∀ name, Evaluates (input name) s (D name)) (names : List String) :
    Evaluates (readInputs input names) s fun es =>
      es.length = names.length ∧ ∀ pair ∈ names.zip es, D pair.1 pair.2 := by
  induction names with
  | nil => exact .pure ⟨rfl, by simp⟩
  | cons name rest ih =>
    refine (told name).bind fun e first => ih.bind fun es others => .pure ?_
    exact ⟨congrArg (· + 1) others.1, List.forall_mem_cons.mpr ⟨first, others.2⟩⟩

namespace TranslationEnv

theorem callTypeArgs_head {decl : CallDecl} {names : List String} {e : CompilerError}
    (failed : env.callTypeArgs n decl names = .error e) :
    e.message.toList.head? = some 'C' := by
  induction names with
  | nil => exact nomatch failed
  | cons name rest ih =>
    rw [callTypeArgs] at failed
    split at failed
    · obtain rfl := Except.error.inj failed
      simp [nodeError, CompilerError.translation, toString]
    · split at failed
      · exact nomatch failed
      · rename_i inner
        obtain rfl := Except.error.inj failed
        exact ih inner

theorem operatorFault?_head {kind : NodeKind} {e : CompilerError}
    (fault : env.operatorFault? n kind = some e) : e.message.toList.head? = some 'O' := by
  unfold operatorFault? at fault
  split at fault
  · split at fault
    · split at fault
      · obtain rfl := Option.some.inj fault
        simp [nodeError, CompilerError.translation, toString]
      · exact nomatch fault
    · exact nomatch fault
  · split at fault
    · split at fault
      · obtain rfl := Option.some.inj fault
        simp [nodeError, CompilerError.translation, toString]
      · exact nomatch fault
    · exact nomatch fault
  · exact nomatch fault

theorem unconnectedInput_head {port : Port} {name : String} {e : CompilerError}
    (failed : env.unconnectedInput n port name = .error e) :
    e.message.toList.head? = some 'I' := by
  unfold unconnectedInput at failed
  split at failed
  · dsimp only at failed
    split at failed
    · exact nomatch failed
    · obtain rfl := Except.error.inj failed
      simp [nodeError, CompilerError.translation, toString]
  · split at failed
    · exact nomatch failed
    · obtain rfl := Except.error.inj failed
      simp [nodeError, CompilerError.translation, toString]

variable {scope : Scope}
  (told : ∀ name, Evaluates (input name) s (env.Denotes scope (.input n.id name)))

include told

theorem callExpr_evaluates {decl : CallDecl} (kind : n.kind = .call decl) :
    Evaluates (env.callExpr n decl input) s (env.Denotes scope (.call n)) := by
  unfold callExpr
  split
  · exact .throw (nodeError_aboutValues (by simp [toString]))
  · rename_i m method
    refine Evaluates.bind (P := fun _ => True)
      (.ofExcept (fun _ _ => trivial) fun e failed => .of_head (callTypeArgs_head failed)
        (by decide)) fun types _ => ?_
    have onward : ∀ target, (m.isStatic = true → target = .ident m.declaringType.name) →
        (m.isStatic = false → env.Denotes scope (.input n.id "Instance") target) →
        Evaluates (do
          let args ← readInputs input (m.parameters.map (·.name))
          return .callOn target m.name types args) s (env.Denotes scope (.call n)) := by
      intro target static object
      refine (readInputs_evaluates told _).bind fun args ⟨length, each⟩ => .pure ?_
      exact .invoked kind method static object (by simpa using length) each
    dsimp only
    split
    · rename_i static
      refine Evaluates.bind (P := (· = .ident m.declaringType.name)) (.pure rfl) fun target same => ?_
      exact onward target (fun _ => same) fun object => by simp [static] at object
    · rename_i object
      exact (told "Instance").bind fun target denotes =>
        onward target (fun static => absurd static object) fun _ => denotes

theorem valueOf_evaluates (ref : OutputRef) (found : env.graph.node? ref.node = some n)
    (builtIn : n.kind.isBuiltIn = true) :
    Evaluates (env.valueOf n ref.output input) s (env.Denotes scope (.output ref)) := by
  unfold valueOf
  split
  · rename_i kind
    exact .pure (.constant found kind)
  · rename_i kind
    split
    · rename_i declared
      exact .pure (.stored found kind declared)
    · exact .throw (nodeError_aboutValues (by simp))
  · rename_i kind
    exact .pure (.self found kind)
  · rename_i kind
    refine (told _).bind fun lhs left => (told _).bind fun rhs right => ?_
    split
    · rename_i fault
      exact .throw (.of_head (operatorFault?_head fault) (by decide))
    · exact .pure (.binary found kind left right)
  · rename_i kind
    refine (told _).bind fun operand inner => ?_
    split
    · rename_i fault
      exact .throw (.of_head (operatorFault?_head fault) (by decide))
    · exact .pure (.unary found kind inner)
  · rename_i kind
    split
    · exact .throw (nodeError_aboutValues (by simp [toString]))
    · rename_i free
      exact (callExpr_evaluates told kind).mono fun e call => .called found (by simpa using free) call
  · exact .throw (nodeError_aboutValues (by simp))
  · rename_i kind
    simp [kind, NodeKind.isBuiltIn] at builtIn
  · exact .throw (nodeError_aboutValues (by simp [toString]))

omit told in
theorem inputFrom_evaluates {under : List NodeId} {build : NodeId → Node → String → Evaluate Expr}
    (builds : ∀ {source origin output}, env.graph.node? source = some origin →
      Evaluates (build source origin output) s
        (env.Denotes s.bound.entries (.output ⟨source, output⟩)))
    (node : NodeId) (name : String) :
    Evaluates (env.inputFrom under build node name) s
      (env.Denotes s.bound.entries (.input node name)) := by
  unfold inputFrom
  split
  · exact .throw (nodeError_aboutValues (by simp))
  rename_i found
  split
  · exact .throw (nodeError_aboutValues (by simp [toString]))
  rename_i port
  split
  · rename_i free
    exact .ofExcept (fun e value => .unconnected found port free value)
      fun e failed => .of_head (unconnectedInput_head failed) (by decide)
  rename_i source sourcePort connected
  have state : Evaluates (get : Evaluate TranslatorState) s (· = s) := ⟨rfl, rfl⟩
  refine state.bind fun s' same => ?_
  subst same
  split
  · rename_i held
    exact .pure (.connected connected (.held (OrderedMap.get?_eq_some_iff.mp held)))
  split
  · exact .throw (nodeError_aboutValues (by simp))
  rename_i origin foundS
  split
  · exact .throw (nodeError_aboutValues (by simp [toString]))
  split
  · exact .throw (nodeError_aboutValues (by simp))
  · exact (builds foundS).mono fun e denotes => .connected connected denotes

omit told in
theorem inputWithin_evaluates (builtIn : env.graph.BuiltIn) (depth : Nat) (under : List NodeId)
    (node : NodeId) (name : String) :
    Evaluates (env.inputWithin depth under node name) s
      (env.Denotes s.bound.entries (.input node name)) := by
  induction depth generalizing under node name with
  | zero =>
    exact inputFrom_evaluates (fun _ => .throw (nodeError_aboutValues (by simp))) node name
  | succ depth ih =>
    refine inputFrom_evaluates (fun {source origin output} found => ?_) node name
    exact valueOf_evaluates (fun name => ih (source :: under) origin.id name) ⟨source, output⟩ found
      (builtIn found)

omit told in
/-- What is told for an input stands for the value there, read from the locals that are bound. -/
theorem inputExpr_evaluates (builtIn : env.graph.BuiltIn) (s : TranslatorState) (node : NodeId)
    (name : String) :
    Evaluates (env.inputExpr node name) s (env.Denotes s.bound.entries (.input node name)) :=
  inputWithin_evaluates builtIn _ _ node name

end TranslationEnv

end Values

end NodeScript
