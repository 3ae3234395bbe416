import NodeScript.Proofs.Graph.Closures
import NodeScript.Proofs.Translation.Filing
import NodeScript.Proofs.Translation.Said

/-!
Operators in what is emitted. The types of the operands are looked up beside the building of the
expression, over a number of inputs in a row and no further. An operator that is emitted has an
overload for its operands wherever this tells their types.
-/

namespace NodeScript

open NodeScript.Graph (placed wired numbered)

namespace TranslationEnv

/-! ### The types of operands -/

/-- An input receives the value at an output of a node; the port is the one that is found by the name
of the output. -/
def Receives (env : TranslationEnv) (node : NodeId) (input : String) (source : Node) (port : Port) :
    Prop :=
  ∃ outlet, env.graph.inputSource? node input = some (source, outlet) ∧
    source.output? outlet.name = some port

/-- The type of the value at an input follows from at most so many inputs in a row: it is that of the
value that the input itself holds, or else of the output that it receives its value from. That is
declared, or the result of the first overload of an operator, or what a collection holds. -/
inductive TypedIn (env : TranslationEnv) : Nat → NodeId → String → TypeExpr → Prop
  | embedded {k node n input port value t} : env.graph.node? node = some n →
      n.input? input = some port → env.graph.inputSource? node input = none →
      n.constants.get? port.id = some value → env.oracle.resolve value.type = some t →
      TypedIn env (k + 1) node input t
  | declared {k node input source port t} : env.Receives node input source port →
      port.type ≠ .unknown → env.oracle.resolve port.type = some t → TypedIn env (k + 1) node input t
  | binary {k node input source port op a b first} : env.Receives node input source port →
      port.type = .unknown → source.kind = .binary op →
      TypedIn env k source.id "A" a → TypedIn env k source.id "B" b →
      (env.oracle.binaryOverloads op a b).head? = some first →
      TypedIn env (k + 1) node input first.result
  | unary {k node input source port op a first} : env.Receives node input source port →
      port.type = .unknown → source.kind = .unary op → TypedIn env k source.id "Value" a →
      (env.oracle.unaryOverloads op a).head? = some first →
      TypedIn env (k + 1) node input first.result
  | item {k node input source port collection t} : env.Receives node input source port →
      port.type = .unknown → source.kind = .forEach →
      TypedIn env k source.id "Collection" collection → collection.args.head? = some t →
      TypedIn env (k + 1) node input t

variable {env : TranslationEnv} {n : Node} {site : Site} {e : Expr} {k : Nat} {node : NodeId}
  {input output : String} {t : TypeExpr}

theorem inputTypeWithin_of_connected {source : Node} {outlet : Port}
    (connected : env.graph.inputSource? node input = some (source, outlet)) :
    env.inputTypeWithin (k + 1) node input =
      env.outputType? (env.inputTypeWithin k) source outlet.name := by
  obtain ⟨n, found, behind⟩ := Option.bind_eq_some_iff.mp connected
  obtain ⟨port, named, -⟩ := Option.bind_eq_some_iff.mp behind
  simp [inputTypeWithin, found, named, connected]

theorem TypedIn.inputTypeWithin (typed : env.TypedIn k node input t) :
    env.inputTypeWithin k node input = some t := by
  induction typed with
  | embedded found port free value known =>
    simp [TranslationEnv.inputTypeWithin, found, port, free, value, known]
  | declared receives told known =>
    obtain ⟨outlet, connected, found⟩ := receives
    simp [inputTypeWithin_of_connected connected, outputType?, found, told, known]
  | binary receives unknown kind _ _ first lhs rhs =>
    obtain ⟨outlet, connected, found⟩ := receives
    simp [inputTypeWithin_of_connected connected, outputType?, found, unknown, kind, lhs, rhs, first]
  | unary receives unknown kind _ first operand =>
    obtain ⟨outlet, connected, found⟩ := receives
    simp [inputTypeWithin_of_connected connected, outputType?, found, unknown, kind, operand, first]
  | item receives unknown kind _ first collection =>
    obtain ⟨outlet, connected, found⟩ := receives
    simp [inputTypeWithin_of_connected connected, outputType?, found, unknown, kind, collection,
      first]

theorem typedIn_of_inputTypeWithin (known : env.inputTypeWithin k node input = some t) :
    env.TypedIn k node input t := by
  induction k generalizing node input t with
  | zero => exact nomatch known
  | succ k ih =>
    cases connected : env.graph.inputSource? node input with
    | none =>
      rw [inputTypeWithin] at known
      simp only [connected] at known
      obtain ⟨n, found, known⟩ := Option.bind_eq_some_iff.mp known
      obtain ⟨port, named, known⟩ := Option.bind_eq_some_iff.mp known
      obtain ⟨value, held, known⟩ := Option.bind_eq_some_iff.mp known
      exact .embedded found named connected held known
    | some origin =>
      obtain ⟨source, outlet⟩ := origin
      rw [inputTypeWithin_of_connected connected] at known
      obtain ⟨port, found, known⟩ := Option.bind_eq_some_iff.mp known
      have receives : env.Receives node input source port := ⟨outlet, connected, found⟩
      split at known
      · rename_i told
        exact .declared receives told known
      rename_i unknown
      have unknown : port.type = .unknown := not_not.mp unknown
      split at known
      · rename_i kind
        obtain ⟨a, lhs, known⟩ := Option.bind_eq_some_iff.mp known
        obtain ⟨b, rhs, known⟩ := Option.bind_eq_some_iff.mp known
        obtain ⟨first, offered, known⟩ := Option.bind_eq_some_iff.mp known
        obtain rfl := Option.some.inj known
        exact .binary receives unknown kind (ih lhs) (ih rhs) offered
      · rename_i kind
        obtain ⟨a, operand, known⟩ := Option.bind_eq_some_iff.mp known
        obtain ⟨first, offered, known⟩ := Option.bind_eq_some_iff.mp known
        obtain rfl := Option.some.inj known
        exact .unary receives unknown kind (ih operand) offered
      · rename_i kind
        obtain ⟨collection, held, known⟩ := Option.bind_eq_some_iff.mp known
        exact .item receives unknown kind (ih held) known
      · exact nomatch known

/-- The lookup tells the types that follow from as many inputs in a row as it looks at. -/
theorem inputTypeWithin_eq_some_iff :
    env.inputTypeWithin k node input = some t ↔ env.TypedIn k node input t :=
  ⟨typedIn_of_inputTypeWithin, TypedIn.inputTypeWithin⟩

theorem TypedIn.succ (typed : env.TypedIn k node input t) : env.TypedIn (k + 1) node input t := by
  induction typed with
  | embedded found port free value known => exact .embedded found port free value known
  | declared receives told known => exact .declared receives told known
  | binary receives unknown kind _ _ first lhs rhs =>
    exact .binary receives unknown kind lhs rhs first
  | unary receives unknown kind _ first operand => exact .unary receives unknown kind operand first
  | item receives unknown kind _ first collection =>
    exact .item receives unknown kind collection first

/-- What follows from some inputs in a row follows from more. -/
theorem TypedIn.mono {k' : Nat} (typed : env.TypedIn k node input t) (more : k ≤ k') :
    env.TypedIn k' node input t := by
  induction more with
  | refl => exact typed
  | step _ ih => exact ih.succ

/-- However far it is followed back, the type of the value at an input is one and the same. -/
theorem TypedIn.unique {k' : Nat} {t' : TypeExpr} (typed : env.TypedIn k node input t)
    (typed' : env.TypedIn k' node input t') : t = t' := by
  have known := (typed.mono (Nat.le_max_left k k')).inputTypeWithin
  have known' := (typed'.mono (Nat.le_max_right k k')).inputTypeWithin
  exact Option.some.inj (known.symm.trans known')

/-- There is an overload of the operator of a node, if it has one, for the types of the operands that
follow from at most so many inputs in a row. -/
structure Applicable (env : TranslationEnv) (k : Nat) (n : Node) : Prop where
  binary : ∀ {op a b}, n.kind = .binary op → env.TypedIn k n.id "A" a → env.TypedIn k n.id "B" b →
    env.oracle.binaryOverloads op a b ≠ []
  unary : ∀ {op a}, n.kind = .unary op → env.TypedIn k n.id "Value" a →
    env.oracle.unaryOverloads op a ≠ []

/-- An operator is refused exactly if it is not applicable as far as types are looked up. -/
theorem operatorFault?_eq_none_iff :
    env.operatorFault? n n.kind = none ↔ env.Applicable typeLookupSteps n := by
  constructor
  · intro passes
    refine ⟨fun kind lhs rhs => ?_, fun kind operand => ?_⟩
    · rw [kind] at passes
      simpa [operatorFault?, inputType?, lhs.inputTypeWithin, rhs.inputTypeWithin] using passes
    · rw [kind] at passes
      simpa [operatorFault?, inputType?, operand.inputTypeWithin] using passes
  · rintro ⟨binary, unary⟩
    unfold operatorFault?
    split
    · rename_i kind
      split
      · rename_i lhs rhs
        simpa using binary kind (typedIn_of_inputTypeWithin lhs) (typedIn_of_inputTypeWithin rhs)
      · rfl
    · rename_i kind
      split
      · rename_i operand
        simpa using unary kind (typedIn_of_inputTypeWithin operand)
      · rfl
    · rfl

/-! ### The operators in an expression -/

/-- An expression for a site holds the one that was emitted for the operator of a node. -/
inductive Applies (env : TranslationEnv) (n : Node) : Site → Expr → Prop
  | binary {ref op lhs rhs} : env.graph.node? ref.node = some n → n.kind = .binary op →
      Applies env n (.output ref) (.binary op.token lhs rhs)
  | unary {ref op operand} : env.graph.node? ref.node = some n → n.kind = .unary op →
      Applies env n (.output ref) (.unary op.token operand)
  | connected {node input source port e} :
      env.graph.inputSource? node input = some (source, port) →
      Applies env n (.output ⟨source.id, port.name⟩) e → Applies env n (.input node input) e
  | left {ref outer op lhs rhs} : env.graph.node? ref.node = some outer → outer.kind = .binary op →
      Applies env n (.input outer.id "A") lhs →
      Applies env n (.output ref) (.binary op.token lhs rhs)
  | right {ref outer op lhs rhs} : env.graph.node? ref.node = some outer →
      outer.kind = .binary op → Applies env n (.input outer.id "B") rhs →
      Applies env n (.output ref) (.binary op.token lhs rhs)
  | operand {ref outer op operand} : env.graph.node? ref.node = some outer →
      outer.kind = .unary op → Applies env n (.input outer.id "Value") operand →
      Applies env n (.output ref) (.unary op.token operand)
  | called {ref caller e} : env.graph.node? ref.node = some caller → caller.isStacked = false →
      Applies env n (.call caller) e → Applies env n (.output ref) e
  | target {caller decl target name types args} : caller.kind = .call decl →
      Applies env n (.input caller.id "Instance") target →
      Applies env n (.call caller) (.callOn target name types args)
  | argument {caller decl m target types args pair} : caller.kind = .call decl →
      env.oracle.method? decl.method = some m → pair ∈ (m.parameters.map (·.name)).zip args →
      Applies env n (.input caller.id pair.1) pair.2 →
      Applies env n (.call caller) (.callOn target m.name types args)

/-- All operators in an expression for a site are applicable, as far as the types of their operands
follow from at most so many inputs in a row. -/
def OperatorsApplicable (env : TranslationEnv) (k : Nat) (site : Site) (e : Expr) : Prop :=
  ∀ n, env.Applies n site e → env.Applicable k n

variable {m : Node} {ref : OutputRef} {name type : String}

/-- What holds the expression of an operator is an operation or a call itself. -/
theorem Applies.composed (applies : env.Applies m site e) :
    (∃ token lhs rhs, e = .binary token lhs rhs) ∨ (∃ token operand, e = .unary token operand) ∨
      ∃ target name types args, e = .callOn target name types args := by
  induction applies with
  | binary | left | right => exact .inl ⟨_, _, _, rfl⟩
  | unary | operand => exact .inr (.inl ⟨_, _, rfl⟩)
  | target | argument => exact .inr (.inr ⟨_, _, _, _, rfl⟩)
  | connected _ _ ih | called _ _ _ ih => exact ih

theorem operatorsApplicable_ident : env.OperatorsApplicable k site (.ident name) :=
  fun _ applies => by
  simpa using applies.composed

theorem operatorsApplicable_literal : env.OperatorsApplicable k site (.literal name) :=
  fun _ applies => by
  simpa using applies.composed

theorem operatorsApplicable_defaultOf : env.OperatorsApplicable k site (.defaultOf type) :=
  fun _ applies => by
  simpa using applies.composed

/-- At an output only those of operators and calls hold operators. -/
theorem Applies.kind (applies : env.Applies m (.output ref) e)
    (found : env.graph.node? ref.node = some n) :
    (∃ op, n.kind = .binary op) ∨ (∃ op, n.kind = .unary op) ∨ ∃ decl, n.kind = .call decl := by
  cases applies with
  | binary found' kind | left found' kind | right found' kind =>
    obtain rfl := Option.some.inj (found.symm.trans found')
    exact .inl ⟨_, kind⟩
  | unary found' kind | operand found' kind =>
    obtain rfl := Option.some.inj (found.symm.trans found')
    exact .inr (.inl ⟨_, kind⟩)
  | called found' _ call =>
    obtain rfl := Option.some.inj (found.symm.trans found')
    cases call with
    | target kind | argument kind => exact .inr (.inr ⟨_, kind⟩)

theorem OperatorsApplicable.connected {source : Node} {port : Port}
    (applicable : env.OperatorsApplicable k (.output ⟨source.id, port.name⟩) e)
    (connected : env.graph.inputSource? node input = some (source, port)) :
    env.OperatorsApplicable k (.input node input) e := by
  intro m applies
  cases applies with
  | connected connected' applies =>
    obtain ⟨rfl, rfl⟩ := Prod.mk.inj (Option.some.inj (connected.symm.trans connected'))
    exact applicable m applies

theorem operatorsApplicable_unconnected (free : env.graph.inputSource? node input = none) :
    env.OperatorsApplicable k (.input node input) e := by
  intro m applies
  cases applies with
  | connected connected => exact nomatch free.symm.trans connected

theorem OperatorsApplicable.binary {op : BinaryOperator} {lhs rhs : Expr}
    (found : env.graph.node? ref.node = some n) (fits : env.Applicable k n)
    (left : env.OperatorsApplicable k (.input n.id "A") lhs)
    (right : env.OperatorsApplicable k (.input n.id "B") rhs) :
    env.OperatorsApplicable k (.output ref) (.binary op.token lhs rhs) := by
  intro m applies
  generalize shape : Expr.binary op.token lhs rhs = e at applies
  cases applies with
  | binary found' => exact Option.some.inj (found.symm.trans found') ▸ fits
  | left found' _ inner =>
    obtain rfl := Option.some.inj (found.symm.trans found')
    obtain ⟨-, rfl, -⟩ := Expr.binary.inj shape
    exact left m inner
  | right found' _ inner =>
    obtain rfl := Option.some.inj (found.symm.trans found')
    obtain ⟨-, -, rfl⟩ := Expr.binary.inj shape
    exact right m inner
  | unary | operand => exact nomatch shape
  | called _ _ call => cases call <;> exact nomatch shape

theorem OperatorsApplicable.unary {op : UnaryOperator} {operand : Expr}
    (found : env.graph.node? ref.node = some n) (fits : env.Applicable k n)
    (inner : env.OperatorsApplicable k (.input n.id "Value") operand) :
    env.OperatorsApplicable k (.output ref) (.unary op.token operand) := by
  intro m applies
  generalize shape : Expr.unary op.token operand = e at applies
  cases applies with
  | unary found' => exact Option.some.inj (found.symm.trans found') ▸ fits
  | operand found' _ deeper =>
    obtain rfl := Option.some.inj (found.symm.trans found')
    obtain ⟨-, rfl⟩ := Expr.unary.inj shape
    exact inner m deeper
  | binary | left | right => exact nomatch shape
  | called _ _ call => cases call <;> exact nomatch shape

theorem OperatorsApplicable.called {decl : CallDecl} (found : env.graph.node? ref.node = some n)
    (kind : n.kind = .call decl) (applicable : env.OperatorsApplicable k (.call n) e) :
    env.OperatorsApplicable k (.output ref) e := by
  intro m applies
  cases applies with
  | called found' _ call =>
    obtain rfl := Option.some.inj (found.symm.trans found')
    exact applicable m call
  | binary found' kind' | left found' kind' | right found' kind' | unary found' kind'
  | operand found' kind' =>
    obtain rfl := Option.some.inj (found.symm.trans found')
    exact nomatch kind.symm.trans kind'

theorem OperatorsApplicable.invoked {decl : CallDecl} {signature : MethodSignature} {target : Expr}
    {types : List String} {args : List Expr} (kind : n.kind = .call decl)
    (method : env.oracle.method? decl.method = some signature)
    (object : env.OperatorsApplicable k (.input n.id "Instance") target)
    (each : ∀ pair ∈ (signature.parameters.map (·.name)).zip args,
      env.OperatorsApplicable k (.input n.id pair.1) pair.2) :
    env.OperatorsApplicable k (.call n) (.callOn target signature.name types args) := by
  intro m applies
  generalize shape : Expr.callOn target signature.name types args = e at applies
  cases applies with
  | target _ inner =>
    obtain ⟨rfl, -⟩ := Expr.callOn.inj shape
    exact object m inner
  | argument kind' method' member inner =>
    obtain ⟨-, -, -, rfl⟩ := Expr.callOn.inj shape
    obtain rfl := NodeKind.call.inj (kind.symm.trans kind')
    obtain rfl := Option.some.inj (method.symm.trans method')
    exact each _ member m inner

/-- The report of a traced run holds no operator. -/
theorem operatorsApplicable_traceCall (n : Node) (index : Nat) :
    env.OperatorsApplicable k (.call n) (traceCall env.graph.name index) := by
  intro m applies
  generalize shape : traceCall env.graph.name index = e at applies
  cases applies with
  | target _ inner =>
    obtain ⟨rfl, -⟩ := Expr.callOn.inj shape
    exact operatorsApplicable_ident m inner
  | argument _ _ member inner =>
    obtain ⟨-, -, -, rfl⟩ := Expr.callOn.inj shape
    rcases List.mem_cons.mp (List.of_mem_zip member).2 with graph | number
    · rw [graph] at inner
      exact operatorsApplicable_literal m inner
    · rw [List.mem_singleton.mp number] at inner
      exact operatorsApplicable_literal m inner

end TranslationEnv

/-! ### Operators in what is told -/

section Values

variable {env : TranslationEnv} {n : Node} {input : String → Evaluate Expr}

theorem readInputs_satisfies {D : String → Expr → Prop}
    (told : ∀ name, ValueSatisfies (input name) (D name))
    (names : List String) :
    ValueSatisfies (readInputs input names) fun es => ∀ pair ∈ names.zip es, D pair.1 pair.2 := by
  induction names with
  | nil => exact .pure (by simp)
  | cons name rest ih =>
    refine (told name).bind fun e first => ih.bind fun es others => .pure ?_
    exact List.forall_mem_cons.mpr ⟨first, others⟩

namespace TranslationEnv

variable (told : ∀ name, ValueSatisfies (input name)
    (env.OperatorsApplicable typeLookupSteps (.input n.id name)))

include told

theorem callExpr_operatorsApplicable {decl : CallDecl} (kind : n.kind = .call decl) :
    ValueSatisfies (env.callExpr n decl input)
      (env.OperatorsApplicable typeLookupSteps (.call n)) := by
  unfold callExpr
  split
  · exact .throw
  · rename_i signature method
    refine ValueSatisfies.any.bind fun types _ => ?_
    have onward (target : Expr)
        (object : env.OperatorsApplicable typeLookupSteps (.input n.id "Instance") target) :
        ValueSatisfies (do
          let args ← readInputs input (signature.parameters.map (·.name))
          return .callOn target signature.name types args)
            (env.OperatorsApplicable typeLookupSteps (.call n)) :=
      (readInputs_satisfies told _).bind fun args each => .pure (.invoked kind method object each)
    dsimp only
    split
    · exact ValueSatisfies.bind (.pure operatorsApplicable_ident) onward
    · exact (told _).bind onward

theorem valueOf_operatorsApplicable (ref : OutputRef) (found : env.graph.node? ref.node = some n)
    (builtIn : n.kind.isBuiltIn = true) :
    ValueSatisfies (env.valueOf n ref.output input)
      (env.OperatorsApplicable typeLookupSteps (.output ref)) := by
  unfold valueOf
  split
  · rename_i kind
    exact .pure fun m applies => by simpa [kind] using applies.kind found
  · split
    · exact .pure operatorsApplicable_ident
    · exact .throw
  · rename_i kind
    exact .pure fun m applies => by simpa [kind] using applies.kind found
  · refine (told _).bind fun lhs left => (told _).bind fun rhs right => ?_
    split
    · exact .throw
    · rename_i passes
      exact .pure (.binary found (operatorFault?_eq_none_iff.mp passes) left right)
  · refine (told _).bind fun operand inner => ?_
    split
    · exact .throw
    · rename_i passes
      exact .pure (.unary found (operatorFault?_eq_none_iff.mp passes) inner)
  · rename_i kind
    split
    · exact .throw
    · exact (callExpr_operatorsApplicable told kind).mono fun e applicable =>
        .called found kind applicable
  · exact .throw
  · rename_i kind
    simp [kind, NodeKind.isBuiltIn] at builtIn
  · exact .throw

omit told in
theorem inputFrom_operatorsApplicable {under : List NodeId}
    {build : NodeId → Node → String → Evaluate Expr}
    (builds : ∀ {source origin output}, env.graph.node? source = some origin →
      ValueSatisfies (build source origin output)
        (env.OperatorsApplicable typeLookupSteps (.output ⟨source, output⟩)))
    (node : NodeId) (name : String) :
    ValueSatisfies (env.inputFrom under build node name)
      (env.OperatorsApplicable typeLookupSteps (.input node name)) := by
  unfold inputFrom
  split
  · exact .throw
  split
  · exact .throw
  split
  · rename_i free
    exact .ofExcept fun e _ => operatorsApplicable_unconnected free
  rename_i source sourcePort connected
  refine ValueSatisfies.any.bind fun s _ => ?_
  split
  · exact .pure operatorsApplicable_ident
  split
  · exact .throw
  rename_i origin found
  split
  · exact .throw
  split
  · exact .throw
  · exact (builds found).mono fun e applicable => applicable.connected connected

omit told in
theorem inputWithin_operatorsApplicable (builtIn : env.graph.BuiltIn) (depth : Nat)
    (under : List NodeId)
    (node : NodeId) (name : String) :
    ValueSatisfies (env.inputWithin depth under node name)
      (env.OperatorsApplicable typeLookupSteps (.input node name)) := by
  induction depth generalizing under node name with
  | zero => exact inputFrom_operatorsApplicable (fun _ => .throw) node name
  | succ depth ih =>
    refine inputFrom_operatorsApplicable (fun {source origin output} found => ?_) node name
    exact valueOf_operatorsApplicable
      (fun name => ih (source :: under) origin.id name) ⟨source, output⟩ found
      (builtIn found)

omit told in
/-- In all that is told, and in what stands in for what is not, operators are applicable. -/
theorem coversEmitted_operatorsApplicable (builtIn : env.graph.BuiltIn) :
    env.CoversEmitted (env.OperatorsApplicable typeLookupSteps) where
  inputs := inputWithin_operatorsApplicable builtIn _ _
  calls n _ kind := callExpr_operatorsApplicable
    (inputWithin_operatorsApplicable builtIn _ _ n.id) kind
  defaults _ _ _ := operatorsApplicable_defaultOf
  hooks := operatorsApplicable_traceCall

end TranslationEnv

end Values

/-- A function that is translated without errors becomes the end of a method in which every operator
has an overload for its operands, wherever their types follow from as many inputs in a row as are
looked at. -/
theorem TranslationEnv.operators_vetted (env : TranslationEnv) (builtIn : env.graph.BuiltIn)
    (function : NodeId) (decl : FunctionDecl) (s : TranslatorState)
    (clean : ((translateFunction env function decl).run s).2.context.errors = s.context.errors) :
    ∃ whole, ((translateFunction env function decl).run s).2.context.methods.get?
        (sanitize decl.methodName) = some whole ∧
      ((functionMethod env function decl).run s).1.body <:+ whole.body ∧
      env.ExpressionsSatisfy (env.OperatorsApplicable typeLookupSteps)
        ((functionMethod env function decl).run s).1.body := by
  obtain ⟨whole, filed, ending⟩ :=
    translateFunction_filed builtIn.extensionsFileNothing function decl s clean
  exact ⟨whole, filed, ending, functionMethod_expressionsSatisfy
    (coversEmitted_operatorsApplicable builtIn) builtIn function decl s⟩

/-- A choice by what an operator makes of `true` behind so many negations in a row. -/
def tower (height : Nat) (top : UnaryOperator) : Graph :=
  let operator (i : Nat) (op : UnaryOperator) := placed (100 + 10 * i) (.unary op) none []
    [.dataInput "Value" .unknown, .dataOutput "Result" .unknown]
  { Graph.empty "Tower" with
    nodes := .ofList (
      [placed 10 (.function (.onEvent .start)) none [⟨numbered 5000⟩] [.execOutput "Out"],
        placed 5000 .branch (some ⟨numbered 10⟩) []
          [.dataInput "Condition" .bool, .execOutput "Then", .execOutput "Else"],
        operator height top] ++ (List.range height).map fun i => operator i .not)
    edges := .ofList (
      wired 9000 (100 + 10 * height) (102 + 10 * height) 5000 5001 ::
        (List.range height).map fun i =>
          wired (6000 + i) (100 + 10 * i) (102 + 10 * i) (110 + 10 * i) (111 + 10 * i)) }

def towerEnv (height : Nat) (top : UnaryOperator) : TranslationEnv :=
  ⟨tower height top, TypeDatabase.standard.toOracle, .standard, ∅⟩

/-- The statements of the function of a tower. -/
def towerBody (height : Nat) (top : UnaryOperator) : List Stmt :=
  ((functionMethod (towerEnv height top) ⟨numbered 10⟩ (.onEvent .start)).run
    ⟨.empty, none, ∅, [], []⟩).1.body

/-- The node and the token of a choice by a unary operation. -/
def Stmt.decidedBy? : Stmt → Option (NodeId × String)
  | .branch (some node) (.unary token _) _ _ => some (node, token)
  | _ => none

theorem Stmt.decidedBy?_eq_some {stmt : Stmt} {node : NodeId} {token : String} :
    stmt.decidedBy? = some (node, token) ↔ ∃ operand thenBody elseBody,
      stmt = .branch (some node) (.unary token operand) thenBody elseBody := by
  constructor
  · intro decided
    unfold Stmt.decidedBy? at decided
    split at decided
    · obtain ⟨rfl, rfl⟩ := Prod.mk.inj (Option.some.inj decided)
      exact ⟨_, _, _, rfl⟩
    · exact nomatch decided
  · rintro ⟨operand, thenBody, elseBody, rfl⟩
    rfl

/-- Where every node is filed under its own identity, the choice of a tower says what was emitted for
the operator on top, if its condition is a unary operation of the same token. -/
theorem TranslationEnv.exists_applies_top {height : Nat} {top : UnaryOperator}
    (filed : ∀ {id n}, (towerEnv height top).graph.node? id = some n → n.id = id)
    (choice : ((tower height top).node? ⟨numbered 5000⟩).map (·.kind) = some .branch)
    (behind : ((tower height top).inputSource? ⟨numbered 5000⟩ "Condition").map
      (fun origin => (origin.1.id, origin.1.kind)) =
        some (⟨numbered (100 + 10 * height)⟩, .unary top))
    (decided : (towerBody height top).map Stmt.decidedBy? =
      [some (⟨numbered 5000⟩, top.token)]) :
    ∃ stmt e n, StandsIn stmt (towerBody height top) ∧
      (towerEnv height top).ExpressionFor stmt (.input ⟨numbered 5000⟩ "Condition") e ∧
      (towerEnv height top).Applies n (.input ⟨numbered 5000⟩ "Condition") e ∧
      n.id = ⟨numbered (100 + 10 * height)⟩ ∧ n.kind = .unary top := by
  obtain ⟨n, found, kind⟩ := Option.map_eq_some_iff.mp choice
  obtain ⟨⟨source, port⟩, connected, same⟩ := Option.map_eq_some_iff.mp behind
  obtain ⟨id, operator⟩ := Prod.mk.inj same
  have there : (tower height top).node? source.id = some source := by
    obtain ⟨_, -, rest⟩ := Option.bind_eq_some_iff.mp connected
    obtain ⟨_, -, rest⟩ := Option.bind_eq_some_iff.mp rest
    obtain ⟨edge, -, rest⟩ := Option.bind_eq_some_iff.mp rest
    obtain ⟨_, there, rest⟩ := Option.bind_eq_some_iff.mp rest
    obtain ⟨_, -, made⟩ := Option.bind_eq_some_iff.mp rest
    obtain ⟨rfl, -⟩ := Prod.mk.inj (Option.some.inj made)
    rwa [filed there]
  obtain ⟨stmt, body, decides⟩ := List.map_eq_singleton_iff.mp decided
  obtain ⟨operand, thenBody, elseBody, rfl⟩ := Stmt.decidedBy?_eq_some.mp decides
  have own : n.id = ⟨numbered 5000⟩ := filed found
  have said : (towerEnv height top).ExpressionFor
      (.branch (some n.id) (.unary top.token operand) thenBody elseBody) (.input n.id "Condition")
      (.unary top.token operand) := .branch found kind
  rw [own] at said
  exact ⟨_, _, source, body ▸ .here (List.mem_singleton_self _), said,
    .connected connected (.unary there operator), id, operator⟩

theorem TranslationEnv.operators_vetted_tower :
    (tower 1 .not).BuiltIn ∧
      ((translateFunction (towerEnv 1 .not) ⟨numbered 10⟩ (.onEvent .start)).run
        ⟨.empty, none, ∅, [], []⟩).2.context.errors = [] ∧
      (∃ whole : MethodDecl, towerBody 1 .not <:+ whole.body ∧
        (towerEnv 1 .not).ExpressionsSatisfy ((towerEnv 1 .not).OperatorsApplicable typeLookupSteps)
        (towerBody 1 .not)) ∧
      ∃ stmt site e n, StandsIn stmt (towerBody 1 .not) ∧
        (towerEnv 1 .not).ExpressionFor stmt site e ∧
        (towerEnv 1 .not).Applies n site e := by
  have builtIn : (tower 1 .not).BuiltIn := Graph.BuiltIn.of_entries (by decide +kernel)
  have clean : ((translateFunction (towerEnv 1 .not) ⟨numbered 10⟩ (.onEvent .start)).run
      ⟨.empty, none, ∅, [], []⟩).2.context.errors = [] := by decide +kernel
  obtain ⟨whole, -, ending, applicable⟩ :=
    operators_vetted (towerEnv 1 .not) builtIn ⟨numbered 10⟩ (.onEvent .start) _ clean
  have all : ∀ entry ∈ (tower 1 .not).nodes.entries, entry.2.id = entry.1 := by decide +kernel
  obtain ⟨stmt, e, n, standing, said, applies, -⟩ := exists_applies_top
    (fun found => all _ (OrderedMap.get?_eq_some_iff.mp found)) (by decide +kernel)
    (by decide +kernel) (by decide +kernel)
  exact ⟨builtIn, clean, ⟨whole, ending, applicable⟩, stmt, _, e, n, standing, said, applies⟩

/-- Behind 65 negations in a row the lookup does not come to the type of a truth value. No error is
reported, and what they make of it is negated as a number, although connections lead back to the
type. -/
theorem TranslationEnv.operators_vetted_high :
    (tower 65 .negate).BuiltIn ∧
      (∀ id, ¬ Relation.TransGen (tower 65 .negate).Connects id id) ∧
      ((translateFunction (towerEnv 65 .negate) ⟨numbered 10⟩ (.onEvent .start)).run
        ⟨.empty, none, ∅, [], []⟩).2.context.errors = [] ∧
      ¬ (towerEnv 65 .negate).ExpressionsSatisfy
        ((towerEnv 65 .negate).OperatorsApplicable (typeLookupSteps + 1))
        (towerBody 65 .negate) := by
  have all : ∀ entry ∈ (tower 65 .negate).nodes.entries, entry.2.id = entry.1 := by decide +kernel
  have filed {id : NodeId} {n : Node}
      (found : (towerEnv 65 .negate).graph.node? id = some n) : n.id = id :=
    all _ (OrderedMap.get?_eq_some_iff.mp found)
  have rises : ∀ e ∈ (tower 65 .negate).edges.values,
      e.output.node.uuid.bits.toNat < e.input.node.uuid.bits.toNat := by decide +kernel
  refine ⟨Graph.BuiltIn.of_entries (by decide +kernel), fun id cycle => ?_, by decide +kernel,
    fun applicable => ?_⟩
  · have climbs {a b : NodeId} (path : Relation.TransGen (tower 65 .negate).Connects a b) :
        a.uuid.bits.toNat < b.uuid.bits.toNat := by
      induction path with
      | single step =>
        obtain ⟨e, member, rfl, rfl⟩ := step
        exact rises e member
      | tail _ step ih =>
        obtain ⟨e, member, rfl, rfl⟩ := step
        exact ih.trans (rises e member)
    exact Nat.lt_irrefl _ (climbs cycle)
  · obtain ⟨stmt, e, n, standing, said, applies, id, kind⟩ := exists_applies_top filed
      (by decide +kernel) (by decide +kernel) (by decide +kernel)
    obtain ⟨site, said', applicable⟩ := applicable stmt _ e standing said
    obtain rfl := said.unique filed said'
    have truth : (towerEnv 65 .negate).TypedIn (typeLookupSteps + 1) n.id "Value"
        (.named "bool" []) := by
      rw [id]
      exact typedIn_of_inputTypeWithin (by decide +kernel)
    exact (applicable n applies).unary kind truth (by decide +kernel)

end NodeScript
