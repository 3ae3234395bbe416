import NodeScript.Document.GraphCodec
import NodeScript.Proofs.Document.Records

/-!
Graphs in stored documents, read back. Every part of a graph is stored as itself; floating point
values that are no numbers come back with the standard pattern of their sign.
-/

namespace NodeScript

/-! ### Values up to the pattern of what is no number -/

/-- The constant with the standard pattern in place of one that is no number. -/
def Constant.quieted : Constant → Constant
  | .float value => .float value.quieted
  | .double value => .double value.quieted
  | value => value

/-- The place with standard patterns in place of those that are no numbers. -/
def Position.quieted (p : Position) : Position := ⟨p.x.quieted, p.y.quieted⟩

/-- The kind with a standard pattern in place of one that is no number. -/
def NodeKind.quieted : NodeKind → NodeKind
  | .constant value => .constant value.quieted
  | kind => kind

/-- The node with standard patterns in place of those that are no numbers. -/
def Node.quieted (n : Node) : Node :=
  { n with
    kind := n.kind.quieted
    position := n.position.quieted
    constants := n.constants.mapValues fun _ value => value.quieted }

/-- The variable with a standard pattern in place of one that is no number. -/
def VariableDecl.quieted (v : VariableDecl) : VariableDecl :=
  { v with initialValue := v.initialValue.map Constant.quieted }

/-- The graph with standard patterns in place of those that are no numbers. -/
def Graph.quieted (g : Graph) : Graph :=
  { g with
    nodes := g.nodes.mapValues fun _ n => n.quieted
    vars := g.vars.mapValues fun _ v => v.quieted }

/-! ### Types and constants -/

section Parts

open Stores

theorem TypeHandle.stores (h : TypeHandle) : Stores reader h.encode h :=
  .map (.wrapped (by decide) (.text h.text)) TypeHandle.mk

theorem holds_i64 (n : Int64) : IntegerWidth.i64.holds n.toInt = true := by
  have low := Int64.le_toInt n
  have high := Int64.toInt_lt n
  have least : IntegerWidth.i64.least = -2 ^ 63 := by decide
  have greatest : IntegerWidth.i64.greatest = 2 ^ 63 - 1 := by decide
  unfold IntegerWidth.holds
  rw [Bool.and_eq_true, decide_eq_true_iff, decide_eq_true_iff, least, greatest]
  exact ⟨low, Int.le_sub_one_of_lt high⟩

theorem Constant.stores (value : Constant) : Stores reader value.encode value.quieted := by
  cases value with
  | bool value => exact .variantOf (by decide) rfl (.map (.bool value) Constant.bool)
  | int value =>
    have stored := (Stores.integer (holds_i64 value)).map fun n => Constant.int (Int64.ofInt n)
    rw [Int64.ofInt_toInt] at stored
    exact .variantOf (by decide) rfl stored
  | float value => exact .variantOf (by decide) rfl (.map (.single value) Constant.float)
  | double value => exact .variantOf (by decide) rfl (.map (.double value) Constant.double)
  | string value => exact .variantOf (by decide) rfl (.map (.text value) Constant.string)
  | enumMember typeName member =>
    exact .variantFields (by decide) rfl
      (.required (.text typeName) (.required (.text member) .done)) (by decide) (by decide) rfl
  | null => exact .variant (by decide) rfl
  | defaultOf handle => exact .variantOf (by decide) rfl (.map handle.stores Constant.defaultOf)

theorem Uuid.stores (u : Uuid) : Stores reader u.encode u := by
  refine .refine (.text u.text) ?_
  rw [Uuid.ofText?_text]

theorem NodeId.stores (id : NodeId) : Stores reader id.encode id :=
  .map (.wrapped (by decide) id.uuid.stores) NodeId.mk

theorem PortId.stores (id : PortId) : Stores reader id.encode id :=
  .map (.wrapped (by decide) id.uuid.stores) PortId.mk

theorem EdgeId.stores (id : EdgeId) : Stores reader id.encode id :=
  .map (.wrapped (by decide) id.uuid.stores) EdgeId.mk

theorem VariableId.stores (id : VariableId) : Stores reader id.encode id :=
  .map (.wrapped (by decide) id.uuid.stores) VariableId.mk

/-! ### Kinds of nodes -/

theorem EventKind.stores (event : EventKind) : Stores reader event.encode event := by
  cases event with
  | start => exact .variant (by decide) rfl
  | update => exact .variant (by decide) rfl
  | fixedUpdate => exact .variant (by decide) rfl
  | custom name => exact .variantOf (by decide) rfl (.map (.text name) EventKind.custom)

theorem FunctionDecl.stores (f : FunctionDecl) : Stores reader f.encode f :=
  .record (by decide) (.required (.text f.name) (.required f.returnType.stores
    (.optional (.optionSame EventKind.stores f.event) .done))) (by decide) (by decide)

theorem MethodRef.stores (m : MethodRef) : Stores reader m.encode m :=
  .record (by decide) (.required (.text m.declaringType) (.required (.text m.name) .done))
    (by decide) (by decide)

theorem CallDecl.stores (c : CallDecl) : Stores reader c.encode c :=
  .record (by decide) (.required c.method.stores
    (.optional (.tableSame Stores.text TypeHandle.stores c.typeArguments) .done))
    (by decide) (by decide)

theorem BinaryOperator.stores (op : BinaryOperator) : Stores reader (.word op.name) op := by
  cases op <;> exact .variant (by decide) rfl

theorem UnaryOperator.stores (op : UnaryOperator) : Stores reader (.word op.name) op := by
  cases op <;> exact .variant (by decide) rfl

theorem labelReader_stores (label : Int64) :
    Stores labelReader (encodeInteger label.toInt) label := by
  have stored := (Stores.integer (holds_i64 label)).map Int64.ofInt
  rwa [Int64.ofInt_toInt] at stored

theorem NodeKind.stores (kind : NodeKind) : Stores reader kind.encode kind.quieted := by
  cases kind with
  | stack => exact .variant (by decide) rfl
  | loopStack => exact .variant (by decide) rfl
  | function decl => exact .variantOf (by decide) rfl (.map decl.stores NodeKind.function)
  | constant value => exact .variantOf (by decide) rfl (.map value.stores NodeKind.constant)
  | getVariable id => exact .variantOf (by decide) rfl (.map id.stores NodeKind.getVariable)
  | setVariable id => exact .variantOf (by decide) rfl (.map id.stores NodeKind.setVariable)
  | binary op => exact .variantOf (by decide) rfl (.map op.stores NodeKind.binary)
  | unary op => exact .variantOf (by decide) rfl (.map op.stores NodeKind.unary)
  | call decl => exact .variantOf (by decide) rfl (.map decl.stores NodeKind.call)
  | this => exact .variant (by decide) rfl
  | branch => exact .variant (by decide) rfl
  | select cases =>
    exact .variantFields (by decide) rfl (.required (.listSame labelReader_stores cases) .done)
      (by decide) (by decide) rfl
  | repeated => exact .variant (by decide) rfl
  | forEach => exact .variant (by decide) rfl
  | leave => exact .variant (by decide) rfl
  | custom typeId config =>
    exact .variantFields (by decide) rfl (.required (.text typeId)
      (.optional (.tableSame Stores.text Stores.text config) .done)) (by decide) (by decide) rfl

/-! ### Nodes, edges and variables -/

theorem PortDirection.stores (direction : PortDirection) :
    Stores reader direction.encode direction := by
  cases direction <;> exact .variant (by decide) rfl

theorem PortKind.stores (kind : PortKind) : Stores reader kind.encode kind := by
  cases kind <;> exact .variant (by decide) rfl

theorem Port.stores (p : Port) : Stores reader p.encode p :=
  .record (by decide) (.required p.id.stores (.required p.node.stores (.required (.text p.name)
    (.required p.direction.stores (.required p.kind.stores (.required p.type.stores .done))))))
    (by decide) (by decide)

theorem Position.stores (p : Position) : Stores reader p.encode p.quieted :=
  .map (.pair _ (.single p.x) (.single p.y)) fun q => (⟨q.1, q.2⟩ : Position)

theorem rankReader_stores (n : UInt8) : Stores rankReader (encodeInteger n.toNat) n := by
  have held : IntegerWidth.u8.holds n.toNat = true := by
    have high := n.toNat_lt
    have greatest : IntegerWidth.u8.greatest = 255 := by decide
    have least : IntegerWidth.u8.least = 0 := by decide
    unfold IntegerWidth.holds
    rw [Bool.and_eq_true, decide_eq_true_iff, decide_eq_true_iff, least, greatest]
    omega
  have stored := (Stores.integer held).map fun n => UInt8.ofNat n.toNat
  rwa [Int.toNat_natCast, UInt8.ofNat_toNat] at stored

theorem Color.stores (c : Color) : Stores reader c.encode c :=
  .map (.triple _ (rankReader_stores c.red) (rankReader_stores c.green)
    (rankReader_stores c.blue)) fun q => (⟨q.1, q.2.1, q.2.2⟩ : Color)

theorem Node.stores (n : Node) : Stores reader n.encode n.quieted :=
  .record (by decide)
    (.required n.id.stores (.required n.kind.stores (.required (.text n.title)
    (.required n.position.stores (.optional (.optionSame Color.stores n.color)
    (.required (.bool n.locked) (.required (.bool n.collapsed)
    (.optional (.optionSame NodeId.stores n.parent)
    (.required (.listSame NodeId.stores n.children) (.required (.listSame Port.stores n.inputs)
    (.required (.listSame Port.stores n.outputs)
    (.required (.table PortId.stores Constant.stores n.constants)
    (.required (.bool n.defined) .done)))))))))))))
    (by decide) (by decide)

theorem PortRef.stores (p : PortRef) : Stores reader p.encode p :=
  .record (by decide) (.required p.node.stores (.required p.port.stores .done))
    (by decide) (by decide)

theorem Edge.stores (e : Edge) : Stores reader e.encode e :=
  .record (by decide) (.required e.id.stores (.required e.output.stores
    (.required e.input.stores .done))) (by decide) (by decide)

theorem VariableScope.stores (scope : VariableScope) : Stores reader scope.encode scope := by
  cases scope with
  | field => exact .variant (by decide) rfl
  | «local» function =>
    exact .variantOf (by decide) rfl (.map function.stores VariableScope.local)
  | parameter function =>
    exact .variantOf (by decide) rfl (.map function.stores VariableScope.parameter)

theorem VariableDecl.stores (v : VariableDecl) : Stores reader v.encode v.quieted :=
  .record (by decide) (.required v.id.stores (.required (.text v.name) (.required v.type.stores
    (.required v.scope.stores (.required (.bool v.exposed)
    (.optional (.option Constant.stores v.initialValue) .done)))))) (by decide) (by decide)

/-! ### Graphs -/

theorem allowed_stores (allowed : OrderedSet String) :
    Stores (.map OrderedSet.ofMembers (.list .text)) (encodeList .text allowed.keys) allowed := by
  have stored := (Stores.listSame Stores.text allowed.keys).map OrderedSet.ofMembers
  rwa [OrderedSet.ofMembers_keys] at stored

theorem Stencil.stores (s : Stencil) : Stores reader s.encode s :=
  .record (by decide) (.required (.text s.baseClass) (.required (.listSame Stores.text s.usings)
    (.optional (.optionSame allowed_stores s.allowed) .done))) (by decide) (by decide)

/-- Every graph is stored as itself. -/
theorem Graph.stores (g : Graph) : Stores reader g.encode g.quieted :=
  .record (by decide) (.required (.text g.name) (.optional g.stencil.stores
    (.required (.table NodeId.stores Node.stores g.nodes)
    (.required (.tableSame EdgeId.stores Edge.stores g.edges)
    (.optional (.table VariableId.stores VariableDecl.stores g.vars) .done)))))
    (by decide) (by decide)

end Parts

end NodeScript
