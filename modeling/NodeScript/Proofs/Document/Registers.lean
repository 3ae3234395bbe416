import NodeScript.Proofs.Document.Graphs
import NodeScript.Proofs.Typing.Restoring

/-!
Registers of types in stored documents, read back. A type is stored as its text, and so it is read
without its variables; what is read is the register without its variables, and registering that on top
of the primitives binds them again.
-/

namespace NodeScript

open Stores

/-! ### Types and their members -/

theorem TypeExpr.stores {t : TypeExpr} (named : t.WellNamed) : Stores reader t.encode t.bare := by
  refine .refine (.text t.text) ?_
  rw [parse_of_wellNamed named]
  rfl

theorem types_stores {ts : List TypeExpr} (named : ∀ t ∈ ts, t.WellNamed) :
    Stores (.list TypeExpr.reader) (encodeList TypeExpr.encode ts) (ts.map (·.bare)) :=
  .listOf fun t member => TypeExpr.stores (named t member)

theorem MemberKind.stores (kind : MemberKind) : Stores reader kind.encode kind := by
  cases kind <;> exact .variant (by decide) rfl

theorem Member.stores {m : Member} (named : m.type.WellNamed) : Stores reader m.encode m.bare :=
  .record (by decide) (.required (.text m.name) (.required m.kind.stores
    (.required (TypeExpr.stores named) (.optional (.bool m.isStatic) .done))))
    (by decide) (by decide)

theorem TypeKind.stores (kind : TypeKind) : Stores reader kind.encode kind := by
  cases kind with
  | primitive => exact .variant (by decide) rfl
  | struct => exact .variant (by decide) rfl
  | reference => exact .variant (by decide) rfl
  | interface => exact .variant (by decide) rfl
  | enumeration values =>
    exact .variantFields (by decide) rfl (.required (.listSame Stores.text values) .done)
      (by decide) (by decide) rfl

theorem TypeInfo.stores {info : TypeInfo} (named : ∀ t ∈ info.types, t.WellNamed) :
    Stores reader info.encode info.bare := by
  obtain ⟨ofMembers, ofSupertypes⟩ := List.forall_mem_append.mp named
  have members : Stores (.list Member.reader) (encodeList Member.encode info.members)
      (info.members.map Member.bare) :=
    .listOf fun m member => Member.stores (ofMembers m.type (List.mem_map_of_mem member))
  exact .record (by decide) (.required (.text info.name) (.required info.kind.stores
    (.optional (.listSame Stores.text info.genericParameters)
    (.optional (.optionSame rankReader_stores info.numericRank)
    (.optional members (.optional (types_stores ofSupertypes) .done))))))
    (by decide) (by decide)

/-! ### Methods and operators -/

theorem Parameter.stores {p : Parameter} (named : p.type.WellNamed) :
    Stores reader p.encode p.bare :=
  .record (by decide) (.required (.text p.name) (.required (TypeExpr.stores named) .done))
    (by decide) (by decide)

theorem MethodSignature.stores {m : MethodSignature} (declaring : m.declaringType.WellNamed)
    (slots : ∀ t ∈ m.parameters.map (·.type) ++ [m.returnType], t.WellNamed) :
    Stores reader m.encode m.bare := by
  obtain ⟨ofParameters, ofReturn⟩ := List.forall_mem_append.mp slots
  have parameters : Stores (.list Parameter.reader) (encodeList Parameter.encode m.parameters)
      (m.parameters.map Parameter.bare) :=
    .listOf fun p member => Parameter.stores (ofParameters p.type (List.mem_map_of_mem member))
  have result : Stores TypeExpr.reader m.returnType.encode m.returnType.bare :=
    TypeExpr.stores (ofReturn _ (List.mem_singleton_self _))
  exact .record (by decide) (.required (TypeExpr.stores declaring) (.required (.text m.name)
    (.optional (.bool m.isStatic) (.optional (.listSame Stores.text m.genericParameters)
    (.optional parameters (.required result .done))))))
    (by decide) (by decide)

theorem Operator.stores (op : Operator) : Stores reader op.encode op := by
  cases op with
  | binary op => exact .variantOf (by decide) rfl (.map op.stores Operator.binary)
  | unary op => exact .variantOf (by decide) rfl (.map op.stores Operator.unary)

theorem OperatorSignature.stores {s : OperatorSignature}
    (named : ∀ t ∈ s.operands ++ [s.result], t.WellNamed) : Stores reader s.encode s.bare := by
  obtain ⟨ofOperands, ofResult⟩ := List.forall_mem_append.mp named
  exact .record (by decide) (.required s.op.stores (.required (types_stores ofOperands)
    (.required (TypeExpr.stores (ofResult _ (List.mem_singleton_self _))) .done)))
    (by decide) (by decide)

/-! ### Registers -/

namespace TypeDatabase

variable {db : TypeDatabase}

/-- A register is stored as itself without its variables. -/
theorem Restorable.stores (restorable : db.Restorable) : Stores reader db.encode db.bare := by
  have types : Stores (.table .text TypeInfo.reader) (encodeTable .text TypeInfo.encode db.types)
      (db.types.mapValues fun _ info => info.bare) := by
    refine .tableOf Stores.text fun info member => ?_
    obtain ⟨name, entry⟩ := OrderedMap.mem_values_iff.mp member
    have bound := restorable.types name info (OrderedMap.get?_eq_some_iff.mpr entry)
    exact TypeInfo.stores fun t slot => (bound t slot).wellNamed
  have methods : Stores (.list MethodSignature.reader)
      (encodeList MethodSignature.encode db.methods) (db.methods.map (·.bare)) := by
    refine .listOf fun m member => ?_
    obtain ⟨declaring, slots⟩ := restorable.methods m member
    exact MethodSignature.stores declaring.wellNamed fun t slot => (slots t slot).wellNamed
  have operators : Stores (.list OperatorSignature.reader)
      (encodeList OperatorSignature.encode db.operators) (db.operators.map (·.bare)) :=
    .listOf fun s member => OperatorSignature.stores fun t slot =>
      (restorable.operators s member t slot).1
  exact .record (by decide) (.optional types (.optional methods (.optional operators
    (.optional (.text db.thisType) .done)))) (by decide) (by decide)

theorem Restorable.withThisType (restorable : db.Restorable) (thisType : String) :
    Restorable { db with thisType } where
  orderly := ⟨restorable.orderly.types, restorable.orderly.methods⟩
  first := restorable.first
  types := restorable.types
  operators := restorable.operators
  methods := restorable.methods

/-- A register that was built on the primitives by what can be written as text, for scripts on any
object, is read from its own document as it is: the same types, methods and operators in the same
order. -/
theorem register_survives_saving {edits : List DatabaseEdit} (textual : Textual edits) (thisType : String) :
    let db : TypeDatabase := { primitives.after edits with thisType }
    ofDocument db.toDocument = .ok db := by
  intro db
  have restorable : db.Restorable := textual.restorable.withThisType thisType
  rw [ofDocument, toDocument, restorable.stores.document]
  exact congrArg Except.ok restorable.merge_bare

/-- Lists get a method, the item of which is a variable of lists. -/
theorem register_survives_saving_lists :
    let edits : List DatabaseEdit := [.merge standard, .method pushMethod]
    let db : TypeDatabase := { primitives.after edits with thisType := "Actor" }
    Textual edits ∧ (∃ m ∈ db.methods, m.ref = pushMethod.ref ∧ TypeExpr.var "T" ∈ m.slotTypes) ∧
      ofDocument db.toDocument = .ok db := by
  intro edits db
  have textual : Textual edits := by
    have final : ∀ r ∈ primitives.registrationsIn edits,
        r.method.TypesAre TypeExpr.SpelledOver r.typeLevel ∧
          r.typeLevel = (primitives.after edits).genericsOf r.method.declaringType.name := by
      decide +kernel
    refine ⟨by decide +kernel, by decide +kernel, fun ref r last => ?_⟩
    exact final r (mem_of_lastRegistration? last)
  have pushes : ∃ m ∈ db.methods, m.ref = pushMethod.ref ∧ TypeExpr.var "T" ∈ m.slotTypes := by
    decide +kernel
  exact ⟨textual, pushes, register_survives_saving textual "Actor"⟩

end TypeDatabase

end NodeScript
