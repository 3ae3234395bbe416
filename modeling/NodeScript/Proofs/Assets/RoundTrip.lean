import NodeScript.Assets.AssetStore
import NodeScript.Proofs.Document.Graphs

/-!
Stored graphs, loaded again. The text of a graph is a document of the graph, so that storing it in
memory and loading it gives back the same graph, which looks the same at a glance.
-/

namespace NodeScript

/-! ### Documents of graphs -/

theorem GraphAsset.stores {version : Nat} (small : version < 2 ^ 32) (g : Graph) :
    Stores reader (encode ⟨version, g⟩) ⟨version, g.quieted⟩ := by
  have held : IntegerWidth.u32.holds version = true := by
    have greatest : IntegerWidth.u32.greatest = 2 ^ 32 - 1 := by decide
    have least : IntegerWidth.u32.least = 0 := by decide
    unfold IntegerWidth.holds
    rw [Bool.and_eq_true, decide_eq_true_iff, decide_eq_true_iff, least, greatest]
    omega
  exact .record (by decide) (.required (.integer held) (.required g.stores .done))
    (by decide) (by decide)

/-- A stored graph is loaded as it is. -/
theorem GraphAsset.ofDocument_toDocument (g : Graph) :
    ofDocument (ofGraph g).toDocument = .ok (ofGraph g.quieted) := by
  have stored : Stores reader (ofGraph g).encode (ofGraph g.quieted) :=
    stores (by decide) g
  unfold ofDocument toDocument
  rw [stored.document]
  rfl

/-! ### Graphs at a glance -/

section Summaries

variable {g : Graph}

theorem NodeKind.typeId_quieted (kind : NodeKind) : kind.quieted.typeId = kind.typeId := by
  cases kind <;> rfl

theorem Graph.node?_quieted (id : NodeId) : g.quieted.node? id = (g.node? id).map Node.quieted :=
  OrderedMap.get?_mapValues

theorem Graph.portName_quieted (p : PortRef) : g.quieted.portName p = g.portName p := by
  unfold Graph.portName
  rw [node?_quieted, Option.bind_map]
  rfl

theorem Graph.summary_quieted (g : Graph) : g.quieted.summary = g.summary := by
  have nodes : g.quieted.nodes.values = g.nodes.values.map Node.quieted :=
    OrderedMap.values_mapValues
  have size : g.quieted.vars.size = g.vars.size := by
    simp [OrderedMap.size, Graph.quieted, OrderedMap.mapValues]
  have sameNodes :
      (g.quieted.nodes.values.map fun n => NodeSummary.mk n.id n.kind.typeId n.children) =
        g.nodes.values.map fun n => NodeSummary.mk n.id n.kind.typeId n.children := by
    rw [nodes, List.map_map]
    refine List.map_congr_left fun n _ => ?_
    exact congrArg (fun typeId => NodeSummary.mk n.id typeId n.children)
      (NodeKind.typeId_quieted n.kind)
  unfold Graph.summary
  simp only [portName_quieted]
  rw [sameNodes, size]
  rfl

end Summaries

/-! ### Storing and loading -/

theorem MemoryAssets.load_insert (path : String) (g : Graph) (assets : MemoryAssets) :
    load (assets.insert path (GraphAsset.ofGraph g).toDocument) path = .ok g.quieted := by
  unfold load
  rw [OrderedMap.get?_insert_self]
  dsimp only
  rw [graphOfText, GraphAsset.ofDocument_toDocument]
  rfl

/-- What is checked of a graph that has been stored and loaded is how it looks at a glance. -/
theorem MemoryAssets.checkRoundTrip_run (path : String) (g : Graph) (assets : MemoryAssets) :
    (store.checkRoundTrip path g).run assets = pure
      (.ok (decide (g.summary = g.quieted.summary)),
        assets.insert path (GraphAsset.ofGraph g).toDocument) := by
  have saved : (store.save path g).run assets =
      pure (.ok (), assets.insert path (GraphAsset.ofGraph g).toDocument) := rfl
  have loaded : (store.load path).run (assets.insert path (GraphAsset.ofGraph g).toDocument) =
      pure (.ok g.quieted, assets.insert path (GraphAsset.ofGraph g).toDocument) := by
    rw [← load_insert path g assets]
    rfl
  unfold AssetStore.checkRoundTrip
  rw [StateT.run_bind, saved, pure_bind]
  dsimp only
  rw [StateT.run_bind, loaded, pure_bind]
  rfl

/-- Graphs survive being stored: the document of a graph is read as the same graph, in every part
and in the order of all parts, but for the patterns of floating point values that are no numbers;
and a graph that is stored in memory and loaded again looks the same. -/
theorem GraphAsset.survives_saving (g : Graph) :
    ofDocument (ofGraph g).toDocument = .ok (ofGraph g.quieted) ∧
      ∀ path assets, ((MemoryAssets.store.checkRoundTrip path g).run assets).1 = .ok true := by
  refine ⟨ofDocument_toDocument g, fun path assets => ?_⟩
  have run := MemoryAssets.checkRoundTrip_run path g assets
  rw [g.summary_quieted, decide_eq_true rfl] at run
  exact congrArg Prod.fst run

end NodeScript
