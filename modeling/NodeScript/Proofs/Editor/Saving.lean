import NodeScript.Proofs.Editor.Searches
import NodeScript.Proofs.Editor.Session

/-!
What a session says of being saved. Every edit of the graph says that the graph may differ from the
one that was saved, and only a save that succeeds says that it does not. So a graph that is said to be
saved is the one that was saved last, or the one that was opened.
-/

namespace NodeScript

namespace EditorState

variable {s s' : EditorState} {env : DefinitionEnv} {node : NodeId} {action : EditorAction}

/-! ### Edits leave alone what is said of being saved -/

@[simp]
theorem deleteEdge_dirty (s : EditorState) (edge : EdgeId) : (s.deleteEdge edge).dirty = s.dirty := by
  unfold deleteEdge
  split <;> rfl

@[simp]
theorem deleteNode_dirty (s : EditorState) (node : NodeId) : (s.deleteNode node).dirty = s.dirty := by
  unfold deleteNode
  split
  · rfl
  · split <;> rfl

@[simp]
theorem refreshCall_dirty (env : DefinitionEnv) (s : EditorState) (node : NodeId) :
    (s.refreshCall env node).dirty = s.dirty := by
  unfold refreshCall
  split <;> rfl

theorem createNode_dirty {kind : NodeKind} {position : Position} {place : Option StackPlace}
    (run : s.createNode env kind position place = .ok s') : s'.dirty = s.dirty := by
  unfold createNode at run
  split at run <;> split at run <;> cases run <;> rfl

theorem connectPorts_dirty {source target : NodeId} {output input : String}
    (run : s.connectPorts env source output target input = .ok s') : s'.dirty = s.dirty := by
  unfold connectPorts at run
  split at run
  · cases run
  · cases run
    rw [refreshCall_dirty, refreshCall_dirty]
    rfl

theorem disconnectEdge_dirty {edge : EdgeId} (run : s.disconnectEdge edge = .ok s') :
    s'.dirty = s.dirty := by
  unfold disconnectEdge at run
  split at run <;> cases run
  rfl

theorem editNode_dirty {edit : Graph → NodeId → Except GraphError Graph}
    (run : s.editNode edit node = .ok s') : s'.dirty = s.dirty := by
  unfold editNode at run
  cases edited : edit s.graph node with
  | error e => simp [edited, ofGraphEdit, Except.map] at run
  | ok g =>
    rw [edited] at run
    cases run
    rfl

theorem editNodeIf_dirty {test : Node → Bool} {edit : Graph → Node → Except GraphError Graph}
    (run : s.editNodeIf test edit node = .ok s') : s'.dirty = s.dirty := by
  unfold editNodeIf at run
  split at run
  · cases run
  · split at run
    · exact editNode_dirty run
    · cases run
      rfl

theorem renameNode_dirty {title : String} (run : s.renameNode node title = .ok s') :
    s'.dirty = s.dirty := by
  unfold renameNode at run
  split at run
  · cases run
  · split at run
    · exact editNode_dirty run
    · cases run

theorem changeMethod_dirty {method : MethodRef} (run : s.changeMethod env node method = .ok s') :
    s'.dirty = s.dirty := by
  unfold changeMethod at run
  split at run
  · cases run
  · cases run
    rw [refreshCall_dirty]
    rfl

theorem foldl_dirty {α : Type} {step : EditorState → α → EditorState}
    (each : ∀ (s : EditorState) x, (step s x).dirty = s.dirty) (items : List α) (s : EditorState) :
    (items.foldl step s).dirty = s.dirty :=
  foldl_keeps (R := fun s s' => s'.dirty = s.dirty) (fun _ => rfl)
    (fun first second => second.trans first) each items s

theorem foldlM_dirty {α : Type} {step : EditorState → α → Edited}
    (each : ∀ {s s' : EditorState} {x}, step s x = .ok s' → s'.dirty = s.dirty) {items : List α}
    (run : items.foldlM step s = .ok s') : s'.dirty = s.dirty :=
  foldlM_keeps (R := fun s s' => s'.dirty = s.dirty) (fun _ => rfl)
    (fun first second => second.trans first) (fun _ => each) run

theorem edit_dirty (run : action.edit env s = .ok s') : s'.dirty = s.dirty := by
  cases action with
  | createNode kind position place => exact createNode_dirty run
  | deleteElements nodes edges =>
    cases run
    exact (foldl_dirty deleteNode_dirty nodes _).trans (foldl_dirty deleteEdge_dirty edges s)
  | connectPorts source output target input => exact connectPorts_dirty run
  | disconnectEdges edges => exact foldlM_dirty disconnectEdge_dirty run
  | moveNodes nodes delta => exact foldlM_dirty editNodeIf_dirty run
  | setLocked nodes locked => exact foldlM_dirty editNode_dirty run
  | setColor nodes color => exact foldlM_dirty editNode_dirty run
  | setCollapsed nodes collapsed => exact foldlM_dirty editNodeIf_dirty run
  | renameNode node title => exact renameNode_dirty run
  | changeMethod node method => exact changeMethod_dirty run
  | setConstant node input value =>
    have run : editNode (fun g id => g.setConstant id input value) s node = .ok s' := run
    exact editNode_dirty run
  | acknowledgeChanges | markSaved | other =>
    cases run
    rfl

/-- An action says that the graph may differ from the one that was saved, unless it is one of the two
that leave the graph alone. -/
theorem run_dirty (run : action.run env s = .ok s') (unmarked : action ≠ .markSaved) :
    s'.dirty = true ∨ s'.graph = s.graph ∧ s'.dirty = s.dirty := by
  rcases run_edits run with ⟨-, rfl⟩ | ⟨marked, -⟩ | edited
  · exact .inr ⟨rfl, rfl⟩
  · exact absurd marked unmarked
  · exact .inl (edit_dirty edited)

end EditorState

/-! ### Stores that are told the truth -/

/-- What may be done to the store of a session other than to say that the graph has been saved: what
is started is a search. -/
def StoreEvent.MarksNothing : StoreEvent SearchMessage EditorAction → Prop
  | .dispatch action => action ≠ .markSaved
  | .start action => ∃ library target, action = awaitPick library target
  | _ => True

/-- The store of an editor whose graph was saved as it is, if it says so, and at which nothing but
searches is pending. -/
structure Store.SavedUnlessDirty (store : EditorStore) (saved : Graph) : Prop where
  reducers : ∃ env, store.reducers = editorReducers env
  searches : ∀ p, store.pending = some p → ∃ library target, p.action = awaitPick library target
  saved : store.state.dirty = false → store.state.graph = saved

section Store

variable {store store' : EditorStore} {saved : Graph} {action : EditorAction} {next : EditorState}

theorem reduce?_run {env : DefinitionEnv} (reducers : store.reducers = editorReducers env)
    (reduced : reduce? store.reducers store.state action = some next) :
    action.run env store.state = .ok next := by
  obtain ⟨reducer, found, accepted⟩ := Option.bind_eq_some_iff.mp reduced
  obtain rfl := editorReducers_get? (reducers ▸ found)
  unfold editorReducer at accepted
  cases ran : action.run env store.state with
  | ok s =>
    rw [ran] at accepted
    exact congrArg Except.ok (Option.some.inj accepted)
  | error e => simp [ran, Except.mapError, Except.toOption] at accepted

theorem awaitPick_unmarked {library : NodeLibrary} {target : SearchTarget} {o : Outlook SearchMessage}
    (brings : awaitPick library target o = some (some action)) : action ≠ .markSaved := by
  unfold awaitPick at brings
  split at brings
  · obtain ⟨t, -, rfl⟩ := Option.map_eq_some_iff.mp (Option.some.inj brings)
    exact nofun
  · cases brings
  · split at brings <;> cases brings

namespace Store.SavedUnlessDirty

/-- An action that is accepted does not say falsely that the graph has been saved. -/
theorem reduced (unlessDirty : store.SavedUnlessDirty saved)
    (reduced : reduce? store.reducers store.state action = some next) (unmarked : action ≠ .markSaved) :
    next.dirty = false → next.graph = saved := by
  obtain ⟨env, reducers⟩ := unlessDirty.reducers
  intro clean
  rcases EditorState.run_dirty (reduce?_run reducers reduced) unmarked with dirty | ⟨graph, flag⟩
  · simp [clean] at dirty
  · rw [graph]
    exact unlessDirty.saved (flag ▸ clean)

theorem handle (unlessDirty : store.SavedUnlessDirty saved)
    {event : StoreEvent SearchMessage EditorAction}
    (marksNothing : event.MarksNothing) : (store.handle event).2.SavedUnlessDirty saved := by
  have step := store.handle_step event
  have searches := step.awaits unlessDirty.searches fun action started => by
    subst started
    exact marksNothing
  refine ⟨step.reducers_eq ▸ unlessDirty.reducers, searches, ?_⟩
  generalize (store.handle event).2 = after at step
  generalize (store.handle event).1 = fault at step
  generalize store.appliedBy event = applied at step
  cases step with
  | applied reduced => exact unlessDirty.reduced reduced marksNothing
  | followed held asked reduced =>
    obtain ⟨library, target, action⟩ := unlessDirty.searches _ held
    exact unlessDirty.reduced reduced (awaitPick_unmarked (action ▸ asked))
  | _ => exact unlessDirty.saved

end Store.SavedUnlessDirty

end Store

namespace Session

variable {s s' : Session} {v w : View} {saved : Graph} {action : EditorAction}

/-- An action that is carried out is dispatched at the store. -/
theorem dispatch_store (run : s.dispatch action = .ok s') :
    s'.store = (s.store.handle (.dispatch action)).2 := by
  unfold dispatch at run
  cases dispatched : s.store.dispatch action with
  | error e => simp [dispatched, Except.map] at run
  | ok store =>
    rw [dispatched] at run
    cases run
    rw [Store.handle, dispatched]

theorem search_store (s : Session) (target : SearchTarget) :
    (s.search target).2.store = (s.store.handle
      (.start (awaitPick (s.library.offeredFor s.store.state.graph) target))).2 := by
  rw [Store.handle, search, Searcher.opened]
  rcases s.store.start (awaitPick (s.library.offeredFor s.store.state.graph) target) with
    ⟨_ | token, store⟩ <;> rfl

theorem reconcile_store {plan : ReconcilePlan} (run : s.reconcile v = .ok (plan, w, s')) :
    s' = s ∨ s'.store = (s.store.handle (.dispatch .acknowledgeChanges)).2 := by
  unfold reconcile at run
  dsimp only at run
  split at run
  · cases run
    exact .inl rfl
  split at run
  · cases run
  split at run
  · rename_i acknowledged
    cases run
    exact .inr (dispatch_store acknowledged)
  · cases run

/-- What an event does to the store of a session, if it does anything. Only an action that says that
the graph has been saved says so. -/
theorem handle_store (s : Session) (v : View) (event : SessionEvent) :
    (handle (s, v) event).1.store = s.store ∨
      ∃ e, (handle (s, v) event).1.store = (s.store.handle e).2 ∧
        (event ≠ .act .markSaved → e.MarksNothing) := by
  cases event with
  | act action =>
    simp only [handle]
    split
    · rename_i next run
      exact .inr ⟨_, dispatch_store run, fun other same => other (same ▸ rfl)⟩
    · exact .inl rfl
  | search target => exact .inr ⟨_, search_store s target, fun _ => ⟨_, _, rfl⟩⟩
  | close searcher => exact .inr ⟨.tell searcher.token .closed, rfl, fun _ => trivial⟩
  | pick searcher template =>
    exact .inr ⟨.tell _ _, searcher.pick_store s.store template, fun _ => trivial⟩
  | cancel token => exact .inr ⟨.cancel token, rfl, fun _ => trivial⟩
  | cancelPending => exact .inr ⟨.cancelPending, rfl, fun _ => trivial⟩
  | tick =>
    refine .inr ⟨.tick, ?_, fun _ => trivial⟩
    rw [handle, Store.handle]
    rcases s.store.tick with ⟨_ | status, store⟩ <;> rfl
  | reconcile =>
    simp only [handle]
    split
    · rename_i run
      rcases reconcile_store run with rfl | done
      · exact .inl rfl
      · exact .inr ⟨.dispatch .acknowledgeChanges, done, fun _ same => by cases same⟩
    · exact .inl rfl

theorem handle_savedUnlessDirty (unlessDirty : s.store.SavedUnlessDirty saved)
    {event : SessionEvent}
    (unmarked : event ≠ .act .markSaved) :
    (handle (s, v) event).1.store.SavedUnlessDirty saved := by
  rcases handle_store s v event with same | ⟨e, same, marksNothing⟩
  · rw [same]
    exact unlessDirty
  · rw [same]
    exact unlessDirty.handle (marksNothing unmarked)

/-- A compilation leaves the store alone: what has to be prepared is prepared in a copy. -/
theorem compile_store (s : Session) (backend : Backend) :
    (s.compile backend).2.store = s.store := by
  simp only [compile, compileWith]
  generalize s.tools.prepare _ _ = prepared
  obtain ⟨unprepared, g, supply⟩ := prepared
  rfl

/-- A session that says that its graph is saved. -/
def marked (s : Session) : Session :=
  { s with store := { s.store with
      state := { s.store.state with dirty := false }, version := s.store.version + 1 } }

theorem dispatch_markSaved (unlessDirty : s.store.SavedUnlessDirty saved) :
    s.dispatch .markSaved = .ok s.marked := by
  obtain ⟨env, reducers⟩ := unlessDirty.reducers
  obtain ⟨reducer, found⟩ : ∃ reducer,
      (editorReducers env).get? (Action.actionName EditorAction.markSaved) = some reducer :=
    OrderedMap.exists_get?_ofList (by simp [editorActionNames, Action.actionName])
  obtain rfl := editorReducers_get? found
  unfold marked
  simp only [dispatch, Store.dispatch, reducers, found]
  rfl

/-- A save succeeds exactly if the graph is written. Then the session says that its graph is saved,
which stays as it is; otherwise the session stays as it is. -/
theorem save_run {W : Type} (unlessDirty : s.store.SavedUnlessDirty saved)
    (assets : AssetStore (StateM W))
    (path : String) (world : W) :
    (∃ world', (assets.save path s.graph).run world = (.ok (), world') ∧
      (s.save assets path).run world = (.ok s.marked, world')) ∨
    ∃ e world', (assets.save path s.graph).run world = (.error e, world') ∧
      (s.save assets path).run world = (.error (.asset e), world') := by
  rcases written : (assets.save path s.graph).run world with ⟨e | ⟨⟩, world'⟩
  · refine .inr ⟨e, world', rfl, ?_⟩
    rw [save, StateT.run_bind, written]
    rfl
  · refine .inl ⟨world', rfl, ?_⟩
    rw [save, StateT.run_bind, written, dispatch_markSaved unlessDirty]
    rfl

end Session

/-! ### Sessions in which the graph is saved now and then -/

/-- What may happen in a session: something in the session itself, or that the graph is saved, or
compiled, or that the code of a node ran. The world is where graphs are stored. -/
inductive WorkEvent (W : Type) where
  | session (event : SessionEvent)
  | save (assets : AssetStore (StateM W)) (path : String)
  | compile (backend : Backend)
  | recordHit (index frame : Nat)

/-- A session with a view on it, and the world around it. -/
structure Work (W : Type) where
  session : Session
  view : View
  world : W
  /-- The graph that was saved last, or the one that was opened if none was. -/
  saved : Graph

namespace Work

variable {W : Type}

/-- What an event makes of the work. A graph counts as saved when its save has succeeded. -/
def handle (work : Work W) : WorkEvent W → Work W
  | .session event =>
    let (session, view) := Session.handle (work.session, work.view) event
    { work with session, view }
  | .save assets path =>
    match (work.session.save assets path).run work.world with
    | (.ok session, world) => { work with session, world, saved := work.session.graph }
    | (.error _, world) => { work with world }
  | .compile backend => { work with session := (work.session.compile backend).2 }
  | .recordHit index frame => { work with session := (work.session.recordHit index frame).2 }

/-- The work behind events. -/
def after (work : Work W) (events : List (WorkEvent W)) : Work W := events.foldl handle work

variable {work : Work W}

theorem handle_savedUnlessDirty (unlessDirty : work.session.store.SavedUnlessDirty work.saved)
    {event : WorkEvent W}
    (unmarked : event ≠ .session (.act .markSaved)) :
    (work.handle event).session.store.SavedUnlessDirty (work.handle event).saved := by
  cases event with
  | session event =>
    exact Session.handle_savedUnlessDirty unlessDirty fun same => unmarked (same ▸ rfl)
  | save assets path =>
    rcases Session.save_run unlessDirty assets path work.world with
      ⟨world', -, saved⟩ | ⟨e, world', -, failed⟩
    · simp only [handle, saved]
      exact ⟨unlessDirty.reducers, unlessDirty.searches, fun _ => rfl⟩
    · simp only [handle, failed]
      exact unlessDirty
  | compile backend =>
    simp only [handle]
    rwa [Session.compile_store]
  | recordHit index frame => exact unlessDirty

theorem after_savedUnlessDirty (unlessDirty : work.session.store.SavedUnlessDirty work.saved)
    {events : List (WorkEvent W)} (unmarked : .session (.act .markSaved) ∉ events) :
    (work.after events).session.store.SavedUnlessDirty (work.after events).saved := by
  induction events generalizing work with
  | nil => exact unlessDirty
  | cons event rest ih =>
    obtain ⟨first, others⟩ := not_or.mp (mt List.mem_cons.mpr unmarked)
    exact ih (handle_savedUnlessDirty unlessDirty (Ne.symm first)) others

end Work

/-- Whatever happens in a session that is opened with a graph, as long as nobody but the session
itself says that the graph has been saved: if the session says that the graph is saved, it is the one
that was saved last, or the one that was opened. And a save that succeeds makes the session say so, and
leaves the graph alone. -/
theorem graph_eq_saved {W : Type} (g : Graph) (supply : IdSupply) (database : TypeDatabase)
    (settings : ScriptSettings) (extensions : OrderedMap String NodeExtension)
    (translators : OrderedMap String NodeTranslator) (v : View) (world : W)
    {events : List (WorkEvent W)} (unmarked : .session (.act .markSaved) ∉ events) :
    let work : Work W :=
      Work.after ⟨.opened g supply database settings extensions translators, v, world, g⟩ events
    (work.session.store.state.dirty = false → work.session.graph = work.saved) ∧
      ∀ (assets : AssetStore (StateM W)) (path : String) (s' : Session) (world' : W),
        (work.session.save assets path).run work.world = (.ok s', world') →
        s'.graph = work.session.graph ∧ s'.store.state.dirty = false := by
  intro work
  have unlessDirty : work.session.store.SavedUnlessDirty work.saved := by
    refine Work.after_savedUnlessDirty ⟨?_, ?_, fun _ => rfl⟩ unmarked
    · exact ⟨⟨database.toOracle, extensions⟩, by simp only [Session.opened]⟩
    · intro p pending
      simp [Session.opened, Store.new] at pending
  clear_value work
  refine ⟨unlessDirty.saved, fun assets path s' world' saved => ?_⟩
  rcases Session.save_run unlessDirty assets path work.world with
    ⟨world'', -, saved'⟩ | ⟨e, world'', -, failed⟩
  · cases saved.symm.trans saved'
    exact ⟨rfl, rfl⟩
  · cases failed.symm.trans saved

/-- A stack of the diamond gets a color, the graph is saved in memory, the view is brought in line, and
a title is refused. -/
def diamondWork : List (WorkEvent MemoryAssets) := [
  .session (.act (.setColor [⟨Graph.numbered 30⟩] (some ⟨0, 0, 255⟩))),
  .save MemoryAssets.store "diamond", .session .reconcile,
  .session (.act (.renameNode ⟨Graph.numbered 99⟩ "Nowhere"))]

/-- The work once the graph is saved. -/
def diamondStored : Work MemoryAssets :=
  .after ⟨Session.diamondSession, Session.diamondView, ∅, Graph.diamond⟩ (diamondWork.take 2)

theorem graph_eq_saved_diamond :
    let work : Work MemoryAssets := Work.after
      ⟨Session.diamondSession, Session.diamondView, ∅, Graph.diamond⟩ diamondWork
    .session (.act .markSaved) ∉ diamondWork ∧ work.session.store.state.dirty = false ∧
      work.session.graph = work.saved ∧
      (work.saved.node? ⟨Graph.numbered 30⟩).map (·.color) = some (some ⟨0, 0, 255⟩) := by
  intro work
  have unmarked : .session (.act .markSaved) ∉ diamondWork := by simp [diamondWork]
  -- the view is not computed, and need not be: bringing it in line only takes note of the changes
  have clean : work.session.store.state.dirty = false := by
    have unlessDirty : diamondStored.session.store.SavedUnlessDirty diamondStored.saved := by
      refine Work.after_savedUnlessDirty ⟨?_, fun p pending => ?_, fun _ => rfl⟩
        (by simp [diamondWork])
      · exact (Session.ordinary_opened _ _ _ _ _ _).reducers
      · simp [Session.diamondSession, Session.opened, Store.new] at pending
    rcases brought : Session.handle (diamondStored.session, diamondStored.view) .reconcile with ⟨s, w⟩
    have either : s = diamondStored.session ∨ s = diamondStored.session.acknowledged := by
      simpa only [brought] using
        Session.handle_reconcile (v := diamondStored.view) unlessDirty.reducers
    have last : work.session = (Session.handle (s, .empty)
        (.act (.renameNode ⟨Graph.numbered 99⟩ "Nowhere"))).1 := by
      rw [Session.handle_act s .empty w, ← brought]
      rfl
    rw [last]
    rcases either with rfl | rfl
    · decide +kernel
    · decide +kernel
  have spec := graph_eq_saved Graph.diamond Graph.diamond.freshSupply .empty .standard ∅ ∅
    Session.diamondView (∅ : MemoryAssets) unmarked
  exact ⟨unmarked, clean, spec.1 clean, by decide +kernel⟩

end NodeScript
