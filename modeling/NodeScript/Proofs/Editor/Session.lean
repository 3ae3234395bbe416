import NodeScript.Editor.Session
import NodeScript.Proofs.Editor.Actions
import NodeScript.Proofs.Graph.Join

/-!
A session and the view on it. Whatever is done in the session, as long as nobody but the session
itself acknowledges changes, the view shows the graph but for what the changes have touched. So
bringing it in line leaves what showing the graph from scratch would show.
-/

namespace NodeScript

section Artist

theorem NodeArtist.standard_plain : NodeArtist.standard.Plain := by
  intro g g' n
  unfold drawNode?
  cases found : standard.draw.get? n.kind.typeId with
  | none => rfl
  | some draw =>
    have listed := OrderedMap.mem_of_get?_ofList found
    have same : draw g n = draw g' n := by
      simp only [List.mem_append, List.mem_map, List.mem_cons, List.not_mem_nil, or_false,
        Prod.mk.injEq] at listed
      rcases listed with (((⟨_, _, _, rfl⟩ | ⟨_, _, _, rfl⟩) | ⟨_, _, _, rfl⟩) | ⟨_, _, _, rfl⟩) |
        ⟨_, rfl⟩ <;> rfl
    simp only [Option.map_some, same]

theorem NodeArtist.standard_drawsStacks : NodeArtist.standard.DrawsStacks := by
  intro g n stack
  have listed : ∃ draw, standard.draw.get? n.kind.typeId = some draw := by
    refine OrderedMap.exists_get?_ofList ?_
    cases kind : n.kind <;> simp [kind, NodeKind.isStack] at stack <;> simp [NodeKind.typeId]
  obtain ⟨draw, found⟩ := listed
  simp [drawNode?, found]

end Artist

section Store

variable {env : DefinitionEnv} {store store' : EditorStore} {action : EditorAction}

theorem editorReducers_get? {name : String} {reducer : Reducer EditorState EditorAction}
    (found : (editorReducers env).get? name = some reducer) : reducer = editorReducer env := by
  obtain ⟨_, _, same⟩ := List.mem_map.mp (OrderedMap.mem_of_get?_ofList found)
  exact (Prod.mk.inj same).2.symm

/-- An action that is accepted has been carried out. -/
theorem dispatch_run (reducers : store.reducers = editorReducers env)
    (run : store.dispatch action = .ok store') : ∃ next, action.run env store.state = .ok next ∧
      store' = { store with state := next, version := store.version + 1 } := by
  unfold Store.dispatch at run
  dsimp only at run
  split at run
  · simp at run
  · rename_i reducer found
    obtain rfl := editorReducers_get? (reducers ▸ found)
    split at run
    · rename_i next reduced
      obtain rfl := Except.ok.inj run
      cases ran : action.run env store.state with
      | ok s =>
        rw [editorReducer, ran] at reduced
        exact ⟨s, rfl, by rw [Except.ok.inj reduced]⟩
      | error e => simp [editorReducer, ran, Except.mapError] at reduced
    · simp at run

theorem dispatch_acknowledge (reducers : store.reducers = editorReducers env) :
    store.dispatch .acknowledgeChanges = .ok { store with
      state := { store.state with changes := .empty }, version := store.version + 1 } := by
  obtain ⟨reducer, found⟩ : ∃ reducer,
      (editorReducers env).get? (Action.actionName EditorAction.acknowledgeChanges) = some reducer :=
    OrderedMap.exists_get?_ofList (by simp [editorActionNames, Action.actionName])
  obtain rfl := editorReducers_get? found
  simp only [Store.dispatch, reducers, found]
  rfl

end Store

/-- What may happen in a session with a view. -/
inductive SessionEvent where
  | act (action : EditorAction)
  | search (target : SearchTarget)
  | close (searcher : Searcher)
  | pick (searcher : Searcher) (template : String)
  | cancel (token : CancelToken)
  | cancelPending
  | tick
  | reconcile

namespace Session

/-- What an event makes of a session and the view on it. A rejected action and a failed
reconciliation leave both as they are. -/
def handle (current : Session × View) (event : SessionEvent) : Session × View :=
  let (s, v) := current
  match event with
  | .act action =>
    match s.dispatch action with
    | .ok s => (s, v)
    | .error _ => (s, v)
  | .search target => ((s.search target).2, v)
  | .close searcher => ({ s with store := searcher.close s.store }, v)
  | .pick searcher template => ({ s with store := (searcher.pick s.store template).2 }, v)
  | .cancel token => ({ s with store := s.store.cancel token }, v)
  | .cancelPending => ({ s with store := s.store.cancelPending }, v)
  | .tick => ({ s with store := s.store.tick.2 }, v)
  | .reconcile =>
    match s.reconcile v with
    | .ok (_, v, s) => (s, v)
    | .error _ => (s, v)

/-- What is pending acknowledges no changes. -/
def AcknowledgesNothing (store : EditorStore) : Prop :=
  ∀ p, store.pending = some p → ∀ o, p.action o ≠ some (some .acknowledgeChanges)

/-- The session draws and reduces as it did when it was opened, and nothing that is pending
acknowledges changes. -/
structure AsOpened (s : Session) : Prop where
  artist : s.artist = .standard
  reducers : ∃ env, s.store.reducers = editorReducers env
  acknowledgesNothing : AcknowledgesNothing s.store

/-- A view shows the graph of a session but for what has changed since it was last brought in line. -/
structure Follows (v : View) (s : Session) : Prop where
  sound : s.store.state.Sound
  apart : ∀ {e visual}, v.get? e = some visual → ¬ s.store.state.supply.Holds e.uuid
  tracks : v.Tracks .standard s.graph s.store.state.changes

/-- A step that goes on taking identities in order, and that a view follows as long as they last. -/
structure Leads (before after : Session × View) : Prop where
  asOpened : after.1.AsOpened
  extended : before.1.store.state.supply.Extends after.1.store.state.supply
  follows : Follows before.2 before.1 → after.1.store.state.supply.next ≤ UInt64.size →
    Follows after.2 after.1

variable {s s' : Session} {v : View} {store : EditorStore}

theorem Leads.refl (asOpened : s.AsOpened) : Leads (s, v) (s, v) :=
  ⟨asOpened, .refl _, fun follows _ => follows⟩

theorem Leads.trans {x y z : Session × View} (first : Leads x y) (second : Leads y z) : Leads x z where
  asOpened := second.asOpened
  extended := first.extended.trans second.extended
  follows follows lasts :=
    second.follows (first.follows follows (Nat.le_trans second.extended.next lasts)) lasts

/-- A step of the store that edits the graph by an action, or not at all. -/
theorem Leads.of_store (asOpened : s.AsOpened) (reducers : store.reducers = s.store.reducers)
    (acknowledgesNothing : AcknowledgesNothing store)
    (proceeds : s.store.state.Proceeds store.state) :
    Leads (s, v) ({ s with store }, v) where
  asOpened := ⟨asOpened.artist, reducers ▸ asOpened.reducers, acknowledgesNothing⟩
  extended := proceeds.extended
  follows follows lasts := by
    have noted := proceeds.noted follows.sound lasts
    refine ⟨noted.sound follows.sound proceeds.extended lasts, fun shown held => ?_, ?_⟩
    · exact follows.apart shown (proceeds.extended.holds held)
    · exact noted.tracks NodeArtist.standard_plain lasts follows.apart follows.tracks

theorem dispatch_leads (asOpened : s.AsOpened) {action : EditorAction}
    (other : action ≠ .acknowledgeChanges) (run : s.dispatch action = .ok s') :
    Leads (s, v) (s', v) := by
  unfold dispatch at run
  cases dispatched : s.store.dispatch action with
  | error e => simp [dispatched, Except.map] at run
  | ok store =>
    rw [dispatched] at run
    obtain rfl := Except.ok.inj run
    obtain ⟨env, reducers⟩ := asOpened.reducers
    obtain ⟨next, ran, rfl⟩ := dispatch_run reducers dispatched
    exact .of_store asOpened rfl asOpened.acknowledgesNothing (EditorState.run_proceeds other ran)

theorem AcknowledgesNothing.tell (acknowledgesNothing : AcknowledgesNothing store)
    (token : CancelToken) (message : SearchMessage) :
    AcknowledgesNothing (store.tell token message) := by
  intro p pending o
  obtain ⟨p', pending', rfl⟩ := Option.map_eq_some_iff.mp pending
  have calm := acknowledgesNothing p' pending' o
  split <;> exact calm

theorem awaitPick_discreet (library : NodeLibrary) (target : SearchTarget)
    (o : Outlook SearchMessage) : awaitPick library target o ≠ some (some .acknowledgeChanges) := by
  unfold awaitPick
  split
  · intro same
    obtain ⟨t, -, made⟩ := Option.map_eq_some_iff.mp (Option.some.inj same)
    simp at made
  · simp
  · split <;> simp

/-- Asking what is pending leaves the state alone. -/
theorem poll_spec {p : PendingAction SearchMessage EditorAction}
    (calm : ∀ o, p.action o ≠ some (some .acknowledgeChanges)) (store : EditorStore) :
    (store.poll p).2.state = store.state ∧ (store.poll p).2.reducers = store.reducers ∧
      AcknowledgesNothing (store.poll p).2 ∧
        (store.poll p).1 ≠ some (some .acknowledgeChanges) := by
  unfold Store.poll
  split
  · rename_i next finished
    exact ⟨rfl, rfl, fun _ pending => by simp at pending, finished ▸ calm (store.outlook p)⟩
  · refine ⟨rfl, rfl, fun q pending => ?_, by simp⟩
    obtain rfl := Option.some.inj pending
    exact calm

theorem begin_discreet {action : AsyncAction SearchMessage EditorAction}
    (calm : ∀ o, action o ≠ some (some .acknowledgeChanges)) (store : EditorStore) :
    AcknowledgesNothing (store.begin action).2 := by
  intro p pending
  obtain rfl := Option.some.inj pending
  exact calm

theorem start_spec {action : AsyncAction SearchMessage EditorAction}
    (calm : ∀ o, action o ≠ some (some .acknowledgeChanges))
    (acknowledgesNothing : AcknowledgesNothing store) :
    (store.start action).2.state = store.state ∧
      (store.start action).2.reducers = store.reducers ∧
      AcknowledgesNothing (store.start action).2 := by
  unfold Store.start
  split
  · exact ⟨rfl, rfl, begin_discreet calm store⟩
  · rename_i p pending
    obtain ⟨state, reducers, polled, -⟩ := poll_spec (acknowledgesNothing p pending)
      (store.cancel p.token)
    split
    · rename_i asked waits
      rw [waits] at state reducers polled
      exact ⟨state, reducers, polled⟩
    · rename_i asked finishes
      rw [finishes] at state reducers polled
      exact ⟨state, reducers, begin_discreet calm asked⟩

theorem search_leads (asOpened : s.AsOpened) (target : SearchTarget) :
    Leads (s, v) ((s.search target).2, v) := by
  obtain ⟨state, reducers, acknowledgesNothing⟩ := start_spec
    (awaitPick_discreet (s.library.offeredFor s.store.state.graph) target)
      asOpened.acknowledgesNothing
  have opened : (Searcher.opened s.store s.library target).2 =
      (s.store.start (awaitPick (s.library.offeredFor s.store.state.graph) target)).2 := by
    unfold Searcher.opened
    dsimp only
    split
    · rename_i started
      rw [started]
    · rename_i started
      rw [started]
  have same : (s.search target).2 = { s with store :=
      (s.store.start (awaitPick (s.library.offeredFor s.store.state.graph) target)).2 } := by
    rw [← opened]
    rfl
  rw [same]
  refine .of_store asOpened reducers acknowledgesNothing ?_
  rw [state]
  exact .refl _

/-- A tick does to the graph what a pick asks for, and nothing else. -/
theorem tick_leads (asOpened : s.AsOpened) :
    Leads (s, v) ({ s with store := s.store.tick.2 }, v) := by
  unfold Store.tick
  split
  · exact .refl asOpened
  · rename_i p pending
    obtain ⟨state, reducers, acknowledgesNothing, calm⟩ := poll_spec
      (asOpened.acknowledgesNothing p pending) s.store
    have asked : Leads (s, v) ({ s with store := (s.store.poll p).2 }, v) := by
      refine .of_store asOpened reducers acknowledgesNothing ?_
      rw [state]
      exact .refl _
    split
    · rename_i store polled
      rwa [polled] at asked
    · rename_i store polled
      rwa [polled] at asked
    · rename_i next store polled
      rw [polled] at asked calm
      split
      · rename_i applied dispatched
        have run : Session.dispatch { s with store } next = .ok { s with store := applied } :=
          congrArg (Except.map _) dispatched
        exact asked.trans (dispatch_leads asked.asOpened (by simpa using calm) run)
      · exact asked

/-- A session that takes its changes to be known. -/
def acknowledged (s : Session) : Session :=
  { s with store := { s.store with
      state := { s.store.state with changes := .empty }, version := s.store.version + 1 } }

theorem dispatch_acknowledged (asOpened : s.AsOpened) :
    s.dispatch .acknowledgeChanges = .ok s.acknowledged := by
  obtain ⟨env, reducers⟩ := asOpened.reducers
  exact congrArg (Except.map _) (dispatch_acknowledge reducers)

/-- A view that follows a session can be brought in line, and then shows the graph. -/
theorem Follows.reconcile (follows : Follows v s) (asOpened : s.AsOpened) :
    ∃ plan w s', s.reconcile v = .ok (plan, w, s') ∧ s'.graph = s.graph ∧
      w.Mirrors .standard s.graph := by
  have linked := follows.sound.linked
  by_cases idle : s.store.state.changes.isEmpty = true
  · refine ⟨.empty, v, s, ?_, rfl, follows.tracks.mirrors linked idle⟩
    simp only [Session.reconcile, idle, if_true]
  · obtain ⟨plan, w, brought, mirrors⟩ :=
      View.reconcile_spec linked NodeArtist.standard_drawsStacks follows.tracks
    refine ⟨plan, w, s.acknowledged, ?_, rfl, mirrors⟩
    rw [← asOpened.artist] at brought
    simp only [Session.reconcile, if_neg idle]
    rw [brought]
    simp only [dispatch_acknowledged asOpened]

theorem reconcile_leads (asOpened : s.AsOpened) {plan : ReconcilePlan} {w : View}
    (run : s.reconcile v = .ok (plan, w, s')) : Leads (s, v) (s', w) := by
  have start := run
  unfold Session.reconcile at run
  dsimp only at run
  split at run
  · simp only [Except.ok.injEq, Prod.mk.injEq] at run
    obtain ⟨-, rfl, rfl⟩ := run
    exact .refl asOpened
  · split at run
    · simp at run
    · rw [dispatch_acknowledged asOpened] at run
      simp only [Except.ok.injEq, Prod.mk.injEq] at run
      obtain ⟨-, rfl, rfl⟩ := run
      refine ⟨⟨asOpened.artist, asOpened.reducers, asOpened.acknowledgesNothing⟩, .refl _,
        fun follows _ => ?_⟩
      obtain ⟨_, w', s', again, -, mirrors⟩ := follows.reconcile asOpened
      obtain ⟨-, rfl, rfl⟩ := Prod.mk.inj (Except.ok.inj (start.symm.trans again))
      refine ⟨⟨follows.sound.linked, follows.sound.spared⟩, fun shown => ?_,
        mirrors.tracks follows.sound.linked NodeArtist.standard_drawsStacks⟩
      exact follows.sound.spared _
        (Graph.existsIn_of_pictured ((mirrors.look _).symm.trans shown)).1

/-- Bringing a view in line changes no more of a session than that its changes are known. -/
theorem handle_reconcile (reducers : ∃ env, s.store.reducers = editorReducers env) :
    (handle (s, v) .reconcile).1 = s ∨ (handle (s, v) .reconcile).1 = s.acknowledged := by
  by_cases idle : s.store.state.changes.isEmpty = true
  · left
    simp only [handle, Session.reconcile, idle, if_true]
  · cases brought : v.reconcile s.artist s.store.state.graph s.store.state.changes with
    | none =>
      left
      simp only [handle, Session.reconcile, if_neg idle, brought]
    | some drawn =>
      right
      obtain ⟨env, reducers⟩ := reducers
      have known : s.dispatch .acknowledgeChanges = .ok s.acknowledged :=
        congrArg (Except.map _) (dispatch_acknowledge reducers)
      simp only [handle, Session.reconcile, if_neg idle, brought, known]

/-- What an action makes of a session has nothing to do with the view. -/
theorem handle_act (s : Session) (v w : View) (action : EditorAction) :
    (handle (s, v) (.act action)).1 = (handle (s, w) (.act action)).1 := by
  simp only [handle]
  cases s.dispatch action with
  | ok next => rfl
  | error e => rfl

theorem handle_leads (asOpened : s.AsOpened) {event : SessionEvent}
    (own : event ≠ .act .acknowledgeChanges) : Leads (s, v) (handle (s, v) event) := by
  cases event with
  | act action =>
    simp only [handle]
    split
    · rename_i next run
      exact dispatch_leads asOpened (by simpa using own) run
    · exact .refl asOpened
  | search target => exact search_leads asOpened target
  | close searcher => exact .of_store asOpened rfl (asOpened.acknowledgesNothing.tell _ _) (.refl _)
  | pick searcher template =>
    refine .of_store asOpened ?_ ?_ ?_
    all_goals
      unfold Searcher.pick
      split
    · rfl
    · rfl
    · exact asOpened.acknowledgesNothing.tell _ _
    · exact asOpened.acknowledgesNothing.tell _ _
    · exact .refl _
    · exact .refl _
  | cancel token => exact .of_store asOpened rfl asOpened.acknowledgesNothing (.refl _)
  | cancelPending =>
    refine .of_store asOpened ?_ ?_ ?_
    all_goals
      unfold Store.cancelPending
      split
    · rfl
    · rfl
    · exact asOpened.acknowledgesNothing
    · exact asOpened.acknowledgesNothing
    · exact .refl _
    · exact .refl _
  | tick => exact tick_leads asOpened
  | reconcile =>
    simp only [handle]
    split
    · rename_i run
      exact reconcile_leads asOpened run
    · exact .refl asOpened

theorem run_leads (asOpened : s.AsOpened) {events : List SessionEvent}
    (own : .act .acknowledgeChanges ∉ events) : Leads (s, v) (events.foldl handle (s, v)) := by
  induction events generalizing s v with
  | nil => exact .refl asOpened
  | cons event rest ih =>
    obtain ⟨first, own⟩ := not_or.mp (mt List.mem_cons.mpr own)
    have step := handle_leads (v := v) asOpened (Ne.symm first)
    exact step.trans (ih step.asOpened own)

/-- A view that shows a graph from scratch follows the session in which the graph is opened. -/
theorem Follows.opened {g : Graph} {supply : IdSupply} (linked : g.Linked) (spared : supply.Spares g)
    (database : TypeDatabase) (settings : ScriptSettings)
    (extensions : OrderedMap String NodeExtension) (translators : OrderedMap String NodeTranslator)
    (mirrors : v.Mirrors .standard g) :
    Follows v (Session.opened g supply database settings extensions translators) where
  sound := ⟨linked, spared⟩
  apart shown := spared _ (Graph.existsIn_of_pictured ((mirrors.look _).symm.trans shown)).1
  tracks := mirrors.tracks linked NodeArtist.standard_drawsStacks

theorem ordinary_opened (g : Graph) (supply : IdSupply) (database : TypeDatabase)
    (settings : ScriptSettings) (extensions : OrderedMap String NodeExtension)
    (translators : OrderedMap String NodeTranslator) :
    (Session.opened g supply database settings extensions translators).AsOpened where
  artist := rfl
  reducers := ⟨⟨database.toOracle, extensions⟩, by simp only [Session.opened]⟩
  acknowledgesNothing p pending := by simp [Session.opened, Store.new] at pending

/-- Whatever happens in a session, bringing the view in line leaves what showing the graph from
scratch would show: the same elements, each with the same look in the same element, and what stands
in stacks in the order of the stacks. The identities that the supply gives are not in use, and they
last; changes are acknowledged by the session alone. -/
theorem reconcile_eq_rebuild {g : Graph} {supply : IdSupply} {database : TypeDatabase}
    {settings : ScriptSettings} {extensions : OrderedMap String NodeExtension}
    {translators : OrderedMap String NodeTranslator} {plan : ReconcilePlan}
    (linked : g.Linked) (spared : supply.Spares g)
    (shown : View.empty.rebuild .standard g = some (plan, v))
    {events : List SessionEvent} (own : .act .acknowledgeChanges ∉ events) {w : View}
    (run : events.foldl handle
      (Session.opened g supply database settings extensions translators, v) = (s, w))
    (lasts : s.store.state.supply.next ≤ UInt64.size) :
    ∃ plan w' s' full rebuilt, s.reconcile w = .ok (plan, w', s') ∧ s'.graph = s.graph ∧
      View.empty.rebuild .standard s'.graph = some (full, rebuilt) ∧
      (∀ e, w'.get? e = rebuilt.get? e) ∧
      ∀ stack, View.childrenOf w'.visuals (.node stack) =
        ((s'.graph.children stack).map ElementRef.node).filter w'.shows := by
  have asOpened := ordinary_opened g supply database settings extensions translators
  obtain ⟨_, v', shown', mirrors⟩ := View.rebuild_spec linked NodeArtist.standard_drawsStacks
  obtain ⟨-, rfl⟩ := Prod.mk.inj (Option.some.inj (shown.symm.trans shown'))
  have leads := run_leads (v := v) asOpened own
  rw [run] at leads
  have follows := leads.follows
    (.opened linked spared database settings extensions translators mirrors) lasts
  obtain ⟨plan', w', s', reconciled, same, mirrors'⟩ := follows.reconcile leads.asOpened
  obtain ⟨full, rebuilt, drawn, whole⟩ :=
    View.rebuild_spec follows.sound.linked NodeArtist.standard_drawsStacks
  refine ⟨plan', w', s', full, rebuilt, reconciled, same, same ▸ drawn, ?_, ?_⟩
  · exact fun e => (mirrors'.look e).trans (whole.look e).symm
  · intro stack
    rw [mirrors'.order, Graph.picturedIn, same]
    refine List.filter_congr fun e _ => ?_
    rw [← mirrors'.look, View.get?, Bool.eq_iff_iff, OrderedMap.isSome_get?_iff, View.shows,
      OrderedMap.contains_eq_true_iff]

/-- What is shown of the diamond at first. -/
def diamondView : View := ((View.empty.rebuild .standard Graph.diamond).map Prod.snd).getD .empty

def diamondSession : Session :=
  opened Graph.diamond Graph.diamond.freshSupply .empty .standard ∅ ∅

/-- A node is added to one of the stacks of the diamond, and another stack is deleted. -/
def diamondEvents : List SessionEvent := [
  .act (.createNode .leave default (some ⟨⟨Graph.numbered 50⟩, none⟩)), .reconcile,
  .act (.deleteElements [⟨Graph.numbered 30⟩] [])]

theorem reconcile_eq_rebuild_diamond :
    Graph.diamond.Linked ∧ Graph.diamond.freshSupply.Spares Graph.diamond ∧
      (∃ plan, View.empty.rebuild .standard Graph.diamond = some (plan, diamondView)) ∧
      .act .acknowledgeChanges ∉ diamondEvents ∧
      ∃ s w, diamondEvents.foldl handle (diamondSession, diamondView) = (s, w) ∧
        s.store.state.supply.next ≤ UInt64.size ∧
        ∃ plan w' s' full rebuilt, s.reconcile w = .ok (plan, w', s') ∧ s'.graph = s.graph ∧
          View.empty.rebuild .standard s'.graph = some (full, rebuilt) ∧
          (∀ e, w'.get? e = rebuilt.get? e) ∧
          ∀ stack, View.childrenOf w'.visuals (.node stack) =
            ((s'.graph.children stack).map ElementRef.node).filter w'.shows := by
  have linked : Graph.diamond.Linked := .of_entries (by decide) (by decide)
  have spared := Graph.freshSupply_spares Graph.diamond
  have own : .act .acknowledgeChanges ∉ diamondEvents := by simp [diamondEvents]
  have asOpened : diamondSession.AsOpened := ordinary_opened _ _ _ _ _ _
  -- the view is not computed, and need not be: the identities are those of the actions
  have lasts : (diamondEvents.foldl handle (diamondSession, diamondView)).1.store.state.supply.next ≤
      UInt64.size := by
    let create : SessionEvent :=
      .act (.createNode .leave default (some ⟨⟨Graph.numbered 50⟩, none⟩))
    rcases made : handle (diamondSession, diamondView) create with ⟨created, view⟩
    have creates : created = (handle (diamondSession, .empty) create).1 := by
      rw [← handle_act _ diamondView, made]
    have leads : Leads (diamondSession, diamondView) (handle (diamondSession, diamondView) create) :=
      handle_leads asOpened (by simp [create])
    rcases brought : handle (created, view) .reconcile with ⟨s, w⟩
    have either : s = created ∨ s = created.acknowledged := by
      rw [made] at leads
      simpa only [brought] using handle_reconcile (v := view) leads.asOpened.reducers
    rw [diamondEvents, List.foldl_cons, made, List.foldl_cons, brought, List.foldl_cons,
      List.foldl_nil, handle_act s w .empty]
    rcases either with rfl | rfl
    · rw [creates]
      decide +kernel
    · rw [creates]
      decide +kernel
  obtain ⟨plan, v, shown, -⟩ := View.rebuild_spec linked NodeArtist.standard_drawsStacks
  have first : View.empty.rebuild .standard Graph.diamond = some (plan, diamondView) := by
    rw [shown, diamondView, shown]
    rfl
  rcases run : diamondEvents.foldl handle (diamondSession, diamondView) with ⟨s, w⟩
  rw [run] at lasts
  exact ⟨linked, spared, ⟨plan, first⟩, own, s, w, rfl, lasts,
    reconcile_eq_rebuild linked spared first own run lasts⟩

end Session

end NodeScript
