import NodeScript.Editor.Searcher
import NodeScript.Proofs.Editor.StoreRuns
import NodeScript.Proofs.OrderedMap

/-!
Searches at the store of an editor. A search has four parties: whoever holds it and may pick or
close, the channel to the action that waits, the cancellation of that action, and the store that
asks the action in its ticks. Whatever the order of events, a search makes one node at most, and it
makes it only if it is the one that was opened last and its pick was confirmed.
-/

namespace NodeScript

/-- An open search with the place for the node that is picked. -/
structure OpenSearch where
  searcher : Searcher
  target : SearchTarget

/-- What may be done at an editor whose asynchronous actions are all searches. -/
inductive SearchEvent where
  | search (library : NodeLibrary) (target : SearchTarget)
  | pick (search : CancelToken) (template : String)
  | close (search : CancelToken)
  | dispatch (action : EditorAction)
  | cancelPending
  | tick

/-- Whether an event neither opens a search nor asks the one that is pending. -/
def SearchEvent.NeitherOpensNorAsks : SearchEvent → Prop
  | .search .. | .tick => False
  | _ => True

/-- A store and the searches that somebody holds. -/
structure Desk where
  store : EditorStore
  held : OrderedMap CancelToken OpenSearch

namespace Desk

/-- The desk behind an event. A pick gives the search up, whatever comes of it, and so does closing.
-/
def handle (d : Desk) : SearchEvent → Desk
  | .search library target =>
    match Searcher.opened d.store library target with
    | (.ok s, store) => ⟨store, d.held.insert s.token ⟨s, target⟩⟩
    | (.error _, store) => { d with store }
  | .pick token template =>
    match d.held.get? token with
    | some h => ⟨(h.searcher.pick d.store template).2, d.held.erase token⟩
    | none => d
  | .close token =>
    match d.held.get? token with
    | some h => ⟨h.searcher.close d.store, d.held.erase token⟩
    | none => d
  | .dispatch action => { d with store := (d.store.handle (.dispatch action)).2 }
  | .cancelPending => { d with store := d.store.cancelPending }
  | .tick => { d with store := d.store.tick.2 }

/-- The desk behind events. -/
def after (d : Desk) (events : List SearchEvent) : Desk := events.foldl handle d

/-- The action that a search brings in an event, whether or not it is accepted. -/
def creation? (d : Desk) : SearchEvent → Option (AppliedAction EditorAction)
  | .tick => d.store.brought?
  | _ => none

/-- The actions that searches bring along events, in order. -/
def creations (d : Desk) : List SearchEvent → List (AppliedAction EditorAction)
  | [] => []
  | event :: rest => (d.creation? event).toList ++ (d.handle event).creations rest

/-- What an event does to the store, if it does anything. -/
def storeEvent? (d : Desk) : SearchEvent → Option (StoreEvent SearchMessage EditorAction)
  | .search library target =>
    some (.start (awaitPick (library.offeredFor d.store.state.graph) target))
  | .pick token template => (d.held.get? token).map fun h =>
    .tell h.searcher.token
      (if (h.searcher.library.get? template).isNone then .closed else .picked template)
  | .close token => (d.held.get? token).map fun h => .tell h.searcher.token .closed
  | .dispatch action => some (.dispatch action)
  | .cancelPending => some .cancelPending
  | .tick => some .tick

end Desk

variable {s s' : EditorStore} {event : StoreEvent SearchMessage EditorAction}
  {fault : Option StoreError} {applied : Option (AppliedAction EditorAction)} {t : CancelToken}
  {h : OpenSearch} {library : NodeLibrary} {target : SearchTarget}

theorem awaitPick_cancelled (library : NodeLibrary) (target : SearchTarget)
    {o : Outlook SearchMessage} (cancelled : o.cancelled = true) :
    ∃ next, awaitPick library target o = some next := by
  unfold awaitPick
  split
  · exact ⟨_, rfl⟩
  · exact ⟨_, rfl⟩
  · exact ⟨none, if_pos cancelled⟩

theorem Searcher.pick_store (s : Searcher) (store : EditorStore) (template : String) :
    (s.pick store template).2 = store.tell s.token
      (if (s.library.get? template).isNone then .closed else .picked template) := by
  rw [pick]
  split
  · rfl
  · rfl

/-- Whether nothing comes of the search of a token any more: it was opened, and if its action is
still pending it was closed. -/
def Store.Over (s : EditorStore) (t : CancelToken) : Prop :=
  t.number < s.tokens ∧
    ∀ p, s.pending = some p → p.token = t → p.messages.head? = some .closed

/-- The action of an open search, if it is pending, has not been told anything. -/
structure OpenSearch.Waits (h : OpenSearch) (s : EditorStore) : Prop where
  known : h.searcher.token.number < s.tokens
  untold : ∀ p, s.pending = some p → p.token = h.searcher.token →
    p.messages = [] ∧ p.action = awaitPick h.searcher.library h.target

/-- The action of a token is pending, and a message has reached it before all others. -/
def Store.HearsFirst (s : EditorStore) (t : CancelToken) (library : NodeLibrary)
    (target : SearchTarget)
    (message : SearchMessage) : Prop :=
  ∃ p, s.pending = some p ∧ p.token = t ∧ p.action = awaitPick library target ∧
    p.messages.head? = some message

theorem head?_append_of_head? {α : Type} {l : List α} {a : α} (first : l.head? = some a)
    (more : List α) : (l ++ more).head? = some a := by
  rw [List.head?_append, first, Option.some_or]

namespace Store.Step

/-- What was told first stays first, and a search that is opened later has a token of its own. -/
theorem stays_over (step : s.Step event fault applied s') (ended : s.Over t) : s'.Over t := by
  obtain ⟨opened, closed⟩ := ended
  refine ⟨Nat.lt_of_lt_of_le opened step.tokens_le, fun q now same => ?_⟩
  rcases step.pending_cases now with ⟨p, held, token, -, heard⟩ | ⟨action, -, rfl, -⟩
  · have first := closed p held (token.symm.trans same)
    rcases heard with heard | ⟨message, -, heard⟩
    · rw [heard]
      exact first
    · rw [heard]
      exact head?_append_of_head? first _
  · exact absurd (congrArg CancelToken.number same) (Nat.ne_of_gt opened)

theorem waits (step : s.Step event fault applied s') (waits : h.Waits s)
    (spared : ∀ message, event ≠ .tell h.searcher.token message) : h.Waits s' := by
  obtain ⟨known, untold⟩ := waits
  refine ⟨Nat.lt_of_lt_of_le known step.tokens_le, fun q now same => ?_⟩
  rcases step.pending_cases now with ⟨p, held, token, action, heard⟩ | ⟨action, -, rfl, -⟩
  · have owner : p.token = h.searcher.token := token.symm.trans same
    rcases heard with heard | ⟨message, told, -⟩
    · rw [heard, action]
      exact untold p held owner
    · exact absurd (owner ▸ told) (spared message)
  · exact absurd (congrArg CancelToken.number same) (Nat.ne_of_gt known)

/-- Where only searches are started, only searches are pending. -/
theorem awaits (step : s.Step event fault applied s')
    (awaits : ∀ p, s.pending = some p → ∃ library target, p.action = awaitPick library target)
    (searches : ∀ action, event = .start action →
      ∃ library target, action = awaitPick library target) :
    ∀ p, s'.pending = some p → ∃ library target, p.action = awaitPick library target := by
  intro q now
  rcases step.pending_cases now with ⟨p, held, -, action, -⟩ | ⟨action, started, rfl, -⟩
  · rw [action]
    exact awaits p held
  · exact searches action started

/-- Without a tick and without another search, what was told first stays so. -/
theorem hearsFirst_stays {message : SearchMessage} (step : s.Step event fault applied s')
    (told : s.HearsFirst t library target message) (unasked : event ≠ .tick)
    (alone : ∀ action, event ≠ .start action) : s'.HearsFirst t library target message := by
  obtain ⟨p, held, same, action, first⟩ := told
  cases step with
  | begun none => exact absurd rfl (alone _)
  | replaced held => exact absurd rfl (alone _)
  | kept held asked => exact absurd rfl (alone _)
  | idle held => exact absurd rfl unasked
  | waited held asked => exact absurd rfl unasked
  | finished held asked => exact absurd rfl unasked
  | followed held asked reduced => exact absurd rfl unasked
  | dropped e held asked refused => exact absurd rfl unasked
  | told token message =>
    refine ⟨_, by rw [Store.tell, held, Option.map_some], ?_⟩
    split
    · exact ⟨same, action, head?_append_of_head? first _⟩
    · exact ⟨same, action, first⟩
  | applied reduced => exact ⟨p, held, same, action, first⟩
  | rejected e refused => exact ⟨p, held, same, action, first⟩
  | cancelled token => exact ⟨p, held, same, action, first⟩
  | spared none => exact ⟨p, held, same, action, first⟩
  | cancelledPending some => exact ⟨p, held, same, action, first⟩

/-- The state changes by a dispatch, and by what a tick brings. -/
theorem state_eq (step : s.Step event fault applied s')
    (nothing : s.offered? event = none) : s'.state = s.state := by
  cases step with
  | applied reduced => cases nothing
  | followed held asked reduced => simp [offered?, brought?, held, asked] at nothing
  | _ => rfl

end Store.Step

namespace Store

/-- What a tick does with an action that is brought. -/
theorem tick_of_brought {a : AppliedAction EditorAction} (brings : s.brought? = some a) :
    s.tick = match Store.dispatch { s with pending := none } a.action with
      | .ok next => (.ok .applied, next)
      | .error e => (.error e, { s with pending := none }) := by
  unfold brought? at brings
  obtain ⟨p, held, asked⟩ := Option.bind_eq_some_iff.1 brings
  obtain ⟨action, joined, rfl⟩ := Option.map_eq_some_iff.1 asked
  rw [tick, held]
  dsimp only
  rw [poll_of_finishes (Option.join_eq_some_iff.1 joined)]
  dsimp only
  rcases dispatch_cases { s with pending := none } action with ⟨next, -, run⟩ | ⟨-, e, run⟩
  · rw [run]
  · rw [run]

theorem pending_of_brought {a : AppliedAction EditorAction} (brings : s.brought? = some a) :
    ∃ p, s.pending = some p ∧ a.source = some p.token ∧
      p.action (s.outlook p) = some (some a.action) := by
  obtain ⟨p, held, asked⟩ := Option.bind_eq_some_iff.1 brings
  obtain ⟨action, joined, rfl⟩ := Option.map_eq_some_iff.1 asked
  exact ⟨p, held, rfl, Option.join_eq_some_iff.1 joined⟩

theorem pending_tick_of_brought {a : AppliedAction EditorAction} (brings : s.brought? = some a) :
    s.tick.2.pending = none ∧ s.tick.2.tokens = s.tokens := by
  rw [tick_of_brought brings]
  rcases dispatch_cases { s with pending := none } a.action with ⟨next, -, run⟩ | ⟨-, e, run⟩
  · rw [run]
    exact ⟨rfl, rfl⟩
  · rw [run]
    exact ⟨rfl, rfl⟩

/-- What a search brings that was told of a pick first, cancelled or not. -/
theorem HearsFirst.brings {id : String} {found : NodeTemplate}
    (told : s.HearsFirst t library target (.picked id)) (offered : library.get? id = some found) :
    s.brought? = some ⟨some t, .createNode found.kind target.position target.place⟩ := by
  obtain ⟨p, held, rfl, action, first⟩ := told
  have heard : (s.outlook p).messages.head? = some (.picked id) := first
  have answer : p.action (s.outlook p) =
      some (some (.createNode found.kind target.position target.place)) := by
    rw [action, awaitPick, heard]
    dsimp only
    rw [offered, Option.map_some]
  rw [brought?, held, Option.bind_some, answer]
  rfl

theorem HearsFirst.finishes (told : s.HearsFirst t library target .closed) :
    s.tick = (.ok .finished, { s with pending := none }) := by
  obtain ⟨p, held, rfl, action, first⟩ := told
  have heard : (s.outlook p).messages.head? = some .closed := first
  have answer : p.action (s.outlook p) = some none := by rw [action, awaitPick, heard]
  rw [tick, held]
  dsimp only
  rw [poll_of_finishes answer]

theorem tell_hearsFirst {message : SearchMessage} (waits : h.Waits s)
    (pending : s.isPending h.searcher.token = true) :
    (s.tell h.searcher.token message).HearsFirst h.searcher.token h.searcher.library h.target
      message := by
  obtain ⟨p, held, same⟩ : ∃ p, s.pending = some p ∧ p.token = h.searcher.token := by
    rw [isPending, Option.any_eq_true] at pending
    simpa using pending
  obtain ⟨silent, action⟩ := waits.untold p held same
  refine ⟨{ p with messages := p.messages ++ [message] }, ?_, same, action, ?_⟩
  · rw [tell, held, Option.map_some, if_pos same]
  · rw [silent]
    rfl

/-- A search that is not pending is over, and so is one that is closed. -/
theorem over_of_not_pending (known : t.number < s.tokens) (gone : s.isPending t = false) :
    s.Over t := by
  refine ⟨known, fun p held same => ?_⟩
  have pending : s.isPending t = true := by simp [isPending, held, same]
  rw [gone] at pending
  cases pending

theorem over_close (waits : h.Waits s) : (s.tell h.searcher.token .closed).Over h.searcher.token := by
  refine ⟨waits.known, fun q now same => ?_⟩
  obtain ⟨p, held, rfl⟩ := Option.map_eq_some_iff.1 now
  by_cases addressed : p.token = h.searcher.token
  · obtain ⟨silent, -⟩ := waits.untold p held addressed
    rw [if_pos addressed, silent]
    rfl
  · rw [if_neg addressed] at same
    exact absurd same addressed

/-- Searches give way: where one is pending, another takes its place. -/
theorem start_search
    (awaits : ∀ p, s.pending = some p → ∃ library target, p.action = awaitPick library target)
    (action : AsyncAction SearchMessage EditorAction) :
    ∃ s', s.start action = (.ok ⟨s.tokens⟩, s') ∧ s'.pending = some ⟨⟨s.tokens⟩, action, 0, []⟩ ∧
      s'.tokens = s.tokens + 1 := by
  unfold start
  cases held : s.pending with
  | none => exact ⟨_, rfl, rfl, rfl⟩
  | some p =>
    obtain ⟨library, target, awaited⟩ := awaits p held
    obtain ⟨next, answer⟩ := awaitPick_cancelled library target
      (o := (s.cancel p.token).outlook p)
      (List.contains_iff_mem.2 List.mem_cons_self)
    rw [← awaited] at answer
    dsimp only
    rw [poll_of_finishes answer]
    exact ⟨_, rfl, rfl, rfl⟩

end Store

namespace Desk

variable {d : Desk}

/-- Only searches are pending, the one that was opened last; and those that are held wait. -/
structure Orderly (d : Desk) : Prop where
  last : d.store.LastPending
  awaits : ∀ p, d.store.pending = some p → ∃ library target, p.action = awaitPick library target
  held : ∀ t h, d.held.get? t = some h → h.searcher.token = t ∧ h.Waits d.store

theorem opened_eq (orderly : d.Orderly) (library : NodeLibrary) (target : SearchTarget) :
    ∃ s store, d.store.start (awaitPick (library.offeredFor d.store.state.graph) target) =
        (.ok ⟨d.store.tokens⟩, store) ∧
      store.pending = some ⟨⟨d.store.tokens⟩,
        awaitPick (library.offeredFor d.store.state.graph) target, 0, []⟩ ∧
      store.tokens = d.store.tokens + 1 ∧
      s = ⟨library.offeredFor d.store.state.graph, ⟨d.store.tokens⟩⟩ ∧
      Searcher.opened d.store library target = (.ok s, store) ∧
      d.handle (.search library target) = ⟨store, d.held.insert s.token ⟨s, target⟩⟩ := by
  obtain ⟨store, started, pending, tokens⟩ :=
    Store.start_search orderly.awaits (awaitPick (library.offeredFor d.store.state.graph) target)
  have opened : Searcher.opened d.store library target =
      (.ok ⟨library.offeredFor d.store.state.graph, ⟨d.store.tokens⟩⟩, store) := by
    rw [Searcher.opened, started]
  exact ⟨_, store, started, pending, tokens, rfl, opened, by rw [handle, opened]⟩

theorem handle_store (d : Desk) (event : SearchEvent) :
    (d.handle event).store =
      ((d.storeEvent? event).map fun e => (d.store.handle e).2).getD d.store := by
  cases event with
  | search library target =>
    rw [handle, storeEvent?, Option.map_some, Option.getD_some, Searcher.opened, Store.handle]
    rcases d.store.start (awaitPick (library.offeredFor d.store.state.graph) target) with
      ⟨_ | token, store⟩
    · rfl
    · rfl
  | pick token template =>
    rw [handle, storeEvent?]
    cases d.held.get? token with
    | none => rfl
    | some h =>
      exact h.searcher.pick_store d.store template
  | close token =>
    rw [handle, storeEvent?]
    cases d.held.get? token <;> rfl
  | dispatch action => rfl
  | cancelPending => rfl
  | tick =>
    rw [handle, storeEvent?, Option.map_some, Option.getD_some, Store.handle]
    rcases d.store.tick with ⟨_ | status, store⟩
    · rfl
    · rfl

theorem store_cases (d : Desk) (event : SearchEvent) :
    d.storeEvent? event = none ∧ (d.handle event).store = d.store ∨
    ∃ e fault applied, d.storeEvent? event = some e ∧
      d.store.Step e fault applied (d.handle event).store := by
  rw [d.handle_store event]
  cases d.storeEvent? event with
  | none => exact .inl ⟨rfl, rfl⟩
  | some e => exact .inr ⟨e, _, _, rfl, d.store.handle_step e⟩

theorem over_handle (ended : d.store.Over t) (event : SearchEvent) :
    (d.handle event).store.Over t := by
  rcases d.store_cases event with ⟨-, same⟩ | ⟨e, fault, applied, -, step⟩
  · rw [same]
    exact ended
  · exact step.stays_over ended

/-- Only opening a search starts anything. -/
theorem storeEvent?_start {event : SearchEvent} {action : AsyncAction SearchMessage EditorAction}
    (does : d.storeEvent? event = some (.start action)) :
    ∃ library target, event = .search library target ∧
      action = awaitPick (library.offeredFor d.store.state.graph) target := by
  cases event with
  | search library target => cases does; exact ⟨library, target, rfl, rfl⟩
  | pick token template => obtain ⟨h, -, told⟩ := Option.map_eq_some_iff.1 does; cases told
  | close token => obtain ⟨h, -, told⟩ := Option.map_eq_some_iff.1 does; cases told
  | dispatch action => cases does
  | cancelPending => cases does
  | tick => cases does

/-- Only the one who holds a search tells it anything, and gives it up with that. -/
theorem storeEvent?_tell {event : SearchEvent} {message : SearchMessage} (orderly : d.Orderly)
    (does : d.storeEvent? event = some (.tell t message)) :
    (∃ h, d.held.get? t = some h) ∧ (d.handle event).held = d.held.erase t := by
  cases event with
  | search library target => cases does
  | pick token template =>
    obtain ⟨h, found, told⟩ := Option.map_eq_some_iff.1 does
    obtain ⟨own, -⟩ := orderly.held token h found
    cases told
    rw [handle, own, found]
    exact ⟨⟨h, rfl⟩, rfl⟩
  | close token =>
    obtain ⟨h, found, told⟩ := Option.map_eq_some_iff.1 does
    obtain ⟨own, -⟩ := orderly.held token h found
    cases told
    rw [handle, own, found]
    exact ⟨⟨h, rfl⟩, rfl⟩
  | dispatch action => cases does
  | cancelPending => cases does
  | tick => cases does

/-- A search that is held behind an event was held before, or has just been opened. -/
theorem held_cases (orderly : d.Orderly) {event : SearchEvent}
    (found : (d.handle event).held.get? t = some h) :
    d.held.get? t = some h ∨ ∃ library target, event = .search library target ∧
      t = ⟨d.store.tokens⟩ ∧ h = ⟨⟨library.offeredFor d.store.state.graph, t⟩, target⟩ := by
  have erased {token : CancelToken} (left : (d.held.erase token).get? t = some h) :
      d.held.get? t = some h := by
    rw [OrderedMap.get?_erase] at left
    split at left
    · cases left
    · exact left
  cases event with
  | search library target =>
    obtain ⟨_, store, -, -, -, rfl, -, handled⟩ := opened_eq orderly library target
    rw [handled, OrderedMap.get?_insert] at found
    split at found
    · rename_i fresh
      cases found
      exact .inr ⟨library, target, rfl, fresh, by rw [fresh]⟩
    · exact .inl found
  | pick token template =>
    rw [handle] at found
    split at found
    · exact .inl (erased found)
    · exact .inl found
  | close token =>
    rw [handle] at found
    split at found
    · exact .inl (erased found)
    · exact .inl found
  | dispatch action => exact .inl found
  | cancelPending => exact .inl found
  | tick => exact .inl found

theorem Orderly.handle (orderly : d.Orderly) (event : SearchEvent) : (d.handle event).Orderly := by
  have inherited (t : CancelToken) (h : OpenSearch) (held : d.held.get? t = some h)
      (still : (d.handle event).held.get? t = some h) : h.Waits (d.handle event).store := by
    obtain ⟨own, waits⟩ := orderly.held t h held
    rcases d.store_cases event with ⟨-, same⟩ | ⟨e, fault, applied, does, step⟩
    · rw [same]
      exact waits
    · refine step.waits waits fun message told => ?_
      obtain ⟨-, given⟩ := storeEvent?_tell orderly (told ▸ does)
      rw [given, own, OrderedMap.get?_erase, if_pos rfl] at still
      cases still
  have held (t : CancelToken) (h : OpenSearch) (found : (d.handle event).held.get? t = some h) :
      h.searcher.token = t ∧ h.Waits (d.handle event).store := by
    rcases held_cases orderly found with before | ⟨library, target, rfl, rfl, rfl⟩
    · exact ⟨(orderly.held t h before).1, inherited t h before found⟩
    · obtain ⟨_, store, -, pending, tokens, rfl, -, handled⟩ := opened_eq orderly library target
      rw [handled]
      refine ⟨rfl, by rw [tokens]; exact Nat.lt_succ_self _, fun p now _ => ?_⟩
      rw [pending] at now
      cases now
      exact ⟨rfl, rfl⟩
  rcases d.store_cases event with ⟨-, same⟩ | ⟨e, fault, applied, does, step⟩
  · exact ⟨same ▸ orderly.last, same ▸ orderly.awaits, held⟩
  · refine ⟨step.lastPending orderly.last, step.awaits orderly.awaits fun action started => ?_, held⟩
    obtain ⟨library, target, -, awaited⟩ := storeEvent?_start (started ▸ does)
    exact ⟨_, target, awaited⟩

theorem Orderly.after (orderly : d.Orderly) (events : List SearchEvent) :
    (d.after events).Orderly := by
  induction events generalizing d with
  | nil => exact orderly
  | cons event rest ih => exact ih (orderly.handle event)

/-- What a search brings, it brings in a tick, and it is the search that was opened last. -/
theorem creation?_spec (orderly : d.Orderly) {event : SearchEvent} {c : AppliedAction EditorAction}
    (made : d.creation? event = some c) :
    event = .tick ∧ d.store.brought? = some c ∧
      (∃ kind position place, c.action = .createNode kind position place) ∧
      ∃ t, c.source = some t ∧ t.number + 1 = d.store.tokens ∧
        (∃ p, d.store.pending = some p ∧ p.token = t ∧ p.messages.head? ≠ some .closed) ∧
        (d.handle event).store.Over t := by
  cases event with
  | tick =>
    obtain ⟨p, held, source, asked⟩ := Store.pending_of_brought made
    obtain ⟨library, target, action⟩ := orderly.awaits p held
    obtain ⟨empty, tokens⟩ := Store.pending_tick_of_brought made
    have last := orderly.last p held
    have spent : (d.handle .tick).store.Over p.token := by
      refine ⟨?_, fun q now _ => ?_⟩
      · rw [handle, tokens]
        omega
      · rw [handle, empty] at now
        cases now
    rw [action, awaitPick] at asked
    split at asked
    · rename_i id heard
      obtain ⟨found, -, created⟩ := Option.map_eq_some_iff.1 (Option.some.inj asked)
      have open' : p.messages.head? ≠ some .closed := by
        intro closed
        have agree := heard.symm.trans closed
        cases agree
      exact ⟨rfl, made, ⟨_, _, _, created.symm⟩, p.token, source, last, ⟨p, held, rfl, open'⟩, spent⟩
    · cases asked
    · split at asked <;> cases asked
  | _ => cases made

theorem creations_of_over (orderly : d.Orderly) (ended : d.store.Over t)
    (events : List SearchEvent) : ∀ c ∈ d.creations events, c.source ≠ some t := by
  induction events generalizing d with
  | nil => exact fun c none => absurd none List.not_mem_nil
  | cons event rest ih =>
    intro c made
    rcases List.mem_append.1 made with now | later
    · obtain ⟨-, -, -, u, source, -, ⟨p, held, same, unclosed⟩, -⟩ :=
        creation?_spec orderly (Option.mem_toList.1 now)
      intro claimed
      have own : p.token = t := same.trans (Option.some.inj (source.symm.trans claimed))
      exact unclosed (ended.2 p held own)
    · exact ih (orderly.handle event) (over_handle ended event) c later

theorem creations_nodup (orderly : d.Orderly) (events : List SearchEvent) :
    ((d.creations events).map (·.source)).Nodup := by
  induction events generalizing d with
  | nil => exact .nil
  | cons event rest ih =>
    have later := ih (orderly.handle event)
    rw [creations]
    cases made : d.creation? event with
    | none => exact later
    | some c =>
      obtain ⟨-, -, -, t, source, -, -, ended⟩ := creation?_spec orderly made
      refine List.nodup_cons.2 ⟨fun again => ?_, later⟩
      obtain ⟨c', brought, same⟩ := List.mem_map.1 again
      exact creations_of_over (orderly.handle event) ended rest c' brought (same.trans source)

theorem told_handle {message : SearchMessage} (told : d.store.HearsFirst t library target message)
    {event : SearchEvent} (quiet : event.NeitherOpensNorAsks) :
    (d.handle event).store.HearsFirst t library target message := by
  rcases d.store_cases event with ⟨-, same⟩ | ⟨e, fault, applied, does, step⟩
  · rw [same]
    exact told
  · refine step.hearsFirst_stays told (fun ticks => ?_) fun action starts => ?_
    · subst ticks
      cases event with
      | tick => exact quiet
      | search library target => cases does
      | pick token template => obtain ⟨h, -, other⟩ := Option.map_eq_some_iff.1 does; cases other
      | close token => obtain ⟨h, -, other⟩ := Option.map_eq_some_iff.1 does; cases other
      | dispatch action => cases does
      | cancelPending => cases does
    · obtain ⟨library, target, rfl, -⟩ := storeEvent?_start (starts ▸ does)
      exact quiet

theorem told_after {message : SearchMessage} (told : d.store.HearsFirst t library target message)
    {events : List SearchEvent} (quiet : ∀ event ∈ events, event.NeitherOpensNorAsks) :
    (d.after events).store.HearsFirst t library target message := by
  induction events generalizing d with
  | nil => exact told
  | cons event rest ih =>
    exact ih (told_handle told (quiet event List.mem_cons_self)) fun later member =>
      quiet later (List.mem_cons_of_mem _ member)

theorem state_handle {event : SearchEvent} (undispatched : ∀ action, event ≠ .dispatch action)
    (nothing : d.creation? event = none) : (d.handle event).store.state = d.store.state := by
  rcases d.store_cases event with ⟨-, same⟩ | ⟨e, fault, applied, does, step⟩
  · rw [same]
  · refine step.state_eq ?_
    cases event with
    | tick => cases does; exact nothing
    | dispatch action => exact absurd rfl (undispatched action)
    | search library target => cases does; rfl
    | pick token template => obtain ⟨h, -, rfl⟩ := Option.map_eq_some_iff.1 does; rfl
    | close token => obtain ⟨h, -, rfl⟩ := Option.map_eq_some_iff.1 does; rfl
    | cancelPending => cases does; rfl

theorem creations_sourced (orderly : d.Orderly) (events : List SearchEvent) :
    ∀ c ∈ d.creations events, ∃ t, c.source = some t := by
  induction events generalizing d with
  | nil => exact fun c none => absurd none List.not_mem_nil
  | cons event rest ih =>
    intro c made
    rcases List.mem_append.1 made with now | later
    · obtain ⟨-, -, -, t, source, -⟩ := creation?_spec orderly (Option.mem_toList.1 now)
      exact ⟨t, source⟩
    · exact ih (orderly.handle event) c later

/-- Opening a search always succeeds, and whatever was opened before brings nothing any more. -/
theorem search_spec (orderly : d.Orderly) (library : NodeLibrary) (target : SearchTarget) :
    let opened := d.handle (.search library target)
    let s : Searcher := ⟨library.offeredFor d.store.state.graph, ⟨d.store.tokens⟩⟩
    Searcher.opened d.store library target = (.ok s, opened.store) ∧
      opened.held.get? s.token = some ⟨s, target⟩ ∧ opened.store.isPending s.token = true ∧
      ∀ later, ∀ c ∈ opened.creations later, ∃ t, c.source = some t ∧ d.store.tokens ≤ t.number := by
  intro opened s
  obtain ⟨_, store, -, pending, tokens, rfl, started, handled⟩ := opened_eq orderly library target
  have orderly' : opened.Orderly := orderly.handle _
  have whole : opened = ⟨store, d.held.insert s.token ⟨s, target⟩⟩ := handled
  have behind : opened.store = store := by rw [whole]
  refine ⟨by rw [started, behind], ?_, ?_, fun later c made => ?_⟩
  · rw [whole]
    exact OrderedMap.get?_insert_self
  · rw [behind, Store.isPending, pending]
    exact decide_eq_true rfl
  · obtain ⟨t, source⟩ := creations_sourced orderly' later c made
    refine ⟨t, source, Nat.le_of_not_lt fun former => ?_⟩
    have ended : opened.store.Over t := by
      rw [behind]
      refine ⟨by omega, fun p held same => ?_⟩
      rw [pending] at held
      cases held
      exact absurd former (by rw [← same]; exact Nat.lt_irrefl _)
    exact creations_of_over orderly' ended later c made source

theorem pick_spec (orderly : d.Orderly) (found : d.held.get? t = some h) (template : String) :
    let picked := d.handle (.pick t template)
    if (h.searcher.pick d.store template).1 then
      ∃ chosen, h.searcher.library.get? template = some chosen ∧
        ∀ between : List SearchEvent, (∀ event ∈ between, event.NeitherOpensNorAsks) →
          (picked.after between).creation? .tick =
            some ⟨some t, .createNode chosen.kind h.target.position h.target.place⟩
    else ∀ later, ∀ c ∈ picked.creations later, c.source ≠ some t := by
  intro picked
  obtain ⟨rfl, waits⟩ := orderly.held t h found
  have behind : picked.store = (h.searcher.pick d.store template).2 := by
    show (d.handle _).store = _
    rw [handle, found]
  have orderly' : picked.Orderly := orderly.handle _
  cases offered : h.searcher.library.get? template with
  | none =>
    have refused : h.searcher.pick d.store template = (false, h.searcher.close d.store) := by
      rw [Searcher.pick, offered]
      rfl
    rw [if_neg (by rw [refused]; exact Bool.false_ne_true)]
    rw [refused] at behind
    have ended : picked.store.Over h.searcher.token := by
      rw [behind]
      exact Store.over_close waits
    exact creations_of_over orderly' ended
  | some chosen =>
    have told : h.searcher.pick d.store template =
        (d.store.isPending h.searcher.token, d.store.tell h.searcher.token (.picked template)) := by
      rw [Searcher.pick, offered]
      rfl
    have behind : picked.store = d.store.tell h.searcher.token (.picked template) := by
      rw [behind, told]
    rw [told]
    cases pending : d.store.isPending h.searcher.token with
    | true =>
      refine ⟨chosen, rfl, fun between quiet => ?_⟩
      have heard : picked.store.HearsFirst _ _ _ (.picked template) :=
        behind ▸ Store.tell_hearsFirst waits pending
      exact (told_after heard quiet).brings offered
    | false =>
      have ended : picked.store.Over h.searcher.token := by
        have gone := Store.over_of_not_pending waits.known pending
        exact over_handle gone _
      exact creations_of_over orderly' ended

theorem close_spec (orderly : d.Orderly) (found : d.held.get? t = some h) :
    let closed := d.handle (.close t)
    (∀ later, ∀ c ∈ closed.creations later, c.source ≠ some t) ∧
      (d.store.isPending t = true → ∀ between : List SearchEvent,
        (∀ event ∈ between, event.NeitherOpensNorAsks) →
        (closed.after between).store.tick =
          (.ok .finished, { (closed.after between).store with pending := none })) := by
  intro closed
  obtain ⟨rfl, waits⟩ := orderly.held t h found
  have behind : closed.store = d.store.tell h.searcher.token .closed := by
    show (d.handle _).store = _
    rw [handle, found]
    rfl
  constructor
  · have ended : closed.store.Over h.searcher.token := by
      rw [behind]
      exact Store.over_close waits
    exact creations_of_over (orderly.handle _) ended
  · intro pending between quiet
    have heard : closed.store.HearsFirst _ _ _ .closed :=
      behind ▸ Store.tell_hearsFirst waits pending
    exact (told_after heard quiet).finishes

/-- Searches at one store, in whatever order they are opened, picked from, closed, cancelled and
asked, with whatever actions between. Opening never fails. Only the search that was opened last
makes a node, and every search makes one at most. A pick that is denied changes nothing and leads
to nothing; one that is confirmed is in the next tick the making of a node of the template, unless
another search is opened before. Closing finishes without a change. -/
theorem searches_safe (initial : EditorState)
    (reducers : OrderedMap String (Reducer EditorState EditorAction)) (events : List SearchEvent) :
    let opened : Desk := ⟨{ Store.new initial with reducers }, ∅⟩
    let d := opened.after events
    ((opened.creations events).map (·.source)).Nodup ∧
    (∀ event, (∀ action, event ≠ .dispatch action) → d.creation? event = none →
      (d.handle event).store.state = d.store.state) ∧
    (∀ event c, d.creation? event = some c → event = .tick ∧
      (∃ kind position place, c.action = .createNode kind position place) ∧
      (∃ t, c.source = some t ∧ t.number + 1 = d.store.tokens) ∧
      d.store.tick = match Store.dispatch { d.store with pending := none } c.action with
        | .ok next => (.ok .applied, next)
        | .error e => (.error e, { d.store with pending := none })) ∧
    (∀ library target,
      let searching := d.handle (.search library target)
      let s : Searcher := ⟨library.offeredFor d.store.state.graph, ⟨d.store.tokens⟩⟩
      Searcher.opened d.store library target = (.ok s, searching.store) ∧
      searching.held.get? s.token = some ⟨s, target⟩ ∧
      searching.store.isPending s.token = true ∧
      ∀ later, ∀ c ∈ searching.creations later,
        ∃ t, c.source = some t ∧ s.token.number ≤ t.number) ∧
    ∀ t h, d.held.get? t = some h →
      (∀ template,
        let picked := d.handle (.pick t template)
        if (h.searcher.pick d.store template).1 then
          ∃ chosen, h.searcher.library.get? template = some chosen ∧
            ∀ between : List SearchEvent, (∀ event ∈ between, event.NeitherOpensNorAsks) →
              (picked.after between).creation? .tick =
                some ⟨some t, .createNode chosen.kind h.target.position h.target.place⟩
        else ∀ later, ∀ c ∈ picked.creations later, c.source ≠ some t) ∧
      let closed := d.handle (.close t)
      (∀ later, ∀ c ∈ closed.creations later, c.source ≠ some t) ∧
      (d.store.isPending t = true →
        ∀ between : List SearchEvent, (∀ event ∈ between, event.NeitherOpensNorAsks) →
          (closed.after between).store.tick =
            (.ok .finished, { (closed.after between).store with pending := none })) := by
  intro opened d
  have fresh : opened.Orderly := by
    refine ⟨fun p held => ?_, fun p held => ?_, fun t h found => ?_⟩
    · cases held
    · cases held
    · cases found
  have orderly : d.Orderly := fresh.after events
  refine ⟨creations_nodup fresh events, fun event undispatched nothing =>
    state_handle undispatched nothing, fun event c made => ?_, fun library target =>
    search_spec orderly library target, fun t h found => ⟨fun template =>
    pick_spec orderly found template, close_spec orderly found⟩⟩
  obtain ⟨ticked, brings, creates, t, source, last, -⟩ := creation?_spec orderly made
  exact ⟨ticked, creates, ⟨t, source, last⟩, Store.tick_of_brought brings⟩

end Desk

end NodeScript
