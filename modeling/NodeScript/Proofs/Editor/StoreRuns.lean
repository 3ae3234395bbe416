import Mathlib.Data.List.Nodup
import NodeScript.Editor.Store

/-!
Runs of a store. Whatever is done to a store, in whatever order and with whatever asynchronous
actions, its state is what its reducers make of the actions that were applied, one after the other,
and of every asynchronous action the store applies at most the one action that followed it. An
asynchronous action answers by how often it has been asked, so it may answer in any sequence at all.
-/

namespace NodeScript

/-- What may be done to a store. -/
inductive StoreEvent (μ α : Type) where
  | dispatch (action : α)
  | start (action : AsyncAction μ α)
  | cancel (token : CancelToken)
  | cancelPending
  | tell (token : CancelToken) (message : μ)
  | tick

/-- An action that a store has applied, with the token of the asynchronous action that brought it if
one did. -/
structure AppliedAction (α : Type) where
  source : Option CancelToken
  action : α

variable {σ α μ : Type}

namespace Store

theorem poll_of_waits {s : Store σ α μ} {p : PendingAction μ α} (asked : p.action (s.outlook p) = none) :
    s.poll p = (none, { s with pending := some { p with asked := p.asked + 1 } }) := by
  rw [poll, asked]

theorem poll_of_finishes {s : Store σ α μ} {p : PendingAction μ α} {next : Option α}
    (asked : p.action (s.outlook p) = some next) :
    s.poll p = (some next, { s with pending := none }) := by
  rw [poll, asked]

/-- A start that fails leaves the action that is pending where it is, cancelled and asked once
more. -/
theorem start_error {s s' : Store σ α μ} {action : AsyncAction μ α} {e : StoreError}
    (failed : s.start action = (.error e, s')) :
    e = .operationPending ∧ s'.tokens = s.tokens ∧
      ∃ p, s.pending = some p ∧ s'.pending = some { p with asked := p.asked + 1 } ∧
        s'.isCancelled p.token = true := by
  unfold start at failed
  split at failed
  · cases failed
  · rename_i p held
    cases asked : p.action ((s.cancel p.token).outlook p) with
    | none =>
      rw [poll_of_waits asked] at failed
      cases failed
      exact ⟨rfl, rfl, p, held, rfl, List.contains_iff_mem.2 List.mem_cons_self⟩
    | some next =>
      rw [poll_of_finishes asked] at failed
      cases failed

end Store

variable [Action α]

/-- The state that an action leads to by the reducer of its kind, if it is accepted. -/
def reduce? (reducers : OrderedMap String (Reducer σ α)) (state : σ) (action : α) : Option σ :=
  (reducers.get? (Action.actionName action)).bind fun reducer => (reducer state action).toOption

namespace Store

/-- The error of an event, if it fails, and the store behind it. -/
def handle (s : Store σ α μ) : StoreEvent μ α → Option StoreError × Store σ α μ
  | .dispatch action =>
    match s.dispatch action with
    | .ok next => (none, next)
    | .error e => (some e, s)
  | .start action =>
    match s.start action with
    | (.ok _, next) => (none, next)
    | (.error e, next) => (some e, next)
  | .cancel token => (none, s.cancel token)
  | .cancelPending => (none, s.cancelPending)
  | .tell token message => (none, s.tell token message)
  | .tick =>
    match s.tick with
    | (.ok _, next) => (none, next)
    | (.error e, next) => (some e, next)

/-- What a pending action brings when it is asked now. -/
def brought? (s : Store σ α μ) : Option (AppliedAction α) :=
  s.pending.bind fun p => (p.action (s.outlook p)).join.map fun action => ⟨some p.token, action⟩

/-- The action that an event puts before the reducers. -/
def offered? (s : Store σ α μ) : StoreEvent μ α → Option (AppliedAction α)
  | .dispatch action => some ⟨none, action⟩
  | .tick => s.brought?
  | _ => none

/-- The action that an event applies by the store's own account: the one that is dispatched, or in a
tick the one that the pending action brings. -/
def appliedBy (s : Store σ α μ) : StoreEvent μ α → Option (AppliedAction α)
  | .dispatch action =>
    match s.dispatch action with
    | .ok _ => some ⟨none, action⟩
    | .error _ => none
  | .tick => if s.tick.1 = .ok .applied then s.brought? else none
  | _ => none

/-- The store behind events. -/
def after (s : Store σ α μ) (events : List (StoreEvent μ α)) : Store σ α μ :=
  events.foldl (fun s event => (s.handle event).2) s

/-- The actions that events apply, in order. -/
def journal (s : Store σ α μ) : List (StoreEvent μ α) → List (AppliedAction α)
  | [] => []
  | event :: rest => (s.appliedBy event).toList ++ (s.handle event).2.journal rest

/-- What an event can do to a store: the error it ends in, if it fails, the action it applies, if it
applies one, and the store behind it. -/
inductive Step (s : Store σ α μ) :
    StoreEvent μ α → Option StoreError → Option (AppliedAction α) → Store σ α μ → Prop
  | applied {action next} : reduce? s.reducers s.state action = some next →
      Step s (.dispatch action) none (some ⟨none, action⟩)
        { s with state := next, version := s.version + 1 }
  | rejected {action} (e) : reduce? s.reducers s.state action = none →
      Step s (.dispatch action) (some e) none s
  | begun {action} : s.pending = none → Step s (.start action) none none (s.begin action).2
  | replaced {action p} : s.pending = some p →
      Step s (.start action) none none
        (Store.begin { s.cancel p.token with pending := none } action).2
  | kept {action p} : s.pending = some p → p.action ((s.cancel p.token).outlook p) = none →
      Step s (.start action) (some .operationPending) none
        { s.cancel p.token with pending := some { p with asked := p.asked + 1 } }
  | cancelled (token) : Step s (.cancel token) none none (s.cancel token)
  | spared : s.pending = none → Step s .cancelPending none none s
  | cancelledPending {p} : s.pending = some p →
      Step s .cancelPending none none (s.cancel p.token)
  | told (token message) : Step s (.tell token message) none none (s.tell token message)
  | idle : s.pending = none → Step s .tick none none s
  | waited {p} : s.pending = some p → p.action (s.outlook p) = none →
      Step s .tick none none { s with pending := some { p with asked := p.asked + 1 } }
  | finished {p} : s.pending = some p → p.action (s.outlook p) = some none →
      Step s .tick none none { s with pending := none }
  | followed {p action next} : s.pending = some p → p.action (s.outlook p) = some (some action) →
      reduce? s.reducers s.state action = some next →
      Step s .tick none (some ⟨some p.token, action⟩)
        { s with pending := none, state := next, version := s.version + 1 }
  | dropped {p action} (e) : s.pending = some p → p.action (s.outlook p) = some (some action) →
      reduce? s.reducers s.state action = none →
      Step s .tick (some e) none { s with pending := none }

variable {s s' : Store σ α μ} {event : StoreEvent μ α} {fault : Option StoreError}
  {applied : Option (AppliedAction α)} {t : CancelToken}

theorem dispatch_cases (s : Store σ α μ) (action : α) :
    (∃ next, reduce? s.reducers s.state action = some next ∧
      s.dispatch action = .ok { s with state := next, version := s.version + 1 }) ∨
    reduce? s.reducers s.state action = none ∧ ∃ e, s.dispatch action = .error e := by
  unfold dispatch reduce?
  dsimp only
  cases found : s.reducers.get? (Action.actionName action) with
  | none => exact .inr ⟨rfl, _, rfl⟩
  | some reducer =>
    dsimp only [Option.bind_some]
    cases reduced : reducer s.state action with
    | error message => exact .inr ⟨rfl, _, rfl⟩
    | ok next => exact .inl ⟨next, rfl, rfl⟩

theorem handle_start_step (s : Store σ α μ) (action : AsyncAction μ α) :
    s.Step (.start action) (s.handle (.start action)).1 none (s.handle (.start action)).2 := by
  cases held : s.pending with
  | none =>
    have run : s.start action = (.ok ⟨s.tokens⟩, (s.begin action).2) := by
      rw [start, held]
      rfl
    rw [handle, run]
    exact .begun held
  | some p =>
    cases asked : p.action ((s.cancel p.token).outlook p) with
    | none =>
      have run : s.start action = (.error .operationPending,
          { s.cancel p.token with pending := some { p with asked := p.asked + 1 } }) := by
        rw [start, held]
        dsimp only
        rw [poll_of_waits asked]
      rw [handle, run]
      exact .kept held asked
    | some next =>
      have run : s.start action = (.ok ⟨s.tokens⟩,
          (Store.begin { s.cancel p.token with pending := none } action).2) := by
        rw [start, held]
        dsimp only
        rw [poll_of_finishes asked]
        rfl
      rw [handle, run]
      exact .replaced held

theorem handle_tick_step (s : Store σ α μ) :
    s.Step .tick (s.handle .tick).1 (s.appliedBy .tick) (s.handle .tick).2 := by
  cases held : s.pending with
  | none =>
    have run : s.tick = (.ok .idle, s) := by rw [tick, held]
    rw [handle, appliedBy, run]
    exact .idle held
  | some p =>
    cases asked : p.action (s.outlook p) with
    | none =>
      have run : s.tick =
          (.ok .pending, { s with pending := some { p with asked := p.asked + 1 } }) := by
        rw [tick, held]
        dsimp only
        rw [poll_of_waits asked]
      rw [handle, appliedBy, run]
      exact .waited held asked
    | some answer =>
      cases answer with
      | none =>
        have run : s.tick = (.ok .finished, { s with pending := none }) := by
          rw [tick, held]
          dsimp only
          rw [poll_of_finishes asked]
        rw [handle, appliedBy, run]
        exact .finished held asked
      | some action =>
        rcases dispatch_cases { s with pending := none } action with ⟨next, reduced, run⟩ | ⟨refused, e, run⟩
        · have brings : s.brought? = some ⟨some p.token, action⟩ := by
            rw [brought?, held, Option.bind_some, asked]
            rfl
          have polled : s.tick = (.ok .applied,
              { s with pending := none, state := next, version := s.version + 1 }) := by
            rw [tick, held]
            dsimp only
            rw [poll_of_finishes asked]
            dsimp only
            rw [run]
          rw [handle, appliedBy, polled, brings]
          exact .followed held asked reduced
        · have polled : s.tick = (.error e, { s with pending := none }) := by
            rw [tick, held]
            dsimp only
            rw [poll_of_finishes asked]
            dsimp only
            rw [run]
          rw [handle, appliedBy, polled]
          exact .dropped e held asked refused

theorem handle_step (s : Store σ α μ) (event : StoreEvent μ α) :
    s.Step event (s.handle event).1 (s.appliedBy event) (s.handle event).2 := by
  cases event with
  | dispatch action =>
    rcases dispatch_cases s action with ⟨next, reduced, done⟩ | ⟨refused, e, done⟩
    · simp only [handle, appliedBy, done]
      exact .applied reduced
    · simp only [handle, appliedBy, done]
      exact .rejected e refused
  | start action => exact handle_start_step s action
  | cancel token => exact .cancelled token
  | cancelPending =>
    rw [handle, cancelPending]
    cases held : s.pending with
    | none => exact .spared held
    | some p => exact .cancelledPending held
  | tell token message => exact .told token message
  | tick => exact handle_tick_step s

/-- Only the asynchronous action that was started last is pending. -/
def LastPending (s : Store σ α μ) : Prop :=
  ∀ p, s.pending = some p → p.token.number + 1 = s.tokens

/-- Whether the asynchronous action of a token may still bring an action: it is pending, or it has
not been started yet. -/
def MayBring (s : Store σ α μ) (t : CancelToken) : Prop :=
  (∃ p, s.pending = some p ∧ p.token = t) ∨ s.tokens ≤ t.number

namespace Step

theorem reducers_eq (h : s.Step event fault applied s') : s'.reducers = s.reducers := by
  cases h <;> rfl

theorem account (h : s.Step event fault applied s') :
    (applied.toList.map (·.action)).foldlM (reduce? s.reducers) s.state = some s'.state ∧
      s'.version = s.version + applied.toList.length := by
  cases h with
  | applied reduced => exact ⟨by simpa using reduced, rfl⟩
  | followed held asked reduced => exact ⟨by simpa using reduced, rfl⟩
  | _ => exact ⟨rfl, rfl⟩

theorem applied_eq (h : s.Step event fault applied s') :
    applied = (s.offered? event).filter fun a => (reduce? s.reducers s.state a.action).isSome := by
  cases h with
  | applied reduced => simp [offered?, Option.filter_some, reduced]
  | rejected e refused => simp [offered?, Option.filter_some, refused]
  | idle held => simp [offered?, brought?, held]
  | waited held asked => simp [offered?, brought?, held, asked]
  | finished held asked => simp [offered?, brought?, held, asked]
  | followed held asked reduced => simp [offered?, brought?, Option.filter_some, held, asked, reduced]
  | dropped e held asked refused => simp [offered?, brought?, Option.filter_some, held, asked, refused]
  | _ => rfl

theorem applied_eq_none (h : s.Step event fault applied s') (failed : fault ≠ none) :
    applied = none := by
  cases h with
  | applied reduced => exact absurd rfl failed
  | followed held asked reduced => exact absurd rfl failed
  | _ => rfl

theorem tokens_le (h : s.Step event fault applied s') : s.tokens ≤ s'.tokens := by
  cases h with
  | begun held => exact Nat.le_succ _
  | replaced held => exact Nat.le_succ _
  | _ => exact Nat.le_refl _

/-- Where a pending action comes from: it was pending before and has at most been told something, or
it has just been started. -/
theorem pending_cases {q : PendingAction μ α} (h : s.Step event fault applied s')
    (now : s'.pending = some q) :
    (∃ p, s.pending = some p ∧ q.token = p.token ∧ q.action = p.action ∧
      (q.messages = p.messages ∨
        ∃ message, event = .tell p.token message ∧ q.messages = p.messages ++ [message])) ∨
    ∃ action, event = .start action ∧ q = ⟨⟨s.tokens⟩, action, 0, []⟩ ∧
      s'.tokens = s.tokens + 1 := by
  cases h with
  | begun held => cases now; exact .inr ⟨_, rfl, rfl, rfl⟩
  | replaced held => cases now; exact .inr ⟨_, rfl, rfl, rfl⟩
  | kept held asked => cases now; exact .inl ⟨_, held, rfl, rfl, .inl rfl⟩
  | waited held asked => cases now; exact .inl ⟨_, held, rfl, rfl, .inl rfl⟩
  | told token message =>
    obtain ⟨p, held, rfl⟩ := Option.map_eq_some_iff.1 now
    split
    · rename_i same
      exact .inl ⟨p, held, rfl, rfl, .inr ⟨message, by rw [same], rfl⟩⟩
    · exact .inl ⟨p, held, rfl, rfl, .inl rfl⟩
  | finished held asked => cases now
  | followed held asked reduced => cases now
  | dropped e held asked refused => cases now
  | applied reduced => exact .inl ⟨q, now, rfl, rfl, .inl rfl⟩
  | rejected e refused => exact .inl ⟨q, now, rfl, rfl, .inl rfl⟩
  | cancelled token => exact .inl ⟨q, now, rfl, rfl, .inl rfl⟩
  | spared held => exact .inl ⟨q, now, rfl, rfl, .inl rfl⟩
  | cancelledPending held => exact .inl ⟨q, now, rfl, rfl, .inl rfl⟩
  | idle held => exact .inl ⟨q, now, rfl, rfl, .inl rfl⟩

/-- Tokens are given out by starts only. -/
theorem tokens_cases (h : s.Step event fault applied s') :
    s'.tokens = s.tokens ∨ ∃ action, event = .start action ∧
      s'.pending = some ⟨⟨s.tokens⟩, action, 0, []⟩ ∧ s'.tokens = s.tokens + 1 := by
  cases h with
  | begun held => exact .inr ⟨_, rfl, rfl, rfl⟩
  | replaced held => exact .inr ⟨_, rfl, rfl, rfl⟩
  | _ => exact .inl rfl

theorem lastPending (h : s.Step event fault applied s') (last : s.LastPending) :
    s'.LastPending := by
  intro q now
  rcases h.tokens_cases with same | ⟨action, -, begun, counted⟩
  · rcases h.pending_cases now with ⟨p, held, token, -⟩ | ⟨action, -, -, counted⟩
    · rw [same, token]
      exact last p held
    · omega
  · rw [begun] at now
    cases now
    exact counted.symm

/-- An asynchronous action that is over does not come back. -/
theorem mayBring (h : s.Step event fault applied s') (open' : s'.MayBring t) : s.MayBring t := by
  have later := h.tokens_le
  rcases open' with ⟨q, now, rfl⟩ | fresh
  · rcases h.pending_cases now with ⟨p, held, token, -⟩ | ⟨action, -, rfl, -⟩
    · exact .inl ⟨p, held, token.symm⟩
    · exact .inr (Nat.le_refl _)
  · exact .inr (by omega)

theorem source_cases {a : AppliedAction α} (h : s.Step event fault (some a) s')
    (source : a.source = some t) :
    event = .tick ∧ (∃ p, s.pending = some p ∧ p.token = t) ∧ s'.pending = none ∧
      s'.tokens = s.tokens := by
  cases h with
  | applied reduced => cases source
  | followed held asked reduced => cases source; exact ⟨rfl, ⟨_, held, rfl⟩, rfl, rfl⟩

/-- What an asynchronous action brings is the last that is heard of it. -/
theorem source_closed {a : AppliedAction α} (h : s.Step event fault (some a) s')
    (source : a.source = some t) (last : s.LastPending) : s.MayBring t ∧ ¬ s'.MayBring t := by
  obtain ⟨-, held, empty, tokens⟩ := h.source_cases source
  refine ⟨.inl held, ?_⟩
  obtain ⟨p, held, rfl⟩ := held
  have started := last p held
  rintro (⟨q, now, -⟩ | fresh)
  · rw [empty] at now
    cases now
  · omega

end Step

theorem reducers_after (s : Store σ α μ) (events : List (StoreEvent μ α)) :
    (s.after events).reducers = s.reducers := by
  induction events generalizing s with
  | nil => rfl
  | cons event rest ih => exact (ih _).trans (s.handle_step event).reducers_eq

theorem LastPending.after (last : s.LastPending) (events : List (StoreEvent μ α)) :
    (s.after events).LastPending := by
  induction events generalizing s with
  | nil => exact last
  | cons event rest ih => exact ih ((s.handle_step event).lastPending last)

/-- The journal replayed leads to where the store is. -/
theorem journal_replays (s : Store σ α μ) (events : List (StoreEvent μ α)) :
    ((s.journal events).map (·.action)).foldlM (reduce? s.reducers) s.state =
        some (s.after events).state ∧
      (s.after events).version = s.version + (s.journal events).length := by
  induction events generalizing s with
  | nil => exact ⟨rfl, rfl⟩
  | cons event rest ih =>
    have step := s.handle_step event
    obtain ⟨here, count⟩ := step.account
    obtain ⟨replayed, counted⟩ := ih (s.handle event).2
    rw [step.reducers_eq] at replayed
    constructor
    · rw [journal, List.map_append, List.foldlM_append, here]
      exact replayed
    · rw [journal, List.length_append]
      exact counted.trans (by omega)

theorem mayBring_of_mem_journal {events : List (StoreEvent μ α)}
    (brought : t ∈ (s.journal events).filterMap (·.source)) (last : s.LastPending) :
    s.MayBring t := by
  induction events generalizing s with
  | nil => cases brought
  | cons event rest ih =>
    have step := s.handle_step event
    rw [journal, List.filterMap_append, List.mem_append] at brought
    rcases brought with here | later
    · cases does : s.appliedBy event with
      | none => simp [does] at here
      | some a =>
        have source : a.source = some t := by simpa [does] using here
        rw [does] at step
        exact (step.source_closed source last).1
    · exact step.mayBring (ih later (step.lastPending last))

theorem sources_nodup (last : s.LastPending) (events : List (StoreEvent μ α)) :
    ((s.journal events).filterMap (·.source)).Nodup := by
  induction events generalizing s with
  | nil => exact .nil
  | cons event rest ih =>
    have step := s.handle_step event
    have later := ih (step.lastPending last)
    rw [journal, List.filterMap_append]
    cases does : s.appliedBy event with
    | none => exact later
    | some a =>
      cases source : a.source with
      | none => simpa [source] using later
      | some t =>
        rw [does] at step
        have spent : t ∉ ((s.handle event).2.journal rest).filterMap (·.source) := fun again =>
          (step.source_closed source last).2
            (mayBring_of_mem_journal again (step.lastPending last))
        have first : ([a].filterMap (·.source)) = [t] := by simp [source]
        rw [Option.toList_some, first]
        exact List.nodup_cons.2 ⟨spent, later⟩

/-- A start that succeeds puts the new action in the place of the one that was pending, which brings
nothing any more. -/
theorem start_ok {action : AsyncAction μ α} (started : s.start action = (.ok t, s'))
    (last : s.LastPending) :
    t = ⟨s.tokens⟩ ∧ s'.pending = some ⟨t, action, 0, []⟩ ∧
      ∀ (later : List (StoreEvent μ α)), ∀ u ∈ (s'.journal later).filterMap (·.source),
        t.number ≤ u.number := by
  have begun : t = ⟨s.tokens⟩ ∧ s'.pending = some ⟨t, action, 0, []⟩ ∧
      s'.tokens = s.tokens + 1 := by
    unfold start at started
    split at started
    · cases started
      exact ⟨rfl, rfl, rfl⟩
    · rename_i p held
      cases asked : p.action ((s.cancel p.token).outlook p) with
      | none =>
        rw [poll_of_waits asked] at started
        cases started
      | some next =>
        rw [poll_of_finishes asked] at started
        cases started
        exact ⟨rfl, rfl, rfl⟩
  obtain ⟨rfl, pending, tokens⟩ := begun
  refine ⟨rfl, pending, fun later u brought => ?_⟩
  have last' : s'.LastPending := by
    have step := handle_start_step s action
    rw [handle, started] at step
    exact step.lastPending last
  rcases mayBring_of_mem_journal brought last' with ⟨p, held, rfl⟩ | fresh
  · rw [pending] at held
    cases held
    exact Nat.le_refl _
  · rw [tokens] at fresh
    exact Nat.le_of_succ_le fresh

/-- Whatever is done to a store, its state is what its reducers make of the actions in its journal,
and an asynchronous action stands there at most once and never after another was started. -/
theorem runs_serialised (initial : σ) (reducers : OrderedMap String (Reducer σ α))
    (events : List (StoreEvent μ α)) :
    let opened : Store σ α μ := { Store.new initial with reducers }
    let journal := opened.journal events
    let s := opened.after events
    (journal.map (·.action)).foldlM (reduce? reducers) initial = some s.state ∧
    s.version = journal.length ∧
    (∀ p, s.pending = some p → p.token.number + 1 = s.tokens) ∧
    (journal.filterMap (·.source)).Nodup ∧
    (∀ event,
      (s.appliedBy event = (s.offered? event).filter fun a =>
        (reduce? reducers s.state a.action).isSome) ∧
      ((s.handle event).1 ≠ none → s.appliedBy event = none ∧
        (s.handle event).2.state = s.state ∧ (s.handle event).2.version = s.version) ∧
      (∀ a t, s.appliedBy event = some a → a.source = some t →
        event = .tick ∧ s.isPending t = true ∧ (s.handle event).2.pending = none)) ∧
    ∀ action : AsyncAction μ α,
      (∀ t s', s.start action = (.ok t, s') →
        t = ⟨s.tokens⟩ ∧ s'.pending = some ⟨t, action, 0, []⟩ ∧
        ∀ later, ∀ u ∈ (s'.journal later).filterMap (·.source), t.number ≤ u.number) ∧
      (∀ e s', s.start action = (.error e, s') →
        e = .operationPending ∧ s'.tokens = s.tokens ∧
        ∃ p, s.pending = some p ∧ s'.pending = some { p with asked := p.asked + 1 } ∧
          s'.isCancelled p.token = true) := by
  intro opened journal s
  have fresh : opened.LastPending := fun p held => by cases held
  have last : s.LastPending := fresh.after events
  have same : s.reducers = reducers := opened.reducers_after events
  obtain ⟨replayed, counted⟩ := opened.journal_replays events
  refine ⟨replayed, counted.trans (Nat.zero_add _), last, opened.sources_nodup fresh events,
    fun event => ?_, fun action => ⟨fun t s' started => start_ok started last,
      fun e s' failed => start_error failed⟩⟩
  have step := s.handle_step event
  refine ⟨same ▸ step.applied_eq, fun failed => ?_, fun a t does source => ?_⟩
  · have nothing := step.applied_eq_none failed
    obtain ⟨kept, unversioned⟩ := step.account
    rw [nothing] at kept unversioned
    exact ⟨nothing, (Option.some.inj kept).symm, unversioned⟩
  · rw [does] at step
    obtain ⟨ticked, ⟨p, held, rfl⟩, empty, -⟩ := step.source_cases source
    exact ⟨ticked, by simp [isPending, held], empty⟩

end Store

end NodeScript
