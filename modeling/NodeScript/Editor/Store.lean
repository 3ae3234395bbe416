import NodeScript.OrderedMap

/-!
A store: a state that changes only by actions, each of which is handled by the reducer of its kind.
One asynchronous action may be pending; it is asked once in every tick whether it has finished, and
may then bring a further action with it.
-/

namespace NodeScript

/-- An action: the name of its kind, which is the name that reducers are registered under, and what
it carries. -/
class Action (α : Type) where
  /-- The name of the kind of an action. -/
  actionName : α → String

/-- Why a store did not do what it was told. -/
inductive StoreError where
  | noReducer (action : String)
  | rejected (action message : String)
  | operationPending
deriving DecidableEq, Repr

/-- The wording of the error. -/
def StoreError.message : StoreError → String
  | .noReducer action => s!"No reducer registered for {action}"
  | .rejected action message => s!"Action {action} failed: {message}"
  | .operationPending => "An asynchronous operation is still pending"

instance : ToString StoreError := ⟨StoreError.message⟩

/-- The fault of a second reducer for a kind of actions. -/
structure DuplicateReducer where
  action : String
deriving DecidableEq, Repr

/-- The wording of the fault. -/
def DuplicateReducer.message (d : DuplicateReducer) : String :=
  s!"Reducer already registered for {d.action}"

instance : ToString DuplicateReducer := ⟨DuplicateReducer.message⟩

/-- What an asynchronous action sees when it is asked whether it has finished. -/
structure Outlook (μ : Type) where
  /-- How often it has been asked before. -/
  asked : Nat
  /-- Whether it has been cancelled. -/
  cancelled : Bool
  /-- What it has been told, in order. -/
  messages : List μ

/-- An asynchronous action: while it waits it answers nothing, and then the action that follows, if
one does. -/
abbrev AsyncAction (μ α : Type) := Outlook μ → Option (Option α)

namespace AsyncAction

variable {μ α : Type}

/-- Never finishes. -/
def never : AsyncAction μ α := fun _ => none

/-- Waits a number of times, and then finishes. -/
def after (times : Nat) (next : Option α) : AsyncAction μ α := fun o =>
  if o.asked < times then none else some next

/-- Finishes when it is cancelled. -/
def onCancel (next : Option α) : AsyncAction μ α := fun o => if o.cancelled then some next else none

end AsyncAction

/-- The number of an asynchronous action, by which it can be cancelled and told things. -/
structure CancelToken where
  number : Nat
deriving DecidableEq, Repr, Inhabited

/-- A pending action. -/
structure PendingAction (μ α : Type) where
  token : CancelToken
  action : AsyncAction μ α
  asked : Nat
  messages : List μ

/-- What a tick did. -/
inductive TickStatus where
  /-- Nothing was pending. -/
  | idle
  /-- The pending action still waits. -/
  | pending
  /-- The pending action has finished, and the action that followed was applied. -/
  | applied
  /-- The pending action has finished, and nothing followed. -/
  | finished
deriving DecidableEq, Repr

/-- A reducer: the next state, or why the action is rejected. -/
abbrev Reducer (σ α : Type) := σ → α → Except String σ

/-- A store. -/
structure Store (σ α μ : Type) where
  state : σ
  reducers : OrderedMap String (Reducer σ α)
  /-- How many actions have been applied. -/
  version : Nat
  pending : Option (PendingAction μ α)
  /-- How many tokens have been given out. -/
  tokens : Nat
  /-- The tokens that have been cancelled. -/
  cancelled : List CancelToken

namespace Store

variable {σ α μ : Type}

/-- A store without reducers. -/
def new (state : σ) : Store σ α μ := ⟨state, ∅, 0, none, 0, []⟩

/-- Registers the reducer for a kind of actions, unless there is one. -/
def register (s : Store σ α μ) (action : String) (reducer : Reducer σ α) :
    Except DuplicateReducer (Store σ α μ) :=
  if s.reducers.contains action then .error ⟨action⟩
  else .ok { s with reducers := s.reducers.insert action reducer }

/-- Applies an action through the reducer of its kind. A rejected action changes nothing. -/
def dispatch [Action α] (s : Store σ α μ) (action : α) : Except StoreError (Store σ α μ) :=
  let name := Action.actionName action
  match s.reducers.get? name with
  | none => .error (.noReducer name)
  | some reducer =>
    match reducer s.state action with
    | .ok next => .ok { s with state := next, version := s.version + 1 }
    | .error message => .error (.rejected name message)

/-- Whether a token has been given out. -/
def hasToken (s : Store σ α μ) (token : CancelToken) : Bool := token.number < s.tokens

/-- Whether the action of a token has been cancelled. -/
def isCancelled (s : Store σ α μ) (token : CancelToken) : Bool := s.cancelled.contains token

/-- Cancels the action of a token. The action learns of it when it is next asked. -/
def cancel (s : Store σ α μ) (token : CancelToken) : Store σ α μ :=
  { s with cancelled := token :: s.cancelled }

/-- Cancels the pending action. -/
def cancelPending (s : Store σ α μ) : Store σ α μ :=
  match s.pending with
  | some p => s.cancel p.token
  | none => s

/-- Whether the action of a token is pending. -/
def isPending (s : Store σ α μ) (token : CancelToken) : Bool :=
  s.pending.any fun p => p.token = token

/-- Tells the action of a token something, if it is pending. -/
def tell (s : Store σ α μ) (token : CancelToken) (message : μ) : Store σ α μ :=
  { s with pending := s.pending.map fun p =>
      if p.token = token then { p with messages := p.messages ++ [message] } else p }

/-- What a pending action sees. -/
def outlook (s : Store σ α μ) (p : PendingAction μ α) : Outlook μ :=
  ⟨p.asked, s.isCancelled p.token, p.messages⟩

/-- Asks a pending action whether it has finished. It is no longer pending when it has. -/
def poll (s : Store σ α μ) (p : PendingAction μ α) : Option (Option α) × Store σ α μ :=
  match p.action (s.outlook p) with
  | some next => (some next, { s with pending := none })
  | none => (none, { s with pending := some { p with asked := p.asked + 1 } })

/-- Makes an action pending. -/
def begin (s : Store σ α μ) (action : AsyncAction μ α) : CancelToken × Store σ α μ :=
  let token : CancelToken := ⟨s.tokens⟩
  (token, { s with pending := some ⟨token, action, 0, []⟩, tokens := s.tokens + 1 })

/-- Starts an asynchronous action. The one that is pending is cancelled and asked once; whatever it
brings is dropped, and if it still waits it stays and nothing is started. -/
def start (s : Store σ α μ) (action : AsyncAction μ α) :
    Except StoreError CancelToken × Store σ α μ :=
  match s.pending with
  | none =>
    let (token, s) := s.begin action
    (.ok token, s)
  | some p =>
    match (s.cancel p.token).poll p with
    | (none, s) => (.error .operationPending, s)
    | (some _, s) =>
      let (token, s) := s.begin action
      (.ok token, s)

/-- Asks the pending action whether it has finished, and applies the action that follows. -/
def tick [Action α] (s : Store σ α μ) : Except StoreError TickStatus × Store σ α μ :=
  match s.pending with
  | none => (.ok .idle, s)
  | some p =>
    match s.poll p with
    | (none, s) => (.ok .pending, s)
    | (some none, s) => (.ok .finished, s)
    | (some (some next), s) =>
      match s.dispatch next with
      | .ok s => (.ok .applied, s)
      | .error e => (.error e, s)

end Store

end NodeScript
