import DocQuery.Error

/-!
# Operations as programs

What an operation does to the outside is data. A program ends with a result, calls the store and goes on with the answer, reads
the clock, or draws a fresh identifier. Nothing else can happen, and what happens between two calls cannot be seen by others: to
run several operations at once is to choose, call by call, whose turn it is.

A run has a cutoff: the time at which its caller stops waiting. A call takes a fixed time, and one that would end after the
cutoff is the last thing the operation does; it has been sent, but it takes no effect and brings no answer.
-/

namespace DocQuery

/-- What can be asked of a store, and the type of each answer. -/
structure Interface where
  /-- The calls. -/
  Call : Type
  /-- The answer to a call that succeeds. -/
  Answer : Call → Type

/-- An operation as a tree of effects. -/
inductive Program (I : Interface) (α : Type) where
  | done (a : α)
  | call (c : I.Call) (next : Except StoreError (I.Answer c) → Program I α)
  | now (next : Instant → Program I α)
  | freshId (next : String → Program I α)

namespace Program

variable {I : Interface} {α β : Type}

/-- One program after the other. -/
def bind : Program I α → (α → Program I β) → Program I β
  | .done a, f => f a
  | .call c next, f => .call c fun answer => (next answer).bind f
  | .now next, f => .now fun t => (next t).bind f
  | .freshId next, f => .freshId fun id => (next id).bind f

instance : Monad (Program I) where
  pure := .done
  bind := bind

@[simp] theorem bind_done (p : Program I α) : p.bind .done = p := by
  induction p with
  | done => rfl
  | call c next ih => simp only [bind, ih]
  | now next ih => simp only [bind, ih]
  | freshId next ih => simp only [bind, ih]

theorem bind_assoc {γ : Type} (p : Program I α) (f : α → Program I β) (g : β → Program I γ) :
    (p.bind f).bind g = p.bind fun a => (f a).bind g := by
  induction p with
  | done => rfl
  | call c next ih => simp only [bind, ih]
  | now next ih => simp only [bind, ih]
  | freshId next ih => simp only [bind, ih]

/-- Calls the store. -/
def ask (c : I.Call) : Program I (Except StoreError (I.Answer c)) := .call c .done

end Program

/-- A program that may fail. -/
abbrev Operation (I : Interface) := ExceptT Error (Program I)

namespace Operation

variable {I : Interface}

/-- Calls the store; `refusal` says what a failure of the store means here. -/
def ask (c : I.Call) (refusal : StoreError → Error) : Operation I (I.Answer c) :=
  ExceptT.mk (.call c fun answer => .done (answer.mapError refusal))

/-- The current instant. -/
def now : Operation I Instant := ExceptT.mk (.now fun t => .done (.ok t))

/-- A fresh identifier. -/
def freshId : Operation I String := ExceptT.mk (.freshId fun id => .done (.ok id))

/-- A result that is already known. -/
def of {α : Type} (r : Except Error α) : Operation I α := ExceptT.mk (.done r)

end Operation

/-- The answer of a store that a failure may be put in the way of: the failure, after which it is gone, or what the call does. -/
def answerUnless {α S : Type} (failure : Option StoreError) (cleared : S) (answer : Except StoreError α × S) :
    Except StoreError α × S :=
  match failure with
  | some e => (.error e, cleared)
  | none => answer

/-- What surrounds a program: how the store answers, what the clock shows, which identifiers are drawn, how long a call takes. -/
structure Surroundings (I : Interface) (S : Type) where
  /-- The answer to a call, and the store afterwards. -/
  answer : (c : I.Call) → S → Except StoreError (I.Answer c) × S
  /-- What the clock shows when it is read for the n-th time. -/
  clock : Nat → Instant
  /-- The n-th identifier that is drawn. -/
  ids : Nat → String
  /-- How many milliseconds a call takes. -/
  latency : Nat

/-- The state of the surroundings, and what has happened so far. -/
structure World (I : Interface) (S : Type) where
  /-- The store. -/
  store : S
  /-- How often the clock was read. -/
  readings : Nat
  /-- How many identifiers were drawn. -/
  drawn : Nat
  /-- The calls that were sent, the latest one last. -/
  log : List I.Call

namespace Program

variable {I : Interface} {S α : Type}

/-- Runs a program from a time on; no result where the cutoff ends it. -/
def run (env : Surroundings I S) (cutoff : Option Nat) (time : Nat) (w : World I S) :
    Program I α → Option α × World I S
  | .done a => (some a, w)
  | .now next => run env cutoff time { w with readings := w.readings + 1 } (next (env.clock w.readings))
  | .freshId next => run env cutoff time { w with drawn := w.drawn + 1 } (next (env.ids w.drawn))
  | .call c next =>
    let sent := { w with log := w.log ++ [c] }
    let ended := time + env.latency
    if cutoff.any (· < ended) then (none, sent)
    else
      let (answer, store) := env.answer c w.store
      run env cutoff ended { sent with store } (next answer)

end Program

end DocQuery
