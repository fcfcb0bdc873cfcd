import DocQuery.Proofs.Filter.Valid
import DocQuery.Repository.Run

/-!
# Operations side by side

Two operations over different stores agree if, run in worlds that are in step, they come to alike results and leave worlds that
are in step again. Agreement is kept by doing one thing after the other, by reading the clock and by drawing identifiers, so that
a program over two adapters agrees with itself where the adapters' operations do.
-/

namespace DocQuery

/-! ## Runs -/

namespace Program

variable {I : Interface} {S α β : Type} {env : Surroundings I S}

/-- What every answer of the store keeps, every run keeps. -/
theorem run_keeps {P : S → Prop} (hanswer : ∀ c s, P s → P (env.answer c s).2) {w : World I S} (h : P w.store)
    (cutoff : Option Nat) (time : Nat) (p : Program I α) : P (p.run env cutoff time w).2.store := by
  induction p generalizing w time with
  | done a => exact h
  | now next ih => exact ih (env.clock w.readings) (w := { w with readings := w.readings + 1 }) h time
  | freshId next ih => exact ih (env.ids w.drawn) (w := { w with drawn := w.drawn + 1 }) h time
  | call c next ih =>
    rw [run]
    split
    · exact h
    · exact ih (env.answer c w.store).1 (hanswer c w.store h) (time + env.latency)

/-- Where calls take no time, no cutoff ends a program. -/
theorem run_of_prompt (h : env.latency = 0) (cutoff : Option Nat) (w : World I S) (p : Program I α) :
    p.run env cutoff 0 w = p.run env none 0 w := by
  induction p generalizing w with
  | done a => rfl
  | now next ih => exact ih _ _
  | freshId next ih => exact ih _ _
  | call c next ih =>
    have hany : cutoff.any (· < 0) = false := by cases cutoff <;> simp
    rw [run, run, h, Nat.add_zero, hany]
    exact ih _ _

/-- Running one program after the other, where calls take no time. -/
theorem run_bind (h : env.latency = 0) {w w' : World I S} {p : Program I α} {a : α}
    (hp : p.run env none 0 w = (some a, w')) (f : α → Program I β) :
    (p.bind f).run env none 0 w = (f a).run env none 0 w' := by
  induction p generalizing w with
  | done b => cases hp; rfl
  | now next ih => exact ih _ hp
  | freshId next ih => exact ih _ hp
  | call c next ih =>
    rw [run, h] at hp
    rw [bind, run, h]
    exact ih _ hp

end Program

section

variable {S α : Type} {failure : Option StoreError} {cleared s : S} {answer answer' : Except StoreError α × S}

/-- With no failure in its way a store answers by what the call does. -/
theorem answerUnless_of_none (h : failure = none) (hanswer : answer = answer') : answerUnless failure cleared answer = answer' := by
  rw [h, hanswer, answerUnless]

/-- What is the same without the failure and after the call is the same after the answer. -/
theorem view_answerUnless {β : Type} (view : S → β) {b : β} (hcleared : view cleared = b) (hanswer : view answer.2 = b) :
    view (answerUnless failure cleared answer).2 = b := by
  cases failure with
  | some e => exact hcleared
  | none => exact hanswer

/-- A call that succeeds has no failure in its way. -/
theorem failure_of_ok {a : α} (h : answerUnless failure cleared answer = (.ok a, s)) : failure = none := by
  cases failure with
  | some e => cases h
  | none => rfl

/-- What a call that succeeds is answered is what the call does. -/
theorem act_of_ok {a : α} (h : answerUnless failure cleared answer = (.ok a, s)) : answer = (.ok a, s) := by
  rwa [failure_of_ok h] at h

end

namespace Operation

variable {I : Interface} {S α β : Type} {env : Surroundings I S}

/-- An operation comes to a result between two worlds. -/
def Yields (env : Surroundings I S) (op : Operation I α) (w : World I S) (r : Except Error α) (w' : World I S) : Prop :=
  Program.run env none 0 w (ExceptT.run op) = (some r, w')

theorem Yields.pure (a : α) (w : World I S) : Yields env (Pure.pure a) w (.ok a) w := rfl

theorem Yields.of (r : Except Error α) (w : World I S) : Yields env (Operation.of r) w r w := rfl

/-- A result that is known to be another one. -/
theorem Yields.of_eq {r r' : Except Error α} (h : r = r') (w : World I S) : Yields env (Operation.of r) w r' w := h ▸ .of r w

/-- One operation after another. -/
theorem Yields.bind (h : env.latency = 0) {op : Operation I α} {next : α → Operation I β} {w w' w'' : World I S} {a : α}
    {r : Except Error β} (hop : op.Yields env w (.ok a) w') (hn : (next a).Yields env w' r w'') :
    (op >>= next).Yields env w r w'' :=
  (Program.run_bind h hop _).trans hn

/-- Nothing comes after an operation that fails. -/
theorem Yields.bind_error (h : env.latency = 0) {op : Operation I α} {w w' : World I S} {e : Error}
    (hop : op.Yields env w (.error e) w') (next : α → Operation I β) : (op >>= next).Yields env w (.error e) w' :=
  Program.run_bind h hop _

variable (env) in
/-- A call that the store answers, and what becomes of the answer. -/
theorem Yields.call (c : I.Call) {w : World I S} {answer : Except StoreError (I.Answer c)} {store : S}
    (h : env.answer c w.store = (answer, store)) (f : Except StoreError (I.Answer c) → Except Error α) :
    Yields env (ExceptT.mk (.call c fun answer => .done (f answer))) w (f answer) { w with log := w.log ++ [c], store } := by
  unfold Yields
  rw [ExceptT.run, ExceptT.mk, Program.run, h]
  rfl

/-- Where calls take no time, an operation runs to its result, whatever its time limit is, unless it is cancelled beforehand. -/
theorem Yields.run (h : env.latency = 0) {op : Operation I α} {w w' : World I S} {r : Except Error α}
    (hop : op.Yields env w r w') (config : EntityConfig) (options : Options) :
    Operation.run env config options w op = if options.cancelAfter = some 0 then (.error .cancelled, w) else (r, w') := by
  unfold Yields at hop
  rw [Operation.run]
  split
  · rfl
  · cases options.cutoff config.defaultTimeout with
    | none => simp only [hop]
    | some limit =>
      obtain ⟨time, reason⟩ := limit
      simp only [Program.run_of_prompt h, hop]

end Operation

/-! ## Agreement -/

/-- Results that callers cannot tell apart: values in a relation, or errors of one kind. -/
inductive Alike {α β : Type} (V : α → β → Prop) : Except Error α → Except Error β → Prop
  | ok {a : α} {b : β} : V a b → Alike V (.ok a) (.ok b)
  | error {e f : Error} : e.kind = f.kind → Alike V (.error e) (.error f)

/-- Two surroundings with one clock and one source of identifiers, whose calls take no time, and when their stores correspond. -/
structure Coupling (I J : Interface) (S T : Type) where
  /-- The one surroundings. -/
  left : Surroundings I S
  /-- The other surroundings. -/
  right : Surroundings J T
  /-- Whether two stores correspond. -/
  Correspond : S → T → Prop
  clock : left.clock = right.clock
  ids : left.ids = right.ids
  left_prompt : left.latency = 0
  right_prompt : right.latency = 0

namespace Coupling

variable {I J : Interface} {S T α β γ δ : Type} (c : Coupling I J S T)

/-- Worlds with corresponding stores, in which the clock was read equally often, and as many identifiers were drawn. -/
structure InStep (w : World I S) (v : World J T) : Prop where
  store : c.Correspond w.store v.store
  readings : w.readings = v.readings
  drawn : w.drawn = v.drawn

/-- Operations that come to alike results in worlds in step, and keep them in step. -/
def Agree (V : α → β → Prop) (x : Operation I α) (y : Operation J β) : Prop :=
  ∀ w v, c.InStep w v → ∃ r s w' v', x.Yields c.left w r w' ∧ y.Yields c.right v s v' ∧ Alike V r s ∧ c.InStep w' v'

variable {c} {V : α → β → Prop} {W : γ → δ → Prop}

/-- Alike results agree. -/
theorem Agree.of {r : Except Error α} {s : Except Error β} (h : Alike V r s) :
    c.Agree V (Operation.of r) (Operation.of s) :=
  fun w v hs => ⟨r, s, w, v, .of r w, .of s v, h, hs⟩

theorem Agree.pure {a : α} {b : β} (h : V a b) : c.Agree V (Pure.pure a) (Pure.pure b) := Agree.of (.ok h)

theorem Agree.throw {e f : Error} (h : e.kind = f.kind) : c.Agree V (throw e) (throw f) := Agree.of (.error h)

/-- One thing after the other. -/
theorem Agree.bind {x : Operation I α} {y : Operation J β} {f : α → Operation I γ} {g : β → Operation J δ}
    (h : c.Agree V x y) (hn : ∀ a b, V a b → c.Agree W (f a) (g b)) : c.Agree W (x >>= f) (y >>= g) := by
  intro w v hs
  obtain ⟨r, s, w', v', hx, hy, hrs, hs⟩ := h w v hs
  cases hrs with
  | ok hab =>
    obtain ⟨r', s', w'', v'', hf, hg, hrs, hs⟩ := hn _ _ hab w' v' hs
    exact ⟨r', s', w'', v'', .bind c.left_prompt hx hf, .bind c.right_prompt hy hg, hrs, hs⟩
  | error he =>
    exact ⟨_, _, w', v', .bind_error c.left_prompt hx _, .bind_error c.right_prompt hy _, .error he, hs⟩

/-- Both clocks show the same. -/
theorem Agree.now : c.Agree Eq Operation.now Operation.now := by
  intro w v hs
  refine ⟨_, _, _, _, rfl, rfl, .ok ?_, ⟨hs.store, congrArg (· + 1) hs.readings, hs.drawn⟩⟩
  rw [c.clock, hs.readings]

/-- Both sources give the same identifier. -/
theorem Agree.freshId : c.Agree Eq Operation.freshId Operation.freshId := by
  intro w v hs
  refine ⟨_, _, _, _, rfl, rfl, .ok ?_, ⟨hs.store, hs.readings, congrArg (· + 1) hs.drawn⟩⟩
  rw [c.ids, hs.drawn]

end Coupling

end DocQuery
