import DocQuery.Proofs.Repository.Atomic
import DocQuery.Proofs.Repository.OneCall

/-!
# What runs come to

What a run of a program does is fixed by its surroundings, but for the cutoff, which may end it at any of its calls. So what holds of
its result and of the world that it leaves can be worked out backwards through the program, with one case more for every call
(`Program.Ensures`). It then holds of the run of an operation, whatever limits its caller sets (`Operation.Ensures.run`).
-/

namespace DocQuery

variable {I : Interface} {S α β : Type}

namespace Program

/-- Whatever its cutoff, a run from the world on leads to a result, or to none where the cutoff ends it, and to a world of which `Q`
holds. -/
def Ensures (env : Surroundings I S) (Q : Option α → World I S → Prop) : Program I α → World I S → Prop
  | .done a, w => Q (some a) w
  | .now next, w => (next (env.clock w.readings)).Ensures env Q { w with readings := w.readings + 1 }
  | .freshId next, w => (next (env.ids w.drawn)).Ensures env Q { w with drawn := w.drawn + 1 }
  | .call c next, w => Q none { w with log := w.log ++ [c] } ∧
      (next (env.answer c w.store).1).Ensures env Q { w with log := w.log ++ [c], store := (env.answer c w.store).2 }

variable {env : Surroundings I S} {Q R : Option α → World I S → Prop} {p : Program I α} {w : World I S}

/-- What follows from what a program ensures. -/
theorem Ensures.imp (h : p.Ensures env Q w) (himp : ∀ r w', Q r w' → R r w') : p.Ensures env R w := by
  induction p generalizing w with
  | done a => exact himp _ _ h
  | now next ih => exact ih _ h
  | freshId next ih => exact ih _ h
  | call c next ih => exact ⟨himp _ _ h.1, ih _ h.2⟩

/-- A program that asks nothing of the store only reads the clock and draws identifiers. -/
theorem Sends.ensures {P : α → Prop} (h : p.Sends (fun _ => False) P) :
    p.Ensures env (fun r w' => w'.store = w.store ∧ w'.log = w.log ∧ ∃ a, r = some a ∧ P a) w := by
  induction p generalizing w with
  | done a => exact ⟨rfl, rfl, a, rfl, h⟩
  | now next ih => exact ih _ (w := { w with readings := w.readings + 1 }) (h _)
  | freshId next ih => exact ih _ (w := { w with drawn := w.drawn + 1 }) (h _)
  | call c next ih => exact h.1.elim

/-- One program after the other. -/
theorem Ensures.bind {Q : Option β → World I S → Prop} {next : α → Program I β}
    (h : p.Ensures env (fun r w' => r.elim (Q none w') fun a => (next a).Ensures env Q w') w) : (p.bind next).Ensures env Q w := by
  induction p generalizing w with
  | done a => exact h
  | now rest ih => exact ih _ h
  | freshId rest ih => exact ih _ h
  | call c rest ih => exact ⟨h.1, ih _ h.2⟩

/-- What a program ensures holds of its run. -/
theorem Ensures.run (h : p.Ensures env Q w) (cutoff : Option Nat) (time : Nat) :
    Q (p.run env cutoff time w).1 (p.run env cutoff time w).2 := by
  induction p generalizing w time with
  | done a => exact h
  | now next ih => exact ih _ h time
  | freshId next ih => exact ih _ h time
  | call c next ih =>
    rw [Program.run]
    split
    · exact h.1
    · exact ih _ h.2 _

end Program

/-- An operation that is ended is out of time or cancelled. -/
theorem Options.kind_of_cutoff {options : Options} {default : Option Span} {time : Nat} {reason : Error}
    (h : options.cutoff default = some (time, reason)) : reason.kind = .timedOut ∨ reason.kind = .cancelled := by
  unfold cutoff at h
  split at h
  · cases h
  · cases h
    exact .inl rfl
  · cases h
    exact .inr rfl
  · split at h
    · cases h
      exact .inl rfl
    · cases h
      exact .inr rfl

namespace Operation

/-- An operation that is not cancelled beforehand is run as its program, and fails as such where it is ended. -/
theorem run_eq (env : Surroundings I S) (config : EntityConfig) {options : Options} (w : World I S) (op : Operation I α)
    (hcancel : options.cancelAfter ≠ some 0) :
    ∃ cutoff reason, (reason.kind = .timedOut ∨ reason.kind = .cancelled) ∧ Operation.run env config options w op =
      match Program.run env cutoff 0 w (ExceptT.run op) with
      | (some r, w') => (r, w')
      | (none, w') => (.error reason, w') := by
  rw [Operation.run, if_neg hcancel]
  cases hcutoff : options.cutoff config.defaultTimeout with
  | none => exact ⟨none, .cancelled, .inr rfl, rfl⟩
  | some limit => exact ⟨some limit.1, limit.2, Options.kind_of_cutoff hcutoff, rfl⟩

/-- The same of an operation, whose result is a value or an error. -/
def Ensures (env : Surroundings I S) (Q : Option (Except Error α) → World I S → Prop) (op : Operation I α) (w : World I S) : Prop :=
  Program.Ensures env Q (ExceptT.run op) w

namespace Ensures

variable {env : Surroundings I S} {Q R : Option (Except Error α) → World I S → Prop} {op : Operation I α} {w : World I S}

/-- What follows from what an operation ensures. -/
theorem imp (h : op.Ensures env Q w) (himp : ∀ r w', Q r w' → R r w') : op.Ensures env R w := Program.Ensures.imp h himp

/-- A result that is known already. -/
theorem of {r : Except Error α} (h : Q (some r) w) : (Operation.of r).Ensures env Q w := h

/-- A call and a reading of its answer. -/
theorem send {plan : Except Error I.Call} {read : (c : I.Call) → I.Answer c → Except Error α}
    (hrefused : ∀ e, plan = .error e → Q (some (.error e)) w)
    (hsent : ∀ c, plan = .ok c → Q none { w with log := w.log ++ [c] })
    (hread : ∀ c, plan = .ok c → Q (some (outcome read c (env.answer c w.store).1))
      { w with log := w.log ++ [c], store := (env.answer c w.store).2 }) : (send plan read).Ensures env Q w := by
  cases plan with
  | error e => exact hrefused e rfl
  | ok c =>
    rw [send_ok]
    exact ⟨hsent c rfl, hread c rfl⟩

section

variable {Q : Option (Except Error β) → World I S → Prop} {next : α → Operation I β}

/-- One operation after another: the second is run where the first comes to a value. -/
theorem bind (h : op.Ensures env (fun r w' => match r with
      | none => Q none w'
      | some (.error e) => Q (some (.error e)) w'
      | some (.ok a) => (next a).Ensures env Q w') w) : (op >>= next).Ensures env Q w := by
  refine Program.Ensures.bind (Program.Ensures.imp h fun r w' hr => ?_)
  rcases r with _ | e | a <;> exact hr

/-- An operation after a result that is known already. -/
theorem of_bind {r : Except Error α} (herror : ∀ e, r = .error e → Q (some (.error e)) w)
    (hok : ∀ a, r = .ok a → (next a).Ensures env Q w) : (Operation.of r >>= next).Ensures env Q w := by
  cases r with
  | error e => exact herror e rfl
  | ok a => exact hok a rfl

/-- An operation after one that is a call and a reading of its answer. -/
theorem send_bind {plan : Except Error I.Call} {read : (c : I.Call) → I.Answer c → Except Error α}
    (hrefused : ∀ e, plan = .error e → Q (some (.error e)) w)
    (hsent : ∀ c, plan = .ok c → Q none { w with log := w.log ++ [c] })
    (herror : ∀ c e, plan = .ok c → outcome read c (env.answer c w.store).1 = .error e →
      Q (some (.error e)) { w with log := w.log ++ [c], store := (env.answer c w.store).2 })
    (hok : ∀ c a, plan = .ok c → outcome read c (env.answer c w.store).1 = .ok a →
      (next a).Ensures env Q { w with log := w.log ++ [c], store := (env.answer c w.store).2 }) :
    (Operation.send plan read >>= next).Ensures env Q w := by
  refine bind (send hrefused hsent fun c hc => ?_)
  cases hread : outcome read c (env.answer c w.store).1 with
  | error e => exact herror c e hc hread
  | ok a => exact hok c a hc hread

/-- An operation after one that asks nothing of the store. -/
theorem quiet_bind {P : Except Error α → Prop} (h : Program.Sends (fun _ => False) P (ExceptT.run op))
    (herror : ∀ e w', P (.error e) → w'.store = w.store → w'.log = w.log → Q (some (.error e)) w')
    (hok : ∀ a w', P (.ok a) → w'.store = w.store → w'.log = w.log → (next a).Ensures env Q w') :
    (op >>= next).Ensures env Q w := by
  refine bind (Program.Ensures.imp (Program.Sends.ensures h) fun r w' hr => ?_)
  obtain ⟨hstore, hlog, r, rfl, hvalue⟩ := hr
  cases r with
  | error e => exact herror e w' hvalue hstore hlog
  | ok a => exact hok a w' hvalue hstore hlog

end

/-- What an operation ensures holds of every run, unless it is cancelled beforehand: of its result, or of a run that is ended. -/
theorem run (h : op.Ensures env Q w) (config : EntityConfig) (options : Options) :
    let after := Operation.run env config options w op
    (options.cancelAfter = some 0 ∧ after = (.error .cancelled, w)) ∨
      options.cancelAfter ≠ some 0 ∧ (Q (some after.1) after.2 ∨
        Q none after.2 ∧ ∃ e, after.1 = .error e ∧ (e.kind = .timedOut ∨ e.kind = .cancelled)) := by
  intro after
  by_cases hcancel : options.cancelAfter = some 0
  · exact .inl ⟨hcancel, if_pos hcancel⟩
  refine .inr ⟨hcancel, ?_⟩
  obtain ⟨cutoff, reason, hreason, hafter⟩ := run_eq env config w op hcancel
  have hrun := Program.Ensures.run h cutoff 0
  rw [show after = _ from hafter]
  generalize Program.run env cutoff 0 w (ExceptT.run op) = ended at hrun
  obtain ⟨_ | r, w'⟩ := ended
  · exact .inr ⟨hrun, reason, rfl, hreason⟩
  · exact .inl hrun

end Ensures

/-! ## Values -/

/-- The value that an operation comes to, if it comes to one, and the world that it leaves then are as `Q` says. -/
def Gives (env : Surroundings I S) (Q : α → World I S → Prop) (op : Operation I α) (w : World I S) : Prop :=
  op.Ensures env (fun r w' => ∀ a, r = some (.ok a) → Q a w') w

namespace Gives

variable {env : Surroundings I S} {Q R : α → World I S → Prop} {op : Operation I α} {w : World I S}

/-- What follows from what an operation gives. -/
theorem imp (h : op.Gives env Q w) (himp : ∀ a w', Q a w' → R a w') : op.Gives env R w :=
  Ensures.imp h fun _ w' hr a ha => himp a w' (hr a ha)

/-- A result that is known already. -/
theorem of {r : Except Error α} (h : ∀ a, r = .ok a → Q a w) : (Operation.of r).Gives env Q w :=
  fun a ha => h a (Option.some.inj ha)

theorem pure {a : α} (h : Q a w) : (Pure.pure a : Operation I α).Gives env Q w :=
  fun _ ha => Except.ok.inj (Option.some.inj ha) ▸ h

theorem throw (e : Error) : (MonadExcept.throw e : Operation I α).Gives env Q w := nofun

/-- The instant that the clock shows. -/
theorem now {Q : Instant → World I S → Prop} (h : Q (env.clock w.readings) { w with readings := w.readings + 1 }) :
    Operation.now.Gives env Q w :=
  fun _ ha => Except.ok.inj (Option.some.inj ha) ▸ h

/-- The identifier that is drawn. -/
theorem freshId {Q : String → World I S → Prop} (h : Q (env.ids w.drawn) { w with drawn := w.drawn + 1 }) :
    Operation.freshId.Gives env Q w :=
  fun _ ha => Except.ok.inj (Option.some.inj ha) ▸ h

/-- What becomes of the answer to a call. -/
theorem call {c : I.Call} (result : Except StoreError (I.Answer c) → Except Error α)
    (h : ∀ a, result (env.answer c w.store).1 = .ok a →
      Q a { w with log := w.log ++ [c], store := (env.answer c w.store).2 }) :
    Operation.Gives env Q (ExceptT.mk (.call c fun answer => .done (result answer))) w :=
  ⟨nofun, fun a ha => h a (Option.some.inj ha)⟩

/-- The answer to a call. -/
theorem ask {c : I.Call} {refusal : StoreError → Error} {Q : I.Answer c → World I S → Prop}
    (h : ∀ answer, (env.answer c w.store).1 = .ok answer →
      Q answer { w with log := w.log ++ [c], store := (env.answer c w.store).2 }) : (Operation.ask c refusal).Gives env Q w := by
  refine call (fun answer => answer.mapError refusal) fun answer hanswer => h answer ?_
  cases hstore : (env.answer c w.store).1 with
  | error e =>
    rw [hstore] at hanswer
    cases hanswer
  | ok a =>
    rw [hstore] at hanswer
    cases hanswer
    rfl

/-- What is read of the answer to a call. -/
theorem send {plan : Except Error I.Call} {read : (c : I.Call) → I.Answer c → Except Error α}
    (h : ∀ c answer a, plan = .ok c → (env.answer c w.store).1 = .ok answer → read c answer = .ok a →
      Q a { w with log := w.log ++ [c], store := (env.answer c w.store).2 }) : (Operation.send plan read).Gives env Q w := by
  cases plan with
  | error e => exact throw e
  | ok c =>
    rw [send_ok]
    refine call _ fun a ha => ?_
    cases hstore : (env.answer c w.store).1 with
    | error e =>
      rw [hstore] at ha
      cases ha
    | ok answer =>
      rw [hstore] at ha
      exact h c answer a rfl hstore ha

/-- One operation after another. -/
theorem bind {β : Type} {Q : β → World I S → Prop} {next : α → Operation I β} (h : op.Gives env R w)
    (hnext : ∀ a w', R a w' → (next a).Gives env Q w') : (op >>= next).Gives env Q w := by
  refine Ensures.bind (Ensures.imp h fun r w' hr => ?_)
  rcases r with _ | e | a
  · exact nofun
  · exact nofun
  · exact hnext a w' (hr a rfl)

/-- An operation after a result that is known already. -/
theorem of_bind {β : Type} {Q : β → World I S → Prop} {r : Except Error α} {next : α → Operation I β}
    (hnext : ∀ a, r = .ok a → (next a).Gives env Q w) : (Operation.of r >>= next).Gives env Q w :=
  bind (R := fun a w' => r = .ok a ∧ w' = w) (of fun _ ha => ⟨ha, rfl⟩) fun a _ ⟨ha, hw⟩ => hw ▸ hnext a ha

/-- What an operation gives holds of every run of it that comes to a value. -/
theorem run (h : op.Gives env Q w) (config : EntityConfig) (options : Options) {a : α}
    (ha : (Operation.run env config options w op).1 = .ok a) : Q a (Operation.run env config options w op).2 := by
  rcases Ensures.run h config options with ⟨-, hcancelled⟩ | ⟨-, hvalue | ⟨-, e, he, -⟩⟩
  · rw [hcancelled] at ha
    cases ha
  · exact hvalue a (congrArg some ha)
  · cases he.symm.trans ha

end Gives

end Operation

end DocQuery
