import DocQuery.Proofs.Repository.Contract
import DocQuery.Proofs.Repository.Interleaving

/-!
# All or nothing

An operation is atomic if the only call by which it changes what is seen of the store is its last one, and it succeeds by that call.
Whatever else ends it, be it an error of its own, a failure of the store or on the way there, or its time limit, comes before that
call. Main statement: an atomic operation that fails leaves what is seen as it was (`Operation.Atomic.unchanged`).
-/

namespace DocQuery

variable {I : Interface} {S V α β : Type}

/-! ## Calls that fail on the way -/

/-- Surroundings in which a call may fail before the store hears of it. The list beside the store is about the next calls: an error
is the answer to its call, an empty entry lets its call through, and so does the end of the list. -/
def Surroundings.flaky (answer : (c : I.Call) → S → Except StoreError (I.Answer c) × S) (clock : Nat → Instant)
    (ids : Nat → String) (latency : Nat) : Surroundings I (S × List (Option StoreError)) where
  answer c := fun (s, faults) =>
    match faults.head?.join with
    | some e => (.error e, s, faults.tail)
    | none => ((answer c s).1, (answer c s).2, faults.tail)
  clock := clock
  ids := ids
  latency := latency

/-- A store of which something is seen. -/
structure Viewed (I : Interface) (S V : Type) where
  /-- How the store answers. -/
  answer : (c : I.Call) → S → Except StoreError (I.Answer c) × S
  /-- Which stores count. -/
  Fit : S → Prop
  /-- What is seen of a store. -/
  view : S → V

/-- A call that reads: a store that counts still does so afterwards, and what is seen of it is the same. -/
def Viewed.Reads (v : Viewed I S V) (c : I.Call) : Prop :=
  ∀ s, v.Fit s → v.Fit (v.answer c s).2 ∧ v.view (v.answer c s).2 = v.view s

/-- A call that reads does so, too, where it may fail on the way. -/
theorem Viewed.Reads.flaky {v : Viewed I S V} {c : I.Call} (h : v.Reads c) {clock : Nat → Instant} {ids : Nat → String}
    {latency : Nat} {s : S × List (Option StoreError)} (hs : v.Fit s.1) :
    let after := ((Surroundings.flaky v.answer clock ids latency).answer c s).2.1
    v.Fit after ∧ v.view after = v.view s.1 := by
  intro after
  simp only [after, Surroundings.flaky]
  split
  · exact ⟨hs, rfl⟩
  · exact h s.1 hs

/-! ## Programs -/

namespace Program

/-- A program that, whatever it is told, sends such calls only, and comes to such results only. -/
def Sends (P : I.Call → Prop) (Q : α → Prop) : Program I α → Prop
  | .done a => Q a
  | .call c next => P c ∧ ∀ answer, (next answer).Sends P Q
  | .now next => ∀ t, (next t).Sends P Q
  | .freshId next => ∀ id, (next id).Sends P Q

/-- A program that changes what is seen by a call only after which it is at its end, and has succeeded. -/
def Atomic (v : Viewed I S V) : Program I (Except Error α) → Prop
  | .done _ => True
  | .now next => ∀ t, (next t).Atomic v
  | .freshId next => ∀ id, (next id).Atomic v
  | .call c next => (∀ e, (next (.error e)).Atomic v) ∧ ∀ s, v.Fit s → v.Fit (v.answer c s).2 ∧
    ((v.view (v.answer c s).2 = v.view s ∧ (next (v.answer c s).1).Atomic v) ∨ ∃ a, next (v.answer c s).1 = .done (.ok a))

variable {v : Viewed I S V} {P : I.Call → Prop} {Q : α → Prop} {R : β → Prop}

/-- One program after the other. -/
theorem Sends.bind {p : Program I α} (h : p.Sends P Q) {next : α → Program I β} (hnext : ∀ a, Q a → (next a).Sends P R) :
    (p.bind next).Sends P R := by
  induction p with
  | done a => exact hnext a h
  | call c rest ih => exact ⟨h.1, fun answer => ih answer (h.2 answer)⟩
  | now rest ih => exact fun t => ih t (h t)
  | freshId rest ih => exact fun id => ih id (h id)

/-- What a program may come to may be said with less. -/
theorem Sends.imp {R : α → Prop} {p : Program I α} (h : p.Sends P Q) (hresult : ∀ a, Q a → R a) : p.Sends P R := by
  have hbind : (p.bind .done).Sends P R := h.bind hresult
  rwa [bind_done] at hbind

/-- What the calls keep that a program may send, a run keeps, and the result of a run is one that the program may come to. -/
theorem Sends.run (env : Surroundings I S) {K : S → Prop} {p : Program I α} (h : p.Sends P Q)
    (hcalls : ∀ c s, P c → K s → K (env.answer c s).2) {w : World I S} (hw : K w.store) (cutoff : Option Nat) (time : Nat) :
    K (p.run env cutoff time w).2.store ∧ ∀ a, (p.run env cutoff time w).1 = some a → Q a := by
  induction p generalizing w time with
  | done a => exact ⟨hw, fun b hb => Option.some.inj hb ▸ h⟩
  | now next ih => exact ih (env.clock w.readings) (w := { w with readings := w.readings + 1 }) (h _) hw time
  | freshId next ih => exact ih (env.ids w.drawn) (w := { w with drawn := w.drawn + 1 }) (h _) hw time
  | call c next ih =>
    rw [Program.run]
    split
    · refine ⟨hw, fun a ha => ?_⟩
      cases ha
    · exact ih _ (h.2 _) (hcalls c w.store h.1 hw) _

/-- What the calls keep that a program may send, a step keeps, and what is left may send no other calls. -/
theorem Sends.step (env : Surroundings I S) {K : S → Prop} {p : Program I α} (h : p.Sends P Q)
    (hcalls : ∀ c s, P c → K s → K (env.answer c s).2) {w : World I S} (hw : K w.store) :
    K (p.step env w).2.store ∧ (p.step env w).1.Sends P Q := by
  cases p with
  | done a => exact ⟨hw, h⟩
  | now next => exact ⟨hw, h _⟩
  | freshId next => exact ⟨hw, h _⟩
  | call c next => exact ⟨hcalls c w.store h.1 hw, h.2 _⟩

/-- An atomic program after one that reads. -/
theorem Sends.atomic_bind {p : Program I α} (h : p.Sends v.Reads Q) {next : α → Program I (Except Error β)}
    (hnext : ∀ a, Q a → (next a).Atomic v) : (p.bind next).Atomic v := by
  induction p with
  | done a => exact hnext a h
  | now rest ih => exact fun t => ih t (h t)
  | freshId rest ih => exact fun id => ih id (h id)
  | call c rest ih =>
    obtain ⟨hreads, hrest⟩ := h
    refine ⟨fun e => ih _ (hrest _), fun s hs => ?_⟩
    obtain ⟨hfit, hview⟩ := hreads s hs
    exact ⟨hfit, .inl ⟨hview, ih _ (hrest _)⟩⟩

/-- Nothing but a result after an atomic program: a success for a success. -/
theorem Atomic.bind {p : Program I (Except Error α)} (h : p.Atomic v) {next : Except Error α → Program I (Except Error β)}
    (hok : ∀ a, ∃ b, next (.ok a) = .done (.ok b)) (herror : ∀ e, (next (.error e)).Atomic v) : (p.bind next).Atomic v := by
  induction p with
  | done r =>
    cases r with
    | error e => exact herror e
    | ok a =>
      obtain ⟨b, hb⟩ := hok a
      rw [Program.bind, hb]
      trivial
  | now rest ih => exact fun t => ih t (h t)
  | freshId rest ih => exact fun id => ih id (h id)
  | call c rest ih =>
    obtain ⟨hfault, hcall⟩ := h
    refine ⟨fun e => ih _ (hfault e), fun s hs => ?_⟩
    obtain ⟨hfit, ⟨hview, hrest⟩ | ⟨a, ha⟩⟩ := hcall s hs
    · exact ⟨hfit, .inl ⟨hview, ih _ hrest⟩⟩
    · obtain ⟨b, hb⟩ := hok a
      exact ⟨hfit, .inr ⟨b, (congrArg (·.bind next) ha).trans hb⟩⟩

/-- A last call: a failure of the store changes nothing that is seen, and an answer makes for success. -/
theorem Atomic.last {c : I.Call} {next : Except StoreError (I.Answer c) → Program I (Except Error α)}
    (hend : ∀ e, ∃ r, next (.error e) = .done r) (hfit : ∀ s, v.Fit s → v.Fit (v.answer c s).2)
    (herror : ∀ s e, (v.answer c s).1 = .error e → v.view (v.answer c s).2 = v.view s)
    (hok : ∀ s answer, v.Fit s → (v.answer c s).1 = .ok answer → ∃ a, next (.ok answer) = .done (.ok a)) :
    (Program.call c next).Atomic v := by
  have hfault : ∀ e, (next (.error e)).Atomic v := fun e => by
    obtain ⟨r, hr⟩ := hend e
    rw [hr]
    trivial
  refine ⟨hfault, fun s hs => ⟨hfit s hs, ?_⟩⟩
  cases hanswer : (v.answer c s).1 with
  | error e => exact .inl ⟨herror s e hanswer, hfault e⟩
  | ok answer => exact .inr (hok s answer hs hanswer)

section

variable {clock : Nat → Instant} {ids : Nat → String} {latency : Nat} {w : World I (S × List (Option StoreError))}
  {p : Program I (Except Error α)}

variable (clock ids latency) in
/-- One effect of an atomic program: either what is seen is as before and what is left is atomic, or it has succeeded. -/
theorem Atomic.step (h : p.Atomic v) (hw : v.Fit w.store.1) :
    let after := p.step (.flaky v.answer clock ids latency) w
    v.Fit after.2.store.1 ∧ after.1.Atomic v ∧ (v.view after.2.store.1 = v.view w.store.1 ∨ ∃ a, after.1 = .done (.ok a)) := by
  cases p with
  | done r => exact ⟨hw, trivial, .inl rfl⟩
  | now next => exact ⟨hw, h _, .inl rfl⟩
  | freshId next => exact ⟨hw, h _, .inl rfl⟩
  | call c next =>
    obtain ⟨hfault, hcall⟩ := h
    simp only [Program.step, Surroundings.flaky]
    cases w.store.2.head?.join with
    | some e => exact ⟨hw, hfault e, .inl rfl⟩
    | none =>
      obtain ⟨hfit, ⟨hview, hrest⟩ | ⟨a, ha⟩⟩ := hcall w.store.1 hw
      · exact ⟨hfit, hrest, .inl hview⟩
      · refine ⟨hfit, ?_, .inr ⟨a, ha⟩⟩
        simp only [ha]
        trivial

/-- An atomic program that does not succeed leaves what is seen as it was, also where a cutoff ends it. -/
theorem Atomic.run (h : p.Atomic v) (hw : v.Fit w.store.1) (cutoff : Option Nat) (time : Nat) :
    let after := p.run (.flaky v.answer clock ids latency) cutoff time w
    v.Fit after.2.store.1 ∧ (v.view after.2.store.1 = v.view w.store.1 ∨ ∃ a, after.1 = some (.ok a)) := by
  induction p generalizing w time with
  | done r => exact ⟨hw, .inl rfl⟩
  | now next ih => exact ih (clock w.readings) (w := { w with readings := w.readings + 1 }) (h _) hw time
  | freshId next ih => exact ih (ids w.drawn) (w := { w with drawn := w.drawn + 1 }) (h _) hw time
  | call c next ih =>
    rw [Program.run]
    split
    · exact ⟨hw, .inl rfl⟩
    · -- what is seen so far is as before, or the program has come to its result by this very call
      obtain ⟨hfit, hrest, hview⟩ := Atomic.step clock ids latency h hw
      obtain ⟨hlast, hafter⟩ := ih _ (w := (Program.step (.flaky v.answer clock ids latency) w (.call c next)).2) hrest hfit
        (time + latency)
      refine ⟨hlast, ?_⟩
      rcases hview with hview | ⟨a, ha⟩
      · exact hafter.imp_left (·.trans hview)
      · refine .inr ⟨a, ?_⟩
        simp only [Program.step] at ha
        simp only [ha, Program.run]

/-- Programs under way together over a store that counts leave one that counts. -/
theorem Atomic.crowd {c : Crowd I (S × List (Option StoreError)) (Except Error α)} (hw : v.Fit c.world.store.1)
    (h : ∀ p ∈ c.programs, p.Atomic v) (schedule : List Nat) :
    v.Fit (c.run (.flaky v.answer clock ids latency) schedule).2.world.store.1 := by
  induction schedule generalizing c with
  | nil => exact hw
  | cons i schedule ih =>
    rw [Crowd.run]
    rcases Crowd.turn?_cases (.flaky v.answer clock ids latency) c i with hnone | ⟨p, hp, hend⟩
    · rw [hnone]
      exact ih hw h
    · obtain ⟨hfit, hrest, -⟩ := Atomic.step clock ids latency (h p (List.mem_of_getElem? hp)) hw
      rw [Crowd.turn?_of_some hp hend]
      refine ih (c := c.next _ i p) hfit fun q hq => ?_
      rcases List.mem_or_eq_of_mem_set hq with hq | rfl
      · exact h q hq
      · exact hrest

end

end Program

/-! ## Operations -/

namespace Operation

/-- An operation that, whatever it is told, sends such calls only, and whose value, if it comes to one, is as `Q` says. -/
def Sends (P : I.Call → Prop) (Q : α → Prop) (op : Operation I α) : Prop :=
  Program.Sends P (fun r => ∀ a, r = .ok a → Q a) (ExceptT.run op)

/-- An operation that only reads. -/
abbrev Reads (v : Viewed I S V) (Q : α → Prop) (op : Operation I α) : Prop := op.Sends v.Reads Q

/-- An operation that is an atomic program. -/
def Atomic (v : Viewed I S V) (op : Operation I α) : Prop := Program.Atomic v (ExceptT.run op)

variable {v : Viewed I S V} {P : I.Call → Prop} {Q : α → Prop} {R : β → Prop} {op : Operation I α} {next : α → Operation I β}

/-- A result that is known already. -/
theorem Sends.of {r : Except Error α} (h : ∀ a, r = .ok a → Q a) : (Operation.of r).Sends P Q := h

theorem Sends.pure {a : α} (h : Q a) : Sends P Q (pure a : Operation I α) := fun _ ha => Except.ok.inj ha ▸ h

theorem Sends.throw (e : Error) : Sends P Q (throw e : Operation I α) := fun _ h => nomatch h

/-- Asking the store. -/
theorem Sends.ask {c : I.Call} (h : P c) (refusal : StoreError → Error) : (Operation.ask c refusal).Sends P fun _ => True :=
  ⟨h, fun _ _ _ => trivial⟩

theorem Sends.now : Operation.now.Sends P fun _ => True := fun _ _ _ => trivial

theorem Sends.freshId : Operation.freshId.Sends P fun _ => True := fun _ _ _ => trivial

/-- One operation after another. -/
theorem Sends.bind (h : op.Sends P Q) (hnext : ∀ a, Q a → (next a).Sends P R) : (op >>= next).Sends P R := by
  refine Program.Sends.bind h fun r hr => ?_
  cases r with
  | error e => exact fun _ hb => nomatch hb
  | ok a => exact hnext a (hr a rfl)

/-- An operation after a result that is known already. -/
theorem Sends.of_bind {r : Except Error α} (hnext : ∀ a, r = .ok a → (next a).Sends P R) : (Operation.of r >>= next).Sends P R :=
  Sends.bind (Sends.of fun _ ha => ha) hnext

/-- An operation that only reads is atomic. -/
theorem Reads.atomic (h : op.Reads v Q) : op.Atomic v := by
  have hbind : (Program.bind (ExceptT.run op) .done).Atomic v := Program.Sends.atomic_bind h fun _ _ => trivial
  rwa [Program.bind_done] at hbind

/-- An atomic operation after one that reads. -/
theorem Reads.atomic_bind (h : op.Reads v Q) (hnext : ∀ a, Q a → (next a).Atomic v) : (op >>= next).Atomic v := by
  refine Program.Sends.atomic_bind h fun r hr => ?_
  cases r with
  | error e => trivial
  | ok a => exact hnext a (hr a rfl)

/-- An atomic operation after a result that is known already. -/
theorem Atomic.of_bind {r : Except Error α} (hnext : ∀ a, (next a).Atomic v) : (Operation.of r >>= next).Atomic v :=
  Reads.atomic_bind (Sends.of fun _ _ => trivial) fun a (_ : True) => hnext a

theorem Atomic.throw (e : Error) : Atomic v (throw e : Operation I α) := trivial

theorem Atomic.pure (a : α) : Atomic v (pure a : Operation I α) := trivial

/-- A value that is made of that of an atomic operation. -/
theorem Atomic.map (h : op.Atomic v) {f : α → β} (hnext : ∀ a, next a = Pure.pure (f a)) : (op >>= next).Atomic v :=
  Program.Atomic.bind h (fun a => ⟨f a, congrArg ExceptT.run (hnext a)⟩) fun _ => trivial

section

variable {clock : Nat → Instant} {ids : Nat → String} {latency : Nat} {w : World I (S × List (Option StoreError))}

/-- An operation that its caller runs comes to an end that its program comes to, or the program is ended before. -/
theorem run_cases (env : Surroundings I S) (config : EntityConfig) (options : Options) (w : World I S) (op : Operation I α) :
    (∃ e, Operation.run env config options w op = (.error e, w)) ∨ ∃ cutoff,
      (Operation.run env config options w op).2 = (Program.run env cutoff 0 w (ExceptT.run op)).2 ∧
        ∀ r, (Program.run env cutoff 0 w (ExceptT.run op)).1 = some r → (Operation.run env config options w op).1 = r := by
  rw [Operation.run]
  split
  · exact .inl ⟨_, rfl⟩
  · right
    split
    · refine ⟨none, ?_⟩
      rcases Program.run env none 0 w (ExceptT.run op) with ⟨_ | r, w'⟩
      · refine ⟨rfl, fun r hr => ?_⟩
        cases hr
      · exact ⟨rfl, fun _ => Option.some.inj⟩
    · next time reason _ =>
      refine ⟨some time, ?_⟩
      rcases Program.run env (some time) 0 w (ExceptT.run op) with ⟨_ | r, w'⟩
      · refine ⟨rfl, fun r hr => ?_⟩
        cases hr
      · exact ⟨rfl, fun _ => Option.some.inj⟩

/-- An atomic operation leaves a store that counts as one that counts, whatever limits its caller sets. -/
theorem Atomic.fit (h : op.Atomic v) (hw : v.Fit w.store.1) (config : EntityConfig) (options : Options) :
    v.Fit (Operation.run (.flaky v.answer clock ids latency) config options w op).2.store.1 := by
  rcases run_cases (.flaky v.answer clock ids latency) config options w op with ⟨e, he⟩ | ⟨cutoff, hworld, -⟩
  · rw [he]
    exact hw
  · rw [hworld]
    exact (Program.Atomic.run h hw cutoff 0).1

/-- An operation that only reads leaves what is seen as it was, whatever it comes to. -/
theorem Reads.unchanged (h : op.Reads v Q) (hw : v.Fit w.store.1) (config : EntityConfig) (options : Options) :
    v.view (Operation.run (.flaky v.answer clock ids latency) config options w op).2.store.1 = v.view w.store.1 := by
  rcases run_cases (.flaky v.answer clock ids latency) config options w op with ⟨_, hnone⟩ | ⟨cutoff, hworld, -⟩
  · rw [hnone]
  · rw [hworld]
    have hkeeps := Program.Sends.run (.flaky v.answer clock ids latency)
      (K := fun s : S × List (Option StoreError) => v.Fit s.1 ∧ v.view s.1 = v.view w.store.1) h
      (fun c s hreads hs => ⟨(hreads.flaky hs.1).1, (hreads.flaky hs.1).2.trans hs.2⟩) ⟨hw, rfl⟩ cutoff 0
    exact hkeeps.1.2

/-- An atomic operation that fails, in whatever way, leaves what is seen as it was. -/
theorem Atomic.unchanged (h : op.Atomic v) (hw : v.Fit w.store.1) (config : EntityConfig) (options : Options) {e : Error}
    (he : (Operation.run (.flaky v.answer clock ids latency) config options w op).1 = .error e) :
    v.view (Operation.run (.flaky v.answer clock ids latency) config options w op).2.store.1 = v.view w.store.1 := by
  rcases run_cases (.flaky v.answer clock ids latency) config options w op with ⟨_, hnone⟩ | ⟨cutoff, hworld, hresult⟩
  · rw [hnone]
  · rw [hworld]
    refine (Program.Atomic.run h hw cutoff 0).2.resolve_right ?_
    rintro ⟨a, ha⟩
    cases he.symm.trans (hresult _ ha)

end

end Operation

/-! ## Repositories -/

/-- A request to a repository: a search, or a call on one record. -/
inductive Request where
  | findMany (args : FindArgs)
  | record (call : RecordCall)

/-- What a request does. -/
def Request.perform (r : Repository I Document) : Request → Operation I (RecordsPage Document ⊕ Option Document)
  | .findMany args => do return .inl (← r.findMany args)
  | .record call => do return .inr (← call.perform r)

/-- Runs a request for its caller. -/
def Request.run (env : Surroundings I S) (r : Repository I Document) (options : Options) (w : World I S) (request : Request) :
    Except Error (RecordsPage Document ⊕ Option Document) × World I S :=
  Operation.run env r.config options w (request.perform r)

/-- An adapter whose reads only read and whose writes are atomic. -/
structure Adapter.Atomic (a : Adapter I) (v : Viewed I S V) : Prop where
  findMany : ∀ request, (a.findMany request).Reads v fun _ => True
  findById : ∀ id select, (a.findById id select).Reads v fun _ => True
  insert : ∀ d policy, (a.insert d policy).Atomic v
  update : ∀ id changes policy, (a.update id changes policy).Atomic v
  delete : ∀ id policy, (a.delete id policy).Atomic v

namespace Repository

open Operation

variable {v : Viewed I S V} {P : I.Call → Prop} {a : Adapter I} {config : EntityConfig}

/-- A search only reads. -/
theorem findMany_reads (h : a.Atomic v) (args : FindArgs) : ((ofDocuments config a).findMany args).Reads v fun _ => True := by
  refine Sends.of_bind fun request _ => ?_
  refine Sends.bind (h.findMany request) fun page _ => ?_
  exact Sends.of_bind fun items _ => Sends.pure trivial

/-- Finding a record only reads. -/
theorem findOne_reads (h : a.Atomic v) (id : String) (select : Select) :
    ((ofDocuments config a).findOne id select).Reads v fun _ => True := by
  refine Sends.of_bind fun _ _ => ?_
  refine Sends.bind (h.findById id select) fun found _ => ?_
  cases found with
  | none => exact Sends.throw _
  | some d => exact Sends.of fun _ _ => trivial

/-- Filling in the identifier asks nothing of the store, and leaves a text in its field. -/
theorem withId_sends {ρ : Type} (r : Repository I ρ) (d : Document) :
    (r.withId d).Sends P fun d => ∃ id, Fields.get? d r.adapter.idField = some (.str id) := by
  unfold withId
  dsimp only
  split
  · next id hid => exact Sends.of_bind fun _ _ => Sends.pure ⟨id, hid⟩
  · exact Sends.throw _
  · split
    · refine Sends.bind Sends.freshId fun id _ => ?_
      exact Sends.of_bind fun _ _ => Sends.pure ⟨id, Fields.get?_put_self d _ _⟩
    · exact Sends.throw _

/-- Filling in the instants of a new record asks nothing of the store, and a field with a text still has one. -/
theorem withCreation_sends {ρ : Type} (r : Repository I ρ) {d : Document} {field : String}
    (h : ∃ s, Fields.get? d field = some (.str s)) : (r.withCreation d).Sends P fun d => ∃ s, Fields.get? d field = some (.str s) := by
  unfold withCreation
  split
  · refine Sends.bind Sends.now fun now _ => Sends.pure ?_
    by_cases hupdated : field = updatedAt
    · exact ⟨now.text, hupdated ▸ Fields.get?_put_self _ _ _⟩
    · rw [Fields.get?_put_of_ne _ _ hupdated]
      by_cases hcreated : field = createdAt
      · exact ⟨now.text, hcreated ▸ Fields.get?_put_self _ _ _⟩
      · rwa [Fields.get?_put_of_ne _ _ hcreated]
  · exact Sends.pure h

/-- Filling in the instant of an update asks nothing of the store. -/
theorem withUpdate_sends {ρ : Type} (r : Repository I ρ) (changes : Document) : (r.withUpdate changes).Sends P fun _ => True := by
  unfold withUpdate
  split
  · exact Sends.bind Sends.now fun _ _ => Sends.pure trivial
  · exact Sends.pure trivial

/-- Creating a record is atomic. -/
theorem create_atomic (h : a.Atomic v) (data : Json) : ((ofDocuments config a).create data).Atomic v := by
  refine Atomic.of_bind fun members => ?_
  refine Reads.atomic_bind (withId_sends _ members) fun d hid => ?_
  refine Reads.atomic_bind (withCreation_sends _ hid) fun d _ => ?_
  exact Atomic.map (f := id) (h.insert d _) fun _ => rfl

/-- Changing a record is atomic. -/
theorem update_atomic (h : a.Atomic v) (id : String) (data : Json) : ((ofDocuments config a).update id data).Atomic v := by
  refine Atomic.of_bind fun _ => ?_
  refine Atomic.of_bind fun members => ?_
  refine Atomic.of_bind fun changes => ?_
  refine Reads.atomic_bind (withUpdate_sends _ changes) fun changes _ => ?_
  split
  · exact Atomic.throw _
  · exact Atomic.map (f := fun d => d) (h.update id changes _) fun _ => rfl

/-- Removing a record is atomic. -/
theorem delete_atomic (h : a.Atomic v) (id : String) : ((ofDocuments config a).delete id).Atomic v :=
  Atomic.of_bind fun _ => h.delete id _

/-- Every call on a record is atomic. -/
theorem call_atomic (h : a.Atomic v) (call : RecordCall) : (call.perform (ofDocuments config a)).Atomic v := by
  cases call with
  | create data => exact Atomic.map (create_atomic h data) fun _ => rfl
  | findOne id select => exact Atomic.map (findOne_reads h id select).atomic fun _ => rfl
  | update id data => exact Atomic.map (update_atomic h id data) fun _ => rfl
  | delete id => exact Atomic.map (f := fun _ => none) (delete_atomic h id) fun _ => rfl

/-- Every request is atomic. -/
theorem perform_atomic (h : a.Atomic v) (request : Request) : (request.perform (ofDocuments config a)).Atomic v := by
  cases request with
  | findMany args => exact Atomic.map (findMany_reads h args).atomic fun _ => rfl
  | record call => exact Atomic.map (f := Sum.inr) (call_atomic h call) fun _ => rfl

end Repository

end DocQuery
