import DocQuery.Proofs.Repository.Preparing
import DocQuery.Proofs.Repository.Refusals

/-!
# The calls of one operation

What an operation is asked is checked before the store is, and the store is written to last. So a search, a lookup and a creation that
are not turned down send one call; a change and a removal send two at most, of which the first looks for the record; and what is
turned down has not been written. An adapter is disciplined if its operations are so (`Adapter.Disciplined`), and then those of its
repositories are (`Repository.Disciplined`). What it is to write and to look for a record is said of the calls themselves, by each
family of stores in its own terms (`Purposes`).
-/

namespace DocQuery

variable {I : Interface} {S ρ α β : Type}

/-- Whether a result turns the request down. -/
def refused : Except Error α → Bool
  | .error e => e.refuses
  | .ok _ => false

theorem Accepts.refused {r : Except Error α} (h : Accepts r) : refused r = false := by
  cases r with
  | error e => exact h e rfl
  | ok a => rfl

/-- What the calls of a store are for. -/
structure Purposes (I : Interface) where
  /-- A call that may change what is stored. -/
  Writes : I.Call → Prop
  /-- A call that reads the records with an identifier, and no others. -/
  LooksFor : String → I.Call → Prop
  /-- An answer that brings a record. -/
  Finds : (c : I.Call) → I.Answer c → Prop

/-! ## What is to be shown -/

/-- Calls of which none but the last writes, and none at all where the request is turned down. -/
structure WritesLast (Writes : I.Call → Prop) (refused : Bool) (calls : List I.Call) : Prop where
  /-- A write is the last call. -/
  last : ∀ c ∈ calls.dropLast, ¬Writes c
  /-- What is turned down is not written. -/
  refused : refused = true → ∀ c ∈ calls, ¬Writes c

/-- One call, or none where the request is turned down. -/
def OneCall (refused : Bool) (calls : List I.Call) : Prop := calls.length = if refused then 0 else 1

theorem OneCall.none {e : Error} (h : e.refuses = true) : OneCall e.refuses ([] : List I.Call) := by
  rw [OneCall, h]
  rfl

theorem OneCall.writesLast {Writes : I.Call → Prop} {refused : Bool} {calls : List I.Call} (h : OneCall refused calls) :
    WritesLast Writes refused calls := by
  cases refused with
  | true =>
    obtain rfl := List.length_eq_zero_iff.1 h
    exact ⟨nofun, nofun⟩
  | false =>
    obtain ⟨c, rfl⟩ := List.length_eq_one_iff.1 h
    exact ⟨nofun, nofun⟩

/-- Two calls at most, the second of which follows a lookup of the record only, and in checked operations one that found it. -/
structure LooksFirst (purposes : Purposes I) (env : Surroundings I S) (store : S) (id : String) (policy : WritePolicy)
    (refused : Bool) (calls : List I.Call) : Prop where
  /-- The writes. -/
  writes : WritesLast purposes.Writes refused calls
  /-- Two calls at most. -/
  two : calls.length ≤ 2
  /-- The first of two calls reads the records with the identifier. -/
  looks : ∀ first second, calls = [first, second] → purposes.LooksFor id first
  /-- A checked operation goes on only where the first call was answered with a record. -/
  found : policy = .existenceChecked → ∀ first second, calls = [first, second] →
    ∃ answer, (env.answer first store).1 = .ok answer ∧ purposes.Finds first answer

/-- A lookup that a store can tell from its call and its answer: the call reads the records with the identifier, and an answer out of
which a record is read brings one. -/
structure Purposes.Lookup (purposes : Purposes I) (id : String) (plan : Except Error I.Call)
    (read : (c : I.Call) → I.Answer c → Except Error (Option Document)) : Prop where
  reads : ∀ c, plan = .ok c → ¬purposes.Writes c
  looks : ∀ c, plan = .ok c → purposes.LooksFor id c
  finds : ∀ c, plan = .ok c → ∀ answer d, read c answer = .ok (some d) → purposes.Finds c answer

/-- A lookup that has come to a record was answered with one. -/
theorem Purposes.Lookup.finds_of_outcome {purposes : Purposes I} {id : String} {plan : Except Error I.Call}
    {read : (c : I.Call) → I.Answer c → Except Error (Option Document)} (h : purposes.Lookup id plan read) {c : I.Call}
    (hc : plan = .ok c) {answer : Except StoreError (I.Answer c)} {d : Document}
    (hd : Operation.outcome read c answer = .ok (some d)) : ∃ a, answer = .ok a ∧ purposes.Finds c a := by
  cases answer with
  | error e => cases hd
  | ok a => exact ⟨a, rfl, h.finds c hc a d hd⟩

/-- One call at most, and none where the request is turned down: what is left of an operation that has looked for its record. -/
def OneCallAtMost (refused : Bool) (calls : List I.Call) : Prop := calls = [] ∨ refused = false ∧ ∃ c, calls = [c]

theorem OneCall.atMost {refused : Bool} {calls : List I.Call} (h : OneCall refused calls) : OneCallAtMost refused calls := by
  cases refused with
  | true => exact .inl (List.length_eq_zero_iff.1 h)
  | false => exact .inr ⟨rfl, List.length_eq_one_iff.1 h⟩

namespace LooksFirst

variable {purposes : Purposes I} {env : Surroundings I S} {store : S} {id : String} {policy : WritePolicy} {refused : Bool}

theorem none : LooksFirst purposes env store id policy refused [] where
  writes := ⟨nofun, nofun⟩
  two := Nat.zero_le 2
  looks := nofun
  found := nofun

theorem one {c : I.Call} (h : refused = true → ¬purposes.Writes c) : LooksFirst purposes env store id policy refused [c] where
  writes := ⟨nofun, fun hrefused => List.forall_mem_singleton.2 (h hrefused)⟩
  two := Nat.le_succ 1
  looks := nofun
  found := nofun

/-- A lookup, and what is left of the operation. -/
theorem cons {first : I.Call} {rest : List I.Call} (hwrites : ¬purposes.Writes first) (hlooks : purposes.LooksFor id first)
    (hrest : OneCallAtMost refused rest)
    (hfound : policy = .existenceChecked → ∃ answer, (env.answer first store).1 = .ok answer ∧ purposes.Finds first answer) :
    LooksFirst purposes env store id policy refused (first :: rest) := by
  obtain rfl | ⟨rfl, second, rfl⟩ := hrest
  · exact one fun _ => hwrites
  · refine ⟨⟨List.forall_mem_singleton.2 hwrites, nofun⟩, le_rfl, ?_, ?_⟩
    · rintro _ _ ⟨⟩
      exact hlooks
    · rintro hpolicy _ _ ⟨⟩
      exact hfound hpolicy

end LooksFirst

/-- An operation that need not look for its record. -/
theorem OneCallAtMost.looksFirst {purposes : Purposes I} {env : Surroundings I S} {store : S} {id : String} {policy : WritePolicy}
    {refused : Bool} {calls : List I.Call} (h : OneCallAtMost refused calls) :
    LooksFirst purposes env store id policy refused calls := by
  obtain rfl | ⟨rfl, c, rfl⟩ := h
  · exact .none
  · exact .one nofun

namespace Operation

/-- The calls that an operation sends from a world on, and whether it turns the request down, are as `P` says, whatever ends it. -/
def Calls (env : Surroundings I S) (P : Bool → List I.Call → Prop) (op : Operation I α) (w : World I S) : Prop :=
  op.Ensures env (fun r w' => ∃ calls, w'.log = w.log ++ calls ∧ P (r.any refused) calls) w

namespace Calls

variable {env : Surroundings I S} {P P' : Bool → List I.Call → Prop} {op : Operation I α} {w : World I S}

theorem imp (h : op.Calls env P w) (himp : ∀ refused calls, P refused calls → P' refused calls) : op.Calls env P' w :=
  Ensures.imp h fun _ _ ⟨calls, hlog, hcalls⟩ => ⟨calls, hlog, himp _ _ hcalls⟩

/-- A result without a call. -/
theorem of {r : Except Error α} (h : P (refused r) []) : (Operation.of r).Calls env P w :=
  Ensures.of ⟨[], (List.append_nil _).symm, h⟩

/-- A call and a reading of its answer. -/
theorem send {plan : Except Error I.Call} {read : (c : I.Call) → I.Answer c → Except Error α} (hplan : Refuses plan)
    (hread : ∀ c answer, Accepts (read c answer)) : (Operation.send plan read).Calls env OneCall w := by
  refine Ensures.send (fun e he => ?_) (fun c _ => ⟨[c], rfl, rfl⟩) fun c _ => ⟨[c], rfl, ?_⟩
  · refine ⟨[], (List.append_nil _).symm, ?_⟩
    show 0 = if e.refuses then 0 else 1
    rw [hplan e he, if_pos rfl]
  · show 1 = if refused (outcome read c (env.answer c w.store).1) then 0 else 1
    rw [(outcome_accepts (hread c) _).refused]
    rfl

/-- A call that does not turn the request down where it fails. -/
theorem ask {c : I.Call} {refusal : StoreError → Error} (hrefusal : ∀ e, (refusal e).refuses = false) (h : P false [c]) :
    (Operation.ask c refusal).Calls env P w := by
  refine ⟨⟨[c], rfl, h⟩, [c], rfl, ?_⟩
  rw [Option.any_some]
  cases (env.answer c w.store).1 with
  | ok answer => exact h
  | error e =>
    show P (refusal e).refuses [c]
    rw [hrefusal e]
    exact h

section

variable {P : Bool → List I.Call → Prop} {next : α → Operation I β}

/-- An operation after one that asks nothing of the store. -/
theorem quiet_bind {R : Except Error α → Prop} (h : Program.Sends (fun _ => False) R (ExceptT.run op))
    (herror : ∀ e, R (.error e) → P e.refuses [])
    (hnext : ∀ a w', R (.ok a) → w'.store = w.store → (next a).Calls env P w') : (op >>= next).Calls env P w := by
  refine Ensures.quiet_bind h (fun e w' he _ hlog => ⟨[], hlog.trans (List.append_nil _).symm, herror e he⟩) ?_
  intro a w' ha hstore hlog
  refine Ensures.imp (hnext a w' ha hstore) fun r w'' hr => ?_
  rwa [hlog] at hr

/-- An operation after a result that is known already. -/
theorem of_bind {r : Except Error α} (herror : ∀ e, r = .error e → P e.refuses [])
    (hok : ∀ a, r = .ok a → (next a).Calls env P w) : (Operation.of r >>= next).Calls env P w :=
  Ensures.of_bind (fun e he => ⟨[], (List.append_nil _).symm, herror e he⟩) hok

/-- A result that is made of that of an operation. -/
theorem bind_of (h : op.Calls env P w) (hnext : ∀ a, ∃ r, next a = Operation.of r ∧ Accepts r) : (op >>= next).Calls env P w := by
  refine Ensures.bind (Ensures.imp h fun r w' hr => ?_)
  obtain ⟨calls, hlog, hcalls⟩ := hr
  rcases r with _ | e | a
  · exact ⟨calls, hlog, hcalls⟩
  · exact ⟨calls, hlog, hcalls⟩
  · obtain ⟨r, hr, haccepts⟩ := hnext a
    dsimp only
    rw [hr]
    refine Ensures.of ⟨calls, hlog, ?_⟩
    rw [Option.any_some, haccepts.refused]
    exact hcalls

/-- The calls of an operation that has sent one. -/
theorem after {P' : Bool → List I.Call → Prop} {op : Operation I β} {c : I.Call} {s : S}
    (h : op.Calls env P { w with log := w.log ++ [c], store := s }) (hP : ∀ refused calls, P refused calls → P' refused (c :: calls)) :
    op.Ensures env (fun r w' => ∃ calls, w'.log = w.log ++ calls ∧ P' (r.any refused) calls)
      { w with log := w.log ++ [c], store := s } :=
  Ensures.imp h fun _ _ ⟨calls, hlog, hcalls⟩ => ⟨c :: calls, hlog.trans (List.append_assoc _ _ _), hP _ _ hcalls⟩

/-- What is left of an operation after looking for its record. -/
theorem look_bind {purposes : Purposes I} {id : String} {plan : Except Error I.Call}
    {read : (c : I.Call) → I.Answer c → Except Error (Option Document)} (hlook : purposes.Lookup id plan read) {policy : WritePolicy}
    {next : Option Document → Operation I β}
    (hnone : policy = .existenceChecked → ∀ w', (next none).Calls env (fun _ calls => calls = []) w')
    (hnext : ∀ found w', (next found).Calls env OneCallAtMost w') :
    (Operation.send plan read >>= next).Calls env (LooksFirst purposes env w.store id policy) w := by
  refine Ensures.send_bind (fun e _ => ⟨[], (List.append_nil _).symm, .none⟩)
    (fun c hc => ⟨[c], rfl, .one fun _ => hlook.reads c hc⟩) (fun c e hc _ => ⟨[c], rfl, .one fun _ => hlook.reads c hc⟩)
    fun c found hc hfound => ?_
  cases found with
  | some d =>
    exact (hnext _ _).after fun refused calls h =>
      .cons (hlook.reads c hc) (hlook.looks c hc) h fun _ => hlook.finds_of_outcome hc hfound
  | none =>
    cases policy with
    | existenceChecked =>
      refine (hnone rfl _).after fun refused calls h => ?_
      subst h
      exact .one fun _ => hlook.reads c hc
    | unchecked => exact (hnext _ _).after fun refused calls h => .cons (hlook.reads c hc) (hlook.looks c hc) h nofun

end

/-- The calls of an operation hold of every run: it sends none where it is cancelled beforehand. -/
theorem run (h : op.Calls env P w) (config : EntityConfig) (options : Options) :
    let after := Operation.run env config options w op
    ∃ calls, after.2.log = w.log ++ calls ∧
      ((options.cancelAfter = some 0 ∧ refused after.1 = false ∧ calls = []) ∨
        options.cancelAfter ≠ some 0 ∧ P (refused after.1) calls) := by
  intro after
  obtain ⟨hcancel, hafter⟩ | ⟨hcancel, ⟨calls, hlog, hcalls⟩ | ⟨⟨calls, hlog, hcalls⟩, e, he, hkind⟩⟩ :=
    Ensures.run h config options
  · refine ⟨[], ?_, .inl ⟨hcancel, ?_, rfl⟩⟩
    · rw [show after = _ from hafter]
      exact (List.append_nil _).symm
    · rw [show after = _ from hafter]
      rfl
  · exact ⟨calls, hlog, .inr ⟨hcancel, hcalls⟩⟩
  · refine ⟨calls, hlog, .inr ⟨hcancel, ?_⟩⟩
    have hrefused : refused after.1 = false := by
      rw [show after.1 = _ from he, refused]
      rcases hkind with hkind | hkind <;> rw [Error.refuses, hkind]
    rw [hrefused]
    exact hcalls

end Calls

end Operation

/-! ## Adapters -/

/-- An adapter whose operations call the store in order: a search and a lookup are one call and a reading of its answer, both of
which tell by their errors on which side of the call they fail. -/
structure Adapter.Disciplined (a : Adapter I) (purposes : Purposes I) : Prop where
  findMany : ∃ (plan : PageRequest → Except Error I.Call) (read : (c : I.Call) → I.Answer c → Except Error RecordPage),
    (∀ request, a.findMany request = Operation.send (plan request) read) ∧ (∀ request, Refuses (plan request)) ∧
      ∀ c answer, Accepts (read c answer)
  findById : ∀ id select, ∃ (plan : Except Error I.Call) (read : (c : I.Call) → I.Answer c → Except Error (Option Document)),
    a.findById id select = Operation.send plan read ∧ Refuses plan ∧ ∀ c answer, Accepts (read c answer)
  insert : ∀ (S : Type) (env : Surroundings I S) (d : Document) (policy : WritePolicy) (w : World I S),
    (a.insert d policy).Calls env OneCall w
  update : ∀ (S : Type) (env : Surroundings I S) (id : String) (changes : Document) (policy : WritePolicy) (w : World I S),
    (a.update id changes policy).Calls env (LooksFirst purposes env w.store id policy) w
  delete : ∀ (S : Type) (env : Surroundings I S) (id : String) (policy : WritePolicy) (w : World I S),
    (a.delete id policy).Calls env (LooksFirst purposes env w.store id policy) w

/-! ## Repositories -/

/-- An operation whose runs send one call each, unless it turns the request down or is cancelled beforehand. -/
def Operation.SendsOne (Writes : I.Call → Prop) (op : Operation I α) : Prop :=
  ∀ (S : Type) (env : Surroundings I S) (config : EntityConfig) (options : Options) (w : World I S),
    let after := Operation.run env config options w op
    ∃ calls, after.2.log = w.log ++ calls ∧ WritesLast Writes (refused after.1) calls ∧
      calls.length = if refused after.1 ∨ options.cancelAfter = some 0 then 0 else 1

/-- An operation whose runs send two calls at most each, and a second one only after a lookup of the record. -/
def Operation.SendsTwo (purposes : Purposes I) (id : String) (policy : WritePolicy) (op : Operation I α) : Prop :=
  ∀ (S : Type) (env : Surroundings I S) (config : EntityConfig) (options : Options) (w : World I S),
    let after := Operation.run env config options w op
    ∃ calls, after.2.log = w.log ++ calls ∧ LooksFirst purposes env w.store id policy (refused after.1) calls

/-- A repository whose operations call the store in order. -/
structure Repository.Disciplined (r : Repository I ρ) (purposes : Purposes I) : Prop where
  findMany : ∀ args, (r.findMany args).SendsOne purposes.Writes
  findOne : ∀ id select, (r.findOne id select).SendsOne purposes.Writes
  create : ∀ data, (r.create data).SendsOne purposes.Writes
  update : ∀ id data, (r.update id data).SendsTwo purposes id r.config.writePolicy
  delete : ∀ id, (r.delete id).SendsTwo purposes id r.config.writePolicy

/-- One call, unless the request is turned down. -/
theorem Operation.SendsOne.of_calls {Writes : I.Call → Prop} {op : Operation I α}
    (h : ∀ (S : Type) (env : Surroundings I S) (w : World I S), op.Calls env OneCall w) : op.SendsOne Writes := by
  intro S env config options w after
  obtain ⟨calls, hlog, ⟨hcancel, hrefused, rfl⟩ | ⟨hcancel, hcalls⟩⟩ := (h S env w).run config options
  · exact ⟨[], hlog, ⟨nofun, nofun⟩, (if_pos (.inr hcancel)).symm⟩
  · refine ⟨calls, hlog, hcalls.writesLast, ?_⟩
    rw [show calls.length = _ from hcalls]
    simp only [hcancel, or_false]
    rfl

theorem Operation.SendsTwo.of_calls {purposes : Purposes I} {id : String} {policy : WritePolicy} {op : Operation I α}
    (h : ∀ (S : Type) (env : Surroundings I S) (w : World I S), op.Calls env (LooksFirst purposes env w.store id policy) w) :
    op.SendsTwo purposes id policy := by
  intro S env config options w after
  obtain ⟨calls, hlog, ⟨-, -, rfl⟩ | ⟨-, hcalls⟩⟩ := (h S env w).run config options
  · exact ⟨[], hlog, .none⟩
  · exact ⟨calls, hlog, hcalls⟩

namespace Repository

/-- Giving a document its identifier asks nothing of the store, and turns down an identifier that is none. -/
theorem withId_refuses (r : Repository I ρ) (d : Document) :
    Program.Sends (fun _ => False) Refuses (ExceptT.run (r.withId d)) := by
  have hchecked (id : String) (d : Document) : Program.Sends (I := I) (fun _ => False) Refuses (ExceptT.run do
      Operation.of (checkId id)
      return d) := by
    cases hid : checkId id with
    | error e => exact FailsOnly.error (checkId_refuses id e hid)
    | ok _ => exact FailsOnly.ok d
  unfold withId
  dsimp only
  split
  · exact hchecked _ d
  · exact FailsOnly.error rfl
  · split
    · exact fun id => hchecked id _
    · exact FailsOnly.error rfl

/-- Filling in the instants of a new record asks nothing of the store, and never fails. -/
theorem withCreation_refuses (r : Repository I ρ) (d : Document) :
    Program.Sends (fun _ => False) Refuses (ExceptT.run (r.withCreation d)) := by
  unfold withCreation
  split
  · exact fun t => FailsOnly.ok _
  · exact FailsOnly.ok d

/-- The repositories of a disciplined adapter are disciplined. -/
theorem disciplined (config : EntityConfig) {a : Adapter I} (decode : Document → Option ρ) {purposes : Purposes I}
    (h : a.Disciplined purposes) : (Repository.mk config a decode).Disciplined purposes where
  findMany args := by
    obtain ⟨plan, read, hsend, hplan, hread⟩ := h.findMany
    refine .of_calls fun S env w => ?_
    rw [findMany_eq_send hsend]
    exact .send ((pageRequest_refuses _ args).bind hplan) fun c answer =>
      (hread c answer).bind fun page => pageFrom_accepts _ args.select page
  findOne id select := by
    obtain ⟨plan, read, hsend, hplan, hread⟩ := h.findById id select
    refine .of_calls fun S env w => ?_
    rw [findOne_eq_send hsend]
    exact .send ((checkId_refuses id).bind fun _ => hplan) fun c answer =>
      (hread c answer).bind fun found => recordFrom_accepts _ id select found
  create data := by
    refine .of_calls fun S env w => ?_
    refine .of_bind (fun e he => .none (payload_refuses _ _ e he)) fun members _ => ?_
    refine .quiet_bind (withId_refuses _ members) (fun e he => .none (he e rfl)) fun d w₁ _ _ => ?_
    refine .quiet_bind (withCreation_refuses _ d) (fun e he => .none (he e rfl)) fun d w₂ _ _ => ?_
    exact (h.insert S env d _ w₂).bind_of fun stored => ⟨_, rfl, materialize_accepts _ stored⟩
  update id data := by
    refine .of_calls fun S env w => ?_
    refine .of_bind (fun _ _ => .none) fun _ _ => ?_
    refine .of_bind (fun _ _ => .none) fun members _ => ?_
    refine .of_bind (fun _ _ => .none) fun changes _ => ?_
    refine .quiet_bind (withUpdate_sends _ changes) (fun _ _ => .none) fun changes w' _ hstore => ?_
    rw [← hstore]
    split
    · exact .of (r := .error _) .none
    · exact (h.update S env id changes _ w').bind_of fun stored => ⟨_, rfl, materialize_accepts _ stored⟩
  delete id := by
    refine .of_calls fun S env w => ?_
    exact .of_bind (fun _ _ => .none) fun _ _ => h.delete S env id _ w

end Repository

end DocQuery
