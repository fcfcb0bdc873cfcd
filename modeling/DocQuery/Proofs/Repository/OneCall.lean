import DocQuery.Cosmos.Adapter
import DocQuery.Dynamo.Adapter
import DocQuery.Repository.Run

/-!
# Searches are one call

A search works out one call, sends it, and reads the answer. `Operation.send` is an operation of that form, `Operation.run_send`
says what a run of it does, and the searches of both families are brought to it.
-/

namespace DocQuery

variable {I : Interface} {S ρ α β : Type}

namespace Operation

/-- One call that is worked out first, and what is made of its answer. -/
def send (plan : Except Error I.Call) (read : (c : I.Call) → I.Answer c → Except Error α) : Operation I α := do
  let c ← Operation.of plan
  let answer ← Operation.ask c .storeFailure
  Operation.of (read c answer)

/-- What the answer to a call comes to. -/
def outcome (read : (c : I.Call) → I.Answer c → Except Error α) (c : I.Call) :
    Except StoreError (I.Answer c) → Except Error α
  | .ok answer => read c answer
  | .error e => .error (.storeFailure e)

/-- What is said where the answer to one call comes too late. -/
def late? (env : Surroundings I S) (config : EntityConfig) (options : Options) : Option Error :=
  (options.cutoff config.defaultTimeout).bind fun (time, reason) => if time < env.latency then some reason else none

/-- No answer comes too late where calls take no time. -/
theorem late?_of_prompt (env : Surroundings I S) (h : env.latency = 0) (config : EntityConfig) (options : Options) :
    late? env config options = none := by
  rw [late?, h]
  cases options.cutoff config.defaultTimeout <;> rfl

variable {plan : Except Error I.Call} {read : (c : I.Call) → I.Answer c → Except Error α}

/-- A value that is made of a known one. -/
theorem of_map (r : Except Error α) (f : α → β) :
    (Operation.of (r.map f) : Operation I β) = Operation.of r >>= fun a => pure (f a) := by
  cases r <;> rfl

/-- An operation of this form, however the reading of the answer is written. -/
theorem eq_send {next : (c : I.Call) → I.Answer c → Operation I α} (h : ∀ c answer, next c answer = Operation.of (read c answer)) :
    (Operation.of plan >>= fun c => Operation.ask c .storeFailure >>= next c) = send plan read := by
  have hnext : next = fun c answer => Operation.of (read c answer) := funext fun c => funext fun answer => h c answer
  rw [hnext]
  rfl

/-- A call that is not worked out is not sent. -/
theorem send_error (e : Error) : send (.error e) read = Operation.of (.error e) := rfl

/-- A call that is sent, and its answer. -/
theorem send_ok (c : I.Call) : send (.ok c) read = ExceptT.mk (.call c fun answer => .done (outcome read c answer)) := by
  refine congrArg (Program.call c) (funext fun answer => ?_)
  cases answer <;> rfl

/-- What is known before a call goes into it. -/
theorem of_bind_send (r : Except Error β) (plan : β → Except Error I.Call) :
    (Operation.of r >>= fun b => send (plan b) read) = send (r.bind plan) read := by
  cases r <;> rfl

/-- What is made of the result of a call goes into the reading of its answer. -/
theorem send_bind_of (next : α → Except Error β) :
    (send plan read >>= fun a => Operation.of (next a)) = send plan fun c answer => (read c answer).bind next := by
  cases plan with
  | error e => rfl
  | ok c =>
    rw [send_ok, send_ok]
    refine congrArg (Program.call c) (funext fun answer => ?_)
    cases answer with
    | error e => rfl
    | ok answer =>
      change Program.bind (.done (read c answer)) (ExceptT.bindCont fun a => Operation.of (next a)) =
        .done ((read c answer).bind next)
      cases read c answer <;> rfl

/-- What is made of the result of a call is made of what its answer comes to. -/
theorem outcome_bind (next : α → Except Error β) (c : I.Call) (answer : Except StoreError (I.Answer c)) :
    outcome (fun c answer => (read c answer).bind next) c answer = (outcome read c answer).bind next := by
  cases answer <;> rfl

/-- A run of one call: it is sent unless the operation is cancelled beforehand or there is none, and its answer counts unless it
comes too late. -/
theorem run_send (env : Surroundings I S) (config : EntityConfig) (options : Options) (w : World I S) :
    Operation.run env config options w (send plan read) =
      if options.cancelAfter = some 0 then (.error .cancelled, w)
      else
        match plan with
        | .error e => (.error e, w)
        | .ok c =>
          match late? env config options with
          | some reason => (.error reason, { w with log := w.log ++ [c] })
          | none =>
            (outcome read c (env.answer c w.store).1, { w with log := w.log ++ [c], store := (env.answer c w.store).2 }) := by
  rw [Operation.run]
  split
  · rfl
  cases plan with
  | error e =>
    rw [send_error]
    cases options.cutoff config.defaultTimeout <;> rfl
  | ok c =>
    rw [send_ok, late?]
    cases options.cutoff config.defaultTimeout with
    | none => rfl
    | some limit =>
      obtain ⟨time, reason⟩ := limit
      simp only [ExceptT.run, ExceptT.mk, Program.run, Nat.zero_add, Option.any_some, decide_eq_true_eq, Option.bind_some]
      by_cases h : time < env.latency
      · simp only [h, if_true]
      · simp only [h, if_false]

/-- The result of a run of one call. -/
theorem result_send (env : Surroundings I S) (config : EntityConfig) (options : Options) (w : World I S) :
    (Operation.run env config options w (send plan read)).1 =
      if options.cancelAfter = some 0 then .error .cancelled
      else plan.bind fun c =>
        match late? env config options with
        | some reason => .error reason
        | none => outcome read c (env.answer c w.store).1 := by
  rw [run_send]
  split
  · rfl
  · cases plan with
    | error e => rfl
    | ok c =>
      simp only [Except.bind]
      cases late? env config options <;> rfl

/-- Results that are made, each in its own way, of one result that has a property if it is none of a failure. -/
def Uniform {ι : Type} (P : β → Prop) (results : ι → Except Error α) (view : ι → β → Except Error α) : Prop :=
  ∃ r : Except Error β, (∀ b, r = .ok b → P b) ∧ ∀ i, results i = r.bind (view i)

section

variable {ι : Type} {P : β → Prop} {view : ι → β → Except Error α}

/-- Failures that are one failure. -/
theorem Uniform.failed {results : ι → Except Error α} (e : Error) (h : ∀ i, results i = .error e) : Uniform P results view :=
  ⟨.error e, nofun, h⟩

/-- Runs of calls come to one result if the calls are all refused alike, or what their answers are read as comes to one result. -/
theorem run_send_uniform {plans : ι → Except Error I.Call} {reads : ι → (c : I.Call) → I.Answer c → Except Error α}
    (env : Surroundings I S) (config : EntityConfig) (options : Options) (w : World I S)
    (h : (∃ e, ∀ i, plans i = .error e) ∨ ∃ calls : ι → I.Call, (∀ i, plans i = .ok (calls i)) ∧
      Uniform P (fun i => outcome (reads i) (calls i) (env.answer (calls i) w.store).1) view) :
    Uniform P (fun i => (Operation.run env config options w (send (plans i) (reads i))).1) view := by
  simp only [run_send]
  by_cases hcancelled : options.cancelAfter = some 0
  · exact .failed .cancelled fun i => by rw [if_pos hcancelled]
  simp only [if_neg hcancelled]
  obtain ⟨e, he⟩ | ⟨calls, hcalls, huniform⟩ := h
  · exact .failed e fun i => by rw [he]
  · simp only [hcalls]
    cases late? env config options with
    | some reason => exact .failed reason fun i => rfl
    | none => exact huniform

end

end Operation

namespace Dynamo

/-- The records and the continuation of an answer to a read of a table. -/
def readPage (call : Call) (answer : call.Answer) : Except Error RecordPage :=
  (readItems (pageOf call answer).items).map fun items =>
    ⟨items, (pageOf call answer).last.map fun key => (Json.obj key).text⟩

/-- A search of a table is one call. -/
theorem findMany_eq_send (t : Table) (request : PageRequest) :
    findMany t request = Operation.send (I := service) (planRead t request) readPage := by
  exact Operation.eq_send (I := service) fun call answer => (Operation.of_map _ _).symm

/-- The result of a search of a table. -/
theorem result_findMany (env : Surroundings service S) (config : EntityConfig) (options : Options) (w : World service S) (t : Table)
    (request : PageRequest) : (Operation.run env config options w (findMany t request)).1 =
      if options.cancelAfter = some 0 then .error .cancelled
      else (planRead t request).bind fun c =>
        match Operation.late? env config options with
        | some reason => .error reason
        | none => Operation.outcome (I := service) readPage c (env.answer c w.store).1 := by
  rw [findMany_eq_send]
  exact Operation.result_send env config options w

/-- The first record of an answer to a read of a table. -/
def readFirst (call : Call) (answer : call.Answer) : Except Error (Option Document) :=
  (readItems (pageOf call answer).items).map List.head?

/-- The item that a read by key answers with. -/
def itemOf? : (call : Call) → call.Answer → Option Item
  | .get _, item => item
  | .scan _, _ | .query _, _ | .put _, _ | .update _, _ | .delete _, _ => none

/-- The record of an answer to a read by key. -/
def readRecord (call : Call) (answer : call.Answer) : Except Error (Option Document) :=
  match itemOf? call answer with
  | some item => (readItem item).map some
  | none => .ok none

/-- The read for a record with an identifier. -/
def planFind (t : Table) (id : String) (select : Select) : Except Error Call :=
  match t.sortKey with
  | some _ => (firstRequest t id select).map .query
  | none => .ok (.get ⟨t.name, partitionItem t id, (projection [] select).1, (Tables.mk (projection [] select).2 []).names⟩)

/-- What is made of the answer to the read for a record. -/
def readFind (t : Table) : (call : Call) → call.Answer → Except Error (Option Document) :=
  match t.sortKey with
  | some _ => readFirst
  | none => readRecord

/-- Looking for a record of a table is one call. -/
theorem findById_eq_send (t : Table) (id : String) (select : Select) :
    findById t id select = Operation.send (I := service) (planFind t id select) (readFind t) := by
  rw [findById, planFind, readFind]
  cases t.sortKey with
  | some sortKey =>
    simp only
    rw [firstOf]
    cases firstRequest t id select with
    | error e => rfl
    | ok request =>
      have hread (page : Page) : (do
          let items ← Operation.of (I := service) (readItems page.items)
          return items.head?) = Operation.of (readFirst (.query request) page) := (Operation.of_map _ _).symm
      exact congrArg (Operation.ask (I := service) (.query request) .storeFailure >>= ·) (funext hread)
  | none =>
    have hread (item : Option Item) : (match item with
        | some item => (Operation.of (I := service) (readItem item)).map some
        | none => return none) = Operation.of (I := service) (match item with
          | some item => (readItem item).map some
          | none => .ok none) := by
      cases item with
      | none => rfl
      | some item => exact (Operation.of_map (readItem item) some).symm
    exact congrArg (Operation.ask (I := service) (.get ⟨t.name, partitionItem t id, (projection [] select).1,
      (Tables.mk (projection [] select).2 []).names⟩) .storeFailure >>= ·) (funext hread)

end Dynamo

namespace Cosmos

/-- The query that a request for a page amounts to. -/
def planRead (c : Container) (request : PageRequest) : Except Error Call :=
  (compileFindMany request.filter request.select request.order).map fun compiled =>
    .query c compiled.spec (count32? request.take) request.continuation

/-- The page that a query answers with. -/
def answered : (call : Call) → call.Answer → Page
  | .query _ _ _ _, page => page
  | .create _ _, _ | .upsert _ _, _ | .replace _ _ _ _, _ | .delete _ _ _, _ => ⟨none, none⟩

/-- The records and the continuation of an answer to a query. -/
def readPage (call : Call) (answer : call.Answer) : Except Error RecordPage :=
  (normalizeItems (answered call answer).resources).map fun items => ⟨items.map strip, (answered call answer).continuation⟩

/-- A search of a container is one call. -/
theorem findMany_eq_send (c : Container) (request : PageRequest) :
    findMany c request = Operation.send (I := service) (planRead c request) readPage := by
  rw [findMany, planRead]
  cases compileFindMany request.filter request.select request.order with
  | error e => rfl
  | ok compiled =>
    have hread (page : Page) : (do
        let items ← Operation.of (I := service) (normalizeItems page.resources)
        return ⟨items.map strip, page.continuation⟩) =
          Operation.of (readPage (.query c compiled.spec (count32? request.take) request.continuation) page) :=
      (Operation.of_map _ _).symm
    exact congrArg
      (Operation.ask (I := service) (.query c compiled.spec (count32? request.take) request.continuation) .storeFailure >>= ·)
      (funext hread)

/-- The result of a search of a container. -/
theorem result_findMany (env : Surroundings service S) (config : EntityConfig) (options : Options) (w : World service S)
    (c : Container) (request : PageRequest) : (Operation.run env config options w (findMany c request)).1 =
      if options.cancelAfter = some 0 then .error .cancelled
      else (planRead c request).bind fun call =>
        match Operation.late? env config options with
        | some reason => .error reason
        | none => Operation.outcome (I := service) readPage call (env.answer call w.store).1 := by
  rw [findMany_eq_send]
  exact Operation.result_send env config options w

/-- The query for a record with an identifier. -/
def planFind (c : Container) (id : String) (select : Select) : Except Error Call :=
  (compileFindById id select).map fun compiled => .query c compiled.spec (some 1) none

/-- The first record of an answer to a query. -/
def readFirst (call : Call) (answer : call.Answer) : Except Error (Option Document) :=
  (normalizeItems (answered call answer).resources).map fun items => items.head?.map strip

/-- Looking for a record of a container is one call. -/
theorem findById_eq_send (c : Container) (id : String) (select : Select) :
    findById c id select = Operation.send (I := service) (planFind c id select) readFirst := by
  rw [findById, planFind]
  cases compileFindById id select with
  | error e => rfl
  | ok compiled =>
    have hread (page : Page) : (do
        let items ← Operation.of (I := service) (normalizeItems page.resources)
        return items.head?.map strip) = Operation.of (readFirst (.query c compiled.spec (some 1) none) page) :=
      (Operation.of_map _ _).symm
    exact congrArg (Operation.ask (I := service) (.query c compiled.spec (some 1) none) .storeFailure >>= ·) (funext hread)

end Cosmos

namespace Repository

/-- A page of the store as a page of records. -/
def pageFrom (r : Repository I ρ) (select : Select) (page : RecordPage) : Except Error (RecordsPage ρ) :=
  (page.items.mapM fun d => r.materialize (select.project d)).map fun items => ⟨items, page.continuation.map Cursor.encode⟩

/-- What a request for a page says of the arguments that it was made of. -/
theorem pageRequest_cases {r : Repository I ρ} {args : FindArgs} {request : PageRequest} (h : r.pageRequest args = .ok request) :
    args.filter.validate = .ok () ∧ ∃ take continuation, r.pageSize args.take = .ok take ∧
      request = ⟨args.filter, args.select, args.order, take, continuation⟩ := by
  have hlast {take : Nat} {continuation : Option String} (htake : r.pageSize args.take = .ok take)
      (h : (do args.filter.validate; .ok ⟨args.filter, args.select, args.order, take, continuation⟩ : Except Error PageRequest) =
        .ok request) : args.filter.validate = .ok () ∧ ∃ take continuation, r.pageSize args.take = .ok take ∧
      request = ⟨args.filter, args.select, args.order, take, continuation⟩ := by
    cases hvalid : args.filter.validate with
    | error e => rw [hvalid] at h; cases h
    | ok u =>
      rw [hvalid] at h
      exact ⟨rfl, take, continuation, htake, (Except.ok.inj h).symm⟩
  rw [pageRequest] at h
  cases htake : r.pageSize args.take with
  | error e => rw [htake] at h; cases h
  | ok take =>
    rw [htake] at h hlast
    cases hcursor : args.cursor with
    | none =>
      rw [hcursor] at h
      exact hlast rfl h
    | some cursor =>
      rw [hcursor] at h
      cases hread : Cursor.decode cursor with
      | error e => simp only [hread] at h; cases h
      | ok token =>
        simp only [hread] at h
        exact hlast rfl h

/-- Where a search of the store is one call, so is that of the repository. -/
theorem findMany_eq_send {r : Repository I ρ} {plan : PageRequest → Except Error I.Call}
    {read : (c : I.Call) → I.Answer c → Except Error RecordPage}
    (h : ∀ request, r.adapter.findMany request = Operation.send (plan request) read) (args : FindArgs) :
    r.findMany args =
      Operation.send ((r.pageRequest args).bind plan) fun c answer => (read c answer).bind (r.pageFrom args.select) := by
  rw [← Operation.send_bind_of, findMany]
  cases hrequest : r.pageRequest args with
  | error e => rfl
  | ok request =>
    have hpage (page : RecordPage) : (do
        let items ← Operation.of (I := I) (page.items.mapM fun d => r.materialize (request.select.project d))
        return ⟨items, page.continuation.map Cursor.encode⟩) = Operation.of (r.pageFrom args.select page) := by
      obtain ⟨-, take, continuation, -, rfl⟩ := pageRequest_cases hrequest
      exact (Operation.of_map _ _).symm
    change (r.adapter.findMany request >>= fun page => _) = Operation.send (plan request) read >>= _
    rw [h request]
    exact congrArg (Operation.send (plan request) read >>= ·) (funext hpage)

/-- A found document as a record. -/
def recordFrom (r : Repository I ρ) (id : String) (select : Select) : Option Document → Except Error ρ
  | some d => r.materialize (select.project d)
  | none => .error (.notFound id)

/-- Where looking for a record in the store is one call, so is looking for one of the repository. -/
theorem findOne_eq_send {r : Repository I ρ} {id : String} {select : Select} {plan : Except Error I.Call}
    {read : (c : I.Call) → I.Answer c → Except Error (Option Document)}
    (h : r.adapter.findById id select = Operation.send plan read) :
    r.findOne id select =
      Operation.send ((checkId id).bind fun _ => plan) fun c answer => (read c answer).bind (r.recordFrom id select) := by
  rw [← Operation.send_bind_of, ← Operation.of_bind_send, ← h, findOne]
  cases checkId id with
  | error e => rfl
  | ok _ =>
    refine congrArg (r.adapter.findById id select >>= ·) (funext fun found => ?_)
    cases found <;> rfl

end Repository

end DocQuery
