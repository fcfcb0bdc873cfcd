import DocQuery.Proofs.Compile.Faults
import DocQuery.Proofs.Dynamo.Selection
import DocQuery.Proofs.Repository.Ensures

/-!
# Turning a request down

Errors of four kinds say that what was asked cannot be done as asked. A request that cannot be made of its arguments fails with one
of these, and an answer of the store that cannot be read never does. So the error tells whether the store was asked.
-/

namespace DocQuery

variable {I : Interface} {S ρ α β : Type}

/-- Whether an error turns a request down for what it asks. -/
def Error.refuses (e : Error) : Bool :=
  match e.kind with
  | .invalidArgument | .malformedFilter | .unsupportedOperator | .invalidCursor => true
  | .notFound | .alreadyExists | .contractViolation | .storeFailure | .timedOut | .cancelled => false

/-! ## Results by their errors -/

/-- A result that fails, if it does, with an error of a sort. -/
def FailsOnly (P : Error → Prop) (r : Except Error α) : Prop := ∀ e, r = .error e → P e

namespace FailsOnly

variable {P Q : Error → Prop}

theorem ok (a : α) : FailsOnly P (.ok a) := nofun

theorem error {e : Error} (h : P e) : FailsOnly P (.error e : Except Error α) := by
  rintro _ ⟨⟩
  exact h

theorem imp {r : Except Error α} (h : FailsOnly P r) (himp : ∀ e, P e → Q e) : FailsOnly Q r := fun e he => himp e (h e he)

/-- One of two results. -/
theorem ite {p : Prop} [Decidable p] {r r' : Except Error α} (h : FailsOnly P r) (h' : FailsOnly P r') :
    FailsOnly P (if p then r else r') := by
  split
  · exact h
  · exact h'

/-- One result after the other. -/
theorem bind {r : Except Error α} (h : FailsOnly P r) {f : α → Except Error β} (hf : ∀ a, FailsOnly P (f a)) :
    FailsOnly P (r.bind f) := by
  cases r with
  | error e => exact error (h e rfl)
  | ok a => exact hf a

theorem map {r : Except Error α} (h : FailsOnly P r) (f : α → β) : FailsOnly P (r.map f) := by
  cases r with
  | error e => exact error (h e rfl)
  | ok a => exact ok (f a)

theorem mapM {f : α → Except Error β} (hf : ∀ a, FailsOnly P (f a)) (xs : List α) : FailsOnly P (xs.mapM f) := by
  induction xs with
  | nil => exact ok []
  | cons x xs ih =>
    rw [List.mapM_cons]
    exact (hf x).bind fun _ => ih.bind fun _ => ok _

theorem forM {f : α → Except Error Unit} (hf : ∀ a, FailsOnly P (f a)) (xs : List α) : FailsOnly P (xs.forM f) := by
  induction xs with
  | nil => exact ok ()
  | cons x xs ih => exact (hf x).bind fun _ => ih

end FailsOnly

/-- A result that fails, if it does, by turning a request down. -/
abbrev Refuses (r : Except Error α) : Prop := FailsOnly (fun e => e.refuses = true) r

/-- A result that never fails so. -/
abbrev Accepts (r : Except Error α) : Prop := FailsOnly (fun e => e.refuses = false) r

/-! ## Requests -/

theorem checkOperand_refuses (field : String) (op : Operator) (ty : Option FieldType) (typed : Bool) (v : Operand) :
    Refuses (Condition.checkOperand field op ty typed v) := by
  unfold Condition.checkOperand
  split
  · exact .error rfl
  · split
    · split
      · exact .error rfl
      · exact .ok ()
    · exact .ok ()

theorem check_refuses (field : String) (ty : Option FieldType) (c : Condition) : Refuses (c.check field ty) := by
  have hmember (op : Operator) (values : List Operand) : Refuses (do
      if values.isEmpty then throw (.malformedFilter field (.noValues op))
      values.forM (Condition.checkOperand field op ty true)) := by
    cases values with
    | nil => exact .error rfl
    | cons v vs => exact .forM (checkOperand_refuses field op ty true) _
  unfold Condition.check
  cases c with
  | compare op v =>
    have hoperand := checkOperand_refuses field (Condition.compare op v).operator ty (!op.isRange) v
    cases ty with
    | none => exact hoperand
    | some ty => exact .ite (.error rfl) hoperand
  | text t part =>
    cases ty with
    | none => exact .ok ()
    | some ty => exact .ite (.error rfl) (.ok ())
  | member negated values =>
    cases ty with
    | none => exact hmember _ values
    | some ty => exact .ite (.error rfl) (hmember _ values)

theorem validate_refuses (w : Where) : Refuses w.validate := by
  refine .forM (fun e => ?_) _
  dsimp only
  split
  · exact .error rfl
  · rw [FieldFilter.validate]
    split
    · exact .error rfl
    · exact .forM (fun c => check_refuses _ _ c) _

theorem decode_refuses (cursor : String) : Refuses (Cursor.decode cursor) := by
  rw [Cursor.decode]
  split
  · exact .error rfl
  · split
    · exact .error rfl
    · split
      · exact .ok _
      · exact .error rfl

theorem checkId_refuses (id : String) : Refuses (checkId id) := by
  rw [checkId]
  split
  · exact .error rfl
  · split
    · exact .error rfl
    · exact .ok ()

namespace Repository

theorem payload_refuses (operation : PayloadOperation) (data : Json) : Refuses (payload operation data) := by
  unfold payload
  split
  · exact .error rfl
  · exact .ok _
  · exact .error rfl

theorem pageSize_refuses (r : Repository I ρ) (take : Option Int64) : Refuses (r.pageSize take) := by
  unfold pageSize
  split
  · exact .ok _
  · split
    · exact .ok _
    · exact .error rfl

/-- A request for a page. -/
theorem pageRequest_refuses (r : Repository I ρ) (args : FindArgs) : Refuses (r.pageRequest args) := by
  rw [pageRequest]
  refine (pageSize_refuses r args.take).bind fun take => ?_
  have hlast (continuation : Option String) : Refuses (do
      args.filter.validate
      .ok ⟨args.filter, args.select, args.order, take, continuation⟩ : Except Error PageRequest) :=
    (validate_refuses args.filter).bind fun _ => .ok _
  cases args.cursor with
  | none => exact hlast none
  | some cursor => exact ((decode_refuses cursor).map some).bind hlast

theorem materialize_accepts (r : Repository I ρ) (d : Document) : Accepts (r.materialize d) := by
  rw [materialize]
  split
  · exact .ok _
  · exact .error rfl

theorem pageFrom_accepts (r : Repository I ρ) (select : Select) (page : RecordPage) : Accepts (r.pageFrom select page) :=
  (FailsOnly.mapM (fun d => materialize_accepts r (select.project d)) page.items).map _

theorem recordFrom_accepts (r : Repository I ρ) (id : String) (select : Select) (found : Option Document) :
    Accepts (r.recordFrom id select found) := by
  cases found with
  | none => exact .error rfl
  | some d => exact r.materialize_accepts (select.project d)

end Repository

/-! ## Compiling -/

namespace Compile

variable {σ : Type}

/-- A step that fails, if it does, by turning a request down, whatever was bound before. -/
def Refuses (step : Compile σ α) : Prop := ∀ b, DocQuery.Refuses (step.run.run b).1

theorem Ends.refuses {step : Compile σ α} {e? : Option Error} (h : Ends step e?) (he : ∀ e, e? = some e → e.refuses = true) :
    Refuses step := by
  intro b e hstep
  have hb := h b
  rw [hstep] at hb
  exact he e hb

theorem Succeeds.refuses {step : Compile σ α} (h : Succeeds step) : Refuses step := h.ends.refuses nofun

/-- One step after another. -/
theorem Refuses.bind {step : Compile σ α} (h : Refuses step) {next : α → Compile σ β} (hnext : ∀ a, Refuses (next a)) :
    Refuses (step >>= next) := by
  intro b
  have hb := h b
  rw [ExceptT.run_bind, StateT.run_bind]
  rcases hstep : step.run.run b with ⟨e | a, b'⟩
  · rw [hstep] at hb
    exact .error (hb e rfl)
  · exact hnext a b'

theorem Refuses.mapM {step : α → Compile σ β} (h : ∀ a, Refuses (step a)) (xs : List α) : Refuses (xs.mapM step) := by
  induction xs with
  | nil => exact (Succeeds.pure []).refuses
  | cons x xs ih =>
    rw [List.mapM_cons]
    exact (h x).bind fun _ => ih.bind fun _ => (Succeeds.pure _).refuses

/-- A condition fails over a list, if it does. -/
theorem condition_refuses (d : Dialect σ) (field : String) (mode : Mode) (c : Condition) : Refuses (condition d field mode c) := by
  refine (condition_ends d field mode c).refuses fun e he => ?_
  unfold Condition.fault? at he
  split at he
  · split at he
    · exact Option.some.inj he ▸ rfl
    · obtain ⟨max, -, he⟩ := Option.bind_eq_some_iff.1 he
      split at he
      · exact Option.some.inj he ▸ rfl
      · cases he
  all_goals cases he

theorem field_refuses (d : Dialect σ) (name : String) (f : FieldFilter) : Refuses (field d name f) := by
  rw [field]
  exact .mapM (condition_refuses d name f.mode) f.conditions

theorem filter_refuses (d : Dialect σ) (w : Where) : Refuses (filter d w) := by
  have hvalid : Refuses (MonadExcept.ofExcept w.validate : Compile σ Unit) := fun b => by
    cases hw : w.validate with
    | error e => exact .error (validate_refuses w e hw)
    | ok _ => exact .ok ()
  have hfields : Refuses (w.entries.mapM fun e => field d e.1 e.2) := by
    refine Refuses.mapM ?_ _
    exact fun e => field_refuses d e.1 e.2
  rw [filter]
  refine hvalid.bind fun _ => ?_
  refine hfields.bind fun predicates => ?_
  split <;> exact (Succeeds.pure _).refuses

end Compile

/-! ## Answers -/

theorem objectsFrom_fails (index : Nat) (items : List Json) :
    FailsOnly (fun e => e.kind = .contractViolation) (objectsFrom index items) := by
  fun_induction objectsFrom index items with
  | case1 => exact .ok []
  | case2 index members rest ih => exact ih.map _
  | case3 => exact .error rfl

/-- A result set breaks the store's contract where it cannot be read. -/
theorem normalizeItems_fails (resources : Option Json) :
    FailsOnly (fun e => e.kind = .contractViolation) (normalizeItems resources) := by
  unfold normalizeItems
  split
  · exact .ok []
  · exact objectsFrom_fails 0 _
  · exact .error rfl

namespace Operation

/-- To be out of time does not turn the request down. -/
theorem late?_accepts {env : Surroundings I S} {config : EntityConfig} {options : Options} {reason : Error}
    (h : late? env config options = some reason) : reason.refuses = false := by
  obtain ⟨⟨time, said⟩, hcutoff, hreason⟩ := Option.bind_eq_some_iff.1 h
  rw [Option.ite_none_right_eq_some] at hreason
  obtain rfl := Option.some.inj hreason.2
  rcases Options.kind_of_cutoff hcutoff with hkind | hkind <;> rw [Error.refuses, hkind]

/-- What is made of an answer does not turn the request down where what is read of it does not. -/
theorem outcome_accepts {read : (c : I.Call) → I.Answer c → Except Error α} {c : I.Call} (h : ∀ answer, Accepts (read c answer))
    (answer : Except StoreError (I.Answer c)) : Accepts (outcome read c answer) := by
  cases answer with
  | error e => exact .error rfl
  | ok answer => exact h answer

end Operation

namespace Dynamo

/-- A step of a read's text. -/
theorem compileKey_refuses (field : String) (c : KeyCondition) : Compile.Refuses (compileKey field c) := by
  cases c with
  | single c => exact Compile.condition_refuses dialect field .sensitive c
  | between low high => exact Compile.Succeeds.refuses fun b => ⟨_, _, compileKey_between_yields field low high b⟩

theorem readTexts?_refuses (select : Select) (keys : List (String × KeyCondition)) (remaining : Where) :
    Refuses (readTexts? select keys remaining) := by
  have hprojection : Compile.Succeeds (compileProjection select) := fun b => ⟨_, _, compileProjection_yields select b⟩
  have htexts : Compile.Refuses (compileTexts select keys remaining) :=
    hprojection.refuses.bind fun _ => Compile.Refuses.bind (.mapM (fun e => compileKey_refuses e.1 e.2) keys) fun _ =>
      (Compile.filter_refuses dialect remaining).bind fun _ => (Compile.Succeeds.pure _).refuses
  intro e he
  have hcompiled := htexts ⟨[], []⟩
  rw [readTexts?] at he
  split at he
  · cases he
  · next h =>
    rw [h] at hcompiled
    exact hcompiled e (Except.error.inj he ▸ rfl)

theorem startKey_refuses (token : String) : Refuses (startKey token) := by
  unfold startKey
  split
  · exact .ok _
  · exact .error rfl
  · exact .error rfl

theorem forward?_refuses (t : Table) (isQuery : Bool) (order : Order) : Refuses (forward? t isQuery order) := by
  unfold forward?
  split
  · exact .ok none
  · split
    · exact .ok _
    · exact .error rfl
  · exact .error rfl

/-- A read that a request for a page amounts to. -/
theorem planRead_refuses (t : Table) (request : PageRequest) : Refuses (planRead t request) := by
  cases hv : request.filter.validate with
  | error e =>
    rw [planRead, hv]
    exact .error (validate_refuses _ e hv)
  | ok _ =>
    rw [planRead_eq t request hv rfl]
    refine (forward?_refuses _ _ _).bind fun forward => FailsOnly.bind ?_ fun start => (readTexts?_refuses _ _ _).map _
    unfold startOf
    split
    · exact (startKey_refuses _).map some
    · exact .ok none

theorem planFind_refuses (t : Table) (id : String) (select : Select) : Refuses (planFind t id select) := by
  rw [planFind]
  cases t.sortKey with
  | none => exact .ok _
  | some sortKey =>
    have hrequest : Refuses (firstRequest t id select) :=
      (readTexts?_refuses select [(t.partitionKey, .single (.compare .equals (.text id)))] Keyed.empty).bind fun _ => .ok _
    exact hrequest.map _

theorem readItem_accepts (item : Item) : Accepts (readItem item) := by
  rw [readItem]
  cases toDocument item with
  | error fault => exact .error rfl
  | ok d => exact .ok d

theorem readItems_accepts (items : Option Json) : Accepts (readItems items) :=
  ((normalizeItems_fails items).imp fun e he => by rw [Error.refuses, he]).bind fun _ => .mapM readItem_accepts _

theorem readPage_accepts (call : Call) (answer : call.Answer) : Accepts (readPage call answer) := (readItems_accepts _).map _

theorem readFind_accepts (t : Table) (call : Call) (answer : call.Answer) : Accepts (readFind t call answer) := by
  rw [readFind]
  cases t.sortKey with
  | some sortKey => exact (readItems_accepts _).map _
  | none =>
    show Accepts (readRecord call answer)
    unfold readRecord
    split
    · exact (readItem_accepts _).map _
    · exact .ok none

end Dynamo

namespace Cosmos

theorem planRead_refuses (c : Container) (request : PageRequest) : Refuses (planRead c request) := by
  refine FailsOnly.map (fun e he => ?_) _
  have hcompiled := Compile.filter_refuses dialect request.filter ⟨(), []⟩
  rw [compileFindMany] at he
  split at he
  · cases he
  · next h =>
    rw [h] at hcompiled
    exact hcompiled e (Except.error.inj he ▸ rfl)

theorem planFind_refuses (c : Container) (id : String) (select : Select) : Refuses (planFind c id select) := by
  refine FailsOnly.map (fun e he => ?_) _
  have hcompiled := Compile.condition_refuses dialect "id" .sensitive (.compare .equals (.text id)) ⟨(), []⟩
  rw [compileFindById] at he
  split at he
  · cases he
  · next h =>
    rw [h] at hcompiled
    exact hcompiled e (Except.error.inj he ▸ rfl)

theorem readPage_accepts (call : Call) (answer : call.Answer) : Accepts (readPage call answer) :=
  ((normalizeItems_fails _).imp fun e he => by rw [Error.refuses, he]).map _

theorem readFirst_accepts (call : Call) (answer : call.Answer) : Accepts (readFirst call answer) :=
  ((normalizeItems_fails _).imp fun e he => by rw [Error.refuses, he]).map _

end Cosmos

end DocQuery
