import DocQuery.Proofs.Cosmos.Atomic
import DocQuery.Proofs.Dynamo.First
import DocQuery.Proofs.Dynamo.Reachable
import DocQuery.Proofs.Repository.Calls

/-!
# Stores are called in order

Whatever the client answers: the operations of a repository, over a container or over a table, check what they are asked before they
send a call, send at most one call or, to change or remove a record, at most two, and write with the last one
(`calls_disciplined`).
-/

namespace DocQuery

open Expression Operation

variable {S : Type}

/-- Whether a formula tells, with these values, the documents that have an identifier in a field from all others. -/
def Tells (condition : Formula) (values : Fields Json) (field id : String) : Prop :=
  ∀ d : Document, ∃ holds, Scope.eval ⟨d, values⟩ condition = .ok holds ∧ (holds = true ↔ Fields.get? d field = some (.str id))

/-! ## Containers -/

namespace Cosmos

/-- A query of a container, from its beginning, whose condition holds of just those documents that have an identifier. -/
def Call.LooksFor (c : Container) (id : String) : Call → Prop
  | .query container spec _ continuation => container = c ∧ continuation = none ∧ ∃ query condition,
      parseQuery spec.query = .ok query ∧ query.condition = some condition ∧ Tells condition (Fields.ofList spec.parameters) "id" id
  | .create _ _ | .upsert _ _ | .replace _ _ _ _ | .delete _ _ _ => False

/-- An answer to a query that begins with a document. -/
def Call.Finds : (call : Call) → call.Answer → Prop
  | .query _ _ _ _, page => ∃ d rest, page.resources = some (.arr (.obj d :: rest))
  | .create _ _, _ | .upsert _ _, _ | .replace _ _ _ _, _ | .delete _ _ _, _ => False

/-- What is called of a container. -/
def purposes (c : Container) : Purposes service := ⟨Call.Writes, Call.LooksFor c, Call.Finds⟩

/-- Looking for a document is a query for its identifier. -/
theorem lookup_planFind (c : Container) (id : String) (select : Select) :
    (purposes c).Lookup id (planFind c id select) readFirst where
  reads _ := not_writes_of_planFind c
  looks call h := by
    obtain ⟨compiled, condition, hcompiled, hparse, hmeans⟩ := compileFindById_means id select
    rw [planFind, hcompiled] at h
    cases h
    exact ⟨rfl, rfl, _, condition, hparse, rfl, fun d => ⟨_, hmeans d, beq_iff_eq.trans documentId?_eq_some_iff⟩⟩
  finds call h answer d hread := by
    obtain ⟨compiled, -, rfl⟩ := of_map_eq_ok h
    obtain ⟨found, hitems, hfound⟩ := of_map_eq_ok hread
    cases found with
    | nil => cases hfound
    | cons first others =>
      obtain ⟨rest, hfirst⟩ := head_of_normalizeItems hitems
      exact ⟨first, rest, hfirst⟩

theorem partitionValue_refuses (c : Container) (d : Document) : Refuses (partitionValue c d) := by
  rw [partitionValue]
  split
  · exact .ok _
  · exact .error rfl

section

variable (c : Container) (env : Surroundings service S) (w : World service S)

/-- A write that fails does not turn the request down. -/
theorem missing_accepts (id : String) (e : StoreError) : (missing id e).refuses = false := by
  cases e <;> rfl

/-- Storing a document is one call. -/
theorem upsert_calls (d : Document) : (upsert c d).Calls env OneCall w :=
  .bind_of (.ask (fun _ => rfl) rfl) fun stored => ⟨.ok (strip stored), rfl, .ok _⟩

/-- Storing a new document is one call, unless its identifier or its partition is missing. -/
theorem insert_calls (d : Document) (policy : WritePolicy) : (insert c d policy).Calls env OneCall w := by
  rw [insert]
  refine .of_bind (fun e he => .none ?_) fun id _ => ?_
  · split at he <;> cases he
    rfl
  refine .of_bind (fun e he => .none (partitionValue_refuses c d e he)) fun _ _ => ?_
  cases policy with
  | existenceChecked =>
    exact .bind_of (.ask (fun e => by cases e <;> rfl) rfl) fun stored => ⟨.ok (strip stored), rfl, .ok _⟩
  | unchecked => exact upsert_calls c env w d

/-- A document that has been looked for is replaced by one call. -/
theorem replace_calls (id : String) (existing changes : Document) :
    (replace c id existing changes).Calls env OneCallAtMost w := by
  have hreplace (partition : Json) (merged : Document) : Operation.Calls env OneCallAtMost (do
      let stored : Document ← Operation.ask (I := service) (.replace c id partition merged) (missing id)
      return strip stored) w :=
    .bind_of (.ask (missing_accepts id) (.inr ⟨rfl, _, rfl⟩)) fun stored => ⟨.ok (strip stored), rfl, .ok _⟩
  rw [replace]
  refine .of_bind (fun _ _ => .inl rfl) fun partition _ => ?_
  dsimp only
  split
  · split
    · exact .of (r := .error _) (.inl rfl)
    · exact hreplace partition _
  · exact hreplace partition _

/-- Changing a document. -/
theorem update_calls (id : String) (changes : Document) (policy : WritePolicy) :
    (update c id changes policy).Calls env (LooksFirst (purposes c) env w.store id policy) w := by
  rw [update, findById_eq_send]
  refine .look_bind (lookup_planFind c id _) ?_ ?_
  · rintro rfl w'
    exact .of (r := .error _) rfl
  · intro found w'
    cases found with
    | some existing => exact replace_calls c env w' id existing changes
    | none =>
      cases policy with
      | existenceChecked => exact .of (r := .error _) (.inl rfl)
      | unchecked =>
        refine .of_bind (fun _ _ => .inl rfl) fun _ _ => ?_
        exact (upsert_calls c env w' _).imp fun _ _ => OneCall.atMost

/-- Removing a document. -/
theorem delete_calls (id : String) (policy : WritePolicy) :
    (delete c id policy).Calls env (LooksFirst (purposes c) env w.store id policy) w := by
  rw [delete, findById_eq_send]
  refine .look_bind (lookup_planFind c id _) ?_ ?_
  · rintro rfl w'
    exact .of (r := .error _) rfl
  · intro found w'
    cases found with
    | none =>
      cases policy with
      | existenceChecked => exact .of (r := .error _) (.inl rfl)
      | unchecked => exact .of (r := .ok ()) (.inl rfl)
    | some existing =>
      refine .of_bind (fun _ _ => .inl rfl) fun partition _ => ?_
      refine ⟨⟨[.delete c id partition], rfl, .inr ⟨rfl, _, rfl⟩⟩, [.delete c id partition], rfl, ?_⟩
      refine .inr ⟨?_, _, rfl⟩
      rw [Option.any_some]
      generalize (env.answer (.delete c id partition) w'.store).1 = answer
      cases answer with
      | ok _ => rfl
      | error e => cases policy <;> cases e <;> rfl

end

/-- The operations on a container call it in order. -/
theorem adapter_disciplined (c : Container) : (adapter c).Disciplined (purposes c) where
  findMany := ⟨planRead c, readPage, findMany_eq_send c, planRead_refuses c, readPage_accepts⟩
  findById id select :=
    ⟨planFind c id select, readFirst, findById_eq_send c id select, planFind_refuses c id select, readFirst_accepts⟩
  insert _ := fun env d policy w => insert_calls c env w d policy
  update _ := fun env id changes policy w => update_calls c env w id changes policy
  delete _ := fun env id policy w => delete_calls c env w id policy

end Cosmos

/-! ## Tables -/

namespace Dynamo

/-- A query of a table, from its beginning and without a filter, whose key condition holds of just those records that have an
identifier for their partition key. -/
def Call.LooksFor (t : Table) (id : String) : Call → Prop
  | .query r => r.table = t.name ∧ r.filter = none ∧ r.start = none ∧ ∃ condition values,
      parseFormula r.keyCondition r.names = .ok condition ∧ Memory.plainValues r.values = .ok values ∧
        Tells condition values t.partitionKey id
  | .scan _ | .get _ | .put _ | .update _ | .delete _ => False

/-- An answer to a query that begins with an item. -/
def Call.Finds : (call : Call) → call.Answer → Prop
  | .query _, page => ∃ item rest, page.items = some (.arr (.obj item :: rest))
  | .scan _, _ | .get _, _ | .put _, _ | .update _, _ | .delete _, _ => False

/-- What is called of a table. -/
def purposes (t : Table) : Purposes service := ⟨Call.Writes, Call.LooksFor t, Call.Finds⟩

/-- The request for the first record of a partition is a query for its identifier. -/
theorem looksFor_firstRequest (t : Table) (id : String) {select : Select} {request : QueryRequest}
    (h : firstRequest t id select = .ok request) : (Call.query request).LooksFor t id := by
  obtain ⟨texts, tables, hread, hstands⟩ := readTexts?_stands select (plain_partition t id)
    (show Where.Valid Keyed.empty from rfl) nofun
  obtain ⟨condition, hcondition, hparsed⟩ := hstands.keyCondition (List.cons_ne_nil _ _)
  obtain rfl := Except.ok.inj ((firstRequest_eq hread).symm.trans h)
  refine ⟨rfl, filter_of_empty hread, rfl, condition, tables.decoded, hparsed, hstands.values, fun d => ?_⟩
  have hpasses := hstands.passes_key d
  rw [hcondition] at hpasses
  refine ⟨_, hpasses, decide_eq_true_iff.trans ?_⟩
  rw [List.forall_mem_singleton]
  exact passes_text_iff

/-- Looking for the first record of a partition is a query for its identifier. -/
theorem lookup_planFind {t : Table} {sortKey : String} (hs : t.sortKey = some sortKey) (id : String) (select : Select) :
    (purposes t).Lookup id (planFind t id select) (readFind t) where
  reads _ := not_writes_of_planFind t
  looks call h := by
    rw [planFind, hs] at h
    obtain ⟨request, hrequest, rfl⟩ := of_map_eq_ok h
    exact looksFor_firstRequest t id hrequest
  finds call h answer d hread := by
    rw [planFind, hs] at h
    rw [readFind, hs] at hread
    obtain ⟨request, -, rfl⟩ := of_map_eq_ok h
    obtain ⟨found, hread, hfound⟩ := of_map_eq_ok hread
    obtain ⟨items, hitems, hread⟩ := of_bind_eq_ok hread
    cases items with
    | nil =>
      cases hread
      cases hfound
    | cons item others =>
      obtain ⟨rest, hfirst⟩ := head_of_normalizeItems hitems
      exact ⟨item, rest, hfirst⟩

section

variable (t : Table) (env : Surroundings service S) (w : World service S)

/-- A conditional write is one call. -/
theorem write_calls (call : Call) {refusal : Error} (hrefusal : refusal.refuses = false) :
    Operation.Calls env OneCall (write call refusal) w :=
  .ask (fun e => by cases e <;> first | exact hrefusal | rfl) rfl

/-- Storing a new record is one call, unless part of its key is missing. -/
theorem insert_calls (d : Document) (policy : WritePolicy) : (insert t d policy).Calls env OneCall w := by
  have hput (id : String) (request : PutRequest) : Operation.Calls env OneCall (do
      let _ ← write (.put request) (.alreadyExists id)
      return d) w :=
    (write_calls env w _ rfl).bind_of fun _ => ⟨.ok d, rfl, .ok d⟩
  rw [insert]
  refine .of_bind (fun e he => .none ?_) fun id _ => ?_
  · split at he <;> cases he
    rfl
  cases t.sortKey with
  | none => exact hput id _
  | some sortKey =>
    dsimp only
    split
    · exact .of (r := .error _) (show OneCall true [] from rfl)
    · exact hput id _

/-- What is left of an operation after looking for the key of its record: a lookup comes first where the table has a sort key. -/
theorem resolveKey_calls {α : Type} {id : String} {policy : WritePolicy} {next : Option Item → Operation service α}
    (hnone : policy = .existenceChecked → ∀ w', (next none).Calls env (fun _ calls => calls = []) w')
    (hnext : ∀ key w', (next key).Calls env OneCallAtMost w') :
    (resolveKey t id >>= next).Calls env (LooksFirst (purposes t) env w.store id policy) w := by
  rw [resolveKey]
  cases hsort : t.sortKey with
  | none => exact (hnext (some (partitionItem t id)) w).imp fun _ _ => OneCallAtMost.looksFirst
  | some sortKey =>
    simp only
    rw [firstOf_eq_send hsort, Operation.bind_assoc]
    refine .look_bind (lookup_planFind hsort id _) hnone fun found w' => ?_
    cases found with
    | none => exact hnext none w'
    | some record =>
      dsimp only
      cases Fields.get? record sortKey with
      | some value => exact hnext _ w'
      | none => exact .of (r := .error _) (.inl rfl)

/-- Changing a record. -/
theorem update_calls (id : String) (changes : Document) (policy : WritePolicy) :
    (update t id changes policy).Calls env (LooksFirst (purposes t) env w.store id policy) w := by
  rw [update]
  dsimp only
  split
  · exact .of (r := .error _) .none
  · refine resolveKey_calls t env w (fun _ w' => .of (r := .error _) rfl) fun key w' => ?_
    cases key with
    | none => exact .of (r := .error _) (.inl rfl)
    | some key =>
      refine Calls.imp (.bind_of (write_calls env w' _ rfl) fun stored => ?_) fun _ _ => OneCall.atMost
      cases stored with
      | some item => exact ⟨_, rfl, readItem_accepts item⟩
      | none => exact ⟨.error _, rfl, .error rfl⟩

/-- Removing a record. -/
theorem delete_calls (id : String) (policy : WritePolicy) :
    (delete t id policy).Calls env (LooksFirst (purposes t) env w.store id policy) w := by
  unfold delete
  refine resolveKey_calls t env w ?_ fun key w' => ?_
  · rintro rfl w'
    exact .of (r := .error _) rfl
  · cases key with
    | none =>
      cases policy with
      | existenceChecked => exact .of (r := .error _) (.inl rfl)
      | unchecked => exact .of (r := .ok ()) (.inl rfl)
    | some key => exact (write_calls env w' _ rfl).imp fun _ _ => OneCall.atMost

end

/-- The operations on a table call it in order. -/
theorem adapter_disciplined (t : Table) : (adapter t).Disciplined (purposes t) where
  findMany := ⟨planRead t, readPage, findMany_eq_send t, planRead_refuses t, readPage_accepts⟩
  findById id select :=
    ⟨planFind t id select, readFind t, findById_eq_send t id select, planFind_refuses t id select, readFind_accepts t⟩
  insert _ := fun env d policy w => insert_calls t env w d policy
  update _ := fun env id changes policy w => update_calls t env w id changes policy
  delete _ := fun env id policy w => delete_calls t env w id policy

end Dynamo

/-! ## Both -/

/-- The calls of every operation of a repository, over a container or over a table, and whatever its client answers. A search, a
lookup and a creation send no call where they are turned down, and one where they are not and are not cancelled beforehand. A change
and a removal send two calls at most, and of two the first is a query for the records with the identifier, which was answered with one
if writes are checked. At most one call of an operation writes, the last one, and none does where the operation is turned down. -/
theorem calls_disciplined {ρ : Type} (config : EntityConfig) (decode : Document → Option ρ) :
    (∀ c : Cosmos.Container, (Repository.mk config (Cosmos.adapter c) decode).Disciplined (Cosmos.purposes c)) ∧
    ∀ t : Dynamo.Table, (Repository.mk config (Dynamo.adapter t) decode).Disciplined (Dynamo.purposes t) :=
  ⟨fun c => Repository.disciplined config decode (Cosmos.adapter_disciplined c),
    fun t => Repository.disciplined config decode (Dynamo.adapter_disciplined t)⟩

end DocQuery
