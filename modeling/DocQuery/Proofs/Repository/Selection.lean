import DocQuery.Proofs.Repository.OneCall
import DocQuery.Proofs.Repository.Pages

/-!
# Operations that select

A search for documents with a selection differs from the same search with another one in the call it sends, and in what it makes of
the answer. Where the calls are answered alike, but for what is selected of the documents, the searches come to the same documents,
each reduced to what is selected.
-/

namespace DocQuery

open Operation

variable {I : Interface} {S ρ : Type}

/-- A page of documents of which only some fields are selected. -/
def RecordsPage.project (select : Select) (page : RecordsPage Document) : RecordsPage Document :=
  { page with items := page.items.map select.project }

/-- Selecting every field changes nothing. -/
theorem RecordsPage.project_all (page : RecordsPage Document) : page.project Select.all = page := by
  have hitems : page.items.map Select.all.project = page.items := List.map_id _
  rw [project, hitems]

/-- Where one of several results is the one that all of them are made of, the others are made of it. -/
theorem Operation.Uniform.eq_bind {ι α : Type} {P : α → Prop} {results : ι → Except Error α} {view : ι → α → Except Error α}
    (h : Uniform P results view) {i : ι} (hi : ∀ a, view i a = .ok a) (j : ι) : results j = (results i).bind (view j) := by
  obtain ⟨r, -, hr⟩ := h
  have hself : r.bind (view i) = r := by
    cases r with
    | error e => rfl
    | ok a => exact hi a
  rw [hr j, hr i, hself]

namespace Repository

variable {r : Repository I Document} {a : Adapter I}

/-- Requests for a page that differ in what they select only are refused alike, or are made alike. -/
theorem pageRequest_select (r : Repository I Document) (args : FindArgs) :
    (∃ e, ∀ select, r.pageRequest { args with select } = .error e) ∨
      args.filter.Valid ∧ ∃ take continuation, ∀ select,
        r.pageRequest { args with select } = .ok ⟨args.filter, select, args.order, take, continuation⟩ := by
  simp only [pageRequest]
  cases r.pageSize args.take with
  | error e => exact .inl ⟨e, fun _ => rfl⟩
  | ok take =>
    cases hvalid : args.filter.validate with
    | error e =>
      cases args.cursor with
      | none => exact .inl ⟨e, fun _ => rfl⟩
      | some cursor =>
        cases hcursor : Cursor.decode cursor with
        | error e' => exact .inl ⟨e', fun _ => by simp only [hcursor]; rfl⟩
        | ok token => exact .inl ⟨e, fun _ => by simp only [hcursor]; rfl⟩
    | ok _ =>
      cases args.cursor with
      | none => exact .inr ⟨hvalid, take, none, fun _ => rfl⟩
      | some cursor =>
        cases hcursor : Cursor.decode cursor with
        | error e => exact .inl ⟨e, fun _ => by simp only [hcursor]; rfl⟩
        | ok token => exact .inr ⟨hvalid, take, some token, fun _ => by simp only [hcursor]; rfl⟩

/-- A page of documents takes them as they are. -/
theorem pageFrom_ofDocuments (config : EntityConfig) (a : Adapter I) (select : Select) (page : RecordPage) :
    (ofDocuments config a).pageFrom select page =
      .ok ⟨page.items.map select.project, page.continuation.map Cursor.encode⟩ := by
  rw [pageFrom, mapM_materialize]
  rfl

section

variable {config : EntityConfig} {options : Options} {env : Surroundings I S} {w : World I S}

/-- Searches that differ in what they select only come to one page, if the calls that they are sent as are answered alike. -/
theorem findMany_select {plan : PageRequest → Except Error I.Call} {read : (c : I.Call) → I.Answer c → Except Error RecordPage}
    (hsend : ∀ request, a.findMany request = send (plan request) read) {args : FindArgs}
    (h : ∀ take continuation, args.filter.Valid →
      (∃ e, ∀ select, plan ⟨args.filter, select, args.order, take, continuation⟩ = .error e) ∨
        ∃ calls : Select → I.Call,
          (∀ select, plan ⟨args.filter, select, args.order, take, continuation⟩ = .ok (calls select)) ∧
          Uniform (fun _ => True)
            (fun select => (Operation.outcome read (calls select) (env.answer (calls select) w.store).1).bind
              ((ofDocuments config a).pageFrom select))
            fun select (page : RecordsPage Document) => .ok (page.project select)) :
    Uniform (fun _ => True)
      (fun select => (Operation.run env config options w ((ofDocuments config a).findMany { args with select })).1)
      fun select (page : RecordsPage Document) => .ok (page.project select) := by
  simp only [findMany_eq_send (r := ofDocuments config a) hsend]
  refine run_send_uniform env config options w ?_
  obtain ⟨e, he⟩ | ⟨hvalid, take, continuation, hrequest⟩ := pageRequest_select (ofDocuments config a) args
  · exact .inl ⟨e, fun select => by rw [he]; rfl⟩
  simp only [hrequest, outcome_bind]
  exact h take continuation hvalid

/-- Lookups that differ in what they select only come to one record, if the calls that they are sent as are answered alike. -/
theorem findOne_select {plan : Select → Except Error I.Call} {read : (c : I.Call) → I.Answer c → Except Error (Option Document)}
    {id : String} (hsend : ∀ select, a.findById id select = send (plan select) read) {P : ρ → Prop}
    {view : Select → ρ → Except Error Document}
    (h : (∃ e, ∀ select, plan select = .error e) ∨ ∃ calls : Select → I.Call, (∀ select, plan select = .ok (calls select)) ∧
      Uniform P (fun select => (Operation.outcome read (calls select) (env.answer (calls select) w.store).1).bind
        ((ofDocuments config a).recordFrom id select)) view) :
    Uniform P (fun select => (Operation.run env config options w ((ofDocuments config a).findOne id select)).1) view := by
  simp only [fun select => findOne_eq_send (r := ofDocuments config a) (hsend select)]
  refine run_send_uniform env config options w ?_
  cases checkId id with
  | error e => exact .inl ⟨e, fun _ => rfl⟩
  | ok _ =>
    simp only [outcome_bind]
    exact h

end

end Repository

end DocQuery
