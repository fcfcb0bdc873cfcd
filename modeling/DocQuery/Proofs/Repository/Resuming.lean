import DocQuery.Proofs.Dynamo.Plans
import DocQuery.Proofs.Repository.Pages
import DocQuery.Proofs.Repository.Refusals

/-!
# Cursors are used

A page's cursor stands for the position that the store handed out with the page. Main statement: to repeat the request with the
cursor is to send the call that brought the page once more, from that position on, and never fails over the cursor
(`Repository.cursor_resumes`). The store's positions have to survive the way into the cursor and back, which the empty continuation
of a container does not.
-/

namespace DocQuery

variable {I : Interface} {S ρ α β : Type}

/-! ## Failures that are not about a cursor -/

/-- A result that is no failure over a cursor. -/
def SparesCursor (r : Except Error α) : Prop := ∀ e, r = .error e → e.kind ≠ .invalidCursor

/-- A result that does not turn a request down does not fail over its cursor. -/
theorem Accepts.sparesCursor {r : Except Error α} (h : Accepts r) : SparesCursor r := by
  intro e he hkind
  have haccepted : e.refuses = false := h e he
  rw [Error.refuses, hkind] at haccepted
  cases haccepted

namespace Operation

/-- A call that is worked out is sent unless the operation is cancelled beforehand, and does not turn the request down if its answer
is not read so. -/
theorem run_send_ok {c : I.Call} {read : (c : I.Call) → I.Answer c → Except Error α}
    (hread : ∀ c answer, Accepts (read c answer)) (env : Surroundings I S) (config : EntityConfig) (options : Options)
    (w : World I S) :
    Accepts (Operation.run env config options w (send (.ok c) read)).1 ∧
      (Operation.run env config options w (send (.ok c) read)).2.log =
        w.log ++ if options.cancelAfter = some 0 then [] else [c] := by
  rw [run_send]
  split
  · exact ⟨.error rfl, (List.append_nil _).symm⟩
  cases hlate : late? env config options with
  | some reason => exact ⟨.error (late?_accepts hlate), rfl⟩
  | none => exact ⟨outcome_accepts (hread c) _, rfl⟩

/-- A call that comes to a value was sent, and the value was made of its answer. -/
theorem of_run_send {plan : Except Error I.Call} {read : (c : I.Call) → I.Answer c → Except Error α} {env : Surroundings I S}
    {config : EntityConfig} {options : Options} {w : World I S} {a : α}
    (h : (Operation.run env config options w (send plan read)).1 = .ok a) :
    ∃ c answer, plan = .ok c ∧ (env.answer c w.store).1 = .ok answer ∧ read c answer = .ok a ∧
      (Operation.run env config options w (send plan read)).2.log = w.log ++ [c] := by
  rw [run_send] at h ⊢
  split at h
  · cases h
  next hcancel =>
  rw [if_neg hcancel]
  cases plan with
  | error e => cases h
  | ok c =>
    cases hlate : late? env config options with
    | some reason => rw [hlate] at h; cases h
    | none =>
      simp only [hlate] at h ⊢
      cases hanswer : (env.answer c w.store).1 with
      | error e => rw [hanswer] at h; cases h
      | ok answer =>
        rw [hanswer] at h
        exact ⟨c, answer, rfl, hanswer, h, rfl⟩

end Operation

/-! ## The two families -/

namespace Dynamo

/-- A read of a table that starts after a key. -/
def Call.startingAt : Call → Item → Call
  | .scan r, key => .scan { r with start := some key }
  | .query r, key => .query { r with start := some key }
  | call, _ => call

/-- The last key that an answer names. -/
def lastKey (call : Call) (answer : call.Answer) : Option Item := (pageOf call answer).last

/-- A key whose text is read as that key. -/
def KeyPrinted (key : Item) : Prop := Json.parse? (Json.obj key).text = some (.obj key)

/-- The continuation of a page is the text of the last key. -/
theorem continuation_of_readPage {call : Call} {answer : call.Answer} {page : RecordPage} (h : readPage call answer = .ok page) :
    page.continuation = (lastKey call answer).map fun key => (Json.obj key).text := by
  rw [readPage] at h
  cases hitems : readItems (pageOf call answer).items with
  | error e => rw [hitems] at h; cases h
  | ok items => rw [hitems] at h; cases h; rfl

/-- The text of a key that is read as that key is read as where to start. -/
theorem startKey_text {key : Item} (h : KeyPrinted key) : startKey (Json.obj key).text = .ok key := by
  rw [KeyPrinted] at h
  rw [startKey, h]

/-- The text of a key that is read as that key is not empty. -/
theorem text_ne_empty {key : Item} (h : KeyPrinted key) : (Json.obj key).text ≠ "" := by
  intro hempty
  rw [KeyPrinted, hempty] at h
  cases h

/-- A request from a key on is sent as the same read, which starts at that key. -/
theorem planRead_startingAt {t : Table} {request : PageRequest} {call : Call} (h : planRead t request = .ok call) {token : String}
    {key : Item} (hkey : startKey token = .ok key) :
    planRead t { request with continuation := some token } = .ok (call.startingAt key) := by
  have hstart : startOf (some token) = .ok (some key) := by rw [startOf, hkey]; rfl
  obtain ⟨hvalid, forward, texts, tables, start, ⟨keys, remaining, hplan, hforward, hread, rfl⟩ | ⟨hplan, hforward, hread, rfl⟩⟩ :=
    planRead_cases h
  · exact planRead_of_some { request with continuation := some token } hvalid hplan hforward hstart hread
  · exact planRead_of_none { request with continuation := some token } hvalid hplan hforward hstart hread

end Dynamo

namespace Cosmos

/-- A query that goes on where a page ended. -/
def Call.continuedAt : Call → String → Call
  | .query c spec max _, token => .query c spec max (some token)
  | call, _ => call

/-- Where the page of an answer ended. -/
def continuationOf (call : Call) (answer : call.Answer) : Option String := (answered call answer).continuation

/-- The continuation of a page is that of the answer. -/
theorem continuation_of_readPage {call : Call} {answer : call.Answer} {page : RecordPage} (h : readPage call answer = .ok page) :
    page.continuation = continuationOf call answer := by
  rw [readPage] at h
  cases hitems : normalizeItems (answered call answer).resources with
  | error e => rw [hitems] at h; cases h
  | ok items => rw [hitems] at h; cases h; rfl

/-- A request from a continuation on is sent as the same query, which goes on there. -/
theorem planRead_continuedAt {c : Container} {request : PageRequest} {call : Call} (h : planRead c request = .ok call)
    (token : String) : planRead c { request with continuation := some token } = .ok (call.continuedAt token) := by
  rw [planRead] at h ⊢
  cases hcompiled : compileFindMany request.filter request.select request.order with
  | error e => rw [hcompiled] at h; cases h
  | ok compiled => rw [hcompiled] at h; cases h; rfl

end Cosmos

/-! ## Repeating a request -/

namespace Repository

/-- Every cursor can be used: a page with a cursor was brought by one call, whose answer names a position. If the position is kept
on the way into the cursor and back, then the request with this cursor, from whatever store and under whatever limits, does not
fail over the cursor, and unless it is cancelled beforehand it is that call once more, from the position on. -/
def Resumes {Position : Type} (r : Repository I ρ) (position : (c : I.Call) → I.Answer c → Option Position)
    (resume : I.Call → Position → I.Call) (Kept : Position → Prop) : Prop :=
  ∀ (S : Type) (env : Surroundings I S) (options : Options) (w : World I S) (args : FindArgs) (page : RecordsPage ρ)
    (cursor : String),
    (Operation.run env r.config options w (r.findMany args)).1 = .ok page → page.nextCursor = some cursor →
    ∃ call answer p, (Operation.run env r.config options w (r.findMany args)).2.log = w.log ++ [call] ∧
      (env.answer call w.store).1 = .ok answer ∧ position call answer = some p ∧
      (Kept p → ∀ (T : Type) (env' : Surroundings I T) (options' : Options) (w' : World I T),
        SparesCursor (Operation.run env' r.config options' w' (r.findMany { args with cursor := some cursor })).1 ∧
          (Operation.run env' r.config options' w' (r.findMany { args with cursor := some cursor })).2.log =
            w'.log ++ if options'.cancelAfter = some 0 then [] else [resume call p])

/-- The cursors of a repository can be used where its search is one call, the text of a position is that of the position alone, and
the request from a position on is the call from that position on. -/
theorem resumes_of_send {Position : Type} {r : Repository I ρ} {plan : PageRequest → Except Error I.Call}
    {read : (c : I.Call) → I.Answer c → Except Error RecordPage} {position : (c : I.Call) → I.Answer c → Option Position}
    {resume : I.Call → Position → I.Call} {Kept : Position → Prop} {text : Position → String}
    (hsend : ∀ request, r.adapter.findMany request = Operation.send (plan request) read)
    (hread : ∀ c answer, Accepts (read c answer))
    (htext : ∀ c answer page, read c answer = .ok page → page.continuation = (position c answer).map text)
    (hne : ∀ p, Kept p → text p ≠ "")
    (hresume : ∀ request c p, plan request = .ok c → Kept p →
      plan { request with continuation := some (text p) } = .ok (resume c p)) :
    r.Resumes position resume Kept := by
  intro S env options w args page cursor hpage hcursor
  rw [findMany_eq_send hsend] at hpage ⊢
  obtain ⟨call, answer, hplan, hanswer, hfrom, hlog⟩ := Operation.of_run_send hpage
  obtain ⟨request, hrequest, hcall⟩ := of_bind_eq_ok hplan
  obtain ⟨stored, hstored, hfrom⟩ := of_bind_eq_ok hfrom
  have hnext : page.nextCursor = stored.continuation.map Cursor.encode := by
    rw [pageFrom] at hfrom
    cases hitems : stored.items.mapM fun d => r.materialize (args.select.project d) with
    | error e => rw [hitems] at hfrom; cases hfrom
    | ok items => rw [hitems] at hfrom; cases hfrom; rfl
  rw [hnext, htext _ _ _ hstored, Option.map_map, Option.map_eq_some_iff] at hcursor
  obtain ⟨p, hposition, rfl⟩ := hcursor
  refine ⟨call, answer, p, hlog, hanswer, hposition, fun hkept T env' options' w' => ?_⟩
  -- the same request, but from the position on
  obtain ⟨hvalid, take, continuation, htake, rfl⟩ := pageRequest_cases hrequest
  have hagain : r.pageRequest { args with cursor := some ((Cursor.encode ∘ text) p) } =
      .ok ⟨args.filter, args.select, args.order, take, some (text p)⟩ :=
    pageRequest_eq hvalid htake rfl fun hempty => hne p hkept (Option.some.inj hempty)
  have hcall' := hresume _ _ _ hcall hkept
  rw [findMany_eq_send hsend, hagain, Except.bind, hcall']
  have hpage (c : I.Call) (answer : I.Answer c) : Accepts ((read c answer).bind (r.pageFrom args.select)) :=
    (hread c answer).bind fun stored => r.pageFrom_accepts args.select stored
  exact (Operation.run_send_ok hpage env' r.config options' w').imp_left Accepts.sparesCursor

/-- Every cursor of a table, whose keys are read as they were printed, and of a container, whose continuations are not empty, can be
used. -/
theorem cursor_resumes (config : EntityConfig) (decode : Document → Option ρ) (t : Dynamo.Table) (c : Cosmos.Container) :
    (Repository.mk config (Dynamo.adapter t) decode).Resumes Dynamo.lastKey Dynamo.Call.startingAt Dynamo.KeyPrinted ∧
      (Repository.mk config (Cosmos.adapter c) decode).Resumes Cosmos.continuationOf Cosmos.Call.continuedAt (· ≠ "") := by
  constructor
  · exact resumes_of_send (Dynamo.findMany_eq_send t) Dynamo.readPage_accepts
      (fun _ _ _ => Dynamo.continuation_of_readPage) (fun _ => Dynamo.text_ne_empty)
      fun _ _ _ hplan hkept => Dynamo.planRead_startingAt hplan (Dynamo.startKey_text hkept)
  · have hcontinuation (call : Cosmos.Call) (answer : call.Answer) (page : RecordPage)
        (h : Cosmos.readPage call answer = .ok page) : page.continuation = (Cosmos.continuationOf call answer).map id := by
      rw [Option.map_id_fun, id_eq]
      exact Cosmos.continuation_of_readPage h
    exact resumes_of_send (Cosmos.findMany_eq_send c) Cosmos.readPage_accepts hcontinuation (fun _ => id)
      fun _ _ token hplan _ => Cosmos.planRead_continuedAt hplan token

/-- A table that answers every search with one page. -/
def repeating (page : Dynamo.Page) : Surroundings Dynamo.service Unit where
  answer
    | .scan _, s => (.ok page, s)
    | .query _, s => (.ok page, s)
    | _, s => (.error (.service "no search"), s)
  clock n := ⟨n, 0⟩
  ids n := String.ofList (Decimal.naturalText n)
  latency := 0

/-- A container that answers every search with one page. -/
def repeatingContainer (page : Cosmos.Page) : Surroundings Cosmos.service Unit where
  answer
    | .query _ _ _ _, s => (.ok page, s)
    | _, s => (.error (.service "no search"), s)
  clock n := ⟨n, 0⟩
  ids n := String.ofList (Decimal.naturalText n)
  latency := 0

/-- A scan whose page ends at a key, and a query whose page ends at a continuation: the second request starts there. -/
theorem cursor_resumes_after_page :
    let key : Dynamo.Item := [("id", .obj [("S", .str "u-7")])]
    let users := Repository.ofDocuments (.ofName "User") (Dynamo.adapter ⟨"users", "id", none⟩)
    let container := Repository.ofDocuments (.ofName "User") (Cosmos.adapter ⟨"app", "users", "id"⟩)
    let page : RecordsPage Document := ⟨[], some (Cursor.encode (Json.obj key).text)⟩
    ((Operation.run (repeating ⟨none, some key⟩) users.config .none ⟨(), 0, 0, []⟩ (users.findMany .empty)).1 = .ok page ∧
      ∃ call : Dynamo.Call,
        (Operation.run (repeating ⟨none, some key⟩) users.config .none ⟨(), 0, 0, []⟩ (users.findMany .empty)).2.log = [call] ∧
        (Operation.run (repeating ⟨none, none⟩) users.config .none ⟨(), 0, 0, []⟩
          (users.findMany { FindArgs.empty with cursor := page.nextCursor })).2.log = [call.startingAt key]) ∧
    ∃ call : Cosmos.Call,
      (Operation.run (repeatingContainer ⟨none, some "next"⟩) container.config .none ⟨(), 0, 0, []⟩
        (container.findMany .empty)).2.log = [call] ∧
      (Operation.run (repeatingContainer ⟨none, none⟩) container.config .none ⟨(), 0, 0, []⟩
        (container.findMany { FindArgs.empty with cursor := some (Cursor.encode "next") })).2.log = [call.continuedAt "next"] := by
  intro key users container page
  have hresumes := cursor_resumes (.ofName "User") some ⟨"users", "id", none⟩ ⟨"app", "users", "id"⟩
  refine ⟨⟨rfl, ?_⟩, ?_⟩
  · obtain ⟨call, answer, p, hlog, hanswer, hposition, hagain⟩ :=
      hresumes.1 Unit (repeating ⟨none, some key⟩) .none ⟨(), 0, 0, []⟩ .empty page _ rfl rfl
    have hkey : p = key := by
      cases call <;> cases hanswer <;> exact (Option.some.inj hposition).symm
    subst hkey
    exact ⟨call, hlog, (hagain (by cbv) Unit (repeating ⟨none, none⟩) .none ⟨(), 0, 0, []⟩).2⟩
  · obtain ⟨call, answer, p, hlog, hanswer, hposition, hagain⟩ :=
      hresumes.2 Unit (repeatingContainer ⟨none, some "next"⟩) .none ⟨(), 0, 0, []⟩ .empty ⟨[], some (Cursor.encode "next")⟩ _ rfl rfl
    have htoken : p = "next" := by
      cases call <;> cases hanswer
      exact (Option.some.inj hposition).symm
    subst htoken
    exact ⟨call, hlog, (hagain (by decide) Unit (repeatingContainer ⟨none, none⟩) .none ⟨(), 0, 0, []⟩).2⟩

/-- An empty continuation has an empty cursor, which is turned down. -/
theorem empty_continuation_turned_down :
    let container := Repository.ofDocuments (.ofName "User") (Cosmos.adapter ⟨"app", "users", "id"⟩)
    let env := repeatingContainer ⟨none, some ""⟩
    let w : World Cosmos.service Unit := ⟨(), 0, 0, []⟩
    (Operation.run env container.config .none w (container.findMany .empty)).1 = .ok ⟨[], some ""⟩ ∧
      Operation.run env container.config .none w (container.findMany { FindArgs.empty with cursor := some "" }) =
        (.error (.invalidCursor .empty), w) ∧
      ¬ container.Resumes Cosmos.continuationOf Cosmos.Call.continuedAt fun _ => True := by
  intro container env w
  have hfirst : (Operation.run env container.config .none w (container.findMany .empty)).1 = .ok ⟨[], some ""⟩ := by
    have hempty : Cursor.encode "" = "" := Cursor.encode_eq_empty.2 rfl
    change Except.ok (RecordsPage.mk [] (some (Cursor.encode ""))) = _
    rw [hempty]
  have hagain : Operation.run env container.config .none w (container.findMany { FindArgs.empty with cursor := some "" }) =
      (.error (.invalidCursor .empty), w) := rfl
  refine ⟨hfirst, hagain, fun h => ?_⟩
  obtain ⟨call, answer, p, -, -, -, hresumed⟩ := h Unit env .none w .empty _ _ hfirst rfl
  have hspares := (hresumed trivial Unit env .none w).1
  rw [hagain] at hspares
  exact hspares _ rfl rfl

end Repository

end DocQuery
