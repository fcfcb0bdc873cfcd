import DocQuery.Proofs.Dynamo.Plans
import DocQuery.Proofs.Repository.OneCall
import DocQuery.Proofs.Repository.Pages
import DocQuery.Repository.Connect

/-!
# Page limits

The size of a page is a count of 32 bits in the settings, a signed number of 64 bits in the arguments of a search, and an optional
count of 32 bits again in the call that the search sends. Settings that pass their check have a default size from one to the largest
size. So a search either refuses its size before it sends anything, or sends that size as the limit of its one call: the limit is
never left out, never zero, and never above the largest size (`page_limits_explicit`).
-/

namespace DocQuery

variable {I : Interface} {ρ : Type}

/-- The default page size of settings that pass their check is from one to the largest one. -/
theorem Settings.pageSizes_of_validate {s : Settings} (h : s.validate = .ok ()) :
    1 ≤ s.query.defaultPageSize.toNat ∧ s.query.defaultPageSize.toNat ≤ s.query.maxPageSize.toNat := by
  rw [validate] at h
  split at h
  · cases h
  next hzero =>
  split at h
  · cases h
  next hmax =>
  have hpositive : s.query.defaultPageSize.toNat ≠ 0 := fun h0 => hzero (UInt32.toNat_inj.1 h0)
  exact ⟨Nat.pos_of_ne_zero hpositive, Nat.not_lt.1 fun hlt => hmax (UInt32.lt_iff_toNat_lt.2 hlt)⟩

/-- A page size that settings allow is from one to the largest one, as the default size is. -/
theorem QuerySettings.Asks.range {q : QuerySettings} {take : Option Int64} {size : Nat} (h : q.Asks take size)
    (hdefault : 1 ≤ q.defaultPageSize.toNat ∧ q.defaultPageSize.toNat ≤ q.maxPageSize.toNat) :
    1 ≤ size ∧ size ≤ q.maxPageSize.toNat := by
  cases take with
  | none => exact (show size = _ from h) ▸ hdefault
  | some n =>
    obtain ⟨hlow, hhigh, hsize⟩ := h
    omega

/-- A repository whose searches keep to the page sizes of query settings, whatever the store answers; `limit?` is the limit that a
call carries. -/
structure Repository.KeepsLimits (r : Repository I ρ) (limit? : I.Call → Option Nat) (q : QuerySettings) : Prop where
  /-- A size out of range is refused without a call. -/
  refused : ∀ {S : Type} (env : Surroundings I S) (options : Options) (w : World I S) (args : FindArgs) (n : Int64),
    args.take = some n → ¬(1 ≤ n.toInt ∧ n.toInt ≤ q.maxPageSize.toNat) →
    Operation.run env r.config options w (r.findMany args) =
      (.error (if options.cancelAfter = some 0 then .cancelled
        else .invalidArgument (.takeOutOfRange q.maxPageSize.toNat n)), w)
  /-- Any other size is from one to the largest one, and is the limit of the one call that is sent, unless the search fails without
  a call. -/
  sent : ∀ {S : Type} (env : Surroundings I S) (options : Options) (w : World I S) (args : FindArgs) (size : Nat),
    q.Asks args.take size →
    (1 ≤ size ∧ size ≤ q.maxPageSize.toNat) ∧
      ((∃ c, (Operation.run env r.config options w (r.findMany args)).2.log = w.log ++ [c] ∧ limit? c = some size) ∨
        ∃ e, Operation.run env r.config options w (r.findMany args) = (.error e, w))

namespace Repository

variable {r : Repository I ρ} {e : EntitySettings} {q : QuerySettings}

/-- A page size out of range is refused. -/
theorem pageSize_of_out_of_range (hconfig : r.config = .ofSettings e q) {n : Int64}
    (h : ¬(1 ≤ n.toInt ∧ n.toInt ≤ q.maxPageSize.toNat)) :
    r.pageSize (some n) = .error (.invalidArgument (.takeOutOfRange q.maxPageSize.toNat n)) := by
  have hmax : r.config.maxPageSize = q.maxPageSize.toNat := by rw [hconfig]; rfl
  rw [pageSize, hmax, if_neg h]

/-- Where a search of the store is one call that carries the size of the page asked for, the repository keeps to the page sizes of
its settings. -/
theorem keepsLimits (hconfig : r.config = .ofSettings e q)
    (hdefault : 1 ≤ q.defaultPageSize.toNat ∧ q.defaultPageSize.toNat ≤ q.maxPageSize.toNat)
    {plan : PageRequest → Except Error I.Call} {read : (c : I.Call) → I.Answer c → Except Error RecordPage}
    (hsend : ∀ request, r.adapter.findMany request = Operation.send (plan request) read) {limit? : I.Call → Option Nat}
    (hplan : ∀ request c, plan request = .ok c → request.take < UInt32.size → limit? c = some request.take) :
    r.KeepsLimits limit? q where
  refused env options w args n htake hrange := by
    have hsize := pageSize_of_out_of_range hconfig hrange
    have hrequest : r.pageRequest args = .error (.invalidArgument (.takeOutOfRange q.maxPageSize.toNat n)) := by
      rw [pageRequest, htake, hsize]
      rfl
    rw [findMany_eq_send hsend, Operation.run_send, hrequest]
    split <;> rfl
  sent env options w args size hasks := by
    have hrange := hasks.range hdefault
    refine ⟨hrange, ?_⟩
    rw [findMany_eq_send hsend, Operation.run_send]
    split
    · exact .inr ⟨.cancelled, rfl⟩
    cases hcall : (r.pageRequest args).bind plan with
    | error e => exact .inr ⟨e, rfl⟩
    | ok c =>
      obtain ⟨request, hrequest, hplanned⟩ := of_bind_eq_ok hcall
      obtain ⟨-, take, continuation, htake, rfl⟩ := pageRequest_cases hrequest
      cases htake.symm.trans (pageSize_of_asks hconfig hasks)
      have hlt : size < UInt32.size := Nat.lt_of_le_of_lt hrange.2 q.maxPageSize.toNat_lt
      refine .inl ⟨c, ?_, hplan _ c hplanned hlt⟩
      cases Operation.late? env r.config options <;> rfl

end Repository

/-! ## The limits of calls -/

/-- The limit of a call to a table. -/
def Dynamo.Call.limit? : Dynamo.Call → Option Nat
  | .scan request => request.limit
  | .query request => request.limit
  | .get _ | .put _ | .update _ | .delete _ => none

/-- The limit of a call to a container. -/
def Cosmos.Call.limit? : Cosmos.Call → Option Nat
  | .query _ _ max _ => max
  | .create _ _ | .upsert _ _ | .replace _ _ _ _ | .delete _ _ _ => none

/-- A search of a table carries the size of its page, if this is a count of 32 bits. -/
theorem Dynamo.limit_of_planRead {t : Dynamo.Table} {request : PageRequest} {c : Dynamo.Call} (h : Dynamo.planRead t request = .ok c)
    (hlt : request.take < UInt32.size) : c.limit? = some request.take := by
  have hcount : Dynamo.count32? request.take = some request.take := if_pos hlt
  obtain ⟨-, forward, texts, tables, start, ⟨keys, remaining, -, -, -, rfl⟩ | ⟨-, -, -, rfl⟩⟩ := Dynamo.planRead_cases h <;>
    exact hcount

/-- A search of a container carries the size of its page, if this is a count of 32 bits. -/
theorem Cosmos.limit_of_planRead {c : Cosmos.Container} {request : PageRequest} {call : Cosmos.Call}
    (h : Cosmos.planRead c request = .ok call) (hlt : request.take < UInt32.size) : call.limit? = some request.take := by
  rw [planRead] at h
  cases hcompiled : compileFindMany request.filter request.select request.order with
  | error e => rw [hcompiled] at h; cases h
  | ok compiled =>
    rw [hcompiled] at h
    cases h
    exact if_pos hlt

/-- Under settings that pass their check the repository of every entity, over a table or over a container, whatever type it reads its
records as and whatever the store answers, keeps to page limits: a size that is given and out of range is refused without a call, and
for every other one the search sends at most one call, which carries the size, or the default one, as its limit, and that is from
one to the largest size. -/
theorem page_limits_explicit {s : Settings} (hs : s.validate = .ok ()) {ρ : Type} (decode : Document → Option ρ) :
    ∀ e ∈ s.entities, ∀ clients : Clients,
      (∀ t, clients.connect e.store = .ok (.table t) →
        Repository.KeepsLimits ⟨.ofSettings e s.query, Dynamo.adapter t, decode⟩ Dynamo.Call.limit? s.query) ∧
      ∀ c, clients.connect e.store = .ok (.container c) →
        Repository.KeepsLimits ⟨.ofSettings e s.query, Cosmos.adapter c, decode⟩ Cosmos.Call.limit? s.query := by
  have hdefault := Settings.pageSizes_of_validate hs
  intro e _ clients
  refine ⟨fun t _ => ?_, fun c _ => ?_⟩
  · exact Repository.keepsLimits rfl hdefault (fun request => Dynamo.findMany_eq_send t request)
      fun request c => Dynamo.limit_of_planRead
  · exact Repository.keepsLimits rfl hdefault (fun request => Cosmos.findMany_eq_send c request)
      fun request c => Cosmos.limit_of_planRead

/-- The limits of a table and a container under settings with pages of up to the greatest count of 32 bits. -/
theorem page_limits_explicit_of_greatest :
    let q : QuerySettings := ⟨25, 0xFFFFFFFF, none⟩
    let users : EntitySettings := ⟨"User", .dynamodb "users" "id" none, .default, .existenceChecked⟩
    let orders : EntitySettings := ⟨"Order", .cosmos "shop" "orders" "customer", .default, .existenceChecked⟩
    Repository.KeepsLimits ⟨.ofSettings users q, Dynamo.adapter ⟨"users", "id", none⟩, some⟩ Dynamo.Call.limit? q ∧
      Repository.KeepsLimits ⟨.ofSettings orders q, Cosmos.adapter ⟨"shop", "orders", "customer"⟩, some⟩ Cosmos.Call.limit? q := by
  intro q users orders
  have hs : (Settings.mk .default q [users, orders]).validate = .ok () := by decide
  have hall := page_limits_explicit hs (some : Document → Option Document)
  exact ⟨(hall users (by simp) ⟨true, true⟩).1 _ rfl, (hall orders (by simp) ⟨true, true⟩).2 _ rfl⟩

end DocQuery
