import DocQuery.Proofs.Repository.Effects
import DocQuery.Proofs.Repository.Refusals

/-!
# What an update writes

The changes that an update sends to the store are known once its payload and the clock are: the members of the payload without the
identifier, and with the instant of the write in place of one of creation where instants are filled in (`Repository.revision`).
-/

namespace DocQuery

open Operation

variable {I : Interface} {S ρ α β : Type} {env : Surroundings I S} {w : World I S}

/-! ## Runs of a call and what follows -/

namespace Operation

/-- The answers to so many calls, one after the other, are in time for a caller. -/
structure InTime (env : Surroundings I S) (config : EntityConfig) (options : Options) (calls : Nat) : Prop where
  begun : options.cancelAfter ≠ some 0
  answered : ∀ limit, options.cutoff config.defaultTimeout = some limit → calls * env.latency ≤ limit.1

variable {plan : Except Error I.Call} {read : (c : I.Call) → I.Answer c → Except Error α} {config : EntityConfig}
  {options : Options}

/-- The answer to one call is in time if it does not come too late. -/
theorem inTime_one_iff : InTime env config options 1 ↔ options.cancelAfter ≠ some 0 ∧ late? env config options = none := by
  have hlate : late? env config options = none ↔
      ∀ limit, options.cutoff config.defaultTimeout = some limit → 1 * env.latency ≤ limit.1 := by
    rw [late?]
    cases options.cutoff config.defaultTimeout <;> simp
  exact ⟨fun h => ⟨h.begun, hlate.2 h.answered⟩, fun h => ⟨h.1, hlate.1 h.2⟩⟩

/-- A call that fails, though not for its limits and not before it is sent, was sent in time, and its answer is read as the
failure. -/
theorem of_run_send_error {e : Error} (h : (Operation.run env config options w (send plan read)).1 = .error e)
    (hkind : ¬(e.kind = .timedOut ∨ e.kind = .cancelled)) (hplan : plan ≠ .error e) :
    InTime env config options 1 ∧ ∃ c, plan = .ok c ∧ outcome read c (env.answer c w.store).1 = .error e := by
  rw [result_send] at h
  split at h
  · cases h
    exact absurd (.inr rfl) hkind
  next hcancel =>
  cases plan with
  | error e' =>
    have he : e' = e := Except.error.inj h
    exact absurd (congrArg Except.error he) hplan
  | ok c =>
    simp only [Except.bind] at h
    cases hlate : late? env config options with
    | none =>
      rw [hlate] at h
      exact ⟨inTime_one_iff.2 ⟨hcancel, hlate⟩, c, rfl, h⟩
    | some reason =>
      rw [hlate] at h
      cases h
      obtain ⟨⟨time, said⟩, hcutoff, hreason⟩ := Option.bind_eq_some_iff.1 hlate
      rw [Option.ite_none_right_eq_some] at hreason
      cases hreason.2
      exact absurd (Options.kind_of_cutoff hcutoff) hkind

/-- A call in time comes to what its answer is read as. -/
theorem result_send_ok {c : I.Call} (htime : InTime env config options 1) (hplan : plan = .ok c) :
    (Operation.run env config options w (send plan read)).1 = outcome read c (env.answer c w.store).1 := by
  rw [result_send, if_neg htime.begun, hplan, (inTime_one_iff.1 htime).2]
  rfl

/-- A call that leaves the store as it is. -/
theorem run_send_store (h : ∀ c, plan = .ok c → (env.answer c w.store).2 = w.store) :
    (Operation.run env config options w (send plan read)).2.store = w.store := by
  rw [run_send]
  split
  · rfl
  · cases plan with
    | error e => rfl
    | ok c =>
      simp only
      cases late? env config options with
      | some reason => rfl
      | none => exact h c rfl

section

variable {next : α → Operation I β} {c : I.Call} {a : α} {r : Except Error β}

/-- What follows a call is part of what is made of its answer. -/
theorem send_ok_bind : (send (.ok c) read >>= next : Operation I β) =
    ExceptT.mk (.call c fun answer => Program.bind (.done (outcome read c answer)) (ExceptT.bindCont next)) := by
  rw [send_ok]
  rfl

/-- What follows a call is run with what its answer comes to. -/
theorem run_bindCont (cutoff : Option Nat) (time : Nat) (w : World I S) : Program.run env cutoff time w
    (Program.bind (.done (.ok a)) (ExceptT.bindCont next)) = Program.run env cutoff time w (ExceptT.run (next a)) := rfl

/-- After the turn of a call, what follows goes on with what the answer comes to. -/
theorem step_send (houtcome : outcome read c (env.answer c w.store).1 = .ok a) :
    (ExceptT.run (send (.ok c) read >>= next)).step env w =
      (ExceptT.run (next a), { w with log := w.log ++ [c], store := (env.answer c w.store).2 }) := by
  rw [send_ok_bind]
  show (Program.bind (.done (outcome read c (env.answer c w.store).1)) (ExceptT.bindCont next), _) = _
  rw [houtcome]
  rfl

/-- A call in time whose answer leaves nothing else to do. -/
theorem run_send_bind (htime : InTime env config options 1) (houtcome : outcome read c (env.answer c w.store).1 = .ok a)
    (hnext : next a = Operation.of r) :
    Operation.run env config options w (send (.ok c) read >>= next) =
      (r, { w with log := w.log ++ [c], store := (env.answer c w.store).2 }) := by
  rw [Operation.run, if_neg htime.begun, send_ok_bind]
  cases hcutoff : options.cutoff config.defaultTimeout with
  | none =>
    simp only [ExceptT.run, ExceptT.mk, Program.run, houtcome, run_bindCont, hnext]
    rfl
  | some limit =>
    obtain ⟨time, reason⟩ := limit
    have hsoon : ¬time < env.latency := by simpa using htime.answered _ hcutoff
    simp only [ExceptT.run, ExceptT.mk, Program.run, Nat.zero_add, Option.any_some, decide_eq_true_eq, hsoon, if_false, houtcome,
      run_bindCont, hnext]
    rfl

/-- Two calls in time, of which the second is made of the answer to the first and leaves nothing else to do. -/
theorem run_send_call {c' : I.Call} {after : Except StoreError (I.Answer c') → Program I (Except Error β)}
    (htime : InTime env config options 2) (houtcome : outcome read c (env.answer c w.store).1 = .ok a)
    (hnext : next a = ExceptT.mk (.call c' after)) (hafter : after (env.answer c' (env.answer c w.store).2).1 = .done r) :
    (Operation.run env config options w (send (.ok c) read >>= next)).1 = r := by
  rw [Operation.run, if_neg htime.begun, send_ok_bind]
  cases hcutoff : options.cutoff config.defaultTimeout with
  | none =>
    simp only [ExceptT.run, ExceptT.mk, Program.run, houtcome, run_bindCont, hnext, hafter, Option.any_none, Bool.false_eq_true,
      if_false]
  | some limit =>
    obtain ⟨time, reason⟩ := limit
    have hlimit : 2 * env.latency ≤ time := htime.answered _ hcutoff
    have hfirst : ¬time < env.latency := by omega
    have hsecond : ¬time < env.latency + env.latency := by omega
    simp only [ExceptT.run, ExceptT.mk, Program.run, Nat.zero_add, Option.any_some, decide_eq_true_eq, hfirst, hsecond, if_false,
      houtcome, run_bindCont, hnext, hafter]

end

end Operation

/-! ## Revisions -/

namespace Repository

/-- What an update makes of the members of its payload: they lose the identifier and, where instants are filled in, get the instant
of the write and lose one of creation. -/
def revision (config : EntityConfig) (idField : String) (now : Instant) (members : Document) : Document :=
  let changes := Fields.drop members idField
  if config.autoFields.timestamp then Fields.put (Fields.drop changes createdAt) updatedAt (.str now.text) else changes

/-- What an update writes is of its payload, or the instant of the write. -/
theorem mem_revision {config : EntityConfig} {idField : String} {now : Instant} {members : Document} {e : String × Json}
    (h : e ∈ revision config idField now members) :
    e ∈ members ∨ config.autoFields.timestamp = true ∧ e = (updatedAt, .str now.text) := by
  rw [revision] at h
  split at h
  · next hstamp =>
    rcases Fields.mem_put h with rfl | he
    · exact .inr ⟨hstamp, rfl⟩
    · exact .inl (List.mem_of_mem_filter (List.mem_of_mem_filter he))
  · exact .inl (List.mem_of_mem_filter h)

/-- Changes may have the identifier only if they repeat it, and lose it. -/
theorem withoutId_eq_ok_iff {field id : String} {changes rest : Document} :
    withoutId field id changes = .ok rest ↔
      (∀ j, Fields.get? changes field = some j → j = .str id) ∧ rest = Fields.drop changes field := by
  rw [withoutId]
  cases hfield : Fields.get? changes field with
  | none =>
    have hdrop : Fields.drop changes field = changes := by
      refine List.filter_eq_self.2 fun e he => bne_iff_ne.2 ?_
      rintro rfl
      exact Fields.get?_eq_none_iff.1 hfield (List.mem_map_of_mem he)
    rw [hdrop]
    simp [eq_comm]
  | some j =>
    cases j with
    | str requested =>
      simp only
      split
      · next hid =>
        subst hid
        simp [eq_comm]
      · next hid => simp [hid]
    | null => simp
    | bool b => simp
    | num n => simp
    | arr items => simp
    | obj members => simp

section

variable (r : Repository I ρ) (idField : String) (members : Document)

/-- The changes that an update works out are the revision. -/
theorem withUpdate_revises : (r.withUpdate (Fields.drop members idField)).Gives env
    (fun changes w₁ => changes = revision r.config idField (env.clock w.readings) members ∧ w₁.store = w.store) w := by
  cases hstamp : r.config.autoFields.timestamp with
  | false =>
    simp only [withUpdate, revision, hstamp]
    exact .pure ⟨rfl, rfl⟩
  | true =>
    simp only [withUpdate, revision, hstamp]
    refine .bind (R := fun now w₁ => now = env.clock w.readings ∧ w₁.store = w.store) (.now ⟨rfl, rfl⟩) ?_
    rintro now w₁ ⟨rfl, hstore⟩
    exact .pure ⟨rfl, hstore⟩

/-- What follows after the changes are worked out runs with the revision. -/
theorem run_withUpdate_bind {config : EntityConfig} {options : Options} (hcancel : options.cancelAfter ≠ some 0)
    (next : Document → Operation I β) :
    ∃ w₁, w₁.store = w.store ∧ Operation.run env config options w (r.withUpdate (Fields.drop members idField) >>= next) =
      Operation.run env config options w₁ (next (revision r.config idField (env.clock w.readings) members)) := by
  cases hstamp : r.config.autoFields.timestamp with
  | false =>
    simp only [withUpdate, revision, hstamp]
    exact ⟨w, rfl, rfl⟩
  | true =>
    simp only [withUpdate, revision, hstamp, Operation.run, if_neg hcancel]
    exact ⟨{ w with readings := w.readings + 1 }, rfl, rfl⟩

end

section

variable {a : Adapter I} {config : EntityConfig}

variable (a config) in
/-- An update that succeeds has sent the revision of its payload. -/
theorem update_revises (id : String) {R : Document → Document → World I S → Prop} (data : Json)
    (hupdate : ∀ members w₁, w₁.store = w.store →
      (a.update id (revision config a.idField (env.clock w.readings) members) config.writePolicy).Gives env (R members) w₁) :
    ((ofDocuments config a).update id data).Gives env (fun stored w' => ∃ members, data = .obj members ∧ R members stored w')
      w := by
  refine .of_bind fun _ _ => .of_bind fun members hmembers => .of_bind fun changes hchanges => ?_
  obtain ⟨-, rfl⟩ := withoutId_eq_ok_iff.1 hchanges
  refine .bind (withUpdate_revises (ofDocuments config a) a.idField members) ?_
  rintro changes w₁ ⟨rfl, hstore⟩
  dsimp only
  split
  · exact .throw _
  · refine .bind (hupdate members w₁ hstore) fun stored w₂ hstored => .of fun record hrecord => ?_
    cases hrecord
    exact ⟨members, obj_of_payload hmembers, hstored⟩

variable (env w a config) in
/-- An update of a payload that is not turned down runs as what the store makes of its revision. -/
theorem run_update {options : Options} (hcancel : options.cancelAfter ≠ some 0) {id : String} (hid : checkId id = .ok ())
    {members : Document} (hmembers : members ≠ []) (hkept : ∀ j, Fields.get? members a.idField = some j → j = .str id)
    (hne : revision config a.idField (env.clock w.readings) members ≠ []) :
    ∃ w₁, w₁.store = w.store ∧ Operation.run env config options w ((ofDocuments config a).update id (.obj members)) =
      Operation.run env config options w₁ (do
        let stored ← a.update id (revision config a.idField (env.clock w.readings) members) config.writePolicy
        Operation.of ((ofDocuments config a).materialize stored)) := by
  have hrest : withoutId a.idField id members = .ok (Fields.drop members a.idField) := withoutId_eq_ok_iff.2 ⟨hkept, rfl⟩
  let next (changes : Document) : Operation I Document := do
    if changes.isEmpty then throw (.invalidArgument .nothingToChange)
    let stored ← a.update id changes config.writePolicy
    Operation.of ((ofDocuments config a).materialize stored)
  have hprogram : (ofDocuments config a).update id (.obj members) =
      (ofDocuments config a).withUpdate (Fields.drop members a.idField) >>= next := by
    rw [update, hid, payload_of_ne_nil .update hmembers]
    show (Operation.of (withoutId a.idField id members) >>= _) = _
    rw [hrest]
    rfl
  have hnext : next (revision config a.idField (env.clock w.readings) members) = (do
      let stored ← a.update id (revision config a.idField (env.clock w.readings) members) config.writePolicy
      Operation.of ((ofDocuments config a).materialize stored)) := by
    simp only [next, List.isEmpty_eq_false_iff.2 hne]
    rfl
  rw [hprogram, ← hnext]
  exact run_withUpdate_bind (ofDocuments config a) a.idField members hcancel next

end

end Repository

end DocQuery
