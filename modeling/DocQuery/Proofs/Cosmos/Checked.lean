import DocQuery.Proofs.Cosmos.Contract
import DocQuery.Proofs.Repository.Consistency

/-!
# Checked writes of a document

A checked update or removal reads the document first and writes it in a second call, between which others have their turns. The
read leaves everything as it is, and the second call fails unless the document is still there, or there again. So the write takes
effect by that call alone (`adapter_decides`).
-/

namespace DocQuery.Cosmos

/-! ## Containers with one document of an identifier -/

/-- A call that may change a container. -/
def Call.Writes : Call → Prop
  | .query _ _ _ _ => False
  | .create _ _ | .upsert _ _ | .replace _ _ _ _ | .delete _ _ _ => True

/-- Whether a container has a document with an identifier. -/
def Memory.has (s : Memory) (c : Container) (id : String) : Bool :=
  (s.shelf? c).any fun shelf => shelf.documents.any fun d => documentId? d == some id

/-- A store without a failure in its way, in whose container, partitioned by the identifier, one document at most has an
identifier. -/
structure Single (c : Container) (id : String) (s : Memory) : Prop where
  failure : s.failure = none
  shelf : ∃ ds, s.shelf? c = some ⟨"id", ds⟩ ∧ (ds.filter fun d => documentId? d == some id).length ≤ 1

/-- A container in which it is watched whether a document is there. -/
def watch (clock : Nat → Instant) (ids : Nat → String) (c : Container) (id : String) : Watch service Memory where
  env := surroundings clock ids
  Fit := Single c id
  there s := s.has c id

section

variable {c : Container} {id key : String} {s : Memory} {ds : List Document} {found : Option Document}

/-- The documents of the container, and the one with the identifier. -/
theorem Single.stands (h : Single c id s) : ∃ ds found, s.shelf? c = some ⟨"id", ds⟩ ∧ Stands id ds found := by
  obtain ⟨ds, hshelf, hlength⟩ := h.shelf
  obtain ⟨found, hfound⟩ := Stands.of_length_le hlength
  exact ⟨ds, found, hshelf, hfound⟩

/-- A container that lists records has one document at most of every identifier. -/
theorem Holds.single {m : Records} (h : Holds c s m) (id : String) : Single c id s := by
  obtain ⟨ds, hshelf, hds⟩ := h.lists
  exact ⟨h.failure, ds, hshelf, (hds.stands id).length_le⟩

/-- The document is there if it is found. -/
theorem has_eq (hshelf : s.shelf? c = some ⟨key, ds⟩) (h : Stands id ds found) : s.has c id = found.isSome := by
  rw [Memory.has, hshelf, Option.any_some]
  cases h with
  | absent h => exact List.any_eq_false.2 fun d hd => by simpa using h d hd
  | @alone _ _ d hid _ => exact List.any_eq_true.2 ⟨d, List.mem_append_right _ List.mem_cons_self, beq_iff_eq.2 hid⟩

/-- A container has one document at most once it is set to documents of which one at most has the identifier. -/
theorem Single.set (h : Single c id s) (hds : Stands id ds found) :
    Single c id (s.setDocuments c ds) ∧ (s.setDocuments c ds).has c id = found.isSome := by
  obtain ⟨es, hshelf, -⟩ := h.shelf
  have hset := shelf?_setDocuments hshelf ds
  exact ⟨⟨h.failure, ds, hset, hds.length_le⟩, has_eq hset hds⟩

end

/-! ## Writes -/

section

variable {clock : Nat → Instant} {ids : Nat → String} {c : Container} {id : String} {d existing : Document} {n : Nat}

/-- A call that writes settles a write, by what it does in a store with one document at most. -/
theorem settles_act {α : Type} {w : Write} {call : Call} (hcall : call.Writes)
    {next : Except StoreError call.Answer → Program service (Except Error α)}
    (h : ∀ s ds found, s.shelf? c = some ⟨"id", ds⟩ → Stands id ds found → Single c id s →
      ∃ answer after r there, s.act call = (answer, after) ∧ Single c id after ∧ after.has c id = there ∧
        next answer = .done r ∧ w.Settles id r found.isSome there) :
    (Program.call (I := service) call next).Settles (watch clock ids c id) (w.verdict Call.Writes id) (n + 1) := by
  refine Program.settles_call fun s hs => ?_
  obtain ⟨ds, found, hshelf, hfound⟩ := hs.stands
  obtain ⟨answer, after, r, there, hact, hafter, hthere, hend, hr⟩ := h s ds found hshelf hfound hs
  refine ⟨answer, after, answerUnless_of_none hs.failure hact, hafter, .inl ⟨r, hend, ?_, fun _ => hcall⟩⟩
  show w.Settles id r (s.has c id) (after.has c id)
  rwa [has_eq hshelf hfound, hthere]

/-- Creating a document settles. -/
theorem insert_settles (hc : c.partitionKey = "id") (hid : Fields.get? d "id" = some (.str id)) :
    (ExceptT.run (insert c d .existenceChecked)).Settles (watch clock ids c id) (Write.create.verdict Call.Writes id) (n + 1) := by
  rw [insert_call hc hid]
  refine settles_act (by trivial) fun s ds found hshelf hfound hs => ?_
  have hdocument := documentId?_eq_some_iff.2 hid
  have hcreate := create_eq hshelf hfound hdocument
  cases found with
  | none =>
    obtain ⟨hafter, hthere⟩ := hs.set (hfound.append hdocument)
    exact ⟨_, _, _, _, hcreate, hafter, hthere, rfl, .created (strip d)⟩
  | some old =>
    obtain ⟨reason, hcreate⟩ := hcreate
    exact ⟨_, _, _, _, hcreate, hs, has_eq hshelf hfound, rfl, .taken⟩

/-- Replacing a document settles, whatever has become of it since it was read, and whatever the changes are. -/
theorem replace_settles (hc : c.partitionKey = "id") (hid : Fields.get? existing "id" = some (.str id)) (changes : Document) :
    (ExceptT.run (replace c id existing changes)).Settles (watch clock ids c id) (Write.update.verdict Call.Writes id)
      (n + 1) := by
  rw [replace_call hc hid]
  refine settles_act (by trivial) fun s ds found hshelf hfound hs => ?_
  -- the store is any that counts, not the one that was read: the document may be gone by now, or be another one
  cases hfound with
  | absent h =>
    obtain ⟨reason, hact⟩ := replace_absent hshelf h (.str id) (Fields.put (Fields.putAll existing changes) "id" (.str id))
    exact ⟨_, _, _, _, hact, hs, has_eq hshelf (.absent h), rfl, .missing (by decide)⟩
  | alone hold h =>
    have hmerged : documentId? (Fields.put (Fields.putAll existing changes) "id" (.str id)) = some id :=
      documentId?_eq_some_iff.2 (Fields.get?_put_self _ _ _)
    obtain ⟨hafter, hthere⟩ := hs.set (.alone hmerged h)
    exact ⟨_, _, _, _, replace_split hshelf hold h _, hafter, hthere, rfl, .updated _⟩

/-- Removing a document settles, whatever has become of it since it was read. -/
theorem remove_settles {next : Except StoreError Unit → Program service (Except Error Unit)} (hok : next (.ok ()) = .done (.ok ()))
    (hmissing : ∀ reason, next (.error (.notFound reason)) = .done (.error (.notFound id))) :
    (Program.call (I := service) (.delete c id (.str id)) next).Settles (watch clock ids c id)
      (Write.delete.verdict Call.Writes id) (n + 1) := by
  refine settles_act (by trivial) fun s ds found hshelf hfound hs => ?_
  cases hfound with
  | absent h =>
    obtain ⟨reason, hact⟩ := delete_absent hshelf h (.str id)
    exact ⟨_, _, _, _, hact, hs, has_eq hshelf (.absent h), hmissing reason, .missing (by decide)⟩
  | alone hold h =>
    obtain ⟨hafter, hthere⟩ := hs.set (.absent h)
    exact ⟨_, _, _, _, delete_split hshelf hold h, hafter, hthere, hok, .deleted ()⟩

/-- The properties of the service are not the identifier. -/
theorem get?_strip_id (d : Document) : Fields.get? (strip d) "id" = Fields.get? d "id" := by
  rw [get?_strip, if_neg (by decide)]

/-- A write that reads the document first settles, if it does so once the document is found, and reports that there is none. -/
theorem settles_after_find {α : Type} {w : Write} (hw : w ≠ .create) {next : Option Document → Operation service α}
    (hnone : next none = throw (.notFound id))
    (hsome : ∀ existing, Fields.get? existing "id" = some (.str id) →
      (ExceptT.run (next (some existing))).Settles (watch clock ids c id) (w.verdict Call.Writes id) (n + 1)) :
    (ExceptT.run (findById c id Select.all >>= next)).Settles (watch clock ids c id) (w.verdict Call.Writes id) (n + 2) := by
  obtain ⟨compiled, -, hcompiled, -⟩ := compileFindById_means id Select.all
  rw [findById, hcompiled]
  refine Program.settles_call fun s hs => ?_
  obtain ⟨ds, found, hshelf, hfound⟩ := Single.stands hs
  refine ⟨_, s, answerUnless_of_none hs.failure (congrArg (·, s) (query_byId hshelf hfound hcompiled)), hs, ?_⟩
  cases hfound with
  | absent h =>
    refine .inl ⟨.error (.notFound id), congrArg ExceptT.run hnone, ?_, ?_⟩
    · show w.Settles id _ (s.has c id) (s.has c id)
      rw [has_eq hshelf (.absent h)]
      exact .missing hw
    · rintro ⟨found, hfound⟩
      cases hfound
  | @alone _ _ d hid h => exact .inr ⟨rfl, hsome (strip d) ((get?_strip_id d).trans (documentId?_eq_some_iff.1 hid))⟩

/-- The checked writes of a document in a container that is partitioned by the identifier settle. -/
theorem adapter_decides (hc : c.partitionKey = "id") : (adapter c).Decides (watch clock ids c id) Call.Writes id where
  insert d hid := insert_settles hc hid
  update changes _ := by
    refine settles_after_find ?_ ?_ ?_
    · decide
    · rfl
    · exact fun existing hid => replace_settles hc hid changes
  delete := by
    refine settles_after_find ?_ ?_ fun existing hid => ?_
    · decide
    · rfl
    · simp only [partitionValue_id hc hid]
      exact remove_settles rfl fun _ => rfl

end

end DocQuery.Cosmos
