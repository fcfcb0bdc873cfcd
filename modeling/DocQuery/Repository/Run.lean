import DocQuery.Repository.Operations

/-!
# Running operations

A caller may limit an operation's time and may cancel it. Both are cutoffs: whichever comes first ends the operation, and a result
that is there at the cutoff still counts. An operation that is cancelled before it begins does nothing at all.
-/

namespace DocQuery

/-- What a caller sets for one call of an operation. -/
structure Options where
  /-- The time limit; the default of the entity where absent. -/
  timeout : Option Span
  /-- After how many milliseconds the operation is cancelled. -/
  cancelAfter : Option Nat
  deriving DecidableEq, Repr

/-- No limit and no cancellation. -/
def Options.none : Options := ⟨.none, .none⟩

/-- The time at which an operation is ended, and the error that says so. -/
def Options.cutoff (o : Options) (default : Option Span) : Option (Nat × Error) :=
  match o.timeout <|> default, o.cancelAfter with
  | .none, .none => .none
  | some limit, .none => some (limit.millis, .timedOut limit)
  | .none, some ms => some (ms, .cancelled)
  | some limit, some ms => if limit.millis ≤ ms then some (limit.millis, .timedOut limit) else some (ms, .cancelled)

/-- Runs an operation for its caller. -/
def Operation.run {I : Interface} {S α : Type} (env : Surroundings I S) (config : EntityConfig) (options : Options)
    (w : World I S) (op : Operation I α) : Except Error α × World I S :=
  if options.cancelAfter = some 0 then (.error .cancelled, w)
  else
    match options.cutoff config.defaultTimeout with
    | .none =>
      match Program.run env .none 0 w (ExceptT.run op) with
      | (some result, w) => (result, w)
      | (.none, w) => (.error .cancelled, w)
    | some (time, reason) =>
      match Program.run env (some time) 0 w (ExceptT.run op) with
      | (some result, w) => (result, w)
      | (.none, w) => (.error reason, w)

end DocQuery
