import DocQuery.Proofs.Expression.Queries

/-!
# Bounds on nested calls

A bound that allows four calls for every token, and a few more, is not met: any two such bounds make the same of the same tokens
(`readFormula_steady`). So what follows in a text is read alike whatever precedes it.
-/

namespace DocQuery.Expression

variable {α β : Type} {names : Names}

/-- Two readings that come to the same, and leave fewer tokens than a number if they succeed. -/
structure Steady (n : Nat) (r r' : Except Fault (α × List Token)) : Prop where
  eq : r = r'
  shorter : ∀ a rest, r = .ok (a, rest) → rest.length < n

namespace Steady

variable {n m : Nat} {r r' : Except Fault (α × List Token)}

theorem error (e : Fault) : Steady n (.error e : Except Fault (α × List Token)) (.error e) := ⟨rfl, nofun⟩

theorem ok (a : α) {rest : List Token} (h : rest.length < n) : Steady n (.ok (a, rest)) (.ok (a, rest)) :=
  ⟨rfl, by rintro _ _ ⟨⟩; exact h⟩

theorem mono (h : Steady n r r') (hle : n ≤ m) : Steady m r r' :=
  ⟨h.eq, fun a rest hr => Nat.lt_of_lt_of_le (h.shorter a rest hr) hle⟩

/-- One reading after the other. -/
theorem bind (h : Steady m r r') {f f' : α × List Token → Except Fault (β × List Token)}
    (hnext : ∀ a rest, rest.length < m → Steady n (f (a, rest)) (f' (a, rest))) : Steady n (r >>= f) (r' >>= f') := by
  obtain ⟨rfl, hshorter⟩ := h
  cases r with
  | error e => exact .error e
  | ok p => exact hnext p.1 p.2 (hshorter p.1 p.2 rfl)

/-- A reading and then a result made of its result. -/
theorem map (h : Steady m r r') (hle : m ≤ n) (f : α → β) :
    Steady n (do let (a, rest) ← r; .ok (f a, rest)) (do let (a, rest) ← r'; .ok (f a, rest)) :=
  h.bind fun a _ hrest => .ok (f a) (Nat.lt_of_lt_of_le hrest hle)

end Steady

/-! ## Tokens one by one -/

/-- A keyword is one token. -/
theorem length_of_keyword? {keyword : String} {ts rest : List Token} (h : keyword? keyword ts = some rest) :
    ts.length = rest.length + 1 := by
  cases ts with
  | nil => cases h
  | cons t ts =>
    cases t with
    | word s =>
      rw [keyword?] at h
      split at h
      · rw [← Option.some.inj h, List.length_cons]
      · cases h
    | _ => cases h

/-- A token that comes next is one token. -/
theorem length_of_expect {token : Token} {ts rest : List Token} (h : expect token ts = .ok rest) :
    ts.length = rest.length + 1 := by
  cases ts with
  | nil => cases h
  | cons t ts =>
    rw [expect] at h
    split at h
    · rw [← Except.ok.inj h, List.length_cons]
    · cases h

section

variable {n : Nat} {ts : List Token} {f f' : List Token → Except Fault (β × List Token)}

/-- After a token that has to come next there are fewer tokens. -/
theorem Steady.expect {token : Token} (h : ∀ rest, rest.length < ts.length → Steady n (f rest) (f' rest)) :
    Steady n (Expression.expect token ts >>= f) (Expression.expect token ts >>= f') := by
  cases hrest : Expression.expect token ts with
  | error e => exact .error e
  | ok rest => exact h rest (length_of_expect hrest ▸ Nat.lt_succ_self _)

/-- After a keyword that has to come next there are fewer tokens. -/
theorem Steady.expectKeyword {keyword : String} (h : ∀ rest, rest.length < ts.length → Steady n (f rest) (f' rest)) :
    Steady n (Expression.expectKeyword keyword ts >>= f) (Expression.expectKeyword keyword ts >>= f') := by
  rw [Expression.expectKeyword]
  cases hrest : keyword? keyword ts with
  | none => exact .error _
  | some rest => exact h rest (length_of_keyword? hrest ▸ Nat.lt_succ_self _)

end

/-! ## Terms and tests -/

/-- A term is at least one token. -/
theorem readTerm_steady (names : Names) (ts : List Token) : Steady ts.length (readTerm names ts) (readTerm names ts) := by
  fun_induction readTerm names ts with
  | case1 | case3 | case4 | case5 | case7 | case8 | case12 =>
    refine .ok _ ?_
    simp only [List.length_cons]
    omega
  | case2 | case9 | case11 | case13 => exact .error _
  | case6 s rest hlower ih =>
    rw [List.length_cons, List.length_cons]
    exact ih.bind fun inner rest hrest => .expect fun rest hless => .ok _ (by omega)
  | case10 s field rest =>
    rw [List.length_cons, List.length_cons, List.length_cons]
    exact .expect fun rest hrest => .ok _ (by omega)

/-- Terms up to the closing parenthesis, under two bounds that allow a call for every token. -/
theorem readTerms_steady (names : Names) {fuel fuel' : Nat} {ts : List Token} (hf : ts.length < fuel) (hf' : ts.length < fuel') :
    Steady ts.length (readTerms names fuel ts) (readTerms names fuel' ts) := by
  induction fuel generalizing fuel' ts with
  | zero => exact absurd hf (Nat.not_lt_zero _)
  | succ fuel ih =>
    obtain ⟨fuel', rfl⟩ := Nat.exists_eq_add_of_le' (Nat.one_le_of_lt hf')
    rw [readTerms, readTerms]
    refine (readTerm_steady names ts).bind fun t rest hrest => ?_
    dsimp only
    split
    · rw [List.length_cons] at hrest
      exact (ih (by omega) (by omega)).map (by omega) (t :: ·)
    · exact .expect fun rest hless => .ok _ (Nat.lt_trans hless hrest)

/-- A test on terms. -/
theorem readTest_steady (names : Names) {fuel fuel' : Nat} {ts : List Token} (hf : ts.length ≤ fuel) (hf' : ts.length ≤ fuel') :
    Steady ts.length (readTest names fuel ts) (readTest names fuel' ts) := by
  rw [readTest, readTest]
  refine (readTerm_steady names ts).bind fun left rest hrest => ?_
  dsimp only
  cases hin : keyword? "IN" rest with
  | some list =>
    have hlist := length_of_keyword? hin
    refine .expect fun list hlist => ?_
    exact (readTerms_steady names (by omega) (by omega)).map (by omega) (Formula.member left)
  | none =>
    cases hbetween : keyword? "BETWEEN" rest with
    | some bounds =>
      have hbounds := length_of_keyword? hbetween
      refine (readTerm_steady names bounds).bind fun low rest hrest => ?_
      refine .expectKeyword fun rest hrest => ?_
      exact (readTerm_steady names rest).map (by dsimp only at hrest; omega) (Formula.between left low)
    | none =>
      dsimp only
      split
      · next right =>
        rw [List.length_cons] at hrest
        exact (readTerm_steady names right).map (by omega) (Formula.compare left _)
      · exact .error _

/-! ## Formulas -/

/-- A bound under which formulas are read as under any other that allows four calls for every token. -/
structure Settled (names : Names) (fuel : Nat) : Prop where
  formula : ∀ fuel' ts, 4 * ts.length + 4 ≤ fuel → 4 * ts.length + 4 ≤ fuel' →
    Steady ts.length (readFormula names fuel ts) (readFormula names fuel' ts)
  alternatives : ∀ fuel' left ts, 4 * ts.length + 4 ≤ fuel → 4 * ts.length + 4 ≤ fuel' →
    Steady (ts.length + 1) (readAlternatives names fuel left ts) (readAlternatives names fuel' left ts)
  conjunction : ∀ fuel' ts, 4 * ts.length + 3 ≤ fuel → 4 * ts.length + 3 ≤ fuel' →
    Steady ts.length (readConjunction names fuel ts) (readConjunction names fuel' ts)
  factors : ∀ fuel' left ts, 4 * ts.length + 3 ≤ fuel → 4 * ts.length + 3 ≤ fuel' →
    Steady (ts.length + 1) (readFactors names fuel left ts) (readFactors names fuel' left ts)
  negation : ∀ fuel' ts, 4 * ts.length + 2 ≤ fuel → 4 * ts.length + 2 ≤ fuel' →
    Steady ts.length (readNegation names fuel ts) (readNegation names fuel' ts)
  primary : ∀ fuel' ts, 4 * ts.length + 1 ≤ fuel → 4 * ts.length + 1 ≤ fuel' →
    Steady ts.length (readPrimary names fuel ts) (readPrimary names fuel' ts)

theorem settled_zero (names : Names) : Settled names 0 where
  formula := by intro _ _ h; omega
  alternatives := by intro _ _ _ h; omega
  conjunction := by intro _ _ h; omega
  factors := by intro _ _ _ h; omega
  negation := by intro _ _ h; omega
  primary := by intro _ _ h; omega

/-- One call more. -/
theorem Settled.succ {fuel : Nat} (h : Settled names fuel) : Settled names (fuel + 1) where
  formula := by
    intro fuel' ts hf hf'
    obtain ⟨fuel', rfl⟩ := Nat.exists_eq_add_of_le' (show 1 ≤ fuel' by omega)
    rw [readFormula, readFormula]
    refine (h.conjunction fuel' ts (by omega) (by omega)).bind fun left rest hrest => ?_
    exact (h.alternatives fuel' left rest (by omega) (by omega)).mono (by omega)
  alternatives := by
    intro fuel' left ts hf hf'
    obtain ⟨fuel', rfl⟩ := Nat.exists_eq_add_of_le' (show 1 ≤ fuel' by omega)
    rw [readAlternatives, readAlternatives]
    cases hor : keyword? "OR" ts with
    | none => exact .ok left (Nat.lt_succ_self _)
    | some rest =>
      have hrest := length_of_keyword? hor
      refine (h.conjunction fuel' rest (by omega) (by omega)).bind fun right rest hrest => ?_
      exact (h.alternatives fuel' _ rest (by omega) (by omega)).mono (by omega)
  conjunction := by
    intro fuel' ts hf hf'
    obtain ⟨fuel', rfl⟩ := Nat.exists_eq_add_of_le' (show 1 ≤ fuel' by omega)
    rw [readConjunction, readConjunction]
    refine (h.negation fuel' ts (by omega) (by omega)).bind fun left rest hrest => ?_
    exact (h.factors fuel' left rest (by omega) (by omega)).mono (by omega)
  factors := by
    intro fuel' left ts hf hf'
    obtain ⟨fuel', rfl⟩ := Nat.exists_eq_add_of_le' (show 1 ≤ fuel' by omega)
    rw [readFactors, readFactors]
    cases hand : keyword? "AND" ts with
    | none => exact .ok left (Nat.lt_succ_self _)
    | some rest =>
      have hrest := length_of_keyword? hand
      refine (h.negation fuel' rest (by omega) (by omega)).bind fun right rest hrest => ?_
      exact (h.factors fuel' _ rest (by omega) (by omega)).mono (by omega)
  negation := by
    intro fuel' ts hf hf'
    obtain ⟨fuel', rfl⟩ := Nat.exists_eq_add_of_le' (show 1 ≤ fuel' by omega)
    rw [readNegation, readNegation]
    cases hnot : keyword? "NOT" ts with
    | none => exact h.primary fuel' ts (by omega) (by omega)
    | some rest =>
      have hrest := length_of_keyword? hnot
      exact (h.negation fuel' rest (by omega) (by omega)).map (by omega) Formula.not
  primary := by
    intro fuel' ts hf hf'
    obtain ⟨fuel', rfl⟩ := Nat.exists_eq_add_of_le' (show 1 ≤ fuel' by omega)
    have htest := readTest_steady names (show ts.length ≤ fuel by omega) (show ts.length ≤ fuel' by omega)
    unfold readPrimary
    split
    · next rest =>
      rw [List.length_cons] at hf hf'
      refine (h.formula fuel' rest (by omega) (by omega)).bind fun inner rest hrest => ?_
      exact .expect fun rest hless => .ok _ (Nat.lt_trans hless (Nat.lt_succ_of_lt hrest))
    · next s rest =>
      rw [List.length_cons, List.length_cons] at hf hf'
      cases Function.ofName? s with
      | none => exact htest
      | some f =>
        have hargs := readTerms_steady names (show rest.length < fuel by omega) (show rest.length < fuel' by omega)
        exact hargs.map (by simp only [List.length_cons]; omega) (Formula.call f)
    · exact htest

theorem settled (names : Names) (fuel : Nat) : Settled names fuel := by
  induction fuel with
  | zero => exact settled_zero names
  | succ fuel ih => exact ih.succ

/-- A formula is read alike under any two bounds that allow four calls for every token. -/
theorem readFormula_steady (names : Names) {fuel fuel' : Nat} {ts : List Token} (hf : 4 * ts.length + 4 ≤ fuel)
    (hf' : 4 * ts.length + 4 ≤ fuel') : Steady ts.length (readFormula names fuel ts) (readFormula names fuel' ts) :=
  (settled names fuel).formula fuel' ts hf hf'

/-! ## The end of a query -/

/-- A direction is a token at most. -/
theorem length_readDirection (ts : List Token) : (readDirection ts).2.length ≤ ts.length := by
  rw [readDirection]
  cases hdesc : keyword? "DESC" ts with
  | some rest => exact Nat.le_of_lt (length_of_keyword? hdesc ▸ Nat.lt_succ_self _)
  | none =>
    cases hasc : keyword? "ASC" ts with
    | some rest => exact Nat.le_of_lt (length_of_keyword? hasc ▸ Nat.lt_succ_self _)
    | none => exact Nat.le_refl _

/-- A sort key is at least one token. -/
theorem readSortKey_steady (ts : List Token) : Steady ts.length (readSortKey ts) (readSortKey ts) := by
  rw [readSortKey, readPath]
  refine Steady.bind (m := ts.length) ?_ fun field rest hrest =>
    .ok _ (Nat.lt_of_le_of_lt (length_readDirection rest) hrest)
  refine (readTerm_steady none ts).bind fun t rest hrest => ?_
  cases t with
  | path field => exact .ok field hrest
  | _ => exact .error _

/-- Sort keys, under two bounds that allow a call for every token. -/
theorem readOrder_steady {fuel fuel' : Nat} {ts : List Token} (hf : ts.length < fuel) (hf' : ts.length < fuel') :
    Steady ts.length (readOrder fuel ts) (readOrder fuel' ts) := by
  induction fuel generalizing fuel' ts with
  | zero => exact absurd hf (Nat.not_lt_zero _)
  | succ fuel ih =>
    obtain ⟨fuel', rfl⟩ := Nat.exists_eq_add_of_le' (Nat.one_le_of_lt hf')
    rw [readOrder_succ, readOrder_succ]
    refine (readSortKey_steady ts).bind fun key rest hrest => ?_
    dsimp only
    split
    · rw [List.length_cons] at hrest
      exact (ih (by omega) (by omega)).map (by omega) (key :: ·)
    · exact .ok _ hrest

/-- The condition of a query, if it has one. -/
def readCondition (fuel : Nat) (ts : List Token) : Except Fault (Option Formula × List Token) :=
  match keyword? "WHERE" ts with
  | some rest => (readFormula none fuel rest).map fun (formula, rest) => (some formula, rest)
  | none => .ok (none, ts)

/-- The sort keys of a query, if it has any. -/
def readSorting (fuel : Nat) (ts : List Token) : Except Fault (List (String × Bool) × List Token) :=
  match keyword? "ORDER" ts with
  | some rest => do readOrder fuel (← expectKeyword "BY" rest)
  | none => .ok ([], ts)

/-- What follows the container in a query, up to its end. -/
def readClauses (fuel : Nat) (ts : List Token) : Except Fault (Option Formula × List (String × Bool)) := do
  let (condition, rest) ← readCondition fuel ts
  let (order, rest) ← readSorting fuel rest
  expectEnd rest
  .ok (condition, order)

theorem readCondition_steady {fuel fuel' : Nat} {ts : List Token} (hf : 4 * ts.length + 4 ≤ fuel)
    (hf' : 4 * ts.length + 4 ≤ fuel') : Steady (ts.length + 1) (readCondition fuel ts) (readCondition fuel' ts) := by
  rw [readCondition, readCondition]
  cases hwhere : keyword? "WHERE" ts with
  | none => exact .ok none (Nat.lt_succ_self _)
  | some rest =>
    have hrest := length_of_keyword? hwhere
    exact (readFormula_steady none (by omega) (by omega)).map (by omega) some

theorem readSorting_steady {fuel fuel' : Nat} {ts : List Token} (hf : ts.length ≤ fuel) (hf' : ts.length ≤ fuel') :
    Steady (ts.length + 1) (readSorting fuel ts) (readSorting fuel' ts) := by
  rw [readSorting, readSorting]
  cases horder : keyword? "ORDER" ts with
  | none => exact .ok [] (Nat.lt_succ_self _)
  | some rest =>
    have hrest := length_of_keyword? horder
    refine .expectKeyword fun keys hkeys => ?_
    exact (readOrder_steady (by omega) (by omega)).mono (by omega)

/-- What follows the container is read alike under any two bounds that allow four calls for every token. -/
theorem readClauses_congr {fuel fuel' : Nat} {ts : List Token} (hf : 4 * ts.length + 4 ≤ fuel) (hf' : 4 * ts.length + 4 ≤ fuel') :
    readClauses fuel ts = readClauses fuel' ts := by
  obtain ⟨heq, hshorter⟩ := readCondition_steady hf hf'
  rw [readClauses, readClauses, ← heq]
  cases hcondition : readCondition fuel ts with
  | error e => rfl
  | ok p =>
    have hrest := hshorter p.1 p.2 hcondition
    have hsorting : readSorting fuel p.2 = readSorting fuel' p.2 := (readSorting_steady (by omega) (by omega)).eq
    simp only [bind, Except.bind, hsorting]

/-- The condition of a query, and what is read after it. -/
theorem readCondition_bind {γ : Type} (fuel : Nat) (ts : List Token) (next : Option Formula × List Token → Except Fault γ) :
    (readCondition fuel ts >>= next) = match keyword? "WHERE" ts with
      | some rest => (readFormula none fuel rest).map (fun (formula, rest) => (some formula, rest)) >>= next
      | none => next (none, ts) := by
  rw [readCondition]
  cases keyword? "WHERE" ts <;> rfl

/-- The sort keys of a query, and what is read after them. -/
theorem readSorting_bind {γ : Type} (fuel : Nat) (ts : List Token)
    (next : List (String × Bool) × List Token → Except Fault γ) :
    (readSorting fuel ts >>= next) = match keyword? "ORDER" ts with
      | some rest => expectKeyword "BY" rest >>= fun rest => readOrder fuel rest >>= next
      | none => next ([], ts) := by
  rw [readSorting]
  cases keyword? "ORDER" ts with
  | none => rfl
  | some rest => cases hby : expectKeyword "BY" rest <;> simp only [hby] <;> rfl

/-- A query is read as its projection and what follows its container, whatever the projection is. -/
theorem parseQuery_eq_clauses {s c : String} {ps ts : List Token} {projection : Option (List String)}
    (hs : tokenize s.toList = .ok (.word "SELECT" :: (ps ++ .word "FROM" :: .word c :: ts))) (hp : ProjectionWritten ps projection) :
    parseQuery s = (readClauses (enough ts) ts).map fun p => ⟨projection, p.1, p.2⟩ := by
  have hok {γ δ : Type} (a : γ) (f : γ → Except Fault δ) : (Except.ok a >>= f) = f a := rfl
  have hkeyword (k : String) (rest : List Token) : expectKeyword k (.word k :: rest) = .ok rest := by
    rw [expectKeyword, keyword?_self]
  rw [parseQuery, tokens, hs]
  simp only [Except.mapError, hok, hkeyword]
  generalize hfuel : enough _ = fuel
  simp only [enough, List.length_cons, List.length_append] at hfuel
  rw [readProjection_written hp (by omega) (afterList_word "FROM" _)]
  have hclauses : readClauses fuel ts = readClauses (enough ts) ts := readClauses_congr (by omega) (by rw [enough]; omega)
  have hparts : (readClauses fuel ts).map (fun p => (⟨projection, p.1, p.2⟩ : Query)) =
      (readCondition fuel ts >>= fun p => readSorting fuel p.2 >>= fun q => expectEnd q.2 >>= fun _ =>
        .ok ⟨projection, p.1, q.1⟩) := by
    simp only [readClauses, bind, Except.bind]
    cases readCondition fuel ts with
    | error e => rfl
    | ok p =>
      cases hsorting : readSorting fuel p.2 with
      | error e => simp only [hsorting, Except.map]
      | ok q => cases hend : expectEnd q.2 <;> simp only [hsorting, hend, Except.map]
  simp only [readCondition_bind, readSorting_bind] at hparts
  simp only [hok, hkeyword, ← hclauses]
  exact hparts.symm

end DocQuery.Expression
