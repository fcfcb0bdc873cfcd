import DocQuery.Expression.Tree

/-!
# Reading expressions

Recursive descent over tokens. `OR` binds weaker than `AND`, `AND` weaker than `NOT`; the two connectives group to the left, and
the `AND` of a `BETWEEN` belongs to it. Keywords are recognized in any case. An alias stands for the field that the table of names
gives it. Every function takes a bound on the number of nested calls; the entry points choose it so large that it is not met.
-/

namespace DocQuery.Expression

/-- Why tokens are not an expression. -/
inductive Fault where
  | token (fault : TokenFault)
  | expectedKeyword (keyword : String)
  | expectedToken (token : Token) (found : Option Token)
  | trailing (token : Token)
  | expectedComparison (found : Option Token)
  | expectedPath (found : Term)
  | undefinedName (name : String)
  | expectedProperty (found : Option Token)
  | expectedQuotedProperty (found : Option Token)
  | expectedTerm (found : Option Token)
  | expectedContainer (found : Option Token)
  | undefinedValue (name : String)
  | badArguments (f : Function) (args : List Term)
  | tooDeep
  deriving Repr

/-- A token that may be missing, as messages show it. -/
def shownToken : Option Token → String
  | some t => "Some(" ++ t.shown ++ ")"
  | none => "None"

/-- The wording of a fault. -/
def Fault.message : Fault → String
  | .token fault => fault.message
  | .expectedKeyword keyword => "expected " ++ keyword
  | .expectedToken wanted found => "expected " ++ wanted.shown ++ ", found " ++ shownToken found
  | .trailing t => "unexpected trailing " ++ t.shown
  | .expectedComparison found => "expected comparison, found " ++ shownToken found
  | .expectedPath found => "expected attribute path, found " ++ found.shown
  | .undefinedName name => "undefined attribute name " ++ name
  | .expectedProperty found => "expected property, found " ++ shownToken found
  | .expectedQuotedProperty found => "expected quoted property, found " ++ shownToken found
  | .expectedTerm found => "expected operand, found " ++ shownToken found
  | .expectedContainer found => "expected container alias, found " ++ shownToken found
  | .undefinedValue name => "undefined value " ++ name
  | .badArguments f args => "bad arguments to " ++ f.shown ++ ": [" ++ String.intercalate ", " (args.map Term.shown) ++ "]"
  | .tooDeep => "expression is nested too deeply"

/-- The fields that aliases stand for. -/
abbrev Names := Option (Fields String)

/-- Whether the next token is a keyword; if so, the tokens after it. -/
def keyword? (keyword : String) : List Token → Option (List Token)
  | .word s :: rest => if Text.equalIgnoringCase s keyword then some rest else none
  | _ => none

/-- The tokens after a keyword that has to come next. -/
def expectKeyword (keyword : String) (ts : List Token) : Except Fault (List Token) :=
  match keyword? keyword ts with
  | some rest => .ok rest
  | none => .error (.expectedKeyword keyword)

/-- The tokens after a token that has to come next. -/
def expect (token : Token) (ts : List Token) : Except Fault (List Token) :=
  match ts with
  | t :: rest => if t = token then .ok rest else .error (.expectedToken token (some t))
  | [] => .error (.expectedToken token none)

/-- Succeeds only where no token is left. -/
def expectEnd : List Token → Except Fault Unit
  | [] => .ok ()
  | t :: _ => .error (.trailing t)

/-- The term that a name by itself is: a literal, or the attribute of that name. -/
def wordTerm (s : String) : Term :=
  let name := Text.lowerAscii s
  if name = "true" then .literal (.bool true)
  else if name = "false" then .literal (.bool false)
  else if name = "null" then .literal .null
  else .path s

/-- A term. -/
def readTerm (names : Names) : List Token → Except Fault (Term × List Token)
  | .alias s :: rest =>
    match names.bind (·.get? s) with
    | some field => .ok (.path field, rest)
    | none => .error (.undefinedName s)
  | .placeholder s :: rest => .ok (.param s, rest)
  | .text s :: rest => .ok (.literal (.text s), rest)
  | .number n :: rest => .ok (.literal (.number n), rest)
  | .word s :: .leftParen :: rest =>
    if Text.equalIgnoringCase s "LOWER" then do
      let (inner, rest) ← readTerm names rest
      let rest ← expect .rightParen rest
      .ok (.lower inner, rest)
    else .ok (wordTerm s, .leftParen :: rest)
  | .word _ :: .dot :: rest =>
    match rest with
    | .word field :: rest => .ok (.path field, rest)
    | found => .error (.expectedProperty found.head?)
  | .word _ :: .leftBracket :: rest =>
    match rest with
    | .text field :: rest => do
      let rest ← expect .rightBracket rest
      .ok (.path field, rest)
    | found => .error (.expectedQuotedProperty found.head?)
  | .word s :: rest => .ok (wordTerm s, rest)
  | found => .error (.expectedTerm found.head?)

/-- Terms with commas between them, up to the closing parenthesis. -/
def readTerms (names : Names) : Nat → List Token → Except Fault (List Term × List Token)
  | 0, _ => .error .tooDeep
  | fuel + 1, ts => do
    let (t, rest) ← readTerm names ts
    match rest with
    | .comma :: rest =>
      let (more, rest) ← readTerms names fuel rest
      .ok (t :: more, rest)
    | rest =>
      let rest ← expect .rightParen rest
      .ok ([t], rest)

/-- An attribute. -/
def readPath (names : Names) (ts : List Token) : Except Fault (String × List Token) := do
  match ← readTerm names ts with
  | (.path field, rest) => .ok (field, rest)
  | (other, _) => .error (.expectedPath other)

/-- A test on terms that begins with one: a membership, a range, or a comparison. -/
def readTest (names : Names) (fuel : Nat) (ts : List Token) : Except Fault (Formula × List Token) := do
  let (left, rest) ← readTerm names ts
  match keyword? "IN" rest with
  | some rest =>
    let rest ← expect .leftParen rest
    let (list, rest) ← readTerms names fuel rest
    .ok (.member left list, rest)
  | none =>
    match keyword? "BETWEEN" rest with
    | some rest =>
      let (low, rest) ← readTerm names rest
      let rest ← expectKeyword "AND" rest
      let (high, rest) ← readTerm names rest
      .ok (.between left low high, rest)
    | none =>
      match rest with
      | .relation r :: rest =>
        let (right, rest) ← readTerm names rest
        .ok (.compare left r right, rest)
      | found => .error (.expectedComparison found.head?)

mutual

/-- A formula: conjunctions with `OR` between them. -/
def readFormula (names : Names) : Nat → List Token → Except Fault (Formula × List Token)
  | 0, _ => .error .tooDeep
  | fuel + 1, ts => do
    let (left, rest) ← readConjunction names fuel ts
    readAlternatives names fuel left rest

/-- Further conjunctions after a formula. -/
def readAlternatives (names : Names) : Nat → Formula → List Token → Except Fault (Formula × List Token)
  | 0, _, _ => .error .tooDeep
  | fuel + 1, left, ts =>
    match keyword? "OR" ts with
    | some rest => do
      let (right, rest) ← readConjunction names fuel rest
      readAlternatives names fuel (.or left right) rest
    | none => .ok (left, ts)

/-- Negations and tests with `AND` between them. -/
def readConjunction (names : Names) : Nat → List Token → Except Fault (Formula × List Token)
  | 0, _ => .error .tooDeep
  | fuel + 1, ts => do
    let (left, rest) ← readNegation names fuel ts
    readFactors names fuel left rest

/-- Further negations and tests after a formula. -/
def readFactors (names : Names) : Nat → Formula → List Token → Except Fault (Formula × List Token)
  | 0, _, _ => .error .tooDeep
  | fuel + 1, left, ts =>
    match keyword? "AND" ts with
    | some rest => do
      let (right, rest) ← readNegation names fuel rest
      readFactors names fuel (.and left right) rest
    | none => .ok (left, ts)

/-- Any number of `NOT`, then a test. -/
def readNegation (names : Names) : Nat → List Token → Except Fault (Formula × List Token)
  | 0, _ => .error .tooDeep
  | fuel + 1, ts =>
    match keyword? "NOT" ts with
    | some rest => do
      let (inner, rest) ← readNegation names fuel rest
      .ok (.not inner, rest)
    | none => readPrimary names fuel ts

/-- A formula in parentheses, a function with its arguments, or a test on terms. -/
def readPrimary (names : Names) : Nat → List Token → Except Fault (Formula × List Token)
  | 0, _ => .error .tooDeep
  | fuel + 1, ts =>
    match ts with
    | .leftParen :: rest => do
      let (inner, rest) ← readFormula names fuel rest
      let rest ← expect .rightParen rest
      .ok (inner, rest)
    | .word s :: .leftParen :: rest =>
      match Function.ofName? s with
      | some f => do
        let (args, rest) ← readTerms names fuel rest
        .ok (.call f args, rest)
      | none => readTest names fuel ts
    | ts => readTest names fuel ts

end

/-- A bound on the nested calls that reading this many tokens takes. -/
def enough (ts : List Token) : Nat := 4 * ts.length + 8

/-- The tokens of a text. -/
def tokens (s : String) : Except Fault (List Token) := (tokenize s.toList).mapError .token

/-- A whole text as a formula. -/
def parseFormula (s : String) (names : Names) : Except Fault Formula := do
  let ts ← tokens s
  let (formula, rest) ← readFormula names (enough ts) ts
  expectEnd rest
  .ok formula

/-- Attributes with commas between them. -/
def readPaths (names : Names) : Nat → List Token → Except Fault (List String × List Token)
  | 0, _ => .error .tooDeep
  | fuel + 1, ts => do
    let (field, rest) ← readPath names ts
    match rest with
    | .comma :: rest =>
      let (more, rest) ← readPaths names fuel rest
      .ok (field :: more, rest)
    | rest => .ok ([field], rest)

/-- A whole text as a list of attributes. -/
def parsePaths (s : String) (names : Names) : Except Fault (List String) := do
  let ts ← tokens s
  let (fields, rest) ← readPaths names (enough ts) ts
  expectEnd rest
  .ok fields

/-- Assignments of terms to attributes, with commas between them. -/
def readAssignments (names : Names) : Nat → List Token → Except Fault (List (String × Term) × List Token)
  | 0, _ => .error .tooDeep
  | fuel + 1, ts => do
    let (field, rest) ← readPath names ts
    let rest ← expect (.relation .eq) rest
    let (value, rest) ← readTerm names rest
    match rest with
    | .comma :: rest =>
      let (more, rest) ← readAssignments names fuel rest
      .ok ((field, value) :: more, rest)
    | rest => .ok ([(field, value)], rest)

/-- A whole text as assignments. -/
def parseAssignments (s : String) (names : Names) : Except Fault (List (String × Term)) := do
  let ts ← tokens s
  let rest ← expectKeyword "SET" ts
  let (assignments, rest) ← readAssignments names (enough ts) rest
  expectEnd rest
  .ok assignments

/-- The direction after a sort key; without one it ascends. -/
def readDirection (ts : List Token) : Bool × List Token :=
  match keyword? "DESC" ts with
  | some rest => (false, rest)
  | none => (true, (keyword? "ASC" ts).getD ts)

/-- Sort keys with commas between them. -/
def readOrder : Nat → List Token → Except Fault (List (String × Bool) × List Token)
  | 0, _ => .error .tooDeep
  | fuel + 1, ts => do
    let (field, rest) ← readPath none ts
    let (ascending, rest) := readDirection rest
    match rest with
    | .comma :: rest =>
      let (more, rest) ← readOrder fuel rest
      .ok ((field, ascending) :: more, rest)
    | rest => .ok ([(field, ascending)], rest)

/-- The projection of a query: a star, or fields. -/
def readProjection (fuel : Nat) (ts : List Token) : Except Fault (Option (List String) × List Token) :=
  match ts with
  | .star :: rest => .ok (none, rest)
  | ts => (readPaths none fuel ts).map fun (fields, rest) => (some fields, rest)

/-- A whole text as a query. -/
def parseQuery (s : String) : Except Fault Query := do
  let ts ← tokens s
  let fuel := enough ts
  let rest ← expectKeyword "SELECT" ts
  let (projection, rest) ← readProjection fuel rest
  let rest ← expectKeyword "FROM" rest
  let rest ← match rest with
    | .word _ :: rest => .ok rest
    | found => .error (.expectedContainer found.head?)
  let (condition, rest) ← match keyword? "WHERE" rest with
    | some rest => (readFormula none fuel rest).map fun (formula, rest) => (some formula, rest)
    | none => .ok (none, rest)
  let (order, rest) ← match keyword? "ORDER" rest with
    | some rest => do readOrder fuel (← expectKeyword "BY" rest)
    | none => .ok ([], rest)
  expectEnd rest
  .ok ⟨projection, condition, order⟩

end DocQuery.Expression
