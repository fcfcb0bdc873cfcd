import DocQuery.Settings.Toml.Quoted
import DocQuery.Settings.Toml.Tree

/-!
# Keys and values

A key is one name or several with dots between them; a name is quoted, or a word of letters, digits, underscores and hyphens. An
array may go over lines, hold comments and end in a comma; a table between braces stands in one line and may do none of that.
-/

namespace DocQuery.Settings.Toml

/-- How deep arrays and braced tables may be nested, and how many names a key may have, plus one. -/
def nestingLimit : Nat := 80

/-- A character of a bare name. -/
def isNameChar (c : Char) : Bool := Text.isAsciiLetter c || Text.isAsciiDigit c || c = '_' || c = '-'

/-- One name. -/
def name (cs : List Char) : Option (String × List Char) :=
  match lineText cs with
  | some found => some found
  | none =>
    let word := cs.takeWhile isNameChar
    if word.isEmpty then none else some (String.ofList word, cs.dropWhile isNameChar)

/-- The names of a key, blanks around each of them. The first argument bounds their number. -/
def names : Nat → List Char → Option (List String × List Char)
  | 0, _ => none
  | fuel + 1, cs => do
    let (n, rest) ← name (skipSpace cs)
    match skipSpace rest with
    | '.' :: rest =>
      let (ns, rest) ← names fuel rest
      some (n :: ns, rest)
    | rest => some ([n], rest)

/-- A key: the names before its last one, the last one, and what follows. -/
def key (cs : List Char) : Option (List String × String × List Char) := do
  let (ns, rest) ← names (nestingLimit - 1) cs
  some (ns.dropLast, ← ns.getLast?, rest)

/-- What follows a comment up to the end of its line. -/
def skipComment : List Char → List Char
  | '#' :: rest => rest.dropWhile isPlain
  | cs => cs

/-- What follows blanks, comments and line ends between the parts of an array. The first argument bounds the number of lines. -/
def skipFiller : Nat → List Char → List Char
  | 0, cs => cs
  | fuel + 1, cs =>
    match lineEnd? (skipComment (skipSpace cs)) with
    | some rest => skipFiller fuel rest
    | none => skipSpace cs

/-- A value that is neither an array nor a braced table. -/
def scalar (cs : List Char) : Option (Node × List Char) :=
  match cs with
  | 't' :: 'r' :: 'u' :: 'e' :: rest => some (.bool true, rest)
  | 'f' :: 'a' :: 'l' :: 's' :: 'e' :: rest => some (.bool false, rest)
  | '"' :: _ | '\'' :: _ => (quotedText cs).map fun (s, rest) => (.text s, rest)
  | _ =>
    match dateOrTime cs with
    | some found => some found
    | none => number cs

mutual

/-- A value. The first argument bounds the number of nested calls, the second one the levels of arrays and braced tables. -/
def value : Nat → Nat → List Char → Option (Node × List Char)
  | 0, _, _ => none
  | fuel + 1, depth, cs =>
    match cs with
    | '[' :: rest => if depth = 0 then none else (items fuel (depth - 1) rest).map fun (ns, rest) => (.list ns, rest)
    | '\x7b' :: rest =>
      if depth = 0 then none
      else
        match skipSpace rest with
        | '\x7d' :: rest => some (.table [], rest)
        | rest => (members fuel (depth - 1) [] rest).map fun (entries, rest) => (.table (entriesToNodes entries), rest)
    | cs => scalar cs

/-- The items of an array up to its closing bracket. -/
def items : Nat → Nat → List Char → Option (List Node × List Char)
  | 0, _, _ => none
  | fuel + 1, depth, cs =>
    match skipFiller cs.length cs with
    | ']' :: rest => some ([], rest)
    | cs => do
      let (node, rest) ← value fuel depth cs
      match skipFiller rest.length rest with
      | ',' :: rest =>
        let (nodes, rest) ← items fuel depth rest
        some (node :: nodes, rest)
      | ']' :: rest => some ([node], rest)
      | _ => none

/-- The members of a braced table up to its closing brace, at least one, added to the entries before them. -/
def members : Nat → Nat → Entries → List Char → Option (Entries × List Char)
  | 0, _, _, _ => none
  | fuel + 1, depth, entries, cs => do
    let (path, last, rest) ← key cs
    let (node, rest) ← value fuel depth (skipSpace (← expect '=' rest))
    let entries ← assign path last node .header entries
    match skipSpace rest with
    | ',' :: rest => members fuel depth entries rest
    | '\x7d' :: rest => some (entries, rest)
    | _ => none

end

end DocQuery.Settings.Toml
