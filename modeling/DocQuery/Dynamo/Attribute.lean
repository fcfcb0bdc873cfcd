import DocQuery.Error
import DocQuery.Decimal.Numeral

/-!
# Typed attributes

Items hold every value under a tag for its type: `S` for a text, `N` for a number by its numeral, `BOOL`, `NULL`, `B` for binary
data in base 64, `L` for a list, `M` for a map, and `SS`, `NS`, `BS` for sets. What is written for a document is read back as the
same document; binary data is read as its base 64 text, and a set as a list.
-/

namespace DocQuery.Dynamo

/-- An item: typed attributes by name. -/
abbrev Item := Fields Json

/-- A value under its tag. -/
def tagged (tag : String) (j : Json) : Json := .obj [(tag, j)]

mutual

/-- The typed attribute of a value. -/
def ofJson : Json → Json
  | .null => tagged "NULL" (.bool true)
  | .bool b => tagged "BOOL" (.bool b)
  | .num n => tagged "N" (.str n.text)
  | .str s => tagged "S" (.str s)
  | .arr items => tagged "L" (.arr (ofItems items))
  | .obj members => tagged "M" (.obj (ofMembers members))

/-- The typed attributes of the items of a list. -/
def ofItems : List Json → List Json
  | [] => []
  | j :: rest => ofJson j :: ofItems rest

/-- The typed attributes of the members of a map. -/
def ofMembers : List (String × Json) → List (String × Json)
  | [] => []
  | (name, j) :: rest => (name, ofJson j) :: ofMembers rest

end

/-- The item of a document. -/
def ofDocument (d : Document) : Item := ofMembers d

/-- The numeral of an operand. -/
def numeral : Floating → String
  | .finite x => String.ofList (Decimal.Style.attribute.write x)
  | .infinite negative => if negative then "-inf" else "inf"
  | .nan => "NaN"

/-- The typed attribute of an operand. -/
def ofOperand : Operand → Json
  | .bool b => tagged "BOOL" (.bool b)
  | .integer i => tagged "N" (.str (String.ofList (Decimal.integerText i.toInt)))
  | .float x => tagged "N" (.str (numeral x))
  | .text s => tagged "S" (.str s)
  | .instant t => tagged "S" (.str t.text)

/-- The number of a numeral: an integer where it is one of 64 bits, and otherwise the nearest binary64 number. -/
def number? (numeral : String) : Option Number :=
  let exact := do
    let i ← Decimal.integer? numeral.toList
    if i < 0x8000000000000000 then WideInt.ofInt? i else none
  match exact with
  | some i => some (.int i)
  | none => (Decimal.decimal? numeral.toList).map .float

/-- Reads a numeral. -/
def readNumber (numeral : String) : Except AttributeFault Json :=
  match number? numeral with
  | some n => .ok (.num n)
  | none => .error (.badNumber numeral)

/-- Reads a text under its tag. -/
def readText (tag : String) : Json → Except AttributeFault String
  | .str s => .ok s
  | _ => .error (.notText tag)

/-- Reads a text in a set. -/
def readSetText (tag : String) : Json → Except AttributeFault Json
  | .str s => .ok (.str s)
  | _ => .error (.itemNotText tag)

/-- Reads a numeral in a set. -/
def readSetNumber : Json → Except AttributeFault Json
  | .str s => readNumber s
  | _ => .error .itemNotNumeral

/-- Reads the items of a set, which becomes a list. -/
def readSet (tag : String) (readMember : Json → Except AttributeFault Json) : Json → Except AttributeFault Json
  | .arr items => (items.mapM readMember).map .arr
  | _ => .error (.notArray tag)

/-- Reads binary data, which stays in base 64. -/
def readBinary : Json → Except AttributeFault Json
  | .str s =>
    match Text.Base64.decode Text.Base64.standard s.toList with
    | some _ => .ok (.str s)
    | none => .error (.badBase64 (Text.Base64.diagnose Text.Base64.standard s.toUTF8.toList))
  | _ => .error .notBinary

mutual

/-- The value of a typed attribute. -/
def toJson : Json → Except AttributeFault Json
  | .obj [] => .error .empty
  | .obj [(tag, j)] =>
    if tag = "S" then (readText "S" j).map .str
    else if tag = "N" then do readNumber (← readText "N" j)
    else if tag = "BOOL" then
      match j with
      | .bool b => .ok (.bool b)
      | _ => .error .notBoolean
    else if tag = "NULL" then .ok .null
    else if tag = "B" then readBinary j
    else if tag = "L" then
      match j with
      | .arr items => (toItems items).map .arr
      | _ => .error (.notArray "L")
    else if tag = "M" then
      match j with
      | .obj members => (toMembers members).map .obj
      | _ => .error .notMap
    else if tag = "SS" ∨ tag = "BS" then readSet tag (readSetText tag) j
    else if tag = "NS" then readSet tag readSetNumber j
    else .error (.unknownTag tag)
  | .obj _ => .error .manyTags
  | _ => .error .notObject

/-- The values of the attributes in a list. -/
def toItems : List Json → Except AttributeFault (List Json)
  | [] => .ok []
  | j :: rest => do .ok ((← toJson j) :: (← toItems rest))

/-- The values of the attributes in a map. -/
def toMembers : List (String × Json) → Except AttributeFault (List (String × Json))
  | [] => .ok []
  | (name, j) :: rest => do .ok ((name, ← toJson j) :: (← toMembers rest))

end

/-- The document of an item. -/
def toDocument (item : Item) : Except AttributeFault Document := toMembers item

end DocQuery.Dynamo
