import DocQuery.Error
import DocQuery.Text.Blank

/-!
# Identifiers

A record is addressed by an identifier: a text that is not empty and holds no blank.
-/

namespace DocQuery

/-- Checks an identifier. -/
def checkId (id : String) : Except Error Unit :=
  if id.isEmpty then .error (.invalidArgument .emptyId)
  else if id.toList.any Text.isBlank then .error (.invalidArgument (.blankInId id))
  else .ok ()

/-- Whether a text is an identifier. -/
def ValidId (id : String) : Prop := checkId id = .ok ()

end DocQuery
