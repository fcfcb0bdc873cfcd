/-!
# Parts of a text

Whether a text begins with, ends in or holds another one.
-/

namespace DocQuery.Text

/-- Whether the characters of `part` occur in a row in those of `whole`. -/
def hasPartChars (part : List Char) : List Char → Bool
  | [] => part.isEmpty
  | c :: rest => part.isPrefixOf (c :: rest) || hasPartChars part rest

/-- Whether a text holds another one. -/
def hasPart (part whole : String) : Bool := hasPartChars part.toList whole.toList

/-- Whether a text begins with another one. -/
def beginsWith (part whole : String) : Bool := part.toList.isPrefixOf whole.toList

/-- Whether a text ends in another one. -/
def endsIn (part whole : String) : Bool := part.toList.isSuffixOf whole.toList

end DocQuery.Text
