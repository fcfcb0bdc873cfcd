import DocQuery.Error

/-!
# Cursors

A cursor wraps the continuation that a store hands out, so that callers can pass it back without looking into it. It is the
continuation's UTF-8 in base 64, and reading it accepts nothing else.
-/

namespace DocQuery.Cursor

/-- The cursor of a continuation. -/
def encode (token : String) : String := String.ofList (Text.Base64.encode Text.Base64.urlSafe token.toUTF8.toList)

/-- The continuation of a cursor. -/
def decode (cursor : String) : Except Error String :=
  if cursor.isEmpty then .error (.invalidCursor .empty)
  else
    match Text.Base64.decode Text.Base64.urlSafe cursor.toList with
    | none => .error (.invalidCursor .notBase64)
    | some bytes =>
      match String.fromUTF8? ⟨bytes.toArray⟩ with
      | some token => .ok token
      | none => .error (.invalidCursor .notUtf8)

end DocQuery.Cursor
