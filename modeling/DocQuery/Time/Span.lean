import DocQuery.Time.Instant

/-!
# Spans of time

Time limits are spans of whole milliseconds. A span is shown in seconds from one second on, in milliseconds below, and the empty
span in nanoseconds.
-/

namespace DocQuery

/-- A span of whole milliseconds. -/
structure Span where
  /-- How many milliseconds. -/
  millis : Nat
  deriving DecidableEq, Repr

/-- A fraction's digits without the zeros at their end. -/
def Span.fraction (ds : List Char) : List Char := (ds.reverse.dropWhile (· = '0')).reverse

/-- The text of a span. -/
def Span.text (s : Span) : String :=
  if s.millis = 0 then "0ns"
  else if s.millis < 1000 then String.ofList (Decimal.naturalText s.millis) ++ "ms"
  else
    let rest := Span.fraction (Instant.padded 3 (s.millis % 1000))
    String.ofList (Decimal.naturalText (s.millis / 1000) ++ (if rest.isEmpty then [] else '.' :: rest)) ++ "s"

end DocQuery
