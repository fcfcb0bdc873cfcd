/-!
# Text with slots

A compiled expression is text with numbered slots in it, kept apart so that it can be rendered with placeholders for execution and
with literals for explanation. A fragment is its text up to the first slot, and then each slot with the text up to the next one:
stretches of text that meet are one stretch, so two fragments that read the same are the same.
-/

namespace DocQuery

/-- Text with numbered slots. -/
structure Fragment where
  /-- The text up to the first slot. -/
  head : String
  /-- The slots in order, each with the text after it. -/
  tail : List (Nat × String)
  deriving DecidableEq, Repr, Inhabited

namespace Fragment

/-- Nothing. -/
def empty : Fragment := ⟨"", []⟩

/-- Plain text. -/
def text (s : String) : Fragment := ⟨s, []⟩

/-- A single slot. -/
def slot (i : Nat) : Fragment := ⟨"", [(i, "")]⟩

/-- A fragment after a text and some slots: its head joins the last stretch of text. -/
def glue (s : String) (slots : List (Nat × String)) (g : Fragment) : Fragment :=
  match slots with
  | [] => ⟨s ++ g.head, g.tail⟩
  | (i, t) :: rest =>
    let after := glue t rest g
    ⟨s, (i, after.head) :: after.tail⟩

/-- One fragment after the other. -/
def append (f g : Fragment) : Fragment := glue f.head f.tail g

instance : Append Fragment := ⟨append⟩

/-- The fragment with text after it. -/
def pushText (f : Fragment) (s : String) : Fragment := f ++ text s

/-- The fragment with a slot after it. -/
def pushSlot (f : Fragment) (i : Nat) : Fragment := f ++ slot i

/-- Whether there is neither text nor slot. -/
def isEmpty (f : Fragment) : Bool := f.head.isEmpty && f.tail.isEmpty

/-- The slots in order of appearance. -/
def slots (f : Fragment) : List Nat := f.tail.map (·.1)

/-- The text of slots, each filled in, with the text after it. -/
def renderTail (fill : Nat → String) : List (Nat × String) → String
  | [] => ""
  | (i, t) :: rest => fill i ++ (t ++ renderTail fill rest)

/-- The text with every slot filled in. -/
def render (f : Fragment) (fill : Nat → String) : String := f.head ++ renderTail fill f.tail

/-- Fragments in order, with a separator between them. -/
def join (separator : String) : List Fragment → Fragment
  | [] => empty
  | [f] => f
  | f :: rest => f ++ (text separator ++ join separator rest)

end Fragment

end DocQuery
