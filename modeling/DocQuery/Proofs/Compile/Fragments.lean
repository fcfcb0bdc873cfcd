import DocQuery.Proofs.Compile.Layout
import Mathlib.Data.Set.List

/-!
# Fragments are canonical

A fragment can be looked at as a list of segments, each a stretch of text or a slot, and every way of building fragments is one of
building such lists: text that meets text makes it longer, and no text is no segment. So in a list that was built no text is empty
and no two texts meet, which is why a fragment is determined by what it reads as when its slots are filled in. Main statement: two
fragments are equal exactly if they always read the same (`fragments_canonical`).
-/

namespace DocQuery

/-! ## Segments -/

/-- A stretch of text, or a slot. -/
inductive Segment where
  | text (s : String)
  | slot (i : Nat)
  deriving DecidableEq, Repr

namespace Segment

/-- Whether a segment is text. -/
def isText : Segment → Bool
  | .text _ => true
  | .slot _ => false

/-- A segment with every slot filled in. -/
def render (fill : Nat → String) : Segment → String
  | .text s => s
  | .slot i => fill i

/-- Text after some segments: it lengthens a text that is the last of them, and no text is no segment. -/
def pushText (ps : List Segment) (s : String) : List Segment :=
  if s = "" then ps
  else
    match ps.getLast? with
    | some (.text t) => ps.dropLast ++ [.text (t ++ s)]
    | _ => ps ++ [.text s]

/-- One more segment after some segments. -/
def push (ps : List Segment) : Segment → List Segment
  | .text s => pushText ps s
  | .slot i => ps ++ [.slot i]

/-- Segments after others, one by one. -/
def append (ps qs : List Segment) : List Segment := qs.foldl push ps

/-- Lists of segments in order, with a separator between them. -/
def join (separator : String) : List (List Segment) → List Segment
  | [] => []
  | ps :: rest => rest.foldl (fun joined qs => append (pushText joined separator) qs) (append [] ps)

/-- Segments none of which is an empty text, and no two of which are texts that meet. -/
structure Normal (ps : List Segment) : Prop where
  filled : Segment.text "" ∉ ps
  apart : ps.IsChain fun p q => ¬(p.isText = true ∧ q.isText = true)

end Segment

namespace Fragment

/-- The segments of slots, each with the text after it. -/
def slotSegments (slots : List (Nat × String)) : List Segment := slots.flatMap fun e => .slot e.1 :: Segment.pushText [] e.2

/-- The segments of a fragment. -/
def segments (f : Fragment) : List Segment := Segment.pushText [] f.head ++ slotSegments f.tail

end Fragment

namespace Segment

variable {ps qs : List Segment} {s t : String} {i : Nat}

@[simp] theorem pushText_empty (ps : List Segment) : pushText ps "" = ps := if_pos rfl

theorem pushText_nil (hs : s ≠ "") : pushText [] s = [.text s] := if_neg hs

/-- Text after text makes it longer. -/
theorem pushText_text (ps : List Segment) (t s : String) : pushText (ps ++ [.text t]) s = ps ++ [.text (t ++ s)] := by
  by_cases hs : s = ""
  · simp [hs]
  · simp [pushText, hs]

/-- Text after a slot is a segment of its own. -/
theorem pushText_slot (ps : List Segment) (i : Nat) (s : String) : pushText (ps ++ [.slot i]) s = ps ++ .slot i :: pushText [] s := by
  by_cases hs : s = "" <;> simp [pushText, hs]

/-- Text after a slot does not reach what stands before it. -/
theorem pushText_behind (ps : List Segment) (i : Nat) (qs : List Segment) (s : String) :
    pushText (ps ++ .slot i :: qs) s = ps ++ .slot i :: pushText qs s := by
  rcases List.eq_nil_or_concat qs with rfl | ⟨rs, r, rfl⟩
  · exact pushText_slot ps i s
  · have hlast : ps ++ .slot i :: (rs ++ [r]) = (ps ++ .slot i :: rs) ++ [r] := by simp
    rw [List.concat_eq_append, hlast]
    cases r with
    | text t => rw [pushText_text, pushText_text, List.append_assoc, List.cons_append]
    | slot j => rw [pushText_slot, pushText_slot, List.append_assoc, List.cons_append]

/-- Texts one after the other are one text. -/
theorem pushText_pushText (ps : List Segment) (s t : String) : pushText (pushText ps s) t = pushText ps (s ++ t) := by
  by_cases hs : s = ""
  · simp [hs]
  by_cases ht : t = ""
  · simp [ht]
  have hst : s ++ t ≠ "" := by simp [hs]
  rcases List.eq_nil_or_concat ps with rfl | ⟨qs, q, rfl⟩
  · rw [pushText_nil hs, pushText_nil hst]
    exact pushText_text [] s t
  · cases q with
    | text u => simp only [List.concat_eq_append, pushText_text, String.append_assoc]
    | slot i =>
      simp only [List.concat_eq_append, pushText_behind, pushText_nil hs, pushText_nil hst]
      exact congrArg (qs ++ .slot i :: ·) (pushText_text [] s t)

theorem append_append (ps qs rs : List Segment) : append ps (qs ++ rs) = append (append ps qs) rs := List.foldl_append

/-- The segment of a text, if it is one, is text. -/
theorem append_pushText (ps : List Segment) (s : String) : append ps (pushText [] s) = pushText ps s := by
  by_cases hs : s = ""
  · simp [hs, append]
  · rw [pushText_nil hs]
    rfl

/-- Segments after a slot do not reach what stands before it. -/
theorem append_behind (ps : List Segment) (i : Nat) (qs rs : List Segment) :
    append (ps ++ .slot i :: qs) rs = ps ++ .slot i :: append qs rs := by
  induction rs generalizing qs with
  | nil => rfl
  | cons r rs ih =>
    cases r with
    | text s =>
      have hpush : push (ps ++ .slot i :: qs) (.text s) = ps ++ .slot i :: push qs (.text s) := pushText_behind ps i qs s
      rw [append, List.foldl_cons, hpush]
      exact ih _
    | slot j =>
      have hpush : push (ps ++ .slot i :: qs) (.slot j) = ps ++ .slot i :: push qs (.slot j) := by simp [push]
      rw [append, List.foldl_cons, hpush]
      exact ih _

/-- Slots stay as they are wherever they are put. -/
theorem append_slotSegments (ps : List Segment) (slots : List (Nat × String)) :
    append ps (Fragment.slotSegments slots) = ps ++ Fragment.slotSegments slots := by
  induction slots generalizing ps with
  | nil => exact (List.append_nil ps).symm
  | cons e slots ih =>
    obtain ⟨i, s⟩ := e
    have hslot : append ps [.slot i] = ps ++ [.slot i] := rfl
    have htext : append (ps ++ [.slot i]) (pushText [] s) = ps ++ .slot i :: pushText [] s := by
      rw [append_pushText, pushText_behind]
    have hcons : Fragment.slotSegments ((i, s) :: slots) = ([.slot i] ++ pushText [] s) ++ Fragment.slotSegments slots := by
      simp [Fragment.slotSegments]
    rw [hcons, append_append, append_append, hslot, htext, ih]
    simp

end Segment

/-! ## The segments of a fragment -/

namespace Fragment

open Segment (Normal)

theorem segments_cons (s : String) (i : Nat) (t : String) (slots : List (Nat × String)) :
    segments ⟨s, (i, t) :: slots⟩ = Segment.pushText [] s ++ .slot i :: segments ⟨t, slots⟩ := by
  simp [segments, slotSegments]

/-- What is put after a text and some slots is put after their segments. -/
theorem segments_glue (s : String) (slots : List (Nat × String)) (g : Fragment) :
    (glue s slots g).segments = Segment.append (segments ⟨s, slots⟩) g.segments := by
  induction slots generalizing s with
  | nil =>
    simp only [glue, segments, slotSegments, List.flatMap_nil, List.append_nil]
    rw [Segment.append_append, Segment.append_pushText, Segment.pushText_pushText]
    exact (Segment.append_slotSegments _ g.tail).symm
  | cons e slots ih =>
    obtain ⟨i, t⟩ := e
    rw [glue, segments_cons, segments_cons, Segment.append_behind, ← ih t]

/-- The segments of a fragment after another. -/
theorem segments_append (f g : Fragment) : (f ++ g).segments = Segment.append f.segments g.segments := segments_glue f.head f.tail g

theorem segments_text (s : String) : (text s).segments = Segment.pushText [] s := List.append_nil _

/-- The segments of a fragment with text after it. -/
theorem segments_pushText (f : Fragment) (s : String) : (f.pushText s).segments = Segment.pushText f.segments s := by
  rw [pushText, segments_append, segments_text, Segment.append_pushText]

/-- The segments of a fragment with a slot after it. -/
theorem segments_pushSlot (f : Fragment) (i : Nat) : (f.pushSlot i).segments = f.segments ++ [.slot i] := by
  rw [pushSlot, segments_append]
  rfl

/-- The segments of a fragment are normal. -/
theorem normal_segments (f : Fragment) : Normal f.segments := by
  obtain ⟨s, slots⟩ := f
  have htext : ∀ s : String, Segment.text "" ∉ Segment.pushText [] s := by
    intro s
    by_cases hs : s = ""
    · simp [hs]
    · simp [Segment.pushText_nil hs, Ne.symm hs]
  induction slots generalizing s with
  | nil =>
    refine ⟨by simpa [segments, slotSegments] using htext s, ?_⟩
    by_cases hs : s = "" <;> simp [segments, slotSegments, Segment.pushText, hs]
  | cons e slots ih =>
    obtain ⟨i, t⟩ := e
    obtain ⟨hfilled, hapart⟩ := ih t
    rw [segments_cons]
    refine ⟨by simp [htext s, hfilled], ?_⟩
    have hslot : (Segment.slot i :: segments ⟨t, slots⟩).IsChain fun p q => ¬(p.isText = true ∧ q.isText = true) :=
      List.isChain_cons.2 ⟨by simp [Segment.isText], hapart⟩
    by_cases hs : s = ""
    · simpa [hs] using hslot
    · rw [Segment.pushText_nil hs]
      exact List.isChain_cons_cons.2 ⟨by simp [Segment.isText], hslot⟩

/-- A fragment reads as its segments do, one after the other. -/
theorem render_segments (f : Fragment) (fill : Nat → String) : f.render fill = String.join (f.segments.map (·.render fill)) := by
  obtain ⟨s, slots⟩ := f
  have htext : ∀ s : String, String.join ((Segment.pushText [] s).map (·.render fill)) = s := by
    intro s
    by_cases hs : s = ""
    · simp [hs]
    · simp [Segment.pushText_nil hs, Segment.render]
  induction slots generalizing s with
  | nil => simp [render, renderTail, segments, slotSegments, htext]
  | cons e slots ih =>
    obtain ⟨i, t⟩ := e
    have hrest := ih t
    simp only [render] at hrest
    rw [segments_cons, List.map_append, List.map_cons, String.join_append, String.join_cons, htext, ← hrest]
    rfl

/-! ## Equal renderings -/

/-- What stands before a mark that may be either of two characters is determined. -/
theorem eq_of_marks {a b : Char} (hab : a ≠ b) {xs ys as bs as' bs' : List Char} (ha : xs ++ a :: as = ys ++ a :: as')
    (hb : xs ++ b :: bs = ys ++ b :: bs') : xs = ys := by
  induction xs generalizing ys with
  | nil =>
    cases ys with
    | nil => rfl
    | cons y ys => exact absurd ((List.cons.inj ha).1.trans (List.cons.inj hb).1.symm) hab
  | cons x xs ih =>
    cases ys with
    | nil => exact absurd ((List.cons.inj ha).1.symm.trans (List.cons.inj hb).1) hab
    | cons y ys =>
      obtain ⟨rfl, htail⟩ := List.cons.inj ha
      rw [ih htail (List.cons.inj hb).2]

theorem toList_render_cons (s : String) (i : Nat) (t : String) (slots : List (Nat × String)) (fill : Nat → String) :
    (render ⟨s, (i, t) :: slots⟩ fill).toList = s.toList ++ ((fill i).toList ++ (render ⟨t, slots⟩ fill).toList) := by
  simp [render, renderTail]

/-- A fragment with a slot does not read the same whatever the slot is filled with. -/
theorem exists_render_ne (s t u : String) (i : Nat) (slots : List (Nat × String)) :
    ∃ fill, render ⟨s, (i, t) :: slots⟩ fill ≠ u := by
  by_contra hsame
  push Not at hsame
  have ha := congrArg String.toList (hsame fun _ => "a")
  have hb := congrArg String.toList (hsame fun _ => "b")
  rw [toList_render_cons] at ha hb
  have hab := List.append_cancel_left (ha.trans hb.symm)
  simp at hab

/-- Fragments that read the same, whatever the slots are filled with, are the same. -/
theorem eq_of_render_eq {f g : Fragment} (h : ∀ fill, f.render fill = g.render fill) : f = g := by
  obtain ⟨s, slots⟩ := f
  obtain ⟨t, others⟩ := g
  induction slots generalizing s t others with
  | nil =>
    cases others with
    | nil =>
      have hhead : s = t := by simpa [render, renderTail] using h fun _ => ""
      rw [hhead]
    | cons e others =>
      obtain ⟨fill, hne⟩ := exists_render_ne t e.2 s e.1 others
      exact absurd ((h fill).symm.trans String.append_empty) hne
  | cons e slots ih =>
    obtain ⟨i, u⟩ := e
    cases others with
    | nil =>
      obtain ⟨fill, hne⟩ := exists_render_ne s u t i slots
      exact absurd ((h fill).trans String.append_empty) hne
    | cons e others =>
      obtain ⟨j, v⟩ := e
      have hchars : ∀ fill : Nat → String, s.toList ++ ((fill i).toList ++ (render ⟨u, slots⟩ fill).toList) =
          t.toList ++ ((fill j).toList ++ (render ⟨v, others⟩ fill).toList) := by
        intro fill
        rw [← toList_render_cons, ← toList_render_cons, h fill]
      -- filled with one character or another, the first slot shows where the text before it ends
      have hhead : s = t := by
        have hab : 'a' ≠ 'b' := by decide
        exact String.toList_injective (eq_of_marks hab (hchars fun _ => "a") (hchars fun _ => "b"))
      subst hhead
      have hrest : ∀ fill : Nat → String, (fill i).toList ++ (render ⟨u, slots⟩ fill).toList =
          (fill j).toList ++ (render ⟨v, others⟩ fill).toList := fun fill => List.append_cancel_left (hchars fill)
      have hslot : i = j := by
        by_contra hne
        have hfirst := hrest fun k => if k = i then "a" else "b"
        simp [Ne.symm hne] at hfirst
      subst hslot
      have htail : ∀ fill, render ⟨u, slots⟩ fill = render ⟨v, others⟩ fill := fun fill =>
        String.toList_injective (List.append_cancel_left (hrest fill))
      obtain ⟨rfl, rfl⟩ := Fragment.mk.inj (ih u v others htail)
      rfl

/-! ## The laws of fragments -/

/-- To join fragments is to put the separator and the next one after those before, one by one. -/
theorem join_cons (separator : String) (f : Fragment) (fs : List Fragment) :
    join separator (f :: fs) = fs.foldl (fun joined g => joined.pushText separator ++ g) f := by
  have hbehind : ∀ (fs : List Fragment) (k g : Fragment), fs.foldl (fun joined g => joined.pushText separator ++ g) (k ++ g) =
      k ++ fs.foldl (fun joined g => joined.pushText separator ++ g) g := by
    intro fs
    induction fs with
    | nil => intro k g; rfl
    | cons g' fs ih =>
      intro k g
      rw [List.foldl_cons, List.foldl_cons, ← ih, pushText, pushText, append_assoc, append_assoc, append_assoc]
  induction fs generalizing f with
  | nil => rfl
  | cons g fs ih =>
    have hjoin : join separator (f :: g :: fs) = f ++ (text separator ++ join separator (g :: fs)) := rfl
    rw [hjoin, ih, List.foldl_cons, hbehind, pushText, append_assoc]

/-- The segments of fragments with a separator between them. -/
theorem segments_join (separator : String) (fs : List Fragment) :
    (join separator fs).segments = Segment.join separator (fs.map segments) := by
  cases fs with
  | nil => rfl
  | cons f fs =>
    have hfirst : Segment.append [] f.segments = f.segments := by
      rw [show ([] : List Segment) = empty.segments from rfl, ← segments_append, empty_append]
    rw [join_cons, List.map_cons, Segment.join, hfirst]
    induction fs generalizing f with
    | nil => rfl
    | cons g fs ih =>
      rw [List.foldl_cons, List.map_cons, List.foldl_cons, ← segments_pushText, ← segments_append]
      refine ih _ ?_
      rw [show ([] : List Segment) = empty.segments from rfl, ← segments_append, empty_append]

/-- Joined fragments read as texts with the separator between them. -/
theorem render_join_intercalate (separator : String) (fs : List Fragment) (fill : Nat → String) :
    (join separator fs).render fill = String.intercalate separator (fs.map (·.render fill)) := by
  induction fs with
  | nil => rfl
  | cons f fs ih =>
    cases fs with
    | nil => simp [join]
    | cons g fs =>
      have hjoin : join separator (f :: g :: fs) = f ++ (text separator ++ join separator (g :: fs)) := rfl
      rw [hjoin, render_append, render_append, render_text, ih]
      simp [String.append_assoc]

end Fragment

/-! ## Building -/

/-- Lists of segments that come about by any steps that build fragments. -/
inductive Segment.Built : List Segment → Prop
  | text (s : String) : Built (pushText [] s)
  | pushText {ps : List Segment} (s : String) : Built ps → Built (pushText ps s)
  | pushSlot {ps : List Segment} (i : Nat) : Built ps → Built (ps ++ [.slot i])
  | append {ps qs : List Segment} : Built ps → Built qs → Built (append ps qs)
  | join {pss : List (List Segment)} (separator : String) : (∀ ps ∈ pss, Built ps) → Built (join separator pss)

/-- What is built are the segments of fragments. -/
theorem Segment.built_iff {ps : List Segment} : Built ps ↔ ∃ f : Fragment, f.segments = ps := by
  constructor
  · intro h
    induction h with
    | text s => exact ⟨.text s, Fragment.segments_text s⟩
    | pushText s _ ih =>
      obtain ⟨f, rfl⟩ := ih
      exact ⟨f.pushText s, f.segments_pushText s⟩
    | pushSlot i _ ih =>
      obtain ⟨f, rfl⟩ := ih
      exact ⟨f.pushSlot i, f.segments_pushSlot i⟩
    | append _ _ ihf ihg =>
      obtain ⟨f, rfl⟩ := ihf
      obtain ⟨g, rfl⟩ := ihg
      exact ⟨f ++ g, f.segments_append g⟩
    | @join pss separator _ ih =>
      obtain ⟨fs, rfl⟩ : ∃ fs : List Fragment, fs.map Fragment.segments = pss := by
        have hpss : pss ∈ Set.range (List.map Fragment.segments) := Set.range_list_map Fragment.segments ▸ ih
        exact hpss
      exact ⟨.join separator fs, Fragment.segments_join separator fs⟩
  · rintro ⟨⟨s, slots⟩, rfl⟩
    induction slots generalizing s with
    | nil => exact (Fragment.segments_text s).symm ▸ .text s
    | cons e slots ih =>
      obtain ⟨i, t⟩ := e
      have hsplit : (⟨s, (i, t) :: slots⟩ : Fragment) = (Fragment.text s).pushSlot i ++ ⟨t, slots⟩ := by
        refine Fragment.eq_of_render_eq fun fill => String.toList_injective ?_
        rw [Fragment.toList_render_cons, Fragment.render_append, Fragment.pushSlot, Fragment.render_append,
          Fragment.render_text, Fragment.render_slot]
        simp
      rw [hsplit, Fragment.segments_append, Fragment.segments_pushSlot, Fragment.segments_text]
      exact ((Built.text s).pushSlot i).append (ih t)

namespace Fragment

/-- A fragment is empty if it reads as nothing, whatever its slots are filled with. -/
theorem isEmpty_iff (f : Fragment) : f.isEmpty = true ↔ ∀ fill, f.render fill = "" := by
  constructor
  · intro h fill
    simp only [isEmpty, Bool.and_eq_true, String.isEmpty_iff, List.isEmpty_iff] at h
    simp [render, renderTail, h.1, h.2]
  · intro h
    have hempty : f = empty := eq_of_render_eq fun fill => (h fill).trans String.append_empty.symm
    rw [hempty]
    rfl

/-- Fragments are canonical. What comes about by building are the segments of fragments, none of which is an empty text, and no two of
which are texts that meet; a fragment reads as its segments do, and to put fragments one after another, or to join them, is to do so
with their segments. Two fragments are equal, and have the same segments, exactly if they read the same whatever the slots are filled
with, and a fragment is empty exactly if it always reads as nothing. One fragment after another reads as the one text after the other,
joined fragments read as texts with the separator between them, and to put one fragment after another is associative, with the empty
fragment as its unit. -/
theorem fragments_canonical :
    (∀ ps, Segment.Built ps ↔ ∃ f : Fragment, f.segments = ps) ∧
      (∀ f : Fragment, Segment.Normal f.segments ∧ (∀ fill, f.render fill = String.join (f.segments.map (·.render fill))) ∧
        (f.isEmpty = true ↔ ∀ fill, f.render fill = "")) ∧
      (∀ f g : Fragment, ((f == g) = true ↔ ∀ fill, f.render fill = g.render fill) ∧
        (f.segments = g.segments ↔ ∀ fill, f.render fill = g.render fill)) ∧
      (∀ f g : Fragment, (f ++ g).segments = Segment.append f.segments g.segments ∧
        ∀ fill, (f ++ g).render fill = f.render fill ++ g.render fill) ∧
      (∀ (separator : String) (fs : List Fragment), (join separator fs).segments = Segment.join separator (fs.map segments) ∧
        ∀ fill, (join separator fs).render fill = String.intercalate separator (fs.map (·.render fill))) ∧
      ∀ f g k : Fragment, f ++ g ++ k = f ++ (g ++ k) ∧ empty ++ f = f ∧ f ++ empty = f := by
  refine ⟨fun ps => Segment.built_iff, fun f => ⟨normal_segments f, render_segments f, isEmpty_iff f⟩,
    fun f g => ⟨?equal, ?segments⟩, fun f g => ⟨segments_append f g, fun fill => render_append fill f g⟩,
    fun separator fs => ⟨segments_join separator fs, render_join_intercalate separator fs⟩,
    fun f g k => ⟨append_assoc f g k, empty_append f, append_empty f⟩⟩
  case equal =>
    rw [beq_iff_eq]
    exact ⟨fun h fill => h ▸ rfl, eq_of_render_eq⟩
  case segments =>
    constructor
    · intro h fill
      rw [render_segments, render_segments, h]
    · intro h
      rw [eq_of_render_eq h]

end Fragment

end DocQuery
