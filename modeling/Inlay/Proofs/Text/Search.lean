import Inlay.Text.Pieces
import Mathlib.Data.List.Infix

set_option autoImplicit false

namespace Inlay.Text

namespace Pieces

variable {A : Type}

def gaps (pieces : Pieces A) : List Text :=
  pieces.parts.map (·.1) ++ [pieces.tail]

theorem gaps_skip (c : Char) (pieces : Pieces A) :
    (pieces.skip c).gaps = consHead c pieces.gaps := by
  obtain ⟨parts, tail⟩ := pieces
  cases parts <;> rfl

theorem forall_gaps_cons {part : Text × A} {parts : List (Text × A)} {tail : Text}
    {p : Text → Prop} : (∀ gap ∈ gaps ⟨part :: parts, tail⟩, p gap) ↔
      p part.1 ∧ ∀ gap ∈ gaps ⟨parts, tail⟩, p gap := by
  simp [gaps]

end Pieces

namespace Recogniser

variable {A : Type} (form : Recogniser A)

theorem pieces_congr {previous other : Option Char} {text : Text}
    (same : form.read previous text = form.read other text) :
    form.pieces previous text = form.pieces other text := by
  cases text with
  | nil => simp
  | cons c text =>
    cases found : form.read previous (c :: text) with
    | none =>
      rw [found] at same
      rw [form.pieces_cons_of_none found, form.pieces_cons_of_none same.symm]
    | some result =>
      rw [found] at same
      rw [form.pieces_of_read found, form.pieces_of_read same.symm]

theorem exists_gaps_eq_cons (previous : Option Char) (text : Text) :
    ∃ first others, (form.pieces previous text).gaps = first :: others ∧ first <+: text := by
  fun_induction Recogniser.pieces form previous text with
  | case1 => exact ⟨[], [], rfl, List.nil_prefix⟩
  | case2 => exact ⟨[], _, rfl, List.nil_prefix⟩
  | case3 previous c text missing ih =>
    obtain ⟨first, others, split, front⟩ := ih
    refine ⟨c :: first, others, ?_, List.cons_prefix_cons.2 ⟨rfl, front⟩⟩
    rw [Pieces.gaps_skip, split]
    rfl

theorem getLast?_cons_or (c : Char) (text : Text) (previous : Option Char) :
    (c :: text).getLast?.or previous = text.getLast?.or (some c) := by
  rw [List.getLast?_cons]
  cases text.getLast? <;> rfl

theorem values_of_missing {rest : Text} (text : Text) (previous : Option Char)
    (missing : ∀ front back, text = front ++ back → back ≠ [] →
      form.read (front.getLast?.or previous) (back ++ rest) = none) :
    (form.pieces previous (text ++ rest)).values =
      (form.pieces (text.getLast?.or previous) rest).values := by
  induction text generalizing previous with
  | nil => rfl
  | cons c text ih =>
    have here : form.read previous (c :: (text ++ rest)) = none :=
      missing [] (c :: text) rfl (List.cons_ne_nil c text)
    rw [List.cons_append, form.pieces_cons_of_none here, Pieces.values_skip,
      getLast?_cons_or]
    apply ih
    intro front back split nonempty
    rw [← getLast?_cons_or]
    exact missing (c :: front) back (by rw [split, List.cons_append]) nonempty

theorem values_eq_nil_iff_missing {previous : Option Char} {text : Text} :
    (form.pieces previous text).values = [] ↔
      ∀ front back, text = front ++ back → form.read (front.getLast?.or previous) back = none := by
  constructor
  case mpr =>
    intro missing
    have passed := @values_of_missing _ form [] text previous fun front back split _ => by
      rw [List.append_nil]
      exact missing front back split
    rwa [List.append_nil, form.pieces_nil] at passed
  intro nothing
  fun_induction Recogniser.pieces form previous text with
  | case1 =>
    intro front back split
    rw [(List.append_eq_nil_iff.1 split.symm).2, form.read_nil]
  | case2 => simp at nothing
  | case3 previous c text missing ih =>
    rw [Pieces.values_skip] at nothing
    intro front back whole
    cases front with
    | nil =>
      obtain rfl : c :: text = back := whole
      exact missing
    | cons d front =>
      obtain ⟨rfl, later⟩ := List.cons.inj whole
      rw [getLast?_cons_or]
      exact ih nothing front back later

def places : Option Char → Text → List (Option Char × Text)
  | previous, [] => [(previous, [])]
  | previous, c :: text =>
    match found : form.read previous (c :: text) with
    | some (_, rest) =>
      have := form.shorter found
      (previous, c :: text) :: places (lastRead (c :: text) rest) rest
    | none => (previous, c :: text) :: places (some c) text
termination_by _ text => text.length
decreasing_by
  · exact this
  · simp

theorem mem_places_self (previous : Option Char) (text : Text) :
    (previous, text) ∈ form.places previous text := by
  unfold places
  split
  next => simp
  next => split <;> simp

theorem mem_places_cons {previous : Option Char} {c : Char} {text : Text}
    {place : Option Char × Text}
    (missing : form.read previous (c :: text) = none)
    (member : place ∈ form.places (some c) text) : place ∈ form.places previous (c :: text) := by
  rw [places]
  split
  next found => simp [missing] at found
  next => exact List.mem_cons_of_mem _ member

variable {form}
variable {previous reached : Option Char} {text place rest after : Text} {value : A}

theorem mem_places_of_read (found : form.read previous text = some (value, rest))
    (member : (reached, place) ∈ form.places (lastRead text rest) rest) :
    (reached, place) ∈ form.places previous text := by
  cases text with
  | nil => simp at found
  | cons c text =>
    rw [places]
    split
    next other same =>
      rw [found] at same
      cases same
      exact List.mem_cons_of_mem _ member
    next missing => simp [found] at missing

theorem values_suffix_of_mem_places (member : (reached, place) ∈ form.places previous text) :
    (form.pieces reached place).values <:+ (form.pieces previous text).values := by
  fun_induction places form previous text with
  | case1 previous =>
    cases List.mem_singleton.1 member
    exact List.suffix_rfl
  | case2 previous c text value rest found _ ih =>
    rcases List.mem_cons.1 member with same | later
    next => cases same; exact List.suffix_rfl
    next =>
      rw [form.pieces_of_read found, Pieces.values_find]
      exact (ih later).trans (List.suffix_cons _ _)
  | case3 previous c text missing ih =>
    rcases List.mem_cons.1 member with same | later
    next => cases same; exact List.suffix_rfl
    next =>
      rw [form.pieces_cons_of_none missing, Pieces.values_skip]
      exact ih later

theorem eq_append_of_mem_places (member : (reached, place) ∈ form.places previous text) :
    ∃ front, text = front ++ place ∧ reached = front.getLast?.or previous := by
  fun_induction places form previous text with
  | case1 previous =>
    cases List.mem_singleton.1 member
    exact ⟨[], rfl, rfl⟩
  | case2 previous c text value rest found _ ih =>
    rcases List.mem_cons.1 member with same | later
    next => cases same; exact ⟨[], rfl, rfl⟩
    next =>
      obtain ⟨front, split, before⟩ := ih later
      obtain ⟨lexeme, nonempty, whole⟩ := form.advances found
      have last : lastRead (c :: text) rest = lexeme.getLast? := by
        rw [lastRead, whole, List.length_append, Nat.add_sub_cancel, List.take_left]
      refine ⟨lexeme ++ front, by rw [whole, split, List.append_assoc], ?_⟩
      rw [before, last, List.getLast?_append, Option.or_assoc,
        List.getLast?_eq_some_getLast nonempty, Option.some_or]
  | case3 previous c text missing ih =>
    rcases List.mem_cons.1 member with same | later
    next => cases same; exact ⟨[], rfl, rfl⟩
    next =>
      obtain ⟨front, rfl, before⟩ := ih later
      refine ⟨c :: front, rfl, ?_⟩
      rw [before, List.getLast?_cons]
      cases front.getLast? <;> rfl

theorem suffix_of_mem_places (member : (reached, place) ∈ form.places previous text) :
    place <:+ text := by
  obtain ⟨front, rfl, -⟩ := eq_append_of_mem_places member
  exact List.suffix_append front place

-- Whatever a search finds was read somewhere.
theorem exists_read_of_mem_values (member : value ∈ (form.pieces previous text).values) :
    ∃ reached place rest, form.read reached place = some (value, rest) := by
  fun_induction Recogniser.pieces form previous text with
  | case1 => simp [Pieces.values] at member
  | case2 previous c text other rest found _ ih =>
    rw [Pieces.values_find] at member
    rcases List.mem_cons.1 member with rfl | later
    next => exact ⟨_, _, _, found⟩
    next => exact ih later
  | case3 previous c text missing ih =>
    rw [Pieces.values_skip] at member
    exact ih member

theorem pieces_of_values (nothing : (form.pieces previous text).values = []) :
    form.pieces previous text = ⟨[], text⟩ := by
  fun_induction Recogniser.pieces form previous text with
  | case1 => rfl
  | case2 previous c text value rest found _ _ =>
    rw [Pieces.values_find] at nothing
    cases nothing
  | case3 previous c text missing ih =>
    rw [Pieces.values_skip] at nothing
    rw [ih nothing]
    rfl

-- A search whose finds all reach the end of the text finds one thing at most.
theorem values_of_reads_at_end
    (ending : ∀ {reached place value rest}, (reached, place) ∈ form.places previous text →
      form.read reached place = some (value, rest) → rest = []) :
    ∃ lost : Option A, (form.pieces previous text).values = lost.toList ∧
      ∀ value ∈ lost, ∃ reached place, (reached, place) ∈ form.places previous text ∧
        form.read reached place = some (value, []) := by
  fun_induction Recogniser.pieces form previous text with
  | case1 => exact ⟨none, rfl, by simp⟩
  | case2 previous c text value rest found _ _ =>
    have here := form.mem_places_self previous (c :: text)
    obtain rfl := ending here found
    refine ⟨some value, by rw [Pieces.values_find, form.pieces_nil]; rfl, ?_⟩
    rintro _ ⟨⟩
    exact ⟨previous, c :: text, here, found⟩
  | case3 previous c text missing ih =>
    obtain ⟨lost, single, read⟩ := ih fun member => ending (form.mem_places_cons missing member)
    refine ⟨lost, by rw [Pieces.values_skip, single], ?_⟩
    intro value member
    obtain ⟨reached, place, there, found⟩ := read value member
    exact ⟨reached, place, form.mem_places_cons missing there, found⟩

theorem lastRead_append {text rest : Text} (shorter : rest.length ≤ text.length) (after : Text) :
    lastRead (text ++ after) (rest ++ after) = lastRead text rest := by
  have taken : (text ++ after).length - (rest ++ after).length = text.length - rest.length := by
    simp only [List.length_append]
    omega
  rw [lastRead, lastRead, taken, List.take_append_of_le_length (by omega)]

-- What is found in a text is found when the text goes on, but for one last find of a kind that
-- reading can lose only at the end of the text.
theorem values_append {Exempt : Option Char → Text → A → Prop}
    (stable : ∀ {previous text value rest}, form.read previous text = some (value, rest) →
      form.read previous (text ++ after) = some (value, rest ++ after) ∨
        rest = [] ∧ Exempt previous text value)
    (overrun : ∀ {previous reached text place value rest}, form.read previous text = none →
      form.read previous (text ++ after) ≠ none → (reached, place) ∈ form.places previous text →
      form.read reached place = some (value, rest) → rest = [] ∧ Exempt reached place value)
    (previous : Option Char) (text : Text) :
    ∃ kept, ∃ lost : Option A, (form.pieces previous text).values = kept ++ lost.toList ∧
      kept <+: (form.pieces previous (text ++ after)).values ∧
      ∀ value ∈ lost, ∃ reached place, (reached, place) ∈ form.places previous text ∧
        Exempt reached place value := by
  fun_induction Recogniser.pieces form previous text with
  | case1 => exact ⟨[], none, rfl, List.nil_prefix, by simp⟩
  | case2 previous c text value rest read _ ih =>
    -- A find stays, or it was made at the end of the text and is the last.
    rcases stable read with stays | ⟨rfl, exempt⟩
    next =>
      have shorter := Nat.le_of_lt (form.shorter read)
      obtain ⟨kept, lost, split, front, only⟩ := ih
      refine ⟨value :: kept, lost, by rw [Pieces.values_find, split, List.cons_append], ?_, ?_⟩
      next =>
        rw [form.pieces_of_read stays, Pieces.values_find, lastRead_append shorter,
          List.prefix_cons_inj]
        exact front
      next =>
        intro value member
        obtain ⟨reached, place, there, exempt⟩ := only value member
        exact ⟨reached, place, mem_places_of_read read there, exempt⟩
    next =>
      refine ⟨[], some value, by rw [Pieces.values_find, form.pieces_nil]; rfl, List.nil_prefix, ?_⟩
      rintro _ ⟨⟩
      exact ⟨previous, c :: text, form.mem_places_self _ _, exempt⟩
  | case3 previous c text missing ih =>
    cases longer : form.read previous (c :: text ++ after) with
    | none =>
      obtain ⟨kept, lost, split, front, only⟩ := ih
      rw [List.cons_append] at longer
      refine ⟨kept, lost, by rw [Pieces.values_skip, split], ?_, ?_⟩
      next =>
        rw [List.cons_append, form.pieces_cons_of_none longer, Pieces.values_skip]
        exact front
      next =>
        intro value member
        obtain ⟨reached, place, there, exempt⟩ := only value member
        exact ⟨reached, place, form.mem_places_cons missing there, exempt⟩
    | some result =>
      -- The find in the longer text ends behind this one, which holds one exempt find at most.
      have onward : form.read previous (c :: text ++ after) ≠ none := by rw [longer]; simp
      obtain ⟨lost, single, only⟩ := values_of_reads_at_end fun member read =>
        (overrun missing onward member read).1
      rw [form.pieces_cons_of_none missing] at single
      refine ⟨[], lost, single, List.nil_prefix, ?_⟩
      intro value member
      obtain ⟨reached, place, there, read⟩ := only value member
      exact ⟨reached, place, there, (overrun missing onward there read).2⟩

end Recogniser
end Inlay.Text
