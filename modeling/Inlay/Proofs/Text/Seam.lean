import Inlay.Text.Pieces
import Mathlib.Data.List.Forall2
import Mathlib.Data.List.Infix

set_option autoImplicit false

namespace Inlay.Text

def InOrder : List Text → Text → Prop
  | [], _ => True
  | mark :: marks, text => ∃ front back, text = front ++ (mark ++ back) ∧ InOrder marks back

def JoinsNo (mark : Text) : List Text → Prop
  | [] => True
  | part :: rest =>
    (∀ ending ∈ part.tails, ending ≠ [] → mark <+: ending ++ rest.flatten → mark <+: ending) ∧
      JoinsNo mark rest

instance decidableJoinsNo (mark : Text) : (parts : List Text) → Decidable (JoinsNo mark parts)
  | [] => inferInstanceAs (Decidable True)
  | part :: rest =>
    have := decidableJoinsNo mark rest
    inferInstanceAs (Decidable ((∀ ending ∈ part.tails, ending ≠ [] →
      mark <+: ending ++ rest.flatten → mark <+: ending) ∧ JoinsNo mark rest))

variable {mark : Text} {marks first second : List Text} {text part rest front back : Text}
variable {parts others : List Text}

theorem suffix_behind (front mark back : Text) : back <:+ front ++ (mark ++ back) :=
  ⟨front ++ mark, by simp⟩

namespace InOrder

theorem behind (front : Text) (order : InOrder marks text) : InOrder marks (front ++ text) := by
  cases marks with
  | nil => trivial
  | cons mark marks =>
    obtain ⟨before, back, rfl, later⟩ := order
    exact ⟨front ++ before, back, by simp, later⟩

theorem append (here : InOrder first text) (there : InOrder second rest) :
    InOrder (first ++ second) (text ++ rest) := by
  induction first generalizing text with
  | nil => exact there.behind text
  | cons mark first ih =>
    obtain ⟨front, back, rfl, later⟩ := here
    exact ⟨front, back ++ rest, by simp, ih later⟩

theorem before (order : InOrder marks text) (back : Text) : InOrder marks (text ++ back) := by
  have nothing : InOrder [] back := trivial
  simpa using order.append nothing

theorem of_isInfix (order : InOrder marks part) (inside : part <:+: text) : InOrder marks text := by
  obtain ⟨front, back, rfl⟩ := inside
  exact (order.behind front).before back

theorem isInfix_of_mem (order : InOrder marks text) (member : mark ∈ marks) : mark <:+: text := by
  induction marks generalizing text with
  | nil => cases member
  | cons first marks ih =>
    obtain ⟨front, back, rfl, later⟩ := order
    rcases List.mem_cons.1 member with rfl | member
    next => exact ⟨front, back, by simp⟩
    next => exact (ih later member).trans (suffix_behind front first back).isInfix

end InOrder

theorem inOrder_singleton_iff : InOrder [mark] text ↔ mark <:+: text := by
  constructor
  next => exact fun order => order.isInfix_of_mem List.mem_cons_self
  next =>
    rintro ⟨front, back, rfl⟩
    exact ⟨front, back, by simp, trivial⟩

theorem InOrder.head_split
    (kept : ∀ ending, ending <:+ part → ending ≠ [] → mark <+: ending ++ rest → mark <+: ending)
    (order : InOrder (mark :: marks) (part ++ rest)) :
    (∃ front inner, part = front ++ (mark ++ inner) ∧ InOrder marks (inner ++ rest)) ∨
      InOrder (mark :: marks) rest := by
  obtain ⟨front, back, same, later⟩ := order
  rcases List.append_eq_append_iff.1 same with ⟨more, -, behind⟩ | ⟨ending, whole, behind⟩
  next => exact .inr ⟨more, back, behind, later⟩
  next =>
    by_cases empty : ending = []
    next => exact .inr ⟨[], back, by simpa [empty] using behind.symm, later⟩
    next =>
      have begun : mark <+: ending ++ rest := ⟨back, behind⟩
      obtain ⟨inner, rfl⟩ := kept ending (whole ▸ List.suffix_append front ending) empty begun
      rw [List.append_assoc] at behind
      refine .inl ⟨front, inner, whole, ?_⟩
      rwa [← List.append_cancel_left behind]

theorem InOrder.split
    (kept : ∀ mark ∈ marks, ∀ ending, ending <:+ part → ending ≠ [] →
      mark <+: ending ++ rest → mark <+: ending)
    (order : InOrder marks (part ++ rest)) :
    ∃ first second, marks = first ++ second ∧ InOrder first part ∧ InOrder second rest := by
  induction marks generalizing part with
  | nil => exact ⟨[], [], rfl, trivial, trivial⟩
  | cons mark marks ih =>
    obtain ⟨here, later⟩ := List.forall_mem_cons.1 kept
    rcases order.head_split here with ⟨front, inner, rfl, onward⟩ | onward
    next =>
      have shorter := suffix_behind front mark inner
      obtain ⟨first, second, rfl, inside, behind⟩ :=
        ih (fun mark member ending suffix => later mark member ending (suffix.trans shorter)) onward
      exact ⟨mark :: first, second, rfl, ⟨front, inner, rfl, inside⟩, behind⟩
    next => exact ⟨[], mark :: marks, rfl, trivial, onward⟩

namespace JoinsNo

theorem kept (joins : JoinsNo mark (part :: parts)) (ending : Text) (suffix : ending <:+ part)
    (nonempty : ending ≠ []) (begun : mark <+: ending ++ parts.flatten) : mark <+: ending :=
  joins.1 ending ((List.mem_tails _ _).2 suffix) nonempty begun

theorem singleton (mark text : Text) : JoinsNo mark [text] := by
  simp [JoinsNo]

-- A character cannot begin in one text and end in another.
theorem of_char (c : Char) (parts : List Text) : JoinsNo [c] parts := by
  induction parts with
  | nil => trivial
  | cons part parts ih =>
    refine ⟨?_, ih⟩
    intro ending _ nonempty begun
    obtain ⟨d, ending, rfl⟩ := List.exists_cons_of_ne_nil nonempty
    simpa [List.cons_prefix_cons] using begun

theorem of_append_cons (joins : JoinsNo mark (first ++ (front ++ back) :: second)) :
    JoinsNo mark (first ++ [front]) ∧ JoinsNo mark (back :: second) := by
  induction first with
  | nil =>
    refine ⟨singleton mark front, ?_, joins.2⟩
    intro ending inside
    have suffix := (List.mem_tails _ _).1 inside
    exact joins.kept ending (suffix.trans (List.suffix_append front back))
  | cons part first ih =>
    obtain ⟨here, later⟩ := ih joins.2
    refine ⟨⟨?_, here⟩, later⟩
    intro ending inside nonempty begun
    have shorter : (first ++ [front]).flatten <+: (first ++ (front ++ back) :: second).flatten := by
      simp
    have longer := (List.prefix_append_right_inj ending).2 shorter
    exact joins.1 ending inside nonempty (begun.trans longer)

end JoinsNo

-- Marks in order, the first of which none of the texts but the last has, stand in the last.
theorem InOrder.of_absent {last : Text} (absent : ∀ part ∈ parts, ¬ mark <:+: part)
    (joins : JoinsNo mark (parts ++ [last]))
    (order : InOrder (mark :: marks) (parts ++ [last]).flatten) : InOrder (mark :: marks) last := by
  induction parts with
  | nil => simpa using order
  | cons part parts ih =>
    obtain ⟨here, later⟩ := List.forall_mem_cons.1 absent
    rcases order.head_split joins.kept with ⟨front, inner, rfl, -⟩ | onward
    next => exact absurd ⟨front, inner, by simp⟩ here
    next => exact ih later joins.2 onward

-- What stands in a text's place keeps the marks that the text has in order.
def Replaces (marks : List Text) (part other : Text) : Prop :=
  ∀ inner, inner <:+: marks → InOrder inner part → InOrder inner other

theorem InOrder.replace (joins : ∀ mark ∈ marks, JoinsNo mark parts)
    (replaced : List.Forall₂ (Replaces marks) parts others) (order : InOrder marks parts.flatten) :
    InOrder marks others.flatten := by
  -- The marks that are left behind some of the texts are the end of all of them.
  suffices ∀ later, later <:+: marks → InOrder later parts.flatten → InOrder later others.flatten from
    this marks List.infix_rfl order
  clear order
  induction replaced with
  | nil => exact fun _ _ order => order
  | @cons part other parts others here _ ih =>
    intro later inside order
    obtain ⟨first, second, rfl, front, back⟩ :=
      order.split fun mark member => (joins mark (inside.subset member)).kept
    rw [List.flatten_cons]
    apply InOrder.append
    next => exact here first ((List.prefix_append first second).isInfix.trans inside) front
    next =>
      exact ih (fun mark member => (joins mark member).2) second
        ((List.suffix_append first second).isInfix.trans inside) back

end Inlay.Text

namespace Inlay.Text.Pieces

variable {A : Type}

theorem isInfix_write_of_mem (render : A → Text) {pieces : Pieces A} {value : A}
    (member : value ∈ pieces.values) : render value <:+: pieces.write render := by
  obtain ⟨parts, tail⟩ := pieces
  induction parts with
  | nil => cases member
  | cons part parts ih =>
    rw [write_cons]
    rcases List.mem_cons.1 member with rfl | later
    next => exact ⟨part.1, write render ⟨parts, tail⟩, by simp⟩
    next => exact (ih later).trans (suffix_behind _ _ _).isInfix

def texts (render : A → Text) (pieces : Pieces A) : List Text :=
  pieces.parts.flatMap (fun part => [part.1, render part.2]) ++ [pieces.tail]

theorem flatten_texts (render : A → Text) (pieces : Pieces A) :
    (pieces.texts render).flatten = pieces.write render := by
  obtain ⟨parts, tail⟩ := pieces
  induction parts with
  | nil => simp [texts, write]
  | cons part parts ih => simpa [texts, write] using ih

theorem inOrder_write {marks : List Text} {render other : A → Text} {pieces : Pieces A}
    (joins : ∀ mark ∈ marks, JoinsNo mark (pieces.texts render))
    (replaced : ∀ value ∈ pieces.values, Replaces marks (render value) (other value))
    (order : InOrder marks (pieces.write render)) : InOrder marks (pieces.write other) := by
  rw [← flatten_texts] at order ⊢
  refine order.replace joins ?_
  obtain ⟨parts, tail⟩ := pieces
  clear joins order
  have kept (text : Text) : Replaces marks text text := fun _ _ order => order
  induction parts with
  | nil => exact .cons (kept tail) .nil
  | cons part parts ih =>
    obtain ⟨here, later⟩ := List.forall_mem_cons.1 replaced
    exact .cons (kept part.1) (.cons here (ih later))

end Inlay.Text.Pieces
