import Inlay.Text.Basic

set_option autoImplicit false

namespace Inlay.Text

structure Recogniser (A : Type) where
  read : Option Char → Text → Option (A × Text)
  advances : ∀ {previous : Option Char} {text rest : Text} {value : A},
    read previous text = some (value, rest) → ∃ lexeme, lexeme ≠ [] ∧ text = lexeme ++ rest

theorem Recogniser.shorter {A : Type} (form : Recogniser A) {previous : Option Char}
    {text rest : Text} {value : A} (found : form.read previous text = some (value, rest)) :
    rest.length < text.length := by
  obtain ⟨lexeme, nonempty, rfl⟩ := form.advances found
  have := List.length_pos_iff.2 nonempty
  simp only [List.length_append]
  omega

structure Pieces (A : Type) where
  parts : List (Text × A)
  tail : Text

namespace Pieces

variable {A : Type}

def skip (c : Char) : Pieces A → Pieces A
  | ⟨[], tail⟩ => ⟨[], c :: tail⟩
  | ⟨(gap, value) :: parts, tail⟩ => ⟨(c :: gap, value) :: parts, tail⟩

def find (value : A) (pieces : Pieces A) : Pieces A :=
  ⟨([], value) :: pieces.parts, pieces.tail⟩

def values (pieces : Pieces A) : List A :=
  pieces.parts.map (·.2)

def write (render : A → Text) (pieces : Pieces A) : Text :=
  pieces.parts.flatMap (fun (gap, value) => gap ++ render value) ++ pieces.tail

@[simp] theorem write_nil (render : A → Text) (tail : Text) :
    write render ⟨[], tail⟩ = tail := by
  simp [write]

theorem write_cons (render : A → Text) (part : Text × A) (parts : List (Text × A)) (tail : Text) :
    write render ⟨part :: parts, tail⟩ =
      part.1 ++ (render part.2 ++ write render ⟨parts, tail⟩) := by
  simp [write]

@[simp] theorem write_skip (render : A → Text) (c : Char) (pieces : Pieces A) :
    (pieces.skip c).write render = c :: pieces.write render := by
  obtain ⟨parts, tail⟩ := pieces
  cases parts <;> simp [skip, write]

@[simp] theorem write_find (render : A → Text) (value : A) (pieces : Pieces A) :
    (pieces.find value).write render = render value ++ pieces.write render := by
  simp [find, write]

@[simp] theorem values_skip (c : Char) (pieces : Pieces A) :
    (pieces.skip c).values = pieces.values := by
  obtain ⟨parts, tail⟩ := pieces
  cases parts <;> simp [skip, values]

@[simp] theorem values_find (value : A) (pieces : Pieces A) :
    (pieces.find value).values = value :: pieces.values := by
  simp [find, values]

end Pieces

def lastRead (text rest : Text) : Option Char :=
  (text.take (text.length - rest.length)).getLast?

def Recogniser.pieces {A : Type} (form : Recogniser A) : Option Char → Text → Pieces A
  | _, [] => ⟨[], []⟩
  | previous, c :: text =>
    match found : form.read previous (c :: text) with
    | some (value, rest) =>
      have := form.shorter found
      (form.pieces (lastRead (c :: text) rest) rest).find value
    | none => (form.pieces (some c) text).skip c
termination_by _ text => text.length
decreasing_by
  · exact this
  · simp

namespace Recogniser

variable {A : Type}

@[simp] theorem read_nil (form : Recogniser A) (previous : Option Char) :
    form.read previous [] = none := by
  cases found : form.read previous [] with
  | none => rfl
  | some result =>
    obtain ⟨lexeme, nonempty, same⟩ := form.advances found
    exact absurd (List.append_eq_nil_iff.1 same.symm).1 nonempty

@[simp] theorem pieces_nil (form : Recogniser A) (previous : Option Char) :
    form.pieces previous [] = ⟨[], []⟩ := by
  rw [Recogniser.pieces]

theorem pieces_of_read (form : Recogniser A) {previous : Option Char} {text rest : Text} {value : A}
    (found : form.read previous text = some (value, rest)) :
    form.pieces previous text = (form.pieces (lastRead text rest) rest).find value := by
  cases text with
  | nil => simp at found
  | cons c text =>
    rw [Recogniser.pieces]
    split
    next other same =>
      rw [found] at same
      cases same
      rfl
    next missing => simp [found] at missing

theorem pieces_cons_of_none (form : Recogniser A) {previous : Option Char} {c : Char} {text : Text}
    (missing : form.read previous (c :: text) = none) :
    form.pieces previous (c :: text) = (form.pieces (some c) text).skip c := by
  rw [Recogniser.pieces]
  split
  next other same => simp [missing] at same
  next => rfl

theorem write_pieces (form : Recogniser A) (render : A → Text)
    (faithful : ∀ {previous text rest value}, form.read previous text = some (value, rest) →
      text = render value ++ rest) (previous : Option Char) (text : Text) :
    (form.pieces previous text).write render = text := by
  fun_induction Recogniser.pieces form previous text with
  | case1 => simp [Pieces.write]
  | case2 previous c text value rest found _ ih => simp [ih, ← faithful found]
  | case3 previous c text found ih => simp [ih]

end Recogniser
end Inlay.Text
