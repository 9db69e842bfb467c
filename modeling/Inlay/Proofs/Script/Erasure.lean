import Inlay.Proofs.Script.Comments

set_option autoImplicit false

namespace Inlay.Script.Comment

open Text

def left (previous : Option Char) (text : Text) : Text :=
  (form.pieces previous text).write id

structure Seam (previous : Option Char) (text front behind : Text) : Prop where
  whole : left previous text = front ++ behind
  comment : ∃ reached place rest, (reached, place) ∈ form.places previous text ∧
    block? place = some rest ∧ behind = left (some '/') rest

def Opens (before : Option Char) (front behind : Text) : Prop :=
  Begins (front.getLast?.or before) behind ∨
    ∃ start, front = start ++ ['/'] ∧ Begins (start.getLast?.or before) ('/' :: behind)

variable {text rest kept front behind : Text} {previous before : Option Char} {c : Char}

section Left

theorem erase_eq_left (code : Text) : erase code = left none code := rfl

theorem left_nil (previous : Option Char) : left previous [] = [] := by
  simp [left]

theorem left_of_read (found : form.read previous text = some (kept, rest)) :
    left previous text = kept ++ left (lastRead text rest) rest := by
  rw [left, form.pieces_of_read found, Pieces.write_find]
  rfl

theorem left_cons_of_none (missing : form.read previous (c :: text) = none) :
    left previous (c :: text) = c :: left (some c) text := by
  rw [left, form.pieces_cons_of_none missing, Pieces.write_skip]
  rfl

theorem lastRead_of_block? (found : block? text = some rest) : lastRead text rest = some '/' := by
  obtain ⟨inside, rfl⟩ := exists_comment_of_block? found
  have shape : '/' :: '*' :: (inside ++ '*' :: '/' :: rest) =
      '/' :: '*' :: (inside ++ ['*']) ++ ['/'] ++ rest := by simp
  rw [lastRead, shape, List.length_append, Nat.add_sub_cancel, List.take_left, List.getLast?_concat]

theorem read_of_block? (found : block? text = some rest) : form.read previous text = some ([], rest) := by
  simp [form, read?, found]

theorem left_of_block? (found : block? text = some rest) :
    left previous text = left (some '/') rest := by
  rw [left_of_read (read_of_block? found), lastRead_of_block? found, List.nil_append]

-- Where no block comment begins and no line comment at the start of a line, the first character
-- stays.
theorem exists_left_cons (previous : Option Char) (block : block? (c :: text) = none)
    (start : atLineStart previous = true → c ≠ '/') :
    ∃ reached later, later <:+ text ∧ left previous (c :: text) = c :: left reached later := by
  cases found : form.read previous (c :: text) with
  | none => exact ⟨some c, text, List.suffix_rfl, left_cons_of_none found⟩
  | some result =>
    obtain ⟨kept, rest⟩ := result
    rcases cases_of_read found with ⟨here, -⟩ | ⟨comment, whole, -, ⟨d, rfl⟩ | ⟨rfl, atStart⟩⟩
    next =>
      rw [block] at here
      cases here
    next =>
      obtain ⟨rfl, rfl⟩ := List.cons.inj whole
      refine ⟨lastRead _ rest, rest, ?_, left_of_read found⟩
      exact ⟨'/' :: '/' :: comment, by simp⟩
    next => exact absurd (List.cons.inj whole).1 (start atStart)

theorem AtLineEnd.left (ending : AtLineEnd text) (previous : Option Char) :
    AtLineEnd (left previous text) := by
  cases text with
  | nil =>
    rw [left_nil]
    exact ending
  | cons c text =>
    obtain rfl : c = '\n' := ending c rfl
    have block : block? ('\n' :: text) = none := rfl
    obtain ⟨reached, later, -, whole⟩ := exists_left_cons previous block fun _ => by decide
    rw [whole]
    simp [AtLineEnd]

theorem infix_of_block? (found : block? text = some rest) : ['*', '/'] <:+: text := by
  obtain ⟨inside, rfl⟩ := exists_comment_of_block? found
  exact ⟨'/' :: '*' :: inside, rest, by simp⟩

-- Line comments go up to the line's end, so no end of a block comment comes together where they go.
theorem not_infix_left (absent : ¬ ['*', '/'] <:+: text) (previous : Option Char) :
    ¬ ['*', '/'] <:+: left previous text := by
  induction previous, text using Recogniser.pieces.induct form with
  | case1 previous => simp [left_nil]
  | case2 previous c text kept rest found _ ih =>
    have suffix : rest <:+ c :: text := by
      obtain ⟨lexeme, -, whole⟩ := form.advances found
      exact ⟨lexeme, whole.symm⟩
    have later := ih fun part => absent (part.trans suffix.isInfix)
    rw [left_of_read found]
    rcases cases_of_read found with ⟨block, -⟩ | ⟨comment, -, ending, ⟨d, rfl⟩ | ⟨rfl, -⟩⟩
    next => exact absurd (infix_of_block? block) absent
    next =>
      rw [List.singleton_append, List.infix_cons_iff, not_or]
      refine ⟨?_, later⟩
      rintro ⟨more, whole⟩
      obtain ⟨-, behind⟩ := List.cons.inj whole
      exact absurd (ending.left _ '/' (congrArg List.head? behind.symm)) (by decide)
    next => exact later
  | case3 previous c text missing ih =>
    have later := ih fun part => absent (part.trans (List.suffix_cons c text).isInfix)
    rw [left_cons_of_none missing, List.infix_cons_iff, not_or]
    refine ⟨?_, later⟩
    rintro ⟨more, whole⟩
    obtain ⟨rfl, whole⟩ := List.cons.inj whole
    cases text with
    | nil => simp [left_nil] at whole
    | cons d text =>
      have block : block? (d :: text) = none := by
        rw [Option.eq_none_iff_forall_ne_some]
        intro rest found
        exact absent ((infix_of_block? found).trans (List.suffix_cons '*' _).isInfix)
      obtain ⟨reached, rest, -, kept⟩ := exists_left_cons (some '*') block (by simp [atLineStart])
      rw [kept] at whole
      obtain ⟨rfl, -⟩ := List.cons.inj whole
      exact absent ⟨[], text, rfl⟩

end Left

section Seams

theorem Seam.of_block? (found : block? text = some rest) :
    Seam previous text [] (left (some '/') rest) where
  whole := left_of_block? found
  comment := ⟨previous, text, rest, form.mem_places_self previous text, found, rfl⟩

theorem Seam.of_read (seam : Seam (lastRead text rest) rest front behind)
    (found : form.read previous text = some (kept, rest)) :
    Seam previous text (kept ++ front) behind := by
  obtain ⟨whole, reached, place, later, there, block, same⟩ := seam
  refine ⟨by rw [left_of_read found, whole, List.append_assoc], reached, place, later, ?_, block, same⟩
  exact Recogniser.mem_places_of_read found there

theorem Seam.of_none (seam : Seam (some c) text front behind)
    (missing : form.read previous (c :: text) = none) :
    Seam previous (c :: text) (c :: front) behind := by
  obtain ⟨whole, reached, place, later, there, block, same⟩ := seam
  refine ⟨by rw [left_cons_of_none missing, whole, List.cons_append], reached, place, later, ?_, block,
    same⟩
  exact form.mem_places_cons missing there

theorem Opens.append (opens : Opens (kept.getLast?.or before) front behind) :
    Opens before (kept ++ front) behind := by
  rcases opens with begins | ⟨start, rfl, begins⟩
  next => exact .inl (by rwa [List.getLast?_append, Option.or_assoc])
  next =>
    refine .inr ⟨kept ++ start, by rw [List.append_assoc], ?_⟩
    rwa [List.getLast?_append, Option.or_assoc]

theorem Begins.exists_cons (begins : Begins previous text) :
    ∃ c rest, text = '/' :: c :: rest ∧ (c = '*' ∨ c = '/') := by
  rcases begins with ⟨inside, rest, rfl⟩ | ⟨⟨rest, rfl⟩, -⟩
  next => exact ⟨_, _, rfl, .inl rfl⟩
  next => exact ⟨_, _, rfl, .inr rfl⟩

theorem not_begins_of_atLineEnd (ending : AtLineEnd text) : ¬ Begins previous text := by
  intro begins
  obtain ⟨c, rest, rfl, -⟩ := begins.exists_cons
  exact absurd (ending '/' rfl) (by decide)

theorem not_begins_cons_of_atLineEnd (ending : AtLineEnd text) : ¬ Begins previous (c :: text) := by
  intro begins
  obtain ⟨d, rest, whole, mark⟩ := begins.exists_cons
  obtain ⟨-, rfl⟩ := List.cons.inj whole
  obtain rfl := ending d rfl
  revert mark
  decide

-- A comment that begins with a character that stays is put together at the block comment right behind
-- the character, unless the character before is another one than the search saw.
theorem exists_block?_of_begins (missing : form.read previous (c :: text) = none)
    (passed : ∀ d ∈ previous, protects d = false → ¬ ['/', '/'] <+: c :: text)
    (begins : Begins previous (c :: left (some c) text)) :
    c = '/' ∧ ∃ rest, block? text = some rest := by
  obtain ⟨blockless, -, unstarted⟩ := read_eq_none_iff.1 missing
  obtain ⟨d, rest, whole, -⟩ := begins.exists_cons
  obtain ⟨rfl, split⟩ := List.cons.inj whole
  refine ⟨rfl, Option.ne_none_iff_exists'.1 fun block => ?_⟩
  -- Without a block comment there, the mark of the comment stands in the text.
  cases text with
  | nil => simp [left_nil] at split
  | cons e text =>
    obtain ⟨reached, later, suffix, kept⟩ :=
      exists_left_cons (some '/') block (by simp [atLineStart])
    rw [kept] at begins
    rcases begins with ⟨inside, rest, same⟩ | ⟨⟨rest, same⟩, unprotected⟩
    next =>
      obtain ⟨-, opening⟩ := List.cons.inj same
      obtain ⟨rfl, closing⟩ := List.cons.inj opening
      rw [block?_eq_none_iff] at blockless
      have closed : ['*', '/'] <:+: text := by
        by_contra absent
        refine not_infix_left (fun part => absent (part.trans suffix.isInfix)) reached ?_
        exact ⟨inside, rest, by simp [closing]⟩
      obtain ⟨front, behind, rfl⟩ := closed
      exact blockless ⟨front, behind, by simp⟩
    next =>
      obtain ⟨-, second⟩ := List.cons.inj same
      obtain ⟨rfl, -⟩ := List.cons.inj second
      cases previous with
      | none => exact unstarted rfl ⟨text, rfl⟩
      | some d => exact passed d rfl (unprotected d rfl) ⟨text, rfl⟩

-- A comment in what is left of a text begins at a seam, unless it begins at once and a character
-- stands before it that the search did not see.
theorem exists_seam {start rest : Text} (whole : left previous text = start ++ rest)
    (begins : Begins (start.getLast?.or before) rest)
    (met : start = [] → before = previous ∧
      ∀ c ∈ previous, protects c = false → ¬ ['/', '/'] <+: text) :
    ∃ front behind, Seam previous text front behind ∧ Opens before front behind := by
  induction previous, text using Recogniser.pieces.induct form generalizing start before with
  | case1 previous =>
    rw [left_nil] at whole
    obtain ⟨c, later, same, -⟩ := begins.exists_cons
    simp [same] at whole
  | case2 previous c text kept later found _ ih =>
    have inner {start : Text} (split : left (lastRead (c :: text) later) later = start ++ rest)
        (inside : start ≠ []) (begins : Begins ((kept ++ start).getLast?.or before) rest) :
        ∃ front behind, Seam previous (c :: text) front behind ∧ Opens before front behind := by
      rw [List.getLast?_append, Option.or_assoc] at begins
      obtain ⟨front, behind, seam, opens⟩ := ih split begins fun empty => absurd empty inside
      exact ⟨kept ++ front, behind, seam.of_read found, opens.append⟩
    rcases cases_of_read found with ⟨block, rfl⟩ | ⟨comment, -, ending, shape⟩
    next =>
      rw [left_of_read found] at whole
      by_cases empty : start = []
      next =>
        subst empty
        refine ⟨[], _, Seam.of_block? block, .inl ?_⟩
        rw [← left_of_block? block, left_of_read found, whole]
        exact begins
      next => exact inner whole empty begins
    next =>
      rw [left_of_read found] at whole
      have ending := ending.left (lastRead (c :: text) later)
      rcases List.append_eq_append_iff.1 whole with ⟨more, rfl, split⟩ | ⟨more, rfl, rfl⟩
      next =>
        by_cases empty : more = []
        next =>
          subst empty
          rw [split] at ending
          exact absurd begins (not_begins_of_atLineEnd ending)
        next => exact inner split empty begins
      next =>
        -- What stays before the line comment is one character at most.
        have none_or_one : more = [] ∨ ∃ d, more = [d] := by
          rcases shape with ⟨d, single⟩ | ⟨nothing, -⟩
          next =>
            rcases List.append_eq_singleton_iff.1 single with ⟨-, rfl⟩ | ⟨-, rfl⟩
            next => exact .inr ⟨d, rfl⟩
            next => exact .inl rfl
          next => exact .inl (List.append_eq_nil_iff.1 nothing).2
        rcases none_or_one with rfl | ⟨d, rfl⟩
        next => exact absurd begins (not_begins_of_atLineEnd ending)
        next => exact absurd begins (not_begins_cons_of_atLineEnd ending)
  | case3 previous c text missing ih =>
    rw [left_cons_of_none missing] at whole
    cases start with
    | nil =>
      obtain ⟨rfl, passed⟩ := met rfl
      obtain rfl := whole
      obtain ⟨rfl, later, block⟩ := exists_block?_of_begins missing passed begins
      refine ⟨['/'], _, Seam.of_none (Seam.of_block? block) missing, .inr ⟨[], rfl, ?_⟩⟩
      rw [left_of_block? block] at begins
      exact begins
    | cons d start =>
      obtain ⟨rfl, split⟩ := List.cons.inj whole
      rw [Recogniser.getLast?_cons_or] at begins
      obtain ⟨front, behind, seam, opens⟩ := ih split begins fun _ =>
        ⟨rfl, by simpa using (read_eq_none_iff.1 missing).2.1⟩
      have opens' : Opens ([c].getLast?.or before) front behind := opens
      exact ⟨c :: front, behind, seam.of_none missing, opens'.append⟩

theorem occurs_of_opens (opens : Opens none front behind) : Occurs (front ++ behind) := by
  rcases opens with begins | ⟨start, rfl, begins⟩
  next => exact ⟨front, behind, rfl, by simpa using begins⟩
  next => exact ⟨start, '/' :: behind, by simp, by simpa using begins⟩

theorem occurs_erase_iff {code : Text} : Occurs (erase code) ↔
    ∃ front behind, Seam none code front behind ∧ Opens none front behind := by
  constructor
  next =>
    rintro ⟨start, rest, whole, begins⟩
    exact @exists_seam _ none none _ _ whole (by simpa using begins) fun _ => ⟨rfl, by simp⟩
  next =>
    rintro ⟨front, behind, seam, opens⟩
    rw [erase_eq_left, seam.whole]
    exact occurs_of_opens opens

theorem exists_mark_of_opens (opens : Opens before front (left (some '/') rest)) :
    ∃ c later, rest = c :: later ∧ (c = '*' ∨ c = '/') := by
  obtain ⟨d, more, whole, mark⟩ : ∃ d more, left (some '/') rest = d :: more ∧ (d = '*' ∨ d = '/') := by
    rcases opens with begins | ⟨start, -, begins⟩
    next =>
      obtain ⟨d, more, whole, -⟩ := begins.exists_cons
      exact ⟨'/', d :: more, whole, .inr rfl⟩
    next =>
      obtain ⟨d, more, whole, mark⟩ := begins.exists_cons
      exact ⟨d, more, (List.cons.inj whole).2, mark⟩
  cases rest with
  | nil => simp [left_nil] at whole
  | cons c later =>
    refine ⟨c, later, rfl, ?_⟩
    cases block : block? (c :: later) with
    | some behind =>
      obtain ⟨inside, comment⟩ := exists_comment_of_block? block
      exact .inr (List.cons.inj comment).1
    | none =>
      obtain ⟨reached, more', -, kept⟩ := exists_left_cons (some '/') block (by simp [atLineStart])
      rw [kept] at whole
      obtain ⟨rfl, -⟩ := List.cons.inj whole
      exact mark

theorem infix_of_seam {code : Text} (seam : Seam none code front behind)
    (opens : Opens none front behind) : ['*', '/', '/'] <:+: code ∨ ['*', '/', '*'] <:+: code := by
  obtain ⟨-, reached, place, rest, there, block, rfl⟩ := seam
  have inside := (Recogniser.suffix_of_mem_places there).isInfix
  obtain ⟨comment, rfl⟩ := exists_comment_of_block? block
  obtain ⟨c, later, rfl, rfl | rfl⟩ := exists_mark_of_opens opens
  next => exact .inr (List.IsInfix.trans ⟨'/' :: '*' :: comment, later, by simp⟩ inside)
  next => exact .inl (List.IsInfix.trans ⟨'/' :: '*' :: comment, later, by simp⟩ inside)

end Seams

/-- A second removal of comments changes nothing just when the first one leaves no comment, that is,
when no comment begins where a block comment was taken out. None does if neither a slash nor a star
stands right behind the end of a block comment. -/
theorem erase_erase_iff (code : Text) :
    (erase (erase code) = erase code ↔ ¬ Occurs (erase code)) ∧
    (erase (erase code) = erase code ↔
      ∀ front behind, Seam none code front behind → ¬ Opens none front behind) ∧
    (¬ ['*', '/', '/'] <:+: code → ¬ ['*', '/', '*'] <:+: code →
      erase (erase code) = erase code) := by
  have clear : ¬ Occurs (erase code) ↔
      ∀ front behind, Seam none code front behind → ¬ Opens none front behind := by
    rw [occurs_erase_iff]
    push Not
    rfl
  refine ⟨erase_eq_self_iff, erase_eq_self_iff.trans clear, fun slash star => ?_⟩
  rw [erase_eq_self_iff, clear]
  intro front behind seam opens
  exact (infix_of_seam seam opens).elim slash star

theorem erase_erase_iff_of_commented_address :
    let code : Text := "/* let a; */ let b = 'c://d'; // let e;\n/**/let f;"
    erase code = (" let b = 'c://d'; \nlet f;" : String).toList ∧ ¬ Occurs (erase code) := by
  intro code
  have once : erase (erase code) = erase code :=
    (erase_erase_iff code).2.2 (by decide +kernel) (by decide +kernel)
  exact ⟨by decide +kernel, (erase_erase_iff code).1.1 once⟩

theorem erase_erase_ne :
    let leaves (code : Text) (name : Text) : Prop :=
      erase (erase code) ≠ erase code ∧ Occurs (erase code) ∧ name ∈ declaredNames code
    leaves "/**///let a;" ['a'] ∧ leaves "://**/* let b; */" ['b'] := by
  intro leaves
  have shown {code name : Text} (changes : erase (erase code) ≠ erase code)
      (named : name ∈ declaredNames code) : leaves code name :=
    ⟨changes, not_not.1 (mt erase_eq_self_iff.2 changes), named⟩
  exact ⟨shown (by decide +kernel) (by decide +kernel), shown (by decide +kernel) (by decide +kernel)⟩

end Inlay.Script.Comment
