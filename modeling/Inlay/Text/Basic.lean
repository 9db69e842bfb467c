set_option autoImplicit false

namespace Inlay

abbrev Text := List Char

instance : Coe String Text := ⟨String.toList⟩

namespace Text

def after? : Text → Text → Option Text
  | [], text => some text
  | _ :: _, [] => none
  | m :: mark, c :: text => if m = c then after? mark text else none

theorem after?_eq_some_iff {mark text rest : Text} :
    after? mark text = some rest ↔ text = mark ++ rest := by
  induction mark generalizing text with
  | nil => simp [after?]
  | cons m mark ih =>
    cases text with
    | nil => simp [after?]
    | cons c text =>
      by_cases same : m = c
      next => simp [after?, same, ih]
      next => simp [after?, same, Ne.symm same]

@[simp] theorem after?_append (mark rest : Text) : after? mark (mark ++ rest) = some rest :=
  after?_eq_some_iff.2 rfl

def cut? (mark : Text) : Text → Option (Text × Text)
  | [] => (after? mark []).map ([], ·)
  | c :: text =>
    match after? mark (c :: text) with
    | some rest => some ([], rest)
    | none => (cut? mark text).map fun (before, rest) => (c :: before, rest)

theorem eq_of_cut? {mark text before rest : Text} (h : cut? mark text = some (before, rest)) :
    text = before ++ mark ++ rest := by
  induction text generalizing before with
  | nil =>
    simp only [cut?, Option.map_eq_some_iff, Prod.mk.injEq] at h
    obtain ⟨found, eq, rfl, rfl⟩ := h
    simpa using after?_eq_some_iff.1 eq
  | cons c text ih =>
    unfold cut? at h
    split at h
    next found eq =>
      simp only [Option.some.injEq, Prod.mk.injEq] at h
      obtain ⟨rfl, rfl⟩ := h
      simpa using after?_eq_some_iff.1 eq
    next =>
      simp only [Option.map_eq_some_iff, Prod.mk.injEq] at h
      obtain ⟨found, eq, rfl, rfl⟩ := h
      simpa using ih eq

def replaceFirst (mark replacement text : Text) : Text :=
  match cut? mark text with
  | some (before, rest) => before ++ replacement ++ rest
  | none => text

def consHead (c : Char) : List Text → List Text
  | [] => [[c]]
  | first :: rest => (c :: first) :: rest

def splitAt (separator : Char) : Text → List Text
  | [] => [[]]
  | c :: text => if c = separator then [] :: splitAt separator text
    else consHead c (splitAt separator text)

def before (mark : Char) (text : Text) : Text :=
  text.takeWhile (· != mark)

def join (separator : Text) : List Text → Text
  | [] => []
  | [text] => text
  | text :: rest => text ++ separator ++ join separator rest

def endsWith (suffix text : Text) : Bool :=
  suffix.isSuffixOf text

def upTo? (suffix text : Text) : Option Text :=
  (after? suffix.reverse text.reverse).map List.reverse

def dropLineEnd (text : Text) : Text :=
  (upTo? ['\n'] text).getD text

def trimBy (p : Char → Bool) (text : Text) : Text :=
  ((text.dropWhile p).reverse.dropWhile p).reverse

def lexLe {A : Type} [DecidableEq A] (le : A → A → Bool) : List A → List A → Bool
  | [], _ => true
  | _ :: _, [] => false
  | a :: as, b :: bs => if a = b then lexLe le as bs else le a b

def le : Text → Text → Bool :=
  lexLe fun a b => decide (a.toNat <= b.toNat)

def sort (texts : List Text) : List Text :=
  texts.mergeSort le

def sortedSet (texts : List Text) : List Text :=
  sort texts.eraseDups

def ofNat (n : Nat) : Text :=
  Nat.toDigits 10 n

def ofInt : Int → Text
  | .ofNat n => ofNat n
  | .negSucc n => '-' :: ofNat (n + 1)

def padZeros (width : Nat) (text : Text) : Text :=
  List.replicate (width - text.length) '0' ++ text

def hex (width n : Nat) : Text :=
  padZeros width (Nat.toDigits 16 n)

def unifyLines : Text → Text
  | [] => []
  | '\r' :: '\n' :: text => '\n' :: unifyLines text
  | c :: text => (if c = '\r' then '\n' else c) :: unifyLines text

def endsLine (c : Char) : Bool :=
  [10, 11, 12, 13, 28, 29, 30, 133, 0x2028, 0x2029].contains c.toNat

def lines : Text → List Text
  | [] => []
  | '\r' :: '\n' :: text => [] :: lines text
  | c :: text =>
    if endsLine c then [] :: lines text
    else consHead c (lines text)

end Text

theorem lookup_put {A : Type} (entries : List (Text × A)) (path other : Text) (value : A) :
    ((path, value) :: entries).lookup other =
      if other = path then some value else entries.lookup other := by
  by_cases same : other = path
  next => simp [same]
  next =>
    have apart : (other == path) = false := by simpa using same
    simp [List.lookup_cons, apart, same]

end Inlay
