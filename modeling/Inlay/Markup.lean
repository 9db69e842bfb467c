import Inlay.Text.Character
import Inlay.Text.Pieces

set_option autoImplicit false

namespace Inlay.Markup

open Text

def scriptTag : Text := "script"

def styleTag : Text := "style"

structure Region where
  attrs : Text
  content : Text
  deriving Repr, DecidableEq

def opening (tag : Text) : Text :=
  '<' :: tag

def closing (tag : Text) : Text :=
  '<' :: '/' :: tag ++ ['>']

namespace Region

def write (tag : Text) (region : Region) : Text :=
  opening tag ++ region.attrs ++ '>' :: region.content ++ closing tag

def read? (tag : Text) (text : Text) : Option (Region × Text) := do
  let inside ← after? (opening tag) text
  let (attrs, inner) ← cut? ['>'] inside
  let (content, rest) ← cut? (closing tag) inner
  return (⟨attrs, content⟩, rest)

theorem eq_of_read? {tag text rest : Text} {region : Region}
    (found : read? tag text = some (region, rest)) : text = region.write tag ++ rest := by
  simp only [read?, Option.bind_eq_bind, Option.bind_eq_some_iff, Prod.exists] at found
  obtain ⟨inside, opened, attrs, inner, ended, content, after, closed, same⟩ := found
  simp only [Option.pure_def, Option.some.injEq, Prod.mk.injEq] at same
  obtain ⟨rfl, rfl⟩ := same
  rw [after?_eq_some_iff.1 opened, eq_of_cut? ended, eq_of_cut? closed]
  simp [write]

theorem write_ne_nil (tag : Text) (region : Region) : region.write tag ≠ [] := by
  simp [write, opening]

end Region

def regionForm (tag : Text) : Recogniser Region where
  read _ text := Region.read? tag text
  advances found := ⟨_, Region.write_ne_nil tag _, Region.eq_of_read? found⟩

def regions (tag text : Text) : Pieces Region :=
  (regionForm tag).pieces none text

theorem write_regions (tag text : Text) :
    (regions tag text).write (Region.write tag) = text :=
  (regionForm tag).write_pieces (Region.write tag) (fun found => Region.eq_of_read? found) none text

def withoutRegions (tag text : Text) : Text :=
  (regions tag text).write fun _ => []

structure Segment where
  attrs : Text
  content : Text
  deriving Repr, DecidableEq

namespace Segment

def ofRegion (region : Region) : Segment :=
  ⟨trim region.attrs, trim region.content⟩

def toRegion (segment : Segment) : Region :=
  ⟨if segment.attrs = [] then [] else ' ' :: segment.attrs, segment.content⟩

def write (tag : Text) (segment : Segment) : Text :=
  segment.toRegion.write tag

end Segment

def segments (tag text : Text) : List Segment :=
  (regions tag text).values.map Segment.ofRegion

structure Block where
  scripts : List Segment
  styles : List Segment
  template : Text
  deriving Repr, DecidableEq

def residual (text : Text) : Text :=
  trim (withoutRegions styleTag (withoutRegions scriptTag text))

def wrapped? (tag text : Text) : Option Text := do
  let inside ← after? (opening tag ++ ['>']) text
  (upTo? (closing tag) inside).or (upTo? (closing tag ++ ['\n']) inside)

def unwrap (tag text : Text) : Text :=
  match wrapped? tag text with
  | some inside => trim inside
  | none => text

namespace Block

def parse (tag text : Text) : Block where
  scripts := segments scriptTag text
  styles := segments styleTag text
  template := unwrap tag (residual text)

def parseDocument (text : Text) : Block where
  scripts := segments scriptTag text
  styles := segments styleTag text
  template := residual text

end Block

def Region.absorb (segment : Segment) (region : Region) : Region :=
  Segment.toRegion ⟨segment.attrs, region.content ++ '\n' :: segment.content⟩

def absorbFirst? (segment : Segment) : List (Text × Region) → Option (List (Text × Region))
  | [] => none
  | (gap, region) :: parts =>
    if trim region.attrs = segment.attrs then some ((gap, region.absorb segment) :: parts)
    else (absorbFirst? segment parts).map ((gap, region) :: ·)

def mergeSegment (tag text : Text) (segment : Segment) : Text :=
  let found := regions tag text
  match absorbFirst? segment found.parts with
  | some parts => Pieces.write (Region.write tag) ⟨parts, found.tail⟩
  | none => text ++ '\n' :: segment.write tag

def mergeSegments (tag text : Text) (added : List Segment) : Text :=
  added.foldl (mergeSegment tag) text

def mergeScripts (text : Text) (scripts : List Segment) : Text :=
  mergeSegments scriptTag text scripts

def mergeStyles (text : Text) (styles : List Segment) : Text :=
  mergeSegments styleTag text styles

namespace Placeholder

def close? (text : Text) : Option Text :=
  match text.dropWhile isBlank with
  | '/' :: '>' :: rest => some rest
  | '>' :: rest => some rest
  | _ => none

def read? (name text : Text) : Option Text := do
  close? (← after? ('<' :: name) text)

theorem suffix_of_close? {text rest : Text} (found : close? text = some rest) :
    ∃ close, text = close ++ rest := by
  unfold close? at found
  have whole := List.takeWhile_append_dropWhile (p := isBlank) (l := text)
  split at found
  next after shape =>
    cases found
    rw [shape] at whole
    exact ⟨text.takeWhile isBlank ++ ['/', '>'], by simp [whole]⟩
  next after shape =>
    cases found
    rw [shape] at whole
    exact ⟨text.takeWhile isBlank ++ ['>'], by simp [whole]⟩
  next => cases found

theorem suffix_of_read? {name text rest : Text} (found : read? name text = some rest) :
    ∃ close, text = '<' :: name ++ close ++ rest := by
  simp only [read?, Option.bind_eq_bind, Option.bind_eq_some_iff] at found
  obtain ⟨inside, opened, closed⟩ := found
  obtain ⟨close, rfl⟩ := suffix_of_close? closed
  exact ⟨close, by simpa using after?_eq_some_iff.1 opened⟩

def form (name : Text) : Recogniser Text where
  read _ text := (read? name text).map fun rest =>
    (text.take (text.length - rest.length), rest)
  advances found := by
    simp only [Option.map_eq_some_iff, Prod.mk.injEq] at found
    obtain ⟨rest, read, -, rfl⟩ := found
    obtain ⟨close, same⟩ := suffix_of_read? read
    exact ⟨'<' :: name ++ close, by simp, same⟩

def pieces (name text : Text) : Pieces Text :=
  (form name).pieces none text

def fill (name template text : Text) : Text :=
  (pieces name text).write fun _ => template

end Placeholder

end Inlay.Markup
