import Inlay.Import
import Inlay.Proofs.Text.Search
import Inlay.Proofs.Workspace.Tree
import Mathlib.Data.List.DropRight

set_option autoImplicit false

namespace Inlay

open Text Workspace

-- The slashes that a text begins with.
def leadingSlashes (text : Text) : Text :=
  text.takeWhile (· == '/')

namespace Path

variable {text base document other written path : Text}

def joined (document written : Text) : Text :=
  joinTexts (directory document) written

def anchor (document written : Text) : Text :=
  if isAbsolute written then written else document

theorem hasDoubleSlash_eq (text : Text) :
    hasDoubleSlash text = decide ((leadingSlashes text).length = 2) := by
  unfold hasDoubleSlash leadingSlashes
  split
  next rest => simp
  next rest third =>
    cases rest with
    | nil => rfl
    | cons c rest =>
      have apart : c ≠ '/' := by
        rintro rfl
        exact third rest rfl
      simp [apart]
  next _ second =>
    match text, second with
    | [], _ => rfl
    | [c], _ => by_cases here : c = '/' <;> simp [here]
    | c :: d :: rest, second =>
      by_cases here : c = '/'
      next =>
        have apart : d ≠ '/' := by
          rintro rfl
          exact second rest (by rw [here])
        simp [here, apart]
      next => simp [here]

theorem leadingSlashes_of_relative (relative : isAbsolute text = false) :
    leadingSlashes text = [] := by
  unfold isAbsolute at relative
  split at relative
  next => cases relative
  next other =>
    cases text with
    | nil => rfl
    | cons c text =>
      refine List.takeWhile_cons_of_neg ?_
      rw [beq_iff_eq]
      rintro rfl
      exact other text rfl

theorem leadingSlashes_append (rest : Text) (other : ∃ c ∈ base, c ≠ '/') :
    leadingSlashes (base ++ rest) = leadingSlashes base := by
  obtain ⟨c, member, apart⟩ := other
  unfold leadingSlashes
  rw [List.takeWhile_append, if_neg]
  intro whole
  have same := (List.takeWhile_prefix (· == '/')).eq_of_length whole
  rw [List.takeWhile_eq_self_iff] at same
  exact apart (beq_iff_eq.1 (same c member))

theorem leadingSlashes_append_of_slashes (slashes : ∀ c ∈ base, c = '/')
    (relative : isAbsolute text = false) : leadingSlashes (base ++ text) = base := by
  unfold leadingSlashes
  rw [List.takeWhile_append_of_pos (by simpa using slashes)]
  exact (congrArg (base ++ ·) (leadingSlashes_of_relative relative)).trans (List.append_nil _)

-- A document's directory begins with the slashes of the document, and a relative path adds none.
theorem leadingSlashes_joined (absolute : isAbsolute document = true)
    (relative : isAbsolute written = false) :
    leadingSlashes (joined document written) = leadingSlashes document := by
  obtain ⟨front, name, rfl, ends, whole⟩ := exists_front document
  have plain : isAbsolute name = false := by
    unfold isAbsolute
    split
    next => simp at whole
    next => rfl
  obtain ⟨text, rfl⟩ : ∃ text, front = text ++ ['/'] := by
    refine ends.resolve_left ?_
    rintro rfl
    rw [List.nil_append, plain] at absolute
    cases absolute
  rw [joined, directory_append ends whole]
  split
  next slashes =>
    have slashes : ∀ c ∈ text ++ ['/'], c = '/' :=
      fun c member => beq_iff_eq.1 (List.all_eq_true.1 slashes c member)
    rw [joinTexts, if_neg (by simp [relative]), if_pos (by simp),
      leadingSlashes_append_of_slashes slashes relative,
      leadingSlashes_append_of_slashes slashes plain]
  next mixed =>
    -- Without the slashes at its end the directory still begins as the document does.
    change leadingSlashes (joinTexts ((text ++ ['/']).rdropWhile (· == '/')) written) = _
    obtain ⟨rest, split⟩ := List.rdropWhile_prefix (· == '/') (text ++ ['/'])
    generalize kept : (text ++ ['/']).rdropWhile (· == '/') = base at split
    have nonempty : base ≠ [] := by
      rintro rfl
      rw [List.rdropWhile_eq_nil_iff] at kept
      exact mixed (List.all_eq_true.2 kept)
    have last : base.getLast nonempty ≠ '/' := by
      subst kept
      simpa using List.rdropWhile_last_not (· == '/') (text ++ ['/']) nonempty
    have other : ∃ c ∈ base, c ≠ '/' := ⟨_, List.getLast_mem nonempty, last⟩
    have open_end : ¬ (base = [] ∨ base.getLast? = some '/') := by
      simp [nonempty, List.getLast?_eq_getLast_of_ne_nil nonempty, last]
    rw [joinTexts, if_neg (by simp [relative]), if_neg open_end, leadingSlashes_append _ other,
      ← split, List.append_assoc, leadingSlashes_append _ other]

theorem hasDoubleSlash_joined (absolute : isAbsolute document = true) (written : Text) :
    hasDoubleSlash (joined document written) = hasDoubleSlash (anchor document written) := by
  unfold anchor
  cases own : isAbsolute written with
  | true => simp [joined, joinTexts, own]
  | false =>
    rw [hasDoubleSlash_eq, leadingSlashes_joined absolute own, ← hasDoubleSlash_eq]
    rfl

theorem leadingSlashes_toText {path : Path}
    (plain : ∀ component ∈ path.components, IsPlain component) :
    leadingSlashes path.toText = if path.doubleSlash then ['/', '/'] else ['/'] := by
  have none := leadingSlashes_of_relative (isAbsolute_join plain)
  unfold leadingSlashes at none ⊢
  rw [toText]
  cases path.doubleSlash <;> simp [none]

theorem ofText_toText {path : Path} (plain : ∀ component ∈ path.components, IsPlain component) :
    ofText path.toText = path := by
  have slashes : hasDoubleSlash path.toText = path.doubleSlash := by
    rw [hasDoubleSlash_eq, leadingSlashes_toText plain]
    cases path.doubleSlash <;> rfl
  have place : placeOf path.toText = path.components := by
    rw [placeOf_eq, componentsOf_toText_of_plain plain, foldl_enter_plain [] plain, List.nil_append]
  exact Path.mk.injEq .. ▸ ⟨slashes, place⟩

theorem hasDoubleSlash_toText (path : Text) :
    hasDoubleSlash (ofText path).toText = hasDoubleSlash path :=
  congrArg doubleSlash (ofText_toText fun _ => isPlain_of_mem_placeOf)

theorem placeOf_toText (path : Text) : placeOf (ofText path).toText = placeOf path :=
  congrArg components (ofText_toText fun _ => isPlain_of_mem_placeOf)

theorem toText_eq_iff : (ofText path).toText = (ofText other).toText ↔
    placeOf path = placeOf other ∧ hasDoubleSlash path = hasDoubleSlash other := by
  constructor
  next =>
    intro same
    exact ⟨by rw [← placeOf_toText path, same, placeOf_toText],
      by rw [← hasDoubleSlash_toText path, same, hasDoubleSlash_toText]⟩
  next =>
    rintro ⟨place, slashes⟩
    have whole : ofText path = ofText other := Path.mk.injEq .. ▸ ⟨slashes, place⟩
    rw [whole]

-- Two paths lead to one place, however they are spelled, if their components come to the same.
theorem eq_of_locate {workspace : Workspace} {shown shown' : Text} {place place' : Place}
    (same : placeOf path = placeOf other)
    (located : workspace.locate shown (ofText path).toText = .ok place)
    (located' : workspace.locate shown' (ofText other).toText = .ok place') : place = place' := by
  rw [placeOf_of_locate located, placeOf_of_locate located', placeOf_toText, placeOf_toText, same]

end Path

theorem Import.path_of_mem_scan {reference : Import} {suffix document text : Text}
    (imported : reference ∈ Import.scan suffix document text) :
    reference.path = (Path.ofText (Path.joined document reference.blockPath)).toText := by
  obtain ⟨reached, place, rest, found⟩ := Recogniser.exists_read_of_mem_values imported
  simp only [Import.form, Option.map_eq_some_iff, Prod.exists, Prod.mk.injEq] at found
  obtain ⟨name, stem, after, -, rfl, -⟩ := found
  rfl

-- So a block is asked for by a path in normal form.
theorem Import.straight_of_mem_scan (workspace : Workspace) {reference : Import}
    {suffix document text : Text} (imported : reference ∈ Import.scan suffix document text) :
    workspace.Straight reference.path := by
  rw [path_of_mem_scan imported]
  exact ⟨[], _, [], componentsOf_toText (Path.joined document reference.blockPath), .nil [],
    fun _ => isPlain_of_mem_placeOf⟩

namespace Path

structure IsNormal (text : Text) : Prop where
  slashes : leadingSlashes text = ['/'] ∨ leadingSlashes text = ['/', '/']
  plain : ∃ components, (∀ component ∈ components, IsPlain component) ∧
    text = leadingSlashes text ++ join ['/'] components

variable {path : Path} {text : Text}

theorem isNormal_toText (plain : ∀ component ∈ path.components, IsPlain component) :
    IsNormal path.toText := by
  have front := leadingSlashes_toText plain
  refine ⟨?_, path.components, plain, ?_⟩
  next =>
    rw [front]
    cases path.doubleSlash <;> simp
  next => rw [front, toText]

theorem exists_path_of_isNormal (normal : IsNormal text) :
    ∃ path : Path, (∀ component ∈ path.components, IsPlain component) ∧ path.toText = text := by
  obtain ⟨slashes, components, plain, whole⟩ := normal
  rcases slashes with one | two
  next => exact ⟨⟨false, components⟩, plain, by rw [whole, one]; rfl⟩
  next => exact ⟨⟨true, components⟩, plain, by rw [whole, two]; rfl⟩

theorem isAbsolute_toText (path : Path) : isAbsolute path.toText = true := by
  unfold toText
  cases path.doubleSlash <;> rfl

-- An absolute path text means the same in every document.
theorem resolve_of_isAbsolute (absolute : isAbsolute text = true) (document : Text) :
    resolve document text = ofText text := by
  rw [resolve, joinTexts, if_pos absolute]

theorem resolve_of_isNormal (normal : IsNormal text) (document : Text) :
    (resolve document text).toText = text := by
  obtain ⟨path, plain, rfl⟩ := exists_path_of_isNormal normal
  rw [resolve_of_isAbsolute (isAbsolute_toText path), ofText_toText plain]

theorem isNormal_resolve (document written : Text) : IsNormal (resolve document written).toText :=
  isNormal_toText fun _ => isPlain_of_mem_placeOf

/-- What a document means by a path is in normal form, and every document means the same by it. The
texts in normal form are those that no document takes for another one. -/
theorem resolve_settled (document written : Text) :
    IsNormal (resolve document written).toText ∧
      (∀ other, (resolve other (resolve document written).toText).toText =
        (resolve document written).toText) ∧
      ∀ text, IsNormal text ↔ ∀ other, (resolve other text).toText = text := by
  have normal := isNormal_resolve document written
  refine ⟨normal, resolve_of_isNormal normal, fun text => ⟨resolve_of_isNormal, ?_⟩⟩
  intro settled
  have same := settled document
  rw [← same]
  exact isNormal_resolve document text

example : (resolve "//a/../b/Page" "./c/.././/d/./../e.block").toText = "//b/e.block".toList := by
  rfl

end Path

end Inlay
