import Inlay.Build.Tree
import Inlay.Proofs.Import.Resolution
import Inlay.Proofs.Session.SingleUse

set_option autoImplicit false

namespace Inlay

open Text Workspace

namespace Attempt

def IsFor (attempt : Attempt) (document written : Text) : Prop :=
  attempt.document = document ∧ attempt.reference.blockPath = written

end Attempt

-- An attempt is for the path that its document means.
def Attempt.IsResolved (attempt : Attempt) : Prop :=
  attempt.path = (Path.ofText (Path.joined attempt.document attempt.reference.blockPath)).toText

namespace Session

variable {before after : Session} {attempts : List Attempt} {calls : List Call}

theorem Called.resolved (called : Called before attempts after calls) :
    ∀ attempt ∈ attempts, attempt.IsResolved := by
  intro attempt member
  have once := called.once attempt.claim
  have made : attempt.claim ∈ calls.flatMap (·.claims before.settings.blockSuffix) := by
    apply List.count_pos_iff.1
    exact Nat.lt_of_lt_of_le (List.count_pos_iff.2 (List.mem_map_of_mem member)) once
  obtain ⟨call, -, inside⟩ := List.mem_flatMap.1 made
  obtain ⟨reference, imported, same⟩ := List.mem_map.1 inside
  obtain ⟨own, rfl⟩ := Claim.mk.inj same
  rw [Attempt.IsResolved, ← own]
  exact Import.path_of_mem_scan imported

-- Whether an attempt passes or not, its path is on record for all that come later.
theorem Traced.mem_paths_of_earlier {earlier between later : List Attempt} {first second : Attempt}
    (traced : Traced before attempts after)
    (split : attempts = earlier ++ first :: (between ++ second :: later)) :
    first.path ∈ second.ledger.paths := by
  by_cases passes : first.passes = true
  next =>
    have recorded := traced.get?_of_earlier split passes (by simp : second ∈ _)
    by_contra missing
    rw [Ledger.get?_eq_none_iff.2 missing] at recorded
    cases recorded
  next =>
    have seen := traced.seen earlier first _ split
    have seen' := traced.seen (earlier ++ first :: between) second later (by simp [split])
    rw [Attempt.passes_iff, not_not, Ledger.paths, seen] at passes
    rw [Ledger.paths, seen', records_append, ← List.append_assoc, List.map_append]
    exact List.mem_append_left _ passes

end Session

namespace Run

open Session Inlay.Path

theorem exists_call_of_refused (run : Run) {steps : List Step}
    (kept : ∀ step ∈ steps, step.keepsLedger = true) {attempt : Attempt} {failure : Failure}
    (member : attempt ∈ run.attempts steps) (refused : attempt.outcome = .error failure) :
    ∃ call ∈ run.calls steps, call.result = .error failure := by
  have among : failure ∈ refusals (run.attempts steps) :=
    List.mem_filterMap.2 ⟨attempt, member, by simp [Attempt.refusal?, refused]⟩
  obtain ⟨call, made, inside⟩ :=
    List.mem_flatMap.1 ((run.called_steps kept).refused.symm.subset among)
  refine ⟨call, made, ?_⟩
  obtain ⟨document, text, _ | result⟩ := call
  next => simp_all [Call.refusals, Job.refusals]
  next => simp [Call.refusals, Job.refusals] at inside

/-- Paths that come to the same components lead to one file. They mean the same text just if both or
neither of them begin with exactly two slashes; then a block that was asked for by one of them is
refused from then on by the other, and its document fails. -/
theorem respelled_block_refused {document document' written written' : Text}
    (absolute : isAbsolute document = true) (absolute' : isAbsolute document' = true)
    (same : placeOf (joined document written) = placeOf (joined document' written')) :
    (∀ (workspace : Workspace) shown shown' place place',
      workspace.locate shown (resolve document written).toText = .ok place →
      workspace.locate shown' (resolve document' written').toText = .ok place' → place = place') ∧
    ((resolve document written).toText = (resolve document' written').toText ↔
      hasDoubleSlash (anchor document written) = hasDoubleSlash (anchor document' written')) ∧
    (hasDoubleSlash (anchor document written) = hasDoubleSlash (anchor document' written') →
      ∀ (run : Run) steps, (∀ step ∈ steps, step.keepsLedger = true) →
        ∀ earlier first between second later,
          run.attempts steps = earlier ++ first :: (between ++ second :: later) →
          first.IsFor document written → second.IsFor document' written' →
          ∃ original, second.ledger.get? first.path = some original ∧
            let failure : Failure := .reused (shownPath written' second.path) second.usage original
              second.ledger.entries
            second.outcome = .error failure ∧
              ∃ call ∈ run.calls steps, call.result = .error failure) := by
  have equal : (resolve document written).toText = (resolve document' written').toText ↔
      hasDoubleSlash (anchor document written) = hasDoubleSlash (anchor document' written') := by
    rw [← hasDoubleSlash_joined absolute, ← hasDoubleSlash_joined absolute']
    exact toText_eq_iff.trans (and_iff_right same)
  refine ⟨fun _ _ _ _ _ => eq_of_locate same, equal, ?_⟩
  rintro slashes run steps kept earlier first between second later split ⟨rfl, rfl⟩ ⟨rfl, rfl⟩
  have resolved := (run.called_steps kept).resolved
  have paths : first.path = second.path := by
    have here : first.IsResolved := resolved first (by simp [split])
    have there : second.IsResolved := resolved second (by simp [split])
    rw [here, there]
    exact equal.2 slashes
  have recorded := (run.called_steps kept).traced.mem_paths_of_earlier split
  obtain ⟨original, found⟩ : ∃ original, second.ledger.get? first.path = some original := by
    rw [← Option.ne_none_iff_exists', Ne, Ledger.get?_eq_none_iff, not_not]
    exact recorded
  have refused := Attempt.outcome_of_recorded (paths ▸ found)
  exact ⟨original, found, refused, run.exists_call_of_refused kept (by simp [split]) refused⟩

theorem respelled_block_refused_of_detour :
    let one : Text := "import A from \"./a.svelte.xblock\";"
    let other : Text := "import B from \"/src/.//deep/../a.svelte.xblock\";"
    let run : Run := { supply := { texts := [("/src/a.svelte.xblock", some "<p/>".toList)] } }
    let steps : List Step :=
      [.transform "/src/App.svelte" one, .transform "/src/deep/B.svelte" other]
    (∀ step ∈ steps, step.keepsLedger = true) ∧
      (run.attempts steps).map (fun attempt => (attempt.document, attempt.reference.blockPath)) =
        [("/src/App.svelte".toList, "./a.svelte.xblock".toList),
          ("/src/deep/B.svelte".toList, "/src/.//deep/../a.svelte.xblock".toList)] ∧
      ∃ call ∈ run.calls steps, ∃ shown current original usages,
        call.result = .error (.reused shown current original usages) := by
  intro one other run steps
  have kept : ∀ step ∈ steps, step.keepsLedger = true := by decide
  have made : (run.attempts steps).map
      (fun attempt => (attempt.document, attempt.reference.blockPath)) =
      [("/src/App.svelte".toList, "./a.svelte.xblock".toList),
        ("/src/deep/B.svelte".toList, "/src/.//deep/../a.svelte.xblock".toList)] := by
    decide +kernel
  refine ⟨kept, made, ?_⟩
  obtain ⟨first, second, split⟩ : ∃ first second, run.attempts steps = [first, second] :=
    List.length_eq_two.1 (by simpa using congrArg List.length made)
  simp only [split, List.map_cons, List.map_nil, List.cons.injEq, Prod.mk.injEq, and_true] at made
  have same : placeOf (joined "/src/App.svelte".toList "./a.svelte.xblock".toList) =
      placeOf (joined "/src/deep/B.svelte".toList "/src/.//deep/../a.svelte.xblock".toList) := by
    decide +kernel
  obtain ⟨-, -, refused⟩ := respelled_block_refused (by decide) (by decide) same
  obtain ⟨original, -, -, call, answered, failed⟩ :=
    refused (by decide +kernel) run steps kept [] first [] second [] split made.1 made.2
  exact ⟨call, answered, _, _, _, _, failed⟩

theorem block_used_twice :
    let workspace := ({} : Workspace).addFile ["src".toList, "a.svelte.xblock".toList]
      (Utf8.encode "<p/>".toList)
    let document : Text := "/src/App.svelte"
    let text : Text :=
      "import A from \"./a.svelte.xblock\";import B from \"//src/a.svelte.xblock\";<A/><B/>"
    let outcome := ({} : Session).transform (workspace.reader "utf-8".toList) document text
    (¬ ∀ document document' written written', isAbsolute document = true →
      isAbsolute document' = true →
      placeOf (joined document written) = placeOf (joined document' written') →
      (resolve document written).toText = (resolve document' written').toText) ∧
    placeOf (joined document "./a.svelte.xblock".toList) =
      placeOf (joined document "//src/a.svelte.xblock".toList) ∧
    outcome.2 = .ok (some "<p/><p/>".toList) ∧
    outcome.1.ledger.paths =
      ["/src/a.svelte.xblock".toList, "//src/a.svelte.xblock".toList] := by
  intro workspace document text outcome
  have same : placeOf (joined document "./a.svelte.xblock".toList) =
      placeOf (joined document "//src/a.svelte.xblock".toList) := by decide +kernel
  refine ⟨?_, same, by decide +kernel, by decide +kernel⟩
  intro canonical
  have equal := canonical document document "./a.svelte.xblock".toList
    "//src/a.svelte.xblock".toList (by decide) (by decide) same
  revert equal
  decide +kernel

end Run
end Inlay
