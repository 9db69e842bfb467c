import Inlay.Proofs.Script.Standing
import Inlay.Proofs.Session.Course
import Inlay.Session.Run

set_option autoImplicit false

namespace Inlay.Session

open Text Markup Script

variable {reader : Reader} {session : Session} {document text : Text}
variable {done : List Import} {reference : Import}

theorem IsFree.exists_block (free : session.IsFree reader document text done reference) :
    ∃ block, session.blockFrom reader reference.path = .ok block ∧
      clashes (declaredNames (session.textAfter reader text done))
        (declaredNamesOf block.scripts) = [] := by
  have fresh : reference.path ∉ (session.usagesAfter document done).map Prod.fst := by
    rw [← Ledger.lookup_eq_none_iff]
    by_contra recorded
    obtain ⟨earlier, recorded⟩ := Option.ne_none_iff_exists'.1 recorded
    exact free _ (.reused recorded)
  cases served : session.blockFrom reader reference.path with
  | error cause =>
    obtain ⟨unknown, _, failed⟩ := unknown_of_blockFrom served
    exact absurd (.unreadable fresh unknown failed) (free _)
  | ok block =>
    refine ⟨block, rfl, ?_⟩
    by_contra shared
    exact free _ (obstructs_of_clashes fresh served shared)

theorem freeAt_of_transform (reader : Reader) (session : Session) (document text : Text)
    {result : Option Text} (success : (session.transform reader document text).2 = .ok result)
    (imports : Import.scan session.settings.blockSuffix document text ≠ []) (k : Nat) :
    session.FreeAt reader document text
      (Import.scan session.settings.blockSuffix document text) k := by
  obtain ⟨recorded, -, ending⟩ := transform_ending reader session document text rfl imports
  rcases ending with ⟨free, -, -⟩ | ⟨_, failure, -, failed, -⟩
  next => exact free k
  next =>
    rw [failed] at success
    cases success

/-- A transform that succeeds has checked every import against the text as it stood then. -/
theorem transform_disjoint (reader : Reader) (session : Session) (document text : Text)
    {result : Option Text} (success : (session.transform reader document text).2 = .ok result)
    {k : Nat} {reference : Import}
    (found : (Import.scan session.settings.blockSuffix document text)[k]? = some reference) :
    let checked := session.textAfter reader text
      ((Import.scan session.settings.blockSuffix document text).take k)
    ∃ block, session.blockFrom reader reference.path = .ok block ∧
      ∀ name ∈ declaredNamesOf block.scripts, name ∉ declaredNames checked ∧
        ∀ script, StandsClear checked script → name ∈ declaredNames script →
          EndsBare (Comment.erase script) name ∧ (declaredNames script).count name = 1 := by
  have imports : Import.scan session.settings.blockSuffix document text ≠ [] := by
    intro none
    simp [none] at found
  have free := freeAt_of_transform reader session document text success imports k
  obtain ⟨block, served, disjoint⟩ := (free reference found).exists_block
  refine ⟨block, served, ?_⟩
  intro name declared
  have absent : name ∉ declaredNames (session.textAfter reader text
      ((Import.scan session.settings.blockSuffix document text).take k)) := by
    intro host
    have shared := mem_clashes.2 ⟨host, declared⟩
    rw [disjoint] at shared
    cases shared
  refine ⟨absent, ?_⟩
  intro script clear inside
  exact count_declaredNames_of_standsClear clear absent inside

theorem transform_disjoint_of_two_blocks :
    let supply : Supply := ⟨[("/src/a.svelte.xblock", some "<script>let a = 1;</script>".toList),
      ("/src/b.svelte.xblock", some "<script>let b = 1;</script>".toList)], fun _ => 0⟩
    let session : Session := {}
    let document : Text := "/src/App.svelte"
    let text : Text :=
      "<script>import A from './a.svelte.xblock';import B from './b.svelte.xblock';</script>"
    let references := Import.scan session.settings.blockSuffix document text
    let checked := session.textAfter supply.reader text (references.take 1)
    (∃ result, (session.transform supply.reader document text).2 = .ok result) ∧
      (references[1]?).map (·.path) = some "/src/b.svelte.xblock".toList ∧
      StandsClear checked "let a = 1;" ∧ ['b'] ∉ declaredNames checked := by
  intro supply session document text references checked
  have success : ∃ result, (session.transform supply.reader document text).2 = .ok result := by
    have given : (session.transform supply.reader document text).2.toOption.isSome = true := by
      decide +kernel
    cases outcome : (session.transform supply.reader document text).2 with
    | ok result => exact ⟨result, rfl⟩
    | error failure => rw [outcome] at given; cases given
  have second : (references[1]?).map (·.path) = some "/src/b.svelte.xblock".toList := by
    decide +kernel
  have clear : StandsClear checked "let a = 1;" := by
    have whole : checked = "<script>import B from './b.svelte.xblock';".toList ++
        '\n' :: ("let a = 1;".toList ++ "</script>".toList) := by decide +kernel
    rw [whole]
    exact standsClear_of_plain rfl (by decide) (by decide) (by decide)
  obtain ⟨result, given⟩ := success
  obtain ⟨reference, found, path⟩ := Option.map_eq_some_iff.1 second
  obtain ⟨block, served, disjoint⟩ :=
    transform_disjoint supply.reader session document text given found
  have parsed : session.blockFrom supply.reader reference.path =
      .ok (Block.parse "template" "<script>let b = 1;</script>") := by
    rw [path]
    rfl
  obtain rfl : Block.parse "template" "<script>let b = 1;</script>" = block :=
    Except.ok.inj (parsed.symm.trans served)
  exact ⟨⟨result, given⟩, second, clear, (disjoint ['b'] (by decide +kernel)).1⟩

theorem transform_hidden_names :
    let block : Text := "<script>let x = 1;</script>"
    let long : Text := "/src/x\"; let x = 1; import B from \"./b.svelte.xblock"
    let supply : Supply :=
      ⟨[("/src/a.svelte.xblock", some block), (long, some "<p/>".toList)], fun _ => 0⟩
    ∀ text ∈ [
      "<script>import A from \"./a.svelte.xblock\"; let x</script>".toList,
      "<p>//</p><script>import A from \"./a.svelte.xblock\"; let x = 1;</script>".toList,
      "<p>/*</p><script>import A from \"./a.svelte.xblock\"; let x = 1; /* */</script>".toList,
      ("<p>let \x7b</p><script>import A from \"./a.svelte.xblock\"; " ++
        "let \x7b x \x7d = y;</script>").toList,
      ("<script>import C from \"x\"; let x = 1; import B from \"./b.svelte.xblock\"; " ++
        "import A from \"./a.svelte.xblock\";</script>").toList],
      ((({} : Session).transform supply.reader "/src/App.svelte" text).2.toOption).isSome = true ∧
      (∃ reference ∈ Import.scan ".svelte.xblock" "/src/App.svelte" text,
        reference.path = "/src/a.svelte.xblock".toList) ∧
      ['x'] ∈ declaredNamesOf (Block.parse "template" block).scripts ∧
      ['x'] ∈ declaredNamesOf (segments scriptTag text) := by
  decide +kernel

end Inlay.Session
