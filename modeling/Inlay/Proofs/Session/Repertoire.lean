import Inlay.Proofs.Session.Stocking
import Inlay.Proofs.Text.Repertoire

set_option autoImplicit false

namespace Inlay

open Text Markup

variable {kind : Char → Prop} {text : Text}

namespace Markup

def insertedMarks : Text :=
  ['\n', ' ', '<', '/', '>'] ++ (scriptTag ++ styleTag)

/-- The attributes and the content of a region or a segment. -/
structure Region.Within (kind : Char → Prop) (region : Region) : Prop where
  attrs : Text.Within kind region.attrs
  content : Text.Within kind region.content

structure Segment.Within (kind : Char → Prop) (segment : Segment) : Prop where
  attrs : Text.Within kind segment.attrs
  content : Text.Within kind segment.content

structure Block.Within (kind : Char → Prop) (block : Block) : Prop where
  scripts : ∀ segment ∈ block.scripts, segment.Within kind
  styles : ∀ segment ∈ block.styles, segment.Within kind
  template : Text.Within kind block.template

theorem within_of_write_regions {tag : Text} {pieces : Pieces Region}
    (whole : Text.Within kind (pieces.write (Region.write tag))) :
    (∀ part ∈ pieces.parts, Text.Within kind part.1 ∧ part.2.Within kind) ∧
      Text.Within kind pieces.tail := by
  unfold Pieces.write at whole
  refine ⟨?_, whole.subset (List.subset_append_right _ _)⟩
  intro part member
  have here : Text.Within kind (part.1 ++ part.2.write tag) := by
    refine whole.subset fun c inside => List.mem_append_left _ ?_
    exact List.mem_flatMap.2 ⟨part, member, inside⟩
  refine ⟨here.subset (List.subset_append_left _ _), ?_, ?_⟩ <;>
    exact here.subset fun c inside => by simp [Region.write, inside]

theorem within_regions (tag : Text) (whole : Text.Within kind text) :
    (∀ part ∈ (regions tag text).parts, Text.Within kind part.1 ∧ part.2.Within kind) ∧
      Text.Within kind (regions tag text).tail :=
  within_of_write_regions ((write_regions tag text).symm ▸ whole)

theorem within_segments (tag : Text) (whole : Text.Within kind text) :
    ∀ segment ∈ segments tag text, segment.Within kind := by
  intro segment member
  obtain ⟨region, found, rfl⟩ := List.mem_map.1 member
  obtain ⟨part, inside, rfl⟩ := List.mem_map.1 found
  have region := ((within_regions tag whole).1 part inside).2
  exact ⟨region.attrs.trim, region.content.trim⟩

theorem within_upTo? {suffix rest : Text} (whole : Text.Within kind text)
    (found : upTo? suffix text = some rest) : Text.Within kind rest := by
  obtain ⟨backward, ends, rfl⟩ := Option.map_eq_some_iff.1 found
  have shape := congrArg List.reverse (after?_eq_some_iff.1 ends)
  rw [List.reverse_reverse, List.reverse_append, List.reverse_reverse] at shape
  rw [shape] at whole
  exact whole.subset (List.subset_append_left _ _)

theorem within_unwrap (tag : Text) (whole : Text.Within kind text) :
    Text.Within kind (unwrap tag text) := by
  unfold unwrap
  split
  next inside found =>
    simp only [wrapped?, Option.bind_eq_bind, Option.bind_eq_some_iff] at found
    obtain ⟨rest, opened, closed⟩ := found
    have rest' : Text.Within kind rest := by
      rw [after?_eq_some_iff.1 opened] at whole
      exact whole.subset (List.subset_append_right _ _)
    rw [Option.or_eq_some_iff] at closed
    rcases closed with closed | ⟨-, closed⟩
    next => exact (within_upTo? rest' closed).trim
    next => exact (within_upTo? rest' closed).trim
  next => exact whole

theorem Block.within_parse (tag : Text) (whole : Text.Within kind text) :
    (Block.parse tag text).Within kind where
  scripts := within_segments scriptTag whole
  styles := within_segments styleTag whole
  template := by
    have without (tag : Text) {text : Text} (whole : Text.Within kind text) :
        Text.Within kind (withoutRegions tag text) := whole.write (fun _ => .nil kind) none
    exact within_unwrap tag (without styleTag (without scriptTag whole)).trim

section Merge

variable (marks : Text.Within kind insertedMarks)

include marks

theorem Segment.Within.toRegion {segment : Segment} (within : segment.Within kind) :
    segment.toRegion.Within kind where
  attrs := by
    unfold Segment.toRegion
    split
    next => exact .nil kind
    next => exact .cons (marks _ (by simp [insertedMarks])) within.attrs
  content := within.content

theorem Region.Within.write {region : Region} {tag : Text} (named : Text.Within kind tag)
    (within : region.Within kind) : Text.Within kind (region.write tag) := by
  have opens : kind '<' := marks _ (by simp [insertedMarks])
  have closes : kind '>' := marks _ (by simp [insertedMarks])
  have slash : kind '/' := marks _ (by simp [insertedMarks])
  unfold Region.write opening closing
  refine .append (.append (.append (.cons opens named) within.attrs) ?_) ?_
  next => exact .cons closes within.content
  next => exact .cons opens (.cons slash (.append named (.cons closes (.nil kind))))

theorem within_absorbFirst? {segment : Segment} {parts joined : List (Text × Region)}
    (within : segment.Within kind)
    (whole : ∀ part ∈ parts, Text.Within kind part.1 ∧ part.2.Within kind)
    (found : absorbFirst? segment parts = some joined) :
    ∀ part ∈ joined, Text.Within kind part.1 ∧ part.2.Within kind := by
  induction parts generalizing joined with
  | nil => cases found
  | cons part parts ih =>
    obtain ⟨gap, region⟩ := part
    obtain ⟨here, rest⟩ := List.forall_mem_cons.1 whole
    unfold absorbFirst? at found
    split at found
    next =>
      cases found
      refine List.forall_mem_cons.2 ⟨⟨here.1, ?_⟩, rest⟩
      exact Segment.Within.toRegion marks ⟨within.attrs,
        here.2.content.append (.cons (marks _ (by simp [insertedMarks])) within.content)⟩
    next =>
      obtain ⟨later, joins, rfl⟩ := Option.map_eq_some_iff.1 found
      exact List.forall_mem_cons.2 ⟨here, ih rest joins⟩

theorem within_mergeSegments {tag : Text} (named : Text.Within kind tag) {added : List Segment}
    (within : ∀ segment ∈ added, segment.Within kind) (whole : Text.Within kind text) :
    Text.Within kind (mergeSegments tag text added) := by
  unfold mergeSegments
  induction added generalizing text with
  | nil => exact whole
  | cons segment added ih =>
    obtain ⟨here, rest⟩ := List.forall_mem_cons.1 within
    refine ih rest ?_
    unfold mergeSegment
    obtain ⟨parts, tail⟩ := within_regions tag whole
    dsimp only
    split
    next joined found =>
      unfold Pieces.write
      refine .append ?_ tail
      intro c member
      obtain ⟨part, inside, written⟩ := List.mem_flatMap.1 member
      obtain ⟨gap, region⟩ := within_absorbFirst? marks here parts found part inside
      exact gap.append (region.write marks named) c written
    next =>
      have region := here.toRegion marks
      exact whole.append (.cons (marks _ (by simp [insertedMarks])) (region.write marks named))

end Merge
end Markup

theorem within_replaceFirst (mark : Text) (whole : Within kind text) :
    Within kind (replaceFirst mark [] text) := by
  unfold replaceFirst
  split
  next before rest cut =>
    refine whole.subset ?_
    rw [eq_of_cut? cut, List.append_nil]
    exact List.append_subset.2 ⟨fun c inside => by simp [inside], List.subset_append_right _ _⟩
  next => exact whole

theorem within_weave (marks : Within kind insertedMarks) {document current merged : Text}
    {reference : Import} {block : Block} (whole : Within kind current) (within : block.Within kind)
    (woven : weave document current reference block = .ok merged) : Within kind merged := by
  unfold weave at woven
  split at woven
  next =>
    cases woven
    have bare := within_replaceFirst reference.statement whole
    have named : Within kind scriptTag :=
      marks.subset fun c member => by simp [insertedMarks, member]
    have named' : Within kind styleTag :=
      marks.subset fun c member => by simp [insertedMarks, member]
    have scripted := within_mergeSegments marks named within.scripts bare
    have filled : Within kind (Placeholder.fill reference.name block.template
        (mergeScripts (replaceFirst reference.statement [] current) block.scripts)) :=
      Within.write scripted (fun _ => within.template) none
    exact within_mergeSegments marks named' within.styles filled
  next => cases woven

def Job.Within (kind : Char → Prop) : Job → Prop
  | ready text _ => Text.Within kind text
  | waiting _ current _ _ => Text.Within kind current
  | finished result => ∀ code, result = .ok (some code) → Text.Within kind code

theorem Job.Within.mono {other : Char → Prop} (wider : ∀ c, kind c → other c) {job : Job}
    (within : job.Within kind) : job.Within other := by
  cases job with
  | ready => exact fun c member => wider c (within c member)
  | waiting => exact fun c member => wider c (within c member)
  | finished => exact fun code same c member => wider c (within code same c member)

variable {behind : Text → Text → Prop}

def Reader.Obeys (behind : Text → Text → Prop) (reader : Reader) : Prop :=
  ∀ path text, reader.read path = .ok text → behind path text

namespace Session

structure Obeys (behind : Text → Text → Prop) (session : Session) : Prop where
  coherent : session.Coherent
  raw : ∀ path text, session.store.raw? path = some text → behind path text

theorem Obeys.of_empty {session : Session} (empty : session.store = {})
    (behind : Text → Text → Prop) : session.Obeys behind where
  coherent := by
    intro path block found
    rw [empty] at found
    cases found
  raw := by
    intro path text found
    rw [empty] at found
    cases found

theorem Obeys.mono {other : Text → Text → Prop} {session : Session}
    (wider : ∀ path text, behind path text → other path text) (known : session.Obeys behind) :
    session.Obeys other :=
  ⟨known.coherent, fun path text found => wider path text (known.raw path text found)⟩

-- The journal has no say in it.
theorem Obeys.of_journal {session : Session} (known : session.Obeys behind) (journal : Journal) :
    { session with journal }.Obeys behind :=
  ⟨known.coherent, known.raw⟩

variable {session before after : Session} {reader : Reader} {asked answered : List Text}
variable {document current path written : Text} {reference : Import} {references : List Import}
variable {block : Block}

theorem Obeys.stocked (stocked : Stocked reader asked answered before after)
    (reads : reader.Obeys behind) (known : before.Obeys behind) : after.Obeys behind where
  coherent := stocked.coherent known.coherent
  raw := by
    intro path text found
    rw [stocked.raw, Option.or_eq_some_iff] at found
    rcases found with fresh | ⟨-, old⟩
    next =>
      split at fresh
      next =>
        cases read : reader.read path with
        | error fault => simp [read, Except.toOption] at fresh
        | ok raw =>
          rw [read] at fresh
          cases fresh
          exact reads path _ read
      next => cases fresh
    next => exact known.raw path text old

-- A stored block was parsed from a text that may be behind its path, and so was one that is read.
theorem exists_storedBlock (known : session.Obeys behind)
    (found : (session.storedBlock path).2 = some block) :
    ∃ tag raw, behind path raw ∧ block = Block.parse tag raw := by
  rcases session.store_cases path with ⟨block', stored⟩ | ⟨unparsed, raw, stored⟩ | unknown
  next =>
    rw [storedBlock_of_parsed stored] at found
    cases found
    obtain ⟨raw, known', rfl⟩ := known.coherent path _ stored
    exact ⟨_, raw, known.raw path raw known', rfl⟩
  next =>
    rw [storedBlock_of_raw unparsed stored] at found
    exact ⟨_, raw, known.raw path raw stored, (Option.some.inj found).symm⟩
  next =>
    rw [storedBlock_of_unknown unknown] at found
    cases found

theorem exists_receiveBlock (reads : reader.Obeys behind)
    (received : (session.receiveBlock path written (reader.read path)).2 = .ok block) :
    ∃ tag raw, behind path raw ∧ block = Block.parse tag raw := by
  cases read : reader.read path with
  | error cause => simp [read, receiveBlock, receiveText] at received
  | ok raw =>
    simp only [read, receiveBlock, receiveText, keepBlock, Except.ok.injEq] at received
    exact ⟨_, raw, reads path raw read, received.symm⟩

variable (kind behind) in
-- The texts that may be behind the paths of some imports are of one kind.
def Supplies (references : List Import) : Prop :=
  ∀ reference ∈ references, ∀ raw, behind reference.path raw → Text.Within kind raw

theorem Supplies.within_block (supplies : Supplies kind behind (reference :: references))
    (parsed : ∃ tag raw, behind reference.path raw ∧ block = Block.parse tag raw) :
    block.Within kind := by
  obtain ⟨tag, raw, there, rfl⟩ := parsed
  exact Block.within_parse tag (supplies reference List.mem_cons_self raw there)

variable (marks : Within kind insertedMarks) (reads : reader.Obeys behind)

variable (kind behind reader document references) in
-- However the imports go on, the job stays within the kind.
def StaysWithin : Prop :=
  ∀ (session : Session) (current : Text), session.Obeys behind → Within kind current →
    (session.advance reader document current references).2.Within kind

include marks

theorem StaysWithin.proceed (onward : StaysWithin kind behind reader document references)
    (known : session.Obeys behind) (whole : Within kind current) (parsed : block.Within kind) :
    (session.proceed reader document current reference references block).2.Within kind := by
  unfold Session.proceed merge
  cases woven : weave document current reference block with
  | error failure => rintro _ ⟨⟩
  | ok merged =>
    exact onward _ _ ⟨known.coherent, known.raw⟩ (within_weave marks whole parsed woven)

include reads

theorem StaysWithin.resume (onward : StaysWithin kind behind reader document references)
    (supplies : Supplies kind behind (reference :: references)) (known : session.Obeys behind)
    (whole : Within kind current) :
    (session.resume reader document current reference references).2.Within kind := by
  rw [resume_eq]
  have stocked := known.stocked (stocked_receiveBlock reader session reference.path
    reference.blockPath) reads
  have parsed (block : Block) := @exists_receiveBlock behind session reader reference.path
    reference.blockPath block reads
  cases received : session.receiveBlock reference.path reference.blockPath
      (reader.read reference.path) with
  | mk next result =>
    rw [received] at stocked parsed
    cases result with
    | error failure => rintro _ ⟨⟩
    | ok block =>
      exact StaysWithin.proceed marks onward stocked whole (supplies.within_block (parsed _ rfl))

theorem staysWithin_advance (supplies : Supplies kind behind references) :
    StaysWithin kind behind reader document references := by
  induction references with
  | nil =>
    intro session current _ whole
    rintro _ ⟨⟩
    exact whole
  | cons reference references ih =>
    intro session current known whole
    have onward := ih fun other member => supplies other (List.mem_cons_of_mem _ member)
    rw [advance_cons]
    cases claimed : session.claimImport document reference with
    | mk next result =>
    cases result with
    | error failure => rintro _ ⟨⟩
    | ok done =>
      have attempted := (claimed_of_claimImport claimed).toAttempted
      have claims : next.Obeys behind := known.stocked (.of_attempted attempted) reads
      have stocked := claims.stocked (stocked_storedBlock reader next reference.path) reads
      have parsed (block : Block) := @exists_storedBlock behind next reference.path block claims
      dsimp only
      unfold serve
      cases taken : next.storedBlock reference.path with
      | mk served found =>
        rw [taken] at stocked parsed
        cases found with
        | some block =>
          exact StaysWithin.proceed marks onward stocked whole (supplies.within_block (parsed _ rfl))
        | none =>
          dsimp only
          cases reader.pauses reference.path with
          | zero => exact StaysWithin.resume marks reads onward supplies stocked whole
          | succ pauses => exact whole

theorem within_turn {job : Job} (supplies : Supplies kind behind job.remaining)
    (known : session.Obeys behind) (whole : job.Within kind) :
    (session.turn reader document job).2.Within kind := by
  match job with
  | .ready text [] => rintro _ ⟨⟩
  | .ready text (reference :: references) =>
    exact staysWithin_advance marks reads supplies session text known whole
  | .waiting (pauses + 1) current reference references => exact whole
  | .waiting 0 current reference references =>
    have onward : StaysWithin kind behind reader document references :=
      staysWithin_advance marks reads fun other member => supplies other (List.mem_cons_of_mem _ member)
    exact StaysWithin.resume marks reads onward supplies known whole
  | .finished result => exact whole

omit marks

theorem obeys_turn (document : Text) (job : Job) (known : session.Obeys behind) :
    (session.turn reader document job).1.Obeys behind := by
  obtain ⟨asked, answered, stocked, -⟩ := supplied_turn reader document session job
  exact known.stocked stocked reads

end Session

theorem within_insertedMarks (codec : Codec) : Within codec.Has insertedMarks := by
  have small : insertedMarks.all (fun c => decide (c.toNat < 0x80)) = true := by decide
  intro c member
  exact Codec.has_of_ascii (of_decide_eq_true (List.all_eq_true.1 small c member)) codec

end Inlay
