import Modelark.Conversion.Annex
import Modelark.Conversion.Resume
import Modelark.Revision.Discipline

/-!
# Conversions that are interrupted

Calls that apply and resume one plan, each interrupted anywhere. Every row names bytes that are all there at
every moment, and is changed once, and a resumed call completes the conversion.
-/

namespace Modelark.Conversion

open Library Execution Revision

inductive Invocation where
  | apply (call : Call)
  | resume (call : Call)

def Invocation.program (tools : Tools) (plan : Plan) : Invocation → Act Outcome
  | .apply call => applyConversion tools call plan
  | .resume call => resumeConversion tools call (planSeal tools plan.fields)

/-- Nothing is left that a call cannot go on with: the plan's file is whole, as are the destinations, and no
    destination is committed that its row does not name. -/
def Usable (tools : Tools) (plan : Plan) (place : Candidate → Place) (world : World) : Prop :=
  Clean plan place world ∧
    ∀ text, world.plans.lookup (plan.stem tools) = some text → text = plan.text tools

/-- A call on the plan begins when the world is usable. -/
def Begins (tools : Tools) (plan : Plan) (place : Candidate → Place) (world : World)
    (program : Act Outcome) : Prop :=
  Usable tools plan place world ∧ ∃ invocation : Invocation, program = invocation.program tools plan

abbrev Moment := Program.Moment World Failure Outcome

/-- One moment is later than another in a run of calls on the plan. -/
abbrev Later (tools : Tools) (plan : Plan) (place : Candidate → Place) : Moment → Moment → Prop :=
  Program.Onward (Begins tools plan place)

/-- Every row that has an annex key is as it was. -/
def Keyed (before after : World) : Prop :=
  ∀ key row, before.catalog.tables.archived.find key = some row →
    Modelark.Archive.truthy row.annexKey = true → after.catalog.tables.archived.find key = some row

section Keyed

variable {tools : Tools} {plan : Plan} {world before after : World} {label : String}

theorem Keyed.refl (world : World) : Keyed world world :=
  fun _ _ found _ => found

theorem Keyed.trans (first second third : World) (one : Keyed first second) (two : Keyed second third) :
    Keyed first third :=
  fun key row found keyed => two key row (one key row found keyed) keyed

theorem Keyed.of_catalog (same : after.catalog = before.catalog) : Keyed before after := by
  intro key row found _
  rwa [same]

theorem publishKey_keyed {candidate row : ArchivedRow} {annexKey relpath name : String} {c after : Catalog}
    {key : String × String × String} (published : publishKey candidate annexKey relpath name c = .ok after)
    (found : c.tables.archived.find key = some row) (keyed : Modelark.Archive.truthy row.annexKey = true) :
    after.tables.archived.find key = some row := by
  simp only [publishKey, Catalog.graphWrite, bind_eq_ok, pure_eq_ok] at published
  obtain ⟨_, _, _, ⟨_, _, rfl⟩, committed⟩ := published
  simp only [Bool.false_eq_true, if_false, bumpRevision_eq_ok] at committed
  rw [committed.2]
  let change (row : ArchivedRow) : ArchivedRow :=
    { row with annexKey := some annexKey, storedRelpath := some relpath, storedName := some name }
  have keeps (row : ArchivedRow) : (change row).key = row.key := rfl
  refine (c.tables.archived.find_update_map keeps key).trans ?_
  simp [found, keyed]

theorem steady_ensure (holds : Bool) (code : String) : (ensure holds code).Steady Keyed :=
  Program.steady_lift _

theorem steady_see {α : Type} (see : World → Except Failure α) :
    (Program.look see : Act α).Steady Keyed :=
  Program.steady_look Keyed.refl

theorem steady_git (command : GitCommand) (path : String) : (git tools label command path).Steady Keyed := by
  apply Program.steady_atomic Keyed.refl
  intro world after output acted
  split at acted
  · cases acted
    exact Keyed.of_catalog rfl
  · cases acted

theorem steady_writeNew (path : String) (bytes : Bytes) : (writeNew label path bytes).Steady Keyed := by
  apply Program.steady_tearing Keyed.refl
  · rintro world _ ⟨part, archive, _, _, rfl⟩
    exact Keyed.of_catalog rfl
  · intro world after value acted
    split at acted
    · cases acted
      exact Keyed.of_catalog rfl
    · cases acted

theorem steady_whenever {holds : Bool} {act : Act Unit} (steady : act.Steady Keyed) :
    (whenever holds act).Steady Keyed := by
  unfold whenever
  split
  · exact steady
  · trivial

theorem steady_publish (candidate : Candidate) (key relpath : String) :
    (publish candidate key relpath).Steady Keyed := by
  apply Program.steady_atomic Keyed.refl
  intro world after value acted
  split at acted
  · rename_i catalog published
    cases acted
    intro wanted row found keyed
    exact publishKey_keyed published found keyed
  · cases acted

theorem steady_sourcePath (candidate : Candidate) : (sourcePath label candidate).Steady Keyed :=
  (Program.steady_lift _).bind fun _ => (Program.steady_lift _).bind fun _ =>
    (steady_see _).bind fun _ => (steady_ensure _ _).bind fun _ => trivial

theorem steady_convertFile (candidate : Candidate) : (convertFile tools label candidate).Steady Keyed :=
  (steady_sourcePath candidate).bind fun _ => (steady_see _).bind fun _ => (steady_ensure _ _).bind fun _ =>
    (Program.steady_lift _).bind fun _ => (Program.steady_lift _).bind fun _ => (steady_see _).bind fun _ =>
      (steady_whenever (steady_writeNew _ _)).bind fun _ => (steady_git _ _).bind fun _ =>
        (steady_git _ _).bind fun _ => (Program.steady_lift _).bind fun _ =>
          (Program.steady_lift _).bind fun _ => (steady_ensure _ _).bind fun _ => (steady_git _ _).bind fun _ =>
            (steady_see _).bind fun _ => (steady_ensure _ _).bind fun _ => (steady_git _ _).bind fun _ => trivial

theorem steady_retireSource (candidate : Candidate) (dest : String) :
    (retireSource tools label candidate dest).Steady Keyed := by
  unfold retireSource
  split
  · trivial
  · apply (Program.steady_lift _).bind
    intro src
    apply (steady_see _).bind
    intro same
    split
    · trivial
    · apply (steady_git _ _).bind
      intro committed
      split
      · trivial
      · apply (steady_git _ _).bind
        intro indexed
        apply (steady_see _).bind
        intro present
        apply Program.Steady.bind
        · apply steady_whenever
          apply (steady_git _ _).bind
          intro _
          trivial
        · exact fun _ => (steady_git _ _).bind fun _ => (steady_git _ _).bind fun _ => steady_ensure _ _

theorem steady_convertCandidate (archives : List String) (candidate : Candidate) :
    (convertCandidate tools archives candidate).Steady Keyed := by
  unfold convertCandidate
  split
  · trivial
  · apply (steady_ensure _ _).bind
    intro _
    apply (Program.steady_lift _).bind
    intro dest
    apply (steady_see _).bind
    intro current
    split
    · exact (steady_retireSource _ _).bind fun _ => trivial
    · exact (steady_convertFile _).bind fun _ => (steady_publish _ _ _).bind fun _ =>
        (steady_retireSource _ _).bind fun _ => trivial

theorem steady_convertWith (archives : Option (List String)) (frozen : List (String × Json)) :
    (convertWith tools archives frozen).Steady Keyed := by
  unfold convertWith
  split
  · trivial
  · trivial
  · exact ((Program.steady_lift _).bind fun _ =>
      Program.steady_gather (steady_convertCandidate _) _).bind fun _ => trivial

theorem steady_checkCall (call : Call) : (checkCall call).Steady Keyed :=
  (steady_ensure _ _).bind fun _ => (steady_ensure _ _).bind fun _ => steady_ensure _ _

theorem steady_writePrivate (name text : String) : (writePrivate name text).Steady Keyed := by
  apply Program.steady_tearing Keyed.refl
  · rintro world _ ⟨part, _, rfl⟩
    exact Keyed.of_catalog rfl
  · intro world after value acted
    split at acted
    · cases acted
    · cases acted
      exact Keyed.of_catalog rfl

theorem steady_program (invocation : Invocation) : (invocation.program tools plan).Steady Keyed := by
  cases invocation with
  | apply call =>
      apply (steady_checkCall call).bind
      intro _
      apply (steady_see _).bind
      intro present
      split
      · exact (steady_ensure _ _).bind fun _ => (steady_see _).bind fun _ => (steady_ensure _ _).bind fun _ =>
          steady_convertWith _ _
      · exact (steady_writePrivate _ _).bind fun _ => steady_convertWith _ _
  | resume call =>
      exact (steady_checkCall call).bind fun _ => (steady_see _).bind fun _ => (steady_see _).bind fun _ =>
        (steady_ensure _ _).bind fun _ => (steady_ensure _ _).bind fun _ => steady_convertWith _ _

end Keyed

/-- The path that a row names, in the archive of its drive. -/
def RowPath (row : ArchivedRow) (path : String) : Prop :=
  ∃ stored, row.storedRelpath = some stored ∧ confined row.repoId stored = .ok path

/-- The destination is committed with its bytes. -/
def Committed (tools : Tools) (archive : Archive) (place : Place) : Prop :=
  archive.head[place.dest]? = some (.link (tools.location place.data)) ∧
    archive.objects[tools.location place.data]? = some place.data

/-- Every row that a conversion is about is as it was planned or names its destination, where its bytes are
    committed, and its path holds all the bytes. All other rows are as they were. -/
structure Whole (tools : Tools) (start : World) (plan : Plan) (place : Candidate → Place) (world : World) :
    Prop where
  rows : ∀ candidate ∈ plan.convertible, ∃ row path,
    world.catalog.tables.archived.find candidate.row.key = some row ∧ RowPath row path ∧
      (world.archives candidate.row.driveLabel).read path = some (place candidate).data ∧
      (row = candidate.row ∨ row = convertedRow tools candidate.row (place candidate) ∧
        Committed tools (world.archives candidate.row.driveLabel) (place candidate))
  others : ∀ key, (∀ candidate ∈ plan.convertible, candidate.row.key ≠ key) →
    world.catalog.tables.archived.find key = start.catalog.tables.archived.find key

/-- Every row that the conversion is about names its destination, with the key of its bytes, committed. -/
def Completed (tools : Tools) (plan : Plan) (place : Candidate → Place) (world : World) : Prop :=
  ∀ candidate ∈ plan.convertible,
    world.catalog.tables.archived.find candidate.row.key =
      some (convertedRow tools candidate.row (place candidate)) ∧
    RowPath (convertedRow tools candidate.row (place candidate)) (place candidate).dest ∧
    Committed tools (world.archives candidate.row.driveLabel) (place candidate)

section Moments

variable {tools : Tools} {start world : World} {plan : Plan} {place : Candidate → Place}
variable {candidate : Candidate} {allowed : Candidate → Phase → Prop}

theorem Fits.rowPath (fits : Fits tools start candidate (place candidate)) :
    RowPath candidate.row (place candidate).src := by
  obtain ⟨stored, named, located⟩ := fits.source
  refine ⟨stored, ?_, located⟩
  exact (Option.filter_eq_some_iff.mp named).1

theorem Annexed.committed {archive : Archive} {place : Place} (annexed : Annexed tools archive place) :
    Committed tools archive place :=
  ⟨congrArg Tracked.head annexed.1, annexed.2⟩

theorem Annexed.read {archive : Archive} {place : Place} (annexed : Annexed tools archive place) :
    archive.read place.dest = some place.data := by
  have worktree := congrArg Tracked.worktree annexed.1
  simp only [Archive.tracked] at worktree
  rw [Archive.read, worktree]
  exact annexed.2

/-- A row that is still as it was planned has its bytes at its path. -/
theorem At.readPlanned {phase : Phase} (fit : Fit tools start plan place) (member : candidate ∈ plan.convertible)
    (kept : Kept tools start plan place allowed world)
    (at' : At tools start candidate (place candidate) world phase) (planned : phase.isPublished = false) :
    (world.archives candidate.row.driveLabel).read (place candidate).src = some (place candidate).data := by
  have fits := fit.each candidate member
  by_cases same : (place candidate).src = (place candidate).dest
  · rcases at'.same same with rfl | rfl | rfl
    · have focused : Kept tools start plan place (focus (fun _ _ => True) candidate .ready) world :=
        { kept with
          each := by
            intro other among
            by_cases here : other = candidate
            · subst here
              exact ⟨.ready, at', by rw [focus, if_pos rfl]⟩
            · obtain ⟨now, there, _⟩ := kept.each other among
              exact ⟨now, there, by rw [focus, if_neg here]; trivial⟩ }
      exact focused.readSource fit member
    · have annexed : Annexed tools (world.archives candidate.row.driveLabel) (place candidate) := at'.target
      rw [same]
      exact annexed.read
    · cases planned
  · have source := at'.source same
    cases phase with
    | published | removed | retired => cases planned
    | ready | torn | committed => exact read_grown source (kept.objects _) fits.held

theorem Kept.whole (fit : Fit tools start plan place) (kept : Kept tools start plan place allowed world) :
    Whole tools start plan place world where
  rows candidate member := by
    have fits := fit.each candidate member
    obtain ⟨phase, at', _⟩ := kept.each candidate member
    have row := at'.row
    cases published : phase.isPublished with
    | false =>
        rw [published, if_neg Bool.false_ne_true] at row
        exact ⟨candidate.row, (place candidate).src, row, fits.rowPath, at'.readPlanned fit member kept published,
          .inl rfl⟩
    | true =>
        rw [published, if_pos rfl] at row
        have annexed := at'.annexed published
        exact ⟨_, (place candidate).dest, row, ⟨_, rfl, fits.target.2⟩, annexed.read,
          .inr ⟨rfl, annexed.committed⟩⟩
  others := kept.others

theorem Kept.completed (fit : Fit tools start plan place)
    (kept : Kept tools start plan place (fun _ phase => phase.isPublished = true) world) :
    Completed tools plan place world := by
  intro candidate member
  obtain ⟨phase, at', published⟩ := kept.each candidate member
  have row := at'.row
  rw [published, if_pos rfl] at row
  exact ⟨row, ⟨_, rfl, (fit.each candidate member).target.2⟩, (at'.annexed published).committed⟩

/-- No candidate is known to be done. -/
def undone : Candidate → Prop := fun _ => False

theorem Left.whole (fit : Fit tools start plan place) (left : Left tools start plan place undone world) :
    Whole tools start plan place world := by
  have begun := (Kept.begin fit fun _ _ => id : Kept tools start plan place (Lasting undone) start).whole fit
  rcases left with ⟨part, _, rfl⟩ | rfl | kept
  · exact ⟨begun.rows, begun.others⟩
  · exact begun
  · have whole := kept.whole fit.freeze
    exact ⟨whole.rows, whole.others⟩

/-- A usable world is the start, or has the whole plan in it. -/
theorem Left.usable (fit : Fit tools start plan place) (fresh : Fresh tools start plan)
    (left : Left tools start plan place undone world) (usable : Usable tools plan place world) :
    world = start ∨ Kept tools (start.freeze tools plan) plan place (Lasting undone) world := by
  rcases left with ⟨part, _, rfl⟩ | same | kept
  · right
    have written : (start.plans ++ [(plan.stem tools, String.ofList part)]).lookup (plan.stem tools) =
        some (String.ofList part) := by
      rw [List.lookup_append, lookup_fresh fresh, Option.none_or, List.lookup_cons_self]
    have all := usable.2 _ written
    rw [all]
    exact Kept.begin fit.freeze fun _ _ => id
  · exact .inl same
  · exact .inr kept

/-- A plan that has not been frozen cannot be resumed. -/
theorem resumeAbsent_meets {crash : World → Prop} {call : Call} (here : crash start)
    (fresh : Fresh tools start plan) :
    (resumeConversion tools call (planSeal tools plan.fields)).Meets crash (fun _ _ => True) (fun _ _ => True)
      start := by
  have none' : matching (plan.stem tools) start.plans = [] := by
    rw [matching, List.filter_eq_nil_iff.mpr]
    · rfl
    · intro name member
      obtain ⟨entry, among, rfl⟩ := List.mem_map.mp member
      rw [List.isPrefixOf_iff_prefix]
      exact fresh entry among
  refine (meets_checkCall here (.inr fun _ _ => trivial)).seq ?_
  rintro _ world rfl
  refine Program.Meets.seq (?_ : Program.Meets crash (fun _ _ => True) (fun _ _ => False) _ world)
    fun _ _ impossible => impossible.elim
  apply Program.meets_look here
  · intro error _
    trivial
  · intro found saw
    unfold Plan.stem at none'
    rw [none'] at saw
    cases saw

/-- Every call on a usable world leaves one that can be used or repaired. -/
theorem Invocation.meets (fit : Fit tools start plan place) (fresh : Fresh tools start plan)
    (whole : (plan.text tools).length ≤ readLimit) (left : Left tools start plan place undone world)
    (usable : Usable tools plan place world) (invocation : Invocation) :
    (invocation.program tools plan).Meets (Left tools start plan place undone) (fun _ _ => True)
      (fun _ _ => True) world := by
  have going (now : World) (kept : Kept tools (start.freeze tools plan) plan place (Lasting undone) now) :
      Left tools start plan place undone now := .inr (.inr kept)
  rcases left.usable fit fresh usable with rfl | kept
  · cases invocation with
    | apply call => exact applyConversion_meets fit fresh whole (fun _ _ => id) usable.1
    | resume call => exact resumeAbsent_meets left fresh
  · cases invocation with
    | apply call => exact applyAgain_meets fit fresh whole kept usable.1 going
    | resume call =>
        exact (resumeConversion_meets fit fresh whole kept usable.1 going (.inr fun _ _ => trivial)).mono
          (fun _ kept => kept) (fun _ _ _ => trivial) fun _ _ _ => trivial

end Moments

section Runs

variable {tools : Tools} {start world left : World} {plan : Plan} {call : Call} {label : String}
variable {labels : List String}

/-- A call that may convert. -/
def Call.Good (call : Call) : Prop :=
  call.writersStopped = true ∧ call.live = false ∧ call.destDir = true

theorem checkCall_run (good : call.Good) : (checkCall call).run world = (world, .ok ()) := by
  obtain ⟨stopped, idle, dest⟩ := good
  unfold checkCall
  rw [stopped, idle, dest]
  rfl

/-- A first call that passes its checks goes on with the candidates of the plan that it has frozen. -/
theorem applyConversion_leaves (fresh : Fresh tools start plan) (whole : (plan.text tools).length ≤ readLimit)
    (good : call.Good) (given : call.archives = some (label :: labels))
    (leaves : (Program.gather (convertCandidate tools (label :: labels)) plan.candidates).Leaves
      (start.freeze tools plan) left) : (applyConversion tools call plan).Leaves start left := by
  have absent := lookup_fresh fresh
  have present : (Program.look fun world : World => Except.ok (world.plans.lookup (plan.stem tools)).isSome :
      Act Bool).run start = (start, .ok false) := by
    apply Program.run_look
    rw [absent]
    rfl
  have written : (writePrivate (plan.stem tools) (plan.text tools)).run start =
      (start.freeze tools plan, .ok ()) := by
    apply Program.run_tearing
    dsimp only
    rw [absent, written_whole whole]
    rfl
  have read : (Program.lift (candidatesOf (plan.frozen tools)) : Act (List Candidate)).run
      (start.freeze tools plan) = (start.freeze tools plan, .ok plan.candidates) := by
    rw [candidatesOf_frozen]
    rfl
  refine Program.Leaves.after_bind (checkCall_run good) ?_
  refine Program.Leaves.after_bind present ?_
  rw [if_neg Bool.false_ne_true]
  refine Program.Leaves.after_bind written ?_
  rw [given]
  exact (Program.Leaves.after_bind read leaves).bind

/-- A resumed call goes on with the candidates of the plan that it reads. -/
theorem resumeConversion_run {raised : Failure} (fresh : Fresh tools start plan)
    (whole : (plan.text tools).length ≤ readLimit)
    (plans : world.plans = (start.freeze tools plan).plans) (good : call.Good)
    (given : call.archives = some (label :: labels))
    (ran : (Program.gather (convertCandidate tools (label :: labels)) plan.candidates).run world =
      (left, .error raised)) :
    (resumeConversion tools call (planSeal tools plan.fields)).run world = (left, .error raised) := by
  have frozen : (readPrivate (plan.stem tools)).run world = (world, .ok (plan.kept tools)) := by
    apply Program.run_look
    rw [plans, lookup_frozen fresh]
    exact readPlan_text tools plan whole
  have passed {holds : Bool} {code : String} (right : holds = true) :
      (ensure holds code).run world = (world, .ok ()) := by
    subst right
    rfl
  have converts (frozen : List (String × Json)) (listed : candidatesOf frozen = .ok plan.candidates) :
      (convertWith tools call.archives frozen).run world = (left, .error raised) := by
    have read : (Program.lift (candidatesOf frozen) : Act (List Candidate)).run world =
        (world, .ok plan.candidates) := by
      rw [listed]
      rfl
    rw [given]
    exact Program.run_bind_error ((Program.run_bind read).trans ran)
  have proved : (sealOf (plan.kept tools) == some (planSeal tools (plan.kept tools))) = true := by
    rw [sealOf_kept, planSeal_kept]
    exact beq_self_eq_true _
  have named : (((sealOf (plan.kept tools)).getD "").toList.take 12 == (plan.stem tools).toList) = true := by
    rw [sealOf_kept]
    simp [Plan.stem]
  refine (Program.run_bind (checkCall_run good)).trans ?_
  refine (Program.run_bind (?_ : Program.run _ world = (world, Except.ok (plan.stem tools)))).trans ?_
  · have one := matching_frozen fresh
    unfold Plan.stem at one
    apply Program.run_look
    rw [plans, one, Plan.stem]
  refine (Program.run_bind frozen).trans ?_
  refine (Program.run_bind (passed proved)).trans ?_
  exact (Program.run_bind (passed named)).trans (converts _ (candidatesOf_kept tools plan))

end Runs

def sampleRow : ArchivedRow :=
  ⟨"org/model", "config.json", "drive-a", some "config.json", some "config.json",
    some "44136fa355b3678a1146ad16f7e8649e94fb4fc21fe77e8310c060f61caaff8a", some 2, some 2, false, none, none⟩

def samplePlan : Plan :=
  ⟨"2024-01-01T00:00:00Z", none, none, none, [⟨sampleRow, "convertible", "config.json"⟩]⟩

/-- `{}`. -/
def sampleBytes : Bytes := [123, 125]

/-- The digests of the two texts that are hashed. -/
def sampleDigests : Digests where
  sha256 bytes :=
    if bytes = sampleBytes then "44136fa355b3678a1146ad16f7e8649e94fb4fc21fe77e8310c060f61caaff8a"
    else "b57552b27f33df11bd34d1f2000dc89e8e10e55d5623fb8f040959b20a92c6b3"
  hex bytes := by
    split <;> decide +kernel

/-- The directory that git-annex makes for the one key. -/
def sampleTools : Tools := sampleDigests.annex ".git/annex/objects/wj/P0"

def sampleWorld : World where
  catalog :=
    { tables :=
        { models := Table.empty
          files := Table.empty
          replicas := Table.empty
          selection := Table.empty
          archived := ⟨[sampleRow], by decide +kernel⟩
          plans := Table.empty
          planDrives := Table.empty
          driveColumns := Table.empty
          drives := []
          dirty := []
          anchors := []
          hashRepairState := Table.empty }
      plannerRevision := 0
      sessions := .empty }
  archives _ :=
    { worktree := Dict.ofPairs [("org/model/config.json", .content sampleBytes)]
      index := ∅
      head := ∅
      objects := ∅ }
  plans := []

def samplePlace : Candidate → Place :=
  fun _ => ⟨"org/model/config.json", "org/model/config.json", "config.json", sampleBytes⟩

def sampleCall : Call := ⟨true, false, true, some ["drive-a"]⟩

/-- What an interruption leaves after so many steps on the candidates. -/
def sampleLeft (count : Nat) : World :=
  (Program.gather (convertCandidate sampleTools ["drive-a"]) samplePlan.candidates).after count
    (sampleWorld.freeze sampleTools samplePlan)

theorem sample_only (candidate : Candidate) (member : candidate ∈ samplePlan.convertible) :
    candidate = ⟨sampleRow, "convertible", "config.json"⟩ := by
  simpa [Plan.convertible, samplePlan] using member

theorem sample_untracked {label path : String} : ¬(sampleWorld.archives label).Tracks path := by
  rintro (index | head)
  · exact absurd index Std.ExtTreeMap.not_mem_empty
  · exact absurd head Std.ExtTreeMap.not_mem_empty

theorem sample_fit : Fit sampleTools sampleWorld samplePlan samplePlace where
  each candidate member := by
    obtain rfl := sample_only candidate member
    exact
      { source := ⟨"config.json", by decide +kernel, by decide +kernel⟩
        target := by decide +kernel
        row := by decide +kernel
        unkeyed := by decide +kernel
        held := by decide +kernel
        recorded := by decide +kernel
        plain := by decide +kernel
        level := ⟨fun _ tracked => absurd tracked sample_untracked, fun _ tracked => absurd tracked sample_untracked⟩
        nested := ⟨not_below_self _, not_below_self _⟩
        clean := .inl (by decide +kernel)
        ready := ⟨by decide +kernel, .inr (.inl (by decide +kernel))⟩
        room := fun absent => absurd absent (by decide +kernel)
        object := fun _ found => nomatch found }
  apart one member other among different :=
    absurd ((sample_only one member).trans (sample_only other among).symm) different
  keys := by decide +kernel
  bytes _ _ _ _ _ := rfl
  idle := rfl

theorem sample_usable {world : World}
    (file : (world.archives "drive-a").worktree["org/model/config.json"]? = some (.content sampleBytes))
    (head : (world.archives "drive-a").head["org/model/config.json"]? = none)
    (plans : ∀ text, world.plans.lookup (samplePlan.stem sampleTools) = some text →
      text = samplePlan.text sampleTools) : Usable sampleTools samplePlan samplePlace world := by
  refine ⟨?_, plans⟩
  intro candidate member _
  obtain rfl := sample_only candidate member
  refine ⟨?_, head⟩
  intro bytes found
  exact (Entry.content.inj (Option.some.inj (file.symm.trans found))).symm

theorem sample_short : (samplePlan.text sampleTools).length ≤ readLimit := by
  rw [Plan.text, Json.pretty, String.length_append, String.length_ofList]
  decide +kernel

theorem sample_fresh : Fresh sampleTools sampleWorld samplePlan :=
  fun _ member => nomatch member

theorem sample_good : sampleCall.Good := ⟨rfl, rfl, rfl⟩

theorem sample_begun : Usable sampleTools samplePlan samplePlace sampleWorld :=
  sample_usable (by decide +kernel) (by decide +kernel) fun _ found => nomatch found

end Modelark.Conversion
