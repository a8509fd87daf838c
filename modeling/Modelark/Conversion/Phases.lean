import Modelark.Conversion.Convert

/-!
# The phases of a candidate

What a plan must be like for its conversion to go through, and where each of its candidates can be: from
the copy that is recorded, over its destination, to the row that names the destination.
-/

namespace Modelark.Conversion

open Library Execution Revision

/-- Where a copy is, where it goes, and its bytes. -/
structure Place where
  src : String
  dest : String
  relpath : String
  data : Bytes

def Plan.convertible (plan : Plan) : List Candidate :=
  plan.candidates.filter fun candidate => candidate.state == "convertible"

/-- Nothing but the bytes themselves, uncommitted, is at the destination. -/
def Ready (tools : Tools) (archive : Archive) (dest : String) (data : Bytes) : Prop :=
  let there := archive.tracked dest
  there.head = none ∧
    (there.worktree = none ∧ there.index ≠ some (.content data) ∨
      there.worktree = some (.content data) ∧ there.index ≠ some (.content data) ∨
      there.worktree = some (.link (tools.location data)) ∧ archive.objects[tools.location data]? = some data)

/-- A candidate whose copy holds the digest of its row, and has a free destination. -/
structure Fits (tools : Tools) (start : World) (candidate : Candidate) (place : Place) : Prop where
  source : ∃ stored, nonempty? candidate.row.storedRelpath = some stored ∧
    confined candidate.row.repoId stored = .ok place.src
  target : destRelpath tools candidate = .ok place.relpath ∧
    confined candidate.row.repoId place.relpath = .ok place.dest
  row : start.catalog.tables.archived.find candidate.row.key = some candidate.row
  unkeyed : Modelark.Archive.truthy candidate.row.annexKey = false
  held : (start.archives candidate.row.driveLabel).read place.src = some place.data
  recorded : candidate.row.origSha256 = some (tools.sha256 place.data)
  plain : Archive.literal place.src = true ∧ Archive.literal place.dest = true
  /-- No file is where a directory of the paths has to be, or the other way round. -/
  level : (start.archives candidate.row.driveLabel).Level place.src ∧
    (start.archives candidate.row.driveLabel).Level place.dest
  nested : ¬Below place.src place.dest ∧ ¬Below place.dest place.src
  /-- The source is as it was committed, or not committed. -/
  clean : let there := (start.archives candidate.row.driveLabel).tracked place.src
    there.head = none ∨ there.index = there.worktree ∧ there.head = there.worktree
  ready : Ready tools (start.archives candidate.row.driveLabel) place.dest place.data
  /-- A new destination can be written, at once. -/
  room : (start.archives candidate.row.driveLabel).worktree[place.dest]? = none →
    place.data.length ≤ writeLimit ∧
      ∀ path ∈ (start.archives candidate.row.driveLabel).worktree,
        ¬Below place.dest path ∧ ¬Below path place.dest
  /-- Two copies with one object are one. -/
  object : ∀ bytes, (start.archives candidate.row.driveLabel).objects[tools.location place.data]? = some bytes →
    bytes = place.data

/-- The paths of two candidates have nothing to do with each other. -/
structure Apart (one other : Place) : Prop where
  src : one.src ≠ other.src
  dest : one.dest ≠ other.dest
  cross : one.src ≠ other.dest
  nested : ¬Below one.dest other.dest
  level : ¬Below one.src other.dest ∧ ¬Below other.dest one.src

/-- A plan whose candidates all fit. -/
structure Fit (tools : Tools) (start : World) (plan : Plan) (place : Candidate → Place) : Prop where
  each : ∀ candidate ∈ plan.convertible, Fits tools start candidate (place candidate)
  apart : ∀ one ∈ plan.convertible, ∀ other ∈ plan.convertible, one ≠ other →
    one.row.driveLabel = other.row.driveLabel → Apart (place one) (place other)
  keys : (plan.convertible.map fun candidate => candidate.row.key).Nodup
  bytes : ∀ one ∈ plan.convertible, ∀ other ∈ plan.convertible,
    tools.location (place one).data = tools.location (place other).data → (place one).data = (place other).data
  idle : start.catalog.sessions.liveExists = false

/-- How far a candidate has come. -/
inductive Phase where
  | ready
  /-- A part of the bytes is at the destination. -/
  | torn
  | committed
  /-- The row names the destination. -/
  | published
  /-- The source is gone, but not from the head commit. -/
  | removed
  | retired
  deriving Repr, DecidableEq

/-- The row names the destination. -/
def Phase.isPublished : Phase → Bool
  | .published | .removed | .retired => true
  | .ready | .torn | .committed => false

/-- Nothing is half done that a later call cannot go on with. -/
def Phase.isSettled : Phase → Bool
  | .torn | .committed => false
  | .ready | .published | .removed | .retired => true

/-- The row that a conversion publishes. -/
def convertedRow (tools : Tools) (row : ArchivedRow) (place : Place) : ArchivedRow :=
  { row with
    annexKey := some (tools.key place.data)
    storedRelpath := some place.relpath
    storedName := some (baseName place.relpath) }

/-- The destination is committed to the annex. -/
def Annexed (tools : Tools) (archive : Archive) (place : Place) : Prop :=
  let link := some (Entry.link (tools.location place.data))
  archive.tracked place.dest = ⟨link, link, link⟩ ∧ archive.objects[tools.location place.data]? = some place.data

def TargetAt (tools : Tools) (archive : Archive) (place : Place) : Phase → Prop
  | .ready => Ready tools archive place.dest place.data
  | .torn => ∃ part, part <+: place.data ∧ archive.worktree[place.dest]? = some (.content part) ∧
      archive.index[place.dest]? ≠ some (.content place.data) ∧ archive.head[place.dest]? = none
  | .committed | .published | .removed | .retired => Annexed tools archive place

def SourceAt (before archive : Archive) (src : String) : Phase → Prop
  | .ready | .torn | .committed | .published => archive.tracked src = before.tracked src
  | .removed => (archive.tracked src).worktree = none ∧ (archive.tracked src).index = none ∧
      (archive.tracked src).head.isSome = true
  | .retired => archive.tracked src = ⟨none, none, none⟩

/-- Where a candidate is. -/
structure At (tools : Tools) (start : World) (candidate : Candidate) (place : Place) (world : World)
    (phase : Phase) : Prop where
  row : world.catalog.tables.archived.find candidate.row.key =
    some (if phase.isPublished then convertedRow tools candidate.row place else candidate.row)
  target : TargetAt tools (world.archives candidate.row.driveLabel) place phase
  source : place.src ≠ place.dest → SourceAt (start.archives candidate.row.driveLabel)
    (world.archives candidate.row.driveLabel) place.src phase
  same : place.src = place.dest → phase = .ready ∨ phase = .committed ∨ phase = .published
  /-- What was at the destination does not vanish. -/
  present : (start.archives candidate.row.driveLabel).worktree[place.dest]?.isSome = true →
    (world.archives candidate.row.driveLabel).worktree[place.dest]?.isSome = true

/-- The objects of an annex stay. -/
def Grown (before after : Archive) : Prop :=
  ∀ (key : String) (bytes : Bytes), before.objects[key]? = some bytes → after.objects[key]? = some bytes

/-- What holds at every moment of a conversion, with its candidates in phases that are allowed. -/
structure Kept (tools : Tools) (start : World) (plan : Plan) (place : Candidate → Place)
    (allowed : Candidate → Phase → Prop) (world : World) : Prop where
  each : ∀ candidate ∈ plan.convertible, ∃ phase, At tools start candidate (place candidate) world phase ∧
    allowed candidate phase
  objects : ∀ label, Grown (start.archives label) (world.archives label)
  known : ∀ candidate ∈ plan.convertible, ∀ bytes,
    (world.archives candidate.row.driveLabel).objects[tools.location (place candidate).data]? = some bytes →
      bytes = (place candidate).data
  files : ∀ label, ∀ path ∈ (world.archives label).worktree, path ∈ (start.archives label).worktree ∨
    ∃ candidate ∈ plan.convertible, candidate.row.driveLabel = label ∧ path = (place candidate).dest
  tracks : ∀ label path, (world.archives label).Tracks path → (start.archives label).Tracks path ∨
    ∃ candidate ∈ plan.convertible, candidate.row.driveLabel = label ∧ path = (place candidate).dest
  others : ∀ key, (∀ candidate ∈ plan.convertible, candidate.row.key ≠ key) →
    world.catalog.tables.archived.find key = start.catalog.tables.archived.find key
  sessions : world.catalog.sessions = start.catalog.sessions
  plans : world.plans = start.plans

section Frames

variable {tools : Tools} {start world : World} {plan : Plan} {place : Candidate → Place}
variable {allowed : Candidate → Phase → Prop} {candidate : Candidate}

theorem Kept.weaken {allowed' : Candidate → Phase → Prop}
    (kept : Kept tools start plan place allowed world)
    (weaker : ∀ candidate ∈ plan.convertible, ∀ phase, allowed candidate phase → allowed' candidate phase) :
    Kept tools start plan place allowed' world where
  each candidate member := by
    obtain ⟨phase, at', permitted⟩ := kept.each candidate member
    exact ⟨phase, at', weaker candidate member phase permitted⟩
  objects := kept.objects
  known := kept.known
  files := kept.files
  tracks := kept.tracks
  others := kept.others
  sessions := kept.sessions
  plans := kept.plans

/-- A change of an archive at one path of a candidate. -/
structure Moved (tools : Tools) (place : Place) (before after : Archive) (path : String) : Prop where
  elsewhere : ∀ other, other ≠ path → after.tracked other = before.tracked other
  objects : Grown before after
  added : ∀ (key : String) (bytes : Bytes), after.objects[key]? = some bytes →
    before.objects[key]? = some bytes ∨ key = tools.location place.data ∧ bytes = place.data
  files : ∀ other ∈ after.worktree, other ∈ before.worktree ∨ other = place.dest
  tracks : ∀ other, after.Tracks other → before.Tracks other ∨ other = place.dest

theorem Ready.grown {before after : Archive} {dest : String} {data : Bytes}
    (same : after.tracked dest = before.tracked dest)
    (objects : Grown before after)
    (ready : Ready tools before dest data) : Ready tools after dest data := by
  unfold Ready at ready ⊢
  rw [same]
  refine ⟨ready.1, ?_⟩
  rcases ready.2 with absent | content | ⟨link, object⟩
  · exact .inl absent
  · exact .inr (.inl content)
  · exact .inr (.inr ⟨link, objects _ _ object⟩)

theorem TargetAt.grown {before after : Archive} {place : Place} {phase : Phase}
    (same : after.tracked place.dest = before.tracked place.dest)
    (objects : Grown before after)
    (target : TargetAt tools before place phase) : TargetAt tools after place phase := by
  have annexed (was : Annexed tools before place) : Annexed tools after place :=
    ⟨same.trans was.1, objects _ _ was.2⟩
  cases phase with
  | ready => exact Ready.grown same objects target
  | torn =>
      obtain ⟨part, cut, worktree, index, head⟩ := target
      simp only [Archive.tracked, Tracked.mk.injEq] at same
      exact ⟨part, cut, same.1.trans worktree, same.2.1 ▸ index, same.2.2.trans head⟩
  | committed | published | removed | retired => exact annexed target

theorem SourceAt.grown {first before after : Archive} {src : String} {phase : Phase}
    (same : after.tracked src = before.tracked src) (source : SourceAt first before src phase) :
    SourceAt first after src phase := by
  cases phase <;> simpa [SourceAt, same] using source

/-- A step elsewhere leaves a candidate where it is. -/
theorem At.elsewhere {after : World} {place : Place} {phase : Phase}
    (at' : At tools start candidate place world phase)
    (row : after.catalog.tables.archived.find candidate.row.key =
      world.catalog.tables.archived.find candidate.row.key)
    (src : (after.archives candidate.row.driveLabel).tracked place.src =
      (world.archives candidate.row.driveLabel).tracked place.src)
    (dest : (after.archives candidate.row.driveLabel).tracked place.dest =
      (world.archives candidate.row.driveLabel).tracked place.dest)
    (objects : Grown (world.archives candidate.row.driveLabel)
      (after.archives candidate.row.driveLabel)) :
    At tools start candidate place after phase where
  row := row.trans at'.row
  target := at'.target.grown dest objects
  source different := (at'.source different).grown src
  same := at'.same
  present was := by
    have kept := at'.present was
    have worktree := congrArg Tracked.worktree dest
    simp only [Archive.tracked] at worktree
    rwa [worktree]

/-- One candidate in this phase, the others as they may be. -/
def focus (others : Candidate → Phase → Prop) (candidate : Candidate) (phase : Phase) :
    Candidate → Phase → Prop :=
  fun other now => if other = candidate then now = phase else others other now

theorem Kept.at (kept : Kept tools start plan place (focus allowed candidate phase) world)
    (member : candidate ∈ plan.convertible) : At tools start candidate (place candidate) world phase := by
  obtain ⟨now, at', permitted⟩ := kept.each candidate member
  rw [focus, if_pos rfl] at permitted
  exact permitted ▸ at'

theorem key_inj (fit : Fit tools start plan place) {one other : Candidate} (first : one ∈ plan.convertible)
    (second : other ∈ plan.convertible) (same : one.row.key = other.row.key) : one = other :=
  List.inj_on_of_nodup_map fit.keys first second same

@[simp] theorem setArchive_catalog (world : World) (label : String) (archive : Archive) :
    (world.setArchive label archive).catalog = world.catalog := rfl

@[simp] theorem setArchive_self (world : World) (label : String) (archive : Archive) :
    (world.setArchive label archive).archives label = archive := by
  simp [World.setArchive]

theorem setArchive_of_ne (world : World) {label other : String} (archive : Archive) (apart : other ≠ label) :
    (world.setArchive label archive).archives other = world.archives other := by
  simp [World.setArchive, apart]

@[simp] theorem setArchive_same (world : World) (label : String) :
    world.setArchive label (world.archives label) = world := by
  simp [World.setArchive]

/-- A step on the paths of one candidate. -/
theorem Kept.moved {phase phase' : Phase} {after : Archive} {path : String}
    (fit : Fit tools start plan place) (member : candidate ∈ plan.convertible)
    (kept : Kept tools start plan place (focus allowed candidate phase) world)
    (own : path = (place candidate).src ∨ path = (place candidate).dest)
    (moved : Moved tools (place candidate) (world.archives candidate.row.driveLabel) after path)
    (target : TargetAt tools after (place candidate) phase')
    (source : (place candidate).src ≠ (place candidate).dest →
      SourceAt (start.archives candidate.row.driveLabel) after (place candidate).src phase')
    (same : (place candidate).src = (place candidate).dest →
      phase' = .ready ∨ phase' = .committed ∨ phase' = .published)
    (present : (world.archives candidate.row.driveLabel).worktree[(place candidate).dest]?.isSome = true →
      after.worktree[(place candidate).dest]?.isSome = true)
    (published : phase'.isPublished = phase.isPublished) :
    Kept tools start plan place (focus allowed candidate phase')
      (world.setArchive candidate.row.driveLabel after) := by
  have before := kept.at member
  have now : At tools start candidate (place candidate)
      (world.setArchive candidate.row.driveLabel after) phase' :=
    { row := by
        rw [published]
        exact before.row
      target := by rwa [setArchive_self]
      source := by rwa [setArchive_self]
      same := same
      present := by
        intro was
        rw [setArchive_self]
        exact present (before.present was) }
  have grown (label : String) :
      Grown (world.archives label) ((world.setArchive candidate.row.driveLabel after).archives label) := by
    by_cases here : label = candidate.row.driveLabel
    · subst here
      rw [setArchive_self]
      exact moved.objects
    · rw [setArchive_of_ne world after here]
      exact fun _ _ object => object
  constructor
  · intro other among
    by_cases here : other = candidate
    · subst here
      exact ⟨phase', now, by rw [focus, if_pos rfl]⟩
    · obtain ⟨phase, at', permitted⟩ := kept.each other among
      rw [focus, if_neg here] at permitted
      refine ⟨phase, at'.elsewhere rfl ?_ ?_ (grown _), by rwa [focus, if_neg here]⟩
      all_goals
        by_cases label : other.row.driveLabel = candidate.row.driveLabel
        · rw [label, setArchive_self]
          apply moved.elsewhere
          have one := fit.apart other among candidate member here label
          have two := fit.apart candidate member other among (Ne.symm here) label.symm
          rcases own with rfl | rfl
          first
            | exact one.src
            | exact Ne.symm two.cross
          first
            | exact one.cross
            | exact one.dest
        · rw [setArchive_of_ne world after label]
  · intro label key bytes object
    exact grown label key bytes (kept.objects label key bytes object)
  · intro other among bytes object
    by_cases label : other.row.driveLabel = candidate.row.driveLabel
    · rw [label, setArchive_self] at object
      rcases moved.added _ _ object with old | ⟨key, rfl⟩
      · exact kept.known other among bytes (label ▸ old)
      · exact (fit.bytes other among candidate member key).symm
    · rw [setArchive_of_ne world after label] at object
      exact kept.known other among bytes object
  · intro label path there
    by_cases here : label = candidate.row.driveLabel
    · subst here
      rw [setArchive_self] at there
      rcases moved.files path there with old | rfl
      · exact kept.files _ path old
      · exact .inr ⟨candidate, member, rfl, rfl⟩
    · rw [setArchive_of_ne world after here] at there
      exact kept.files label path there
  · intro label path there
    by_cases here : label = candidate.row.driveLabel
    · subst here
      rw [setArchive_self] at there
      rcases moved.tracks path there with old | rfl
      · exact kept.tracks _ path old
      · exact .inr ⟨candidate, member, rfl, rfl⟩
    · rw [setArchive_of_ne world after here] at there
      exact kept.tracks label path there
  · exact kept.others
  · exact kept.sessions
  · exact kept.plans

end Frames

end Modelark.Conversion
