import Modelark.Archive.Digest
import Modelark.Library.Dict
import Modelark.Planning.Budgets

/-!
# Requirements and candidates

From one immutable planner input: the desired copies, the proof of those that are already there,
and for every other one all the ways to finish it. Nothing is chosen here.
-/

namespace Modelark.Planning

open Library Archive

/-- Captured facts. Every selected repository has one manifest. -/
structure PlannerInput where
  selection : List String
  manifests : List (String × List ManifestFile)
  uniqueRepos : (manifests.map Prod.fst).Nodup
  numcopies : List (String × Nat)
  drives : List DriveFact
  archived : List ArchivedFileFact
  budget : BudgetConfig

/-- New placement and finish-in-place writes require an active, enabled drive. -/
def isPlaceable (drive : DriveFact) : Bool :=
  drive.lifecycle == "active" && drive.eligibility == "enabled"

/-- Verified complete copies count on any active drive. -/
def isSatisfying (drive : DriveFact) : Bool :=
  drive.lifecycle == "active"

def isPrimary (drive : DriveFact) : Bool :=
  drive.role == "primary"

def isReplica (drive : DriveFact) : Bool :=
  drive.role == "replica"

/-- The verdict on one required file on one drive. -/
inductive Verdict where
  | missing
  | proven
  | unproven
  deriving Repr, DecidableEq

def satisfiedBy (u : Unicode) (approved : Option String) (row : ArchivedFileFact) : Bool :=
  u.contentSatisfies approved row.origSha256 (some row.compressed) row.annexKey

def proof (u : Unicode) (mf : ManifestFile) : Option ArchivedFileFact → Verdict
  | none => .missing
  | some row =>
      if row.origBytes ≠ some mf.sizeBytes then .unproven
      else if satisfiedBy u mf.sha256 row then .proven
      else .unproven

def reusable (u : Unicode) (mf : ManifestFile) (row : ArchivedFileFact) : ReusableFile :=
  match mf.sha256, row.origSha256 with
  | some sha, _ => ⟨mf.rfilename, mf.sizeBytes, some sha, .manifestSha256⟩
  | none, some orig => ⟨mf.rfilename, mf.sizeBytes, some orig, .archivedOrigSha256⟩
  | none, none =>
      let resolved := u.expectedSha256 none none (some row.compressed) row.annexKey
      ⟨mf.rfilename, mf.sizeBytes, resolved.toOption.join, .rawAnnexSha256e⟩

namespace PlannerInput

variable (inp : PlannerInput)

def byLabel : Dict String DriveFact :=
  Dict.ofPairs (inp.drives.map fun drive => (drive.driveLabel, drive))

def labels : List String :=
  sortedSet (inp.drives.map DriveFact.driveLabel)

def labelsWhere (p : DriveFact → Bool) : List String :=
  inp.labels.filter fun label => inp.byLabel[label]?.any p

def isRaid (label : String) : Bool :=
  inp.byLabel[label]?.any DriveFact.raidBacked

def capacityOf (label : String) : Nat :=
  (inp.byLabel[label]?.map DriveFact.capacityBytes).getD 0

/-- The largest of the drives, the first by label among equals. -/
def largest (labels : List String) : List String :=
  (sortBy (fun label => toLex (-(inp.capacityOf label : Int), label)) labels).take 1

/-- The drives a home may be written to: RAID primaries, or else the largest primary. -/
def homes (primary : List String) : List String :=
  match primary.filter inp.isRaid with
  | [] => inp.largest primary
  | raids => raids

def manifestOf (repo : String) : List ManifestFile :=
  (Dict.ofPairs inp.manifests).getD repo []

def copies (repo : String) : Nat :=
  (Dict.ofPairs inp.numcopies).getD repo 1

/-- The desired copies of one repository. -/
def desiredOf (repo : String) : List CopyRequirement :=
  let primary := inp.labelsWhere fun drive => isPrimary drive && isPlaceable drive
  let replicas := inp.labelsWhere fun drive => isReplica drive && isPlaceable drive
  if inp.copies repo < 2 then [⟨"primary:" ++ repo, repo, .primary, primary, none⟩]
  else
    [⟨"protected_home:" ++ repo, repo, .protectedHome, inp.homes primary, none⟩,
      ⟨"protected_replica:" ++ repo, repo, .protectedReplica, replicas,
        some ("protected_home:" ++ repo)⟩]

def requirements : RequirementGraph where
  desired := sortBy CopyRequirement.requirementId
    (inp.manifests.flatMap fun entry => inp.desiredOf entry.1)

/-- The active tier whose complete copies satisfy a requirement. -/
def satisfactionPool (req : CopyRequirement) : List String :=
  let activePrimary := inp.labelsWhere fun drive => isPrimary drive && isSatisfying drive
  match req.kind with
  | .primary => activePrimary
  | .protectedHome => inp.homes activePrimary
  | .protectedReplica => inp.labelsWhere fun drive => isReplica drive && isSatisfying drive

/-- The satisfaction tier together with the placement tier, in label order. -/
def acceptedCompletePool (req : CopyRequirement) : List String :=
  sortedSet (inp.satisfactionPool req ++ req.eligibleDrives)

/-- The rows of a repository on a drive. -/
def rowsOn (repo label : String) : List ArchivedFileFact :=
  inp.archived.filter fun row => row.repoId == repo && row.driveLabel == label

/-- The row of one file of a repository on a drive; the last one written counts. -/
def rowOf (repo label rfilename : String) : Option ArchivedFileFact :=
  (inp.rowsOn repo label).reverse.find? (·.rfilename == rfilename)

variable (u : Unicode)

def verdict (repo label : String) (mf : ManifestFile) : Verdict :=
  proof u mf (inp.rowOf repo label mf.rfilename)

/-- Every file of the manifest is proven on the drive, which holds some row of the repository. -/
def provenCopy (repo label : String) (manifest : List ManifestFile) : Bool :=
  !(inp.rowsOn repo label).isEmpty && manifest.all fun mf => inp.verdict u repo label mf == .proven

/-- What one drive holds of a requirement's manifest. -/
structure Holding where
  driveLabel : String
  reused : List ReusableFile
  missing : List ManifestFile
  unproven : List ManifestFile

def holding (req : CopyRequirement) (label : String) : Holding where
  driveLabel := label
  reused := sortBy ReusableFile.rfilename ((inp.manifestOf req.repoId).filterMap fun mf =>
    if inp.verdict u req.repoId label mf = .proven then
      (inp.rowOf req.repoId label mf.rfilename).map (reusable u mf)
    else none)
  missing := sortBy ManifestFile.rfilename ((inp.manifestOf req.repoId).filter fun mf =>
    inp.verdict u req.repoId label mf = .missing)
  unproven := (inp.manifestOf req.repoId).filter fun mf =>
    inp.verdict u req.repoId label mf = .unproven

def holdings (req : CopyRequirement) : List Holding :=
  (inp.acceptedCompletePool req).map (inp.holding u req)

/-- The complete copies that satisfy a requirement. -/
def complete (req : CopyRequirement) : List Holding :=
  (inp.holdings u req).filter fun held => held.unproven.isEmpty && held.missing.isEmpty

/-- The drives where a requirement can be finished: an unproven row is never overwritten. -/
def finishable (req : CopyRequirement) : List Holding :=
  (inp.holdings u req).filter fun held =>
    held.unproven.isEmpty && !held.missing.isEmpty && req.eligibleDrives.contains held.driveLabel

def unprovenDrift (req : CopyRequirement) : List DriftRow :=
  (inp.holdings u req).flatMap fun held =>
    if req.eligibleDrives.contains held.driveLabel then
      held.unproven.map fun mf =>
        ⟨req.requirementId, held.driveLabel, mf.rfilename, "unproven_provenance"⟩
    else []

/-- Complete copies outside the accepted pool. -/
def wrongTierDrift (req : CopyRequirement) : List DriftRow :=
  (inp.labels.filter (· ∉ inp.acceptedCompletePool req)).flatMap fun label =>
    if inp.provenCopy u req.repoId label (inp.manifestOf req.repoId) then
      (inp.manifestOf req.repoId).map fun mf => ⟨req.requirementId, label, mf.rfilename, "wrong_tier"⟩
    else []

/-- The proven homes that a replica can copy from. -/
def homeSources (graph : RequirementGraph) (req : CopyRequirement) : List SourceIdentity :=
  match req.independentOf.bind fun dep =>
      (Dict.ofPairs (graph.desired.map fun item => (item.requirementId, item)))[dep]? with
  | none => []
  | some home =>
      let manifest := inp.manifestOf req.repoId
      ((inp.acceptedCompletePool home).filter fun label =>
          inp.provenCopy u req.repoId label manifest).map fun label =>
        -- Only a single-file copy names its evidence.
        match manifest with
        | [mf] =>
            let row := inp.rowOf req.repoId label mf.rfilename
            ⟨label, row.bind ArchivedFileFact.annexKey, row.bind ArchivedFileFact.origSha256⟩
        | _ => ⟨label, none, none⟩

def fetchCandidate (req : CopyRequirement) (held : Holding) : Candidate :=
  let budget := aggregate (held.missing.map fun mf => fileBudget inp.budget mf none false)
  { requirementId := req.requirementId
    taskKind := .fetch
    targetDrive := held.driveLabel
    source := none
    dependsOnRequirement := none
    reusedFiles := held.reused
    missingFiles := held.missing
    budget := budget
    movementCost := ⟨budget.guaranteedDurable⟩ }

/-- The stored size of a file on the source drive, when it is known. -/
def sourceBytes (repo label : String) (mf : ManifestFile) : Option Nat :=
  (inp.rowOf repo label mf.rfilename).bind ArchivedFileFact.storedBytes

def replicaBudgets (req : CopyRequirement) (missing : List ManifestFile) :
    Source → List FileBudget
  | .identity source =>
      let bytes := inp.sourceBytes req.repoId source.driveLabel
      -- An unknown or zero stored size falls back to the estimate for every file.
      if missing.all fun mf => 0 < (bytes mf).getD 0 || mf.sizeBytes == 0 then
        missing.map fun mf => fileBudget inp.budget mf (some ((bytes mf).getD 0)) false
      else missing.map fun mf => fileBudget inp.budget mf none true
  | .pendingHome _ => missing.map fun mf => fileBudget inp.budget mf none true

def replicaCandidate (req : CopyRequirement) (held : Holding) (source : Source) : Candidate :=
  let budget := aggregate (inp.replicaBudgets req held.missing source)
  { requirementId := req.requirementId
    taskKind := .replicate
    targetDrive := held.driveLabel
    source := some source
    dependsOnRequirement := match source with
      | .identity _ => none
      | .pendingHome home => some home
    reusedFiles := held.reused
    missingFiles := held.missing
    budget := budget
    movementCost := ⟨budget.guaranteedDurable⟩ }

/-- The sources of a replica: its proven homes, or else the home that is still pending. -/
def replicaSources (graph : RequirementGraph) (req : CopyRequirement) : List Source :=
  match inp.homeSources u graph req with
  | [] => [.pendingHome (req.independentOf.getD "")]
  | sources => sources.map .identity

def candidatesOf (graph : RequirementGraph) (req : CopyRequirement) : List Candidate :=
  (inp.finishable u req).flatMap fun held =>
    match req.kind with
    | .protectedReplica => (inp.replicaSources u graph req).map (inp.replicaCandidate req held)
    | _ => [inp.fetchCandidate req held]

/-- `_source_key`. -/
def candidateSourceKey : Option Source → String ×ₗ String
  | some (.identity source) => toLex ("source", source.driveLabel)
  | some (.pendingHome requirementId) => toLex ("pending", requirementId)
  | none => toLex ("", "")

def candidateKey (c : Candidate) : String ×ₗ (String ×ₗ String) ×ₗ String :=
  toLex (c.targetDrive, toLex (candidateSourceKey c.source, c.taskKind.value))

def driftKey (row : DriftRow) : String ×ₗ String ×ₗ String ×ₗ String :=
  toLex (row.requirementId, toLex (row.driveLabel, toLex (row.rfilename, row.reason)))

/-- Neither satisfied nor finishable. -/
def isBlocked (graph : RequirementGraph) (req : CopyRequirement) : Bool :=
  (inp.complete u req).isEmpty && (inp.candidatesOf u graph req).isEmpty

def satisfaction (req : CopyRequirement) : Satisfaction where
  requirementId := req.requirementId
  copies := (sortBy Holding.driveLabel (inp.complete u req)).map fun held =>
    ⟨held.driveLabel, held.reused, none⟩

def blockedReason (req : CopyRequirement) : String :=
  if req.eligibleDrives.isEmpty then "no_eligible_tier" else "all_targets_unproven"

/-- The outcome of every desired requirement: satisfied, still open with its candidates, or blocked. -/
def candidates (graph : RequirementGraph) : CandidateSet where
  satisfied := sortBy Satisfaction.requirementId
    ((graph.desired.filter fun req => !(inp.complete u req).isEmpty).map (inp.satisfaction u))
  byRequirement := sortBy Prod.fst
    ((graph.desired.filter fun req =>
        (inp.complete u req).isEmpty && !(inp.candidatesOf u graph req).isEmpty).map fun req =>
      (req.requirementId, sortBy candidateKey (inp.candidatesOf u graph req)))
  drift := sortBy driftKey
    (graph.desired.flatMap fun req => inp.unprovenDrift u req ++ inp.wrongTierDrift u req).dedup
  blocked := sortBy BlockedRequirement.requirementId
    ((graph.desired.filter (inp.isBlocked u graph)).map fun req =>
      ⟨req.requirementId, blockedReason req⟩)

end PlannerInput

end Modelark.Planning
