import Modelark.Admission.Facts
import Modelark.Admission.Turns
import Modelark.Library.Locks

/-!
# Admission snapshots among the writers of drives

`preview_by_drive` reads the facts of a drive several times around a shared fence that it does not wait
for, while drive mutations, reconciliations, registrations and repairs of other connections go on. Every
read of facts, attempt of a fence, observation and transaction is one step, and a dedicated drive is
written only under its exclusive fence, by the body of a mutation or in a generation that its holder has
begun.
-/

namespace Modelark.Admission

open Library Execution Capacity Revision

/-- Where the preview of one drive is, with the facts that it has captured. -/
inductive Phase where
  | ready
  | captured (facts : AdmissionFacts)
  /-- The shared fence of the captured identity is held, from here to the derivation. -/
  | fenced (facts : AdmissionFacts)
  | observed (facts : AdmissionFacts) (observation : Option Observation)
  | compared (facts : AdmissionFacts) (observation : Option Observation) (unchanged : Bool)
  /-- `UnprovenFenceIdentity`. -/
  | unproven (facts : AdmissionFacts)
  /-- `FenceUnavailable`. -/
  | contended (facts : AdmissionFacts)
  | contendedObserved (facts : AdmissionFacts) (observation : Option Observation)
  deriving Repr, DecidableEq

def Phase.facts? : Phase → Option AdmissionFacts
  | .ready => none
  | .captured facts | .fenced facts | .observed facts _ | .compared facts _ _ | .unproven facts
  | .contended facts | .contendedObserved facts _ => some facts

/-- The keys that the preview holds shared. -/
def Phase.shared (rules : FenceRules) : Phase → List FenceKey
  | .fenced facts | .observed facts _ | .compared facts _ _ =>
      (facts.fenceIdentity.bind rules.lockKeys).getD []
  | _ => []

/-- A call of `preview_by_drive`: the labels still to come, and the evidence so far. -/
structure Preview where
  labels : List String
  out : Dict String AdmissionEvidence
  phase : Phase

inductive PreviewAction where
  | start (labels : List String)
  | capture
  /-- `flock` answers whether the shared fence is acquired. -/
  | fence (acquired : Bool)
  | observe (observation : Option Observation)
  /-- The facts again, against the captured identity. -/
  | compare
  | derive (now : String)
  /-- An exception of the observer ends the call. -/
  | abandon

namespace Preview

def idle : Preview := ⟨[], ∅, .ready⟩

/-- The evidence of the current drive, on to the next one. -/
def finish (preview : Preview) (label : String) (evidence : AdmissionEvidence) : Preview :=
  ⟨preview.labels.tail, preview.out.insert label evidence, .ready⟩

/-- One step of a preview; a step that it does not have now changes nothing. -/
def step (rules : AdmissionRules) (c : Catalog) (preview : Preview) (action : PreviewAction) : Preview :=
  match preview.labels, preview.phase, action with
  | [], _, .start labels => ⟨labels, ∅, .ready⟩
  | _, _, .abandon => idle
  | label :: _, .ready, .capture => { preview with phase := .captured (admissionFacts c label) }
  | label :: _, .captured facts, .derive now =>
      -- without an identity there is nothing to fence
      if (nonempty? facts.fingerprint).isNone then
        preview.finish label ((admissionFacts c label).derive rules none false now)
      else preview
  | _ :: _, .captured facts, .fence acquired =>
      if (nonempty? facts.fingerprint).isNone then preview
      else
        match facts.fenceIdentity.bind rules.lockKeys with
        | none => { preview with phase := .unproven facts }
        | some _ => { preview with phase := if acquired then .fenced facts else .contended facts }
  | _ :: _, .fenced facts, .observe observation =>
      { preview with phase := .observed facts observation }
  | label :: _, .observed facts observation, .compare =>
      let unchanged := decide ((admissionFacts c label).fenceIdentity = facts.fenceIdentity)
      { preview with phase := .compared facts observation unchanged }
  | label :: _, .compared _ observation unchanged, .derive now =>
      let evidence := (admissionFacts c label).derive rules observation unchanged now
      preview.finish label (if unchanged then evidence else evidence.refuse "DRIVE_IDENTITY_UNPROVEN")
  | label :: _, .unproven _, .derive now =>
      let evidence := (admissionFacts c label).derive rules none false now
      preview.finish label (evidence.refuse "DRIVE_IDENTITY_UNPROVEN")
  | _ :: _, .contended facts, .observe observation =>
      { preview with phase := .contendedObserved facts observation }
  | label :: _, .contendedObserved _ observation, .derive now =>
      let evidence := (admissionFacts c label).derive rules observation false now
      preview.finish label (evidence.refuse "DRIVE_FENCE_UNAVAILABLE")
  | _, _, _ => preview

/-- The free space of its drive that a preview observes. -/
def observes (preview : Preview) : PreviewAction → Option (String × Option Nat)
  | .observe observation => preview.labels.head?.map fun label =>
      (label, (observation.filter (·.identityProven)).bind Observation.freeBytes)
  | _ => none

/-- The evidence that a preview derives, and what it rests on. -/
inductive Derives (rules : AdmissionRules) (c : Catalog) (label : String) (now : String) :
    Phase → AdmissionEvidence → Prop where
  /-- No identity was captured. -/
  | offline {facts} (unknown : (nonempty? facts.fingerprint).isNone = true) :
      Derives rules c label now (.captured facts) ((admissionFacts c label).derive rules none false now)
  | fenced {facts observation} : Derives rules c label now (.compared facts observation true)
      ((admissionFacts c label).derive rules observation true now)
  | refused {phase evidence} (refused : evidence.executable = false) :
      Derives rules c label now phase evidence

/-- What one step of a preview does. -/
inductive Progress (rules : AdmissionRules) (c : Catalog) (preview : Preview) :
    PreviewAction → Preview → Prop where
  | stays {action} : Progress rules c preview action preview
  | begins {action labels} : Progress rules c preview action ⟨labels, ∅, .ready⟩
  | captures {label} (head : preview.labels.head? = some label) :
      Progress rules c preview .capture { preview with phase := .captured (admissionFacts c label) }
  | fences {facts identity keys} (was : preview.phase = .captured facts)
      (known : facts.fenceIdentity = some identity) (locked : rules.lockKeys identity = some keys) :
      Progress rules c preview (.fence true) { preview with phase := .fenced facts }
  | refuses {action facts phase} (was : preview.phase.facts? = some facts)
      (unfenced : phase = .unproven facts ∨ phase = .contended facts ∨
        ∃ observation, phase = .contendedObserved facts observation) :
      Progress rules c preview action { preview with phase }
  | observes {label facts observation} (head : preview.labels.head? = some label)
      (was : preview.phase = .fenced facts) :
      Progress rules c preview (.observe observation) { preview with phase := .observed facts observation }
  | compares {label facts observation} (head : preview.labels.head? = some label)
      (was : preview.phase = .observed facts observation) :
      Progress rules c preview .compare ⟨preview.labels, preview.out, .compared facts observation
        (decide ((admissionFacts c label).fenceIdentity = facts.fenceIdentity))⟩
  | derives {label now facts evidence} (head : preview.labels.head? = some label)
      (was : preview.phase.facts? = some facts) (derived : Derives rules c label now preview.phase evidence) :
      Progress rules c preview (.derive now) (preview.finish label evidence)

theorem step_progress {rules : AdmissionRules} {c : Catalog} {preview : Preview} {action : PreviewAction} :
    Progress rules c preview action (preview.step rules c action) := by
  have head {label : String} {rest : List String} (shape : preview.labels = label :: rest) :
      preview.labels.head? = some label := by
    rw [shape]
    rfl
  have facts {phase : Phase} (shape : preview.phase = phase) : preview.phase.facts? = phase.facts? := by
    rw [shape]
  unfold step
  split
  · exact .begins
  · exact .begins
  · rename_i labels phase
    exact .captures (head labels)
  · rename_i labels phase
    split_ifs with unknown
    · refine .derives (head labels) (facts phase) ?_
      rw [phase]
      exact .offline unknown
    · exact .stays
  · rename_i acquired labels phase
    split
    · exact .stays
    · split
      · exact .refuses (facts phase) (.inl rfl)
      · rename_i known
        obtain ⟨identity, known, locked⟩ := Option.bind_eq_some_iff.mp known
        cases acquired with
        | true => exact .fences phase known locked
        | false => exact .refuses (facts phase) (.inr (.inl rfl))
  · rename_i labels phase
    exact .observes (head labels) phase
  · rename_i labels phase
    exact .compares (head labels) phase
  · rename_i unchanged _ labels phase
    refine .derives (head labels) (facts phase) ?_
    rw [phase]
    cases unchanged with
    | true => exact .fenced
    | false => exact .refused rfl
  · rename_i labels phase
    exact .derives (head labels) (facts phase) (.refused rfl)
  · rename_i labels phase
    exact .refuses (facts phase) (.inr (.inr ⟨_, rfl⟩))
  · rename_i labels phase
    exact .derives (head labels) (facts phase) (.refused rfl)
  · exact .stays

end Preview

/-- What a connection does with drives: an operation, or fences held for `begin_generation`,
    `publish_clean_anchor` and other uses of a drive. -/
inductive Holder where
  | operation (op : DriveOp)
  | direct (keys : List FenceKey)

namespace Holder

def op : Holder → DriveOp
  | .operation op => op
  | .direct _ => .idle

def fences (rules : FenceRules) : Holder → List FenceKey
  | .operation op => Admission.fences rules op
  | .direct keys => keys

/-- An operation goes on; fences that are held directly stay. -/
def next : Holder → DriveOp → Holder
  | .operation _, next => .operation next
  | .direct keys, _ => .direct keys

end Holder

/-- The registration of a drive. -/
inductive Enrolment where
  | registerDrive (requireLegacyRegistration : Check) (reg : Registration)
  | registerNas (requireLegacyRegistration : Check) (revision : Nat) (reg : Registration)
  | registerNewIdentity (checkCatalog : Check) (planId : String) (reg : Registration)

namespace Enrolment

def body : Enrolment → Body
  | .registerDrive legacy reg => registerDriveBody legacy reg
  | .registerNas legacy revision reg => registerNasBody legacy revision reg
  | .registerNewIdentity check planId reg => registerNewIdentityBody check planId reg

def registration : Enrolment → Registration
  | .registerDrive _ reg | .registerNas _ _ reg | .registerNewIdentity _ _ reg => reg

end Enrolment

/-- The free space of drives that a step of a drive operation observes. -/
def observations : DriveOp → DriveAction → List (String × Option Nat)
  | .idle, .publishCleanAnchor label _ proven => [(label, proven.observation.freeBytes)]
  | .finishing envelope, .close world => envelope.advanced.map fun entry =>
      (entry.1.label, (world.observeAfter entry.1.label).freeBytes)
  | .reconciling job, .fence world => [(job.call.label, world.final.free)]
  | .repairing repair, .recover _ final | .enriching repair, .enrich _ final =>
      [(repair.state.facts.driveLabel, final.free)]
  | _, _ => []

/-- One catalog with its connections and previews, and the free space of every drive. -/
structure World (ι : Type) where
  catalog : Catalog
  holders : ι → Holder
  previews : ι → Preview
  free : String → Nat

inductive Event (ι : Type) where
  | drive (conn : ι) (action : DriveAction)
  | hold (conn : ι) (keys : List FenceKey)
  | release (conn : ι)
  /-- A drive's free space becomes this. -/
  | write (conn : ι) (label : String) (free : Nat)
  | register (call : Enrolment)
  /-- A transaction that leaves the drives and their evidence alone. -/
  | others (other : Catalog)
  | preview (conn : ι) (action : PreviewAction)

section Worlds

variable {ι : Type} [DecidableEq ι] (rules : AdmissionRules) (world : World ι)

namespace World

def writers (conn : ι) : List FenceKey := (world.holders conn).fences rules.toFenceRules

def readers (conn : ι) : List FenceKey := (world.previews conn).phase.shared rules.toFenceRules

def setHolder (conn : ι) (holder : Holder) : World ι :=
  { world with holders := Function.update world.holders conn holder }

def step : Event ι → World ι
  | .drive conn action =>
      let holder := world.holders conn
      match holder.op.perform rules.toSerialRules world.catalog action with
      | .error _ => world.setHolder conn (holder.next .idle)
      | .ok (after, next) =>
          -- a violated constraint rolls the transaction back
          if after.tables.evidenceAccepted then
            { world with catalog := after }.setHolder conn (holder.next next)
          else world.setHolder conn (holder.next .idle)
  | .hold conn keys =>
      match world.holders conn with
      | .operation .idle => world.setHolder conn (.direct keys)
      | _ => world
  | .release conn =>
      match world.holders conn with
      | .direct _ => world.setHolder conn (.operation .idle)
      | _ => world
  | .write _ label free => { world with free := Function.update world.free label free }
  | .register call =>
      match world.catalog.graphWrite call.body with
      | .error _ => world
      | .ok after => { world with catalog := after }
  | .others other =>
      { world with catalog := { other with tables := other.tables.withFleet world.catalog.fleet } }
  | .preview conn action =>
      let next := (world.previews conn).step rules world.catalog action
      { world with previews := Function.update world.previews conn next }

/-- The current generation of the drive has no anchor. -/
def Unanchored (label : String) : Prop :=
  ∀ drive, world.catalog.fleet.findDrive label = some drive →
    ∀ anchor ∈ world.catalog.tables.anchors, anchorKey anchor ≠ currentKey drive label

def Dedicated (label : String) : Prop :=
  ∃ drive, world.catalog.fleet.findDrive label = some drive ∧ drive.writeAuthority = "dedicated_local"

/-- A reconciliation under its fences, to which the drive has been declared dedicated. -/
def reconciled : Holder → Option String
  | .operation (.reconciling job) => some job.call.label
  | .operation (.settling settled) => some settled.job.call.label
  | _ => none

/-- The body of a mutation writes to its drives, and a direct holder in a generation that it has begun. -/
def Writes (label : String) : Holder → Prop
  | .operation (.mutating envelope) => ∃ entry ∈ envelope.advanced, entry.1.label = label
  | .direct keys =>
      HoldsDrive rules.toFenceRules keys world.catalog.fleet label ∧ world.Unanchored label
  | _ => False

/-- Only a drive that is not dedicated is written by others. -/
def MayWrite (conn : ι) (label : String) : Prop :=
  world.Writes rules label (world.holders conn) ∨
    (¬world.Dedicated label ∧ ∀ other, reconciled (world.holders other) ≠ some label)

/-- A free space that is observed is the drive's. -/
def Shows (label : String) (observed : Option Nat) : Prop :=
  observed.all (· == world.free label) = true

/-- The fences of a connection after a step of its drive operation. -/
def fencesAfter (conn : ι) (action : DriveAction) : List FenceKey :=
  let holder := world.holders conn
  match holder.op.perform rules.toSerialRules world.catalog action with
  | .error _ => []
  | .ok (_, next) => (holder.next next).fences rules.toFenceRules

/-- The steps that are taken: fences answer truthfully, exclusive fences are held for what is written to
    a dedicated drive, its identity and its generations, and observations show the free space. -/
def Allowed : Event ι → Prop
  | .drive conn action =>
      (∀ key ∈ world.fencesAfter rules conn action,
        key ∈ world.writers rules conn ∨ Unheld (world.writers rules) (world.readers rules) key) ∧
      (∀ seen ∈ observations (world.holders conn).op action, world.Shows seen.1 seen.2) ∧
      ((world.holders conn).op = .idle → ∀ label, directDrive action = some label →
        HoldsDrive rules.toFenceRules (world.writers rules conn) world.catalog.fleet label)
  | .hold _ keys => ∀ key ∈ keys, Unheld (world.writers rules) (world.readers rules) key
  | .write conn label _ => world.MayWrite rules conn label
  | .preview conn action =>
      (∀ key ∈ ((world.previews conn).step rules world.catalog action).phase.shared rules.toFenceRules,
        key ∈ world.readers rules conn ∨ Readable (world.writers rules) key) ∧
      ∀ label observed, (world.previews conn).observes action = some (label, observed) →
        world.Shows label observed
  | .release _ | .register _ | .others _ => True

instance (held : List FenceKey) (fleet : Fleet) (label : String) :
    Decidable (HoldsDrive rules.toFenceRules held fleet label) :=
  decidable_of_iff (∀ drive ∈ fleet.findDrive label, ∃ keys ∈ rules.lockKeys drive.fence,
    ∀ key ∈ keys, key ∈ held) Iff.rfl

instance (label : String) : Decidable (world.Unanchored label) :=
  decidable_of_iff (∀ drive ∈ world.catalog.fleet.findDrive label,
    ∀ anchor ∈ world.catalog.tables.anchors, anchorKey anchor ≠ currentKey drive label) Iff.rfl

instance (label : String) : Decidable (world.Dedicated label) :=
  decidable_of_iff (∃ drive ∈ world.catalog.fleet.findDrive label,
    drive.writeAuthority = "dedicated_local") Iff.rfl

instance (label : String) (observed : Option Nat) : Decidable (world.Shows label observed) :=
  inferInstanceAs (Decidable (_ = true))

instance (label : String) : (holder : Holder) → Decidable (world.Writes rules label holder)
  | .operation (.mutating envelope) =>
      inferInstanceAs (Decidable (∃ entry ∈ envelope.advanced, entry.1.label = label))
  | .direct _ => inferInstanceAs (Decidable (_ ∧ _))
  | .operation .idle | .operation (.entering _ _ _ _) | .operation (.finishing _)
  | .operation (.reconciling _) | .operation (.settling _) | .operation (.repairing _)
  | .operation (.enriching _) => .isFalse id

instance [Fintype ι] (conn : ι) (label : String) : Decidable (world.MayWrite rules conn label) :=
  inferInstanceAs (Decidable (_ ∨ _))

instance [Fintype ι] : (event : Event ι) → Decidable (world.Allowed rules event)
  | .drive conn action =>
      have _direct : Decidable (∀ label, directDrive action = some label →
          HoldsDrive rules.toFenceRules (world.writers rules conn) world.catalog.fleet label) :=
        decidable_of_iff (∀ label ∈ directDrive action, HoldsDrive rules.toFenceRules
          (world.writers rules conn) world.catalog.fleet label) Iff.rfl
      inferInstanceAs (Decidable (_ ∧ _ ∧ (_ → _)))
  | .preview conn action =>
      have _shows : Decidable (∀ label observed, (world.previews conn).observes action =
          some (label, observed) → world.Shows label observed) :=
        decidable_of_iff (∀ seen ∈ (world.previews conn).observes action, world.Shows seen.1 seen.2)
          ⟨fun all label observed same => all (label, observed) same, fun all _ same => all _ _ same⟩
      inferInstanceAs (Decidable (_ ∧ _))
  | .hold _ keys => inferInstanceAs (Decidable (∀ key ∈ keys, _))
  | .write conn label _ => inferInstanceAs (Decidable (world.MayWrite rules conn label))
  | .release _ | .register _ | .others _ => .isTrue trivial

/-- Nothing is held or under way, and no generation has been anchored yet. -/
def start (catalog : Catalog) (free : String → Nat) : World ι where
  catalog := { catalog with tables := { catalog.tables with anchors := [] } }
  holders _ := .operation .idle
  previews _ := .idle
  free := free

def after (start : World ι) (events : List (Event ι)) : World ι :=
  run (World.step rules) start events

end World

end Worlds

end Modelark.Admission
