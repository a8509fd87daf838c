import Modelark.Admission.Kept

/-!
# Executable evidence is grounded

What a preview returns as executable was derived at a moment at which the drive had the free space, and
nobody could write to it.
-/

namespace Modelark.Admission

open Library Execution Capacity Revision

variable {ι : Type} {rules : AdmissionRules} {world : World ι} {label : String}

theorem admissionFacts_drive (c : Catalog) (label : String) :
    (admissionFacts c label).drive = c.fleet.findDrive label := by
  unfold admissionFacts
  split
  · rename_i missing
    exact missing.symm
  · rename_i found
    exact found.symm

/-- The anchor that is read is of the current generation. -/
theorem admissionFacts_anchor {c : Catalog} {anchor : CleanAnchor}
    (read : (admissionFacts c label).anchor = some anchor) :
    ∃ drive, c.fleet.findDrive label = some drive ∧ anchor ∈ c.tables.anchors ∧
      anchorKey anchor = currentKey drive label := by
  unfold admissionFacts at read
  split at read
  · cases read
  · rename_i drive found
    have matched := List.find?_some read
    simp only [Bool.and_eq_true, beq_iff_eq] at matched
    obtain ⟨⟨labelled, epoch⟩, generation⟩ := matched
    refine ⟨drive, found, List.mem_of_find?_eq_some read, ?_⟩
    rw [anchorKey, currentKey, labelled, epoch, generation]

/-- Facts of a dedicated drive are facts of a drive that there is. -/
theorem dedicated_of_authority {c : Catalog} (authority : (admissionFacts c label).authority = "dedicated_local") :
    ∃ drive, c.fleet.findDrive label = some drive ∧ drive.writeAuthority = "dedicated_local" := by
  rw [AdmissionFacts.authority, admissionFacts_drive] at authority
  cases found : c.fleet.findDrive label with
  | none =>
      rw [found] at authority
      simp at authority
  | some drive =>
      rw [found] at authority
      exact ⟨drive, rfl, authority⟩

/-- Evidence that a preview derives in a world, having captured these facts. -/
structure Grounded (rules : AdmissionRules) (world : World ι) (conn : ι) (label now : String)
    (captured : AdmissionFacts) (evidence : AdmissionEvidence) : Prop where
  /-- The drive has at least the space that is admissible. -/
  free : evidence.admissibleFree ≤ world.free label
  /-- The floor is subtracted from the free space once. -/
  floor : evidence.observedFree = some (world.free label : Int) ∧ evidence.admissibleFree =
    max 0 ((world.free label : Int) - (admissionFacts world.catalog label).floor rules)
  /-- The current generation is not being written, or the fence is held. -/
  clean : (evidence.kind = .anchor ∧ ¬world.Unanchored label) ∨
    (evidence.kind = .live ∧ ∃ drive keys, world.catalog.fleet.findDrive label = some drive ∧
      rules.lockKeys drive.fence = some keys ∧ ∀ key ∈ keys, key ∈ world.readers rules conn)
  unwritten : ∀ other, ¬world.MayWrite rules other label
  epoch : evidence.identityEpoch = (admissionFacts world.catalog label).epoch
  /-- It is of the facts of now, and of an observation only while the captured identity stands. -/
  derived : ∃ observation fenceHeld,
    evidence = (admissionFacts world.catalog label).derive rules observation fenceHeld now ∧
      ((admissionFacts world.catalog label).fenceIdentity ≠ captured.fenceIdentity →
        observation = none ∧ fenceHeld = false)

/-- An anchor that is read shows the free space of the drive, which nobody may write. -/
theorem Kept.anchored_free (kept : Kept rules world) {anchor : CleanAnchor} {free : Nat}
    (read : (admissionFacts world.catalog label).anchor = some anchor)
    (known : anchor.anchorFreeBytes = some free) : world.free label = free ∧ ¬world.Unanchored label := by
  obtain ⟨drive, found, member, key⟩ := admissionFacts_anchor read
  obtain ⟨_, shown⟩ := kept.anchored label drive anchor found member key
  rw [known] at shown
  exact ⟨(Option.some.inj shown).symm, fun unanchored => unanchored drive found anchor member key⟩

/-- Nobody may write to a dedicated drive that is anchored, or whose keys a preview holds. -/
theorem Kept.unwritten (kept : Kept rules world) (conn : ι) (dedicated : world.Dedicated label)
    (clean : ¬world.Unanchored label ∨ ∃ drive keys, world.catalog.fleet.findDrive label = some drive ∧
      rules.lockKeys drive.fence = some keys ∧ ∀ key ∈ keys, key ∈ world.readers rules conn) (other : ι) :
    ¬world.MayWrite rules other label := by
  intro may
  rcases mayWrite_cases kept may with ⟨unanchored, _, holds⟩ | ⟨undedicated, _⟩
  · rcases clean with anchored | ⟨drive, keys, found, locked, shared⟩
    · exact anchored unanchored
    · obtain ⟨keys', locked', held⟩ := holds drive found
      rw [locked] at locked'
      cases locked'
      obtain ⟨key, among⟩ := lockKeys_nonempty locked
      exact kept.excluded.shared other conn key (held key among) (shared key among)
  · exact undedicated dedicated

/-- Executable evidence that is derived without an observation is of the anchor. -/
theorem Kept.grounded_anchor (kept : Kept rules world) {conn : ι} {now : String} {captured : AdmissionFacts}
    {evidence : AdmissionEvidence} {fenceHeld : Bool}
    (derived : evidence = (admissionFacts world.catalog label).derive rules none fenceHeld now)
    (unfenced : (admissionFacts world.catalog label).fenceIdentity ≠ captured.fenceIdentity →
      fenceHeld = false)
    (executable : evidence.executable = true) : Grounded rules world conn label now captured evidence := by
  subst derived
  obtain ⟨authority, free, observed, admissible, source⟩ := AdmissionFacts.derive_executable executable
  rcases source with ⟨seen, absent, _⟩ | ⟨_, kind, anchor, read, known⟩
  · cases absent
  · obtain ⟨rfl, anchored⟩ := kept.anchored_free read known
    exact {
      free := by
        rw [admissible]
        omega
      floor := ⟨observed, admissible⟩
      clean := .inl ⟨kind, anchored⟩
      unwritten := kept.unwritten conn (dedicated_of_authority authority) (.inl anchored)
      epoch := rfl
      derived := ⟨none, fenceHeld, rfl, fun changed => ⟨rfl, unfenced changed⟩⟩ }

/-- Executable evidence that is derived under the fence of the captured identity. -/
theorem Kept.grounded_fenced (kept : Kept rules world) {conn : ι} {now : String} {captured : AdmissionFacts}
    {evidence : AdmissionEvidence} {observation : Option Observation}
    (phase : (world.previews conn).phase = .compared captured observation true)
    (current : (world.previews conn).labels.head? = some label)
    (derived : evidence = (admissionFacts world.catalog label).derive rules observation true now)
    (executable : evidence.executable = true) : Grounded rules world conn label now captured evidence := by
  have snapshot := kept.previews conn label current
  rw [phase] at snapshot
  obtain ⟨⟨identity, keys, known, locked⟩, shows, unchanged⟩ := snapshot
  obtain ⟨drive, found, same⟩ := unchanged rfl
  rw [known] at same
  cases same
  have unchanged : (admissionFacts world.catalog label).fenceIdentity = captured.fenceIdentity := by
    rw [AdmissionFacts.fenceIdentity, admissionFacts_drive, found, known]
    rfl
  have shared : ∀ key ∈ keys, key ∈ world.readers rules conn := by
    intro key among
    simpa [World.readers, phase, Phase.shared, known, locked] using among
  subst derived
  obtain ⟨authority, free, observed, admissible, source⟩ := AdmissionFacts.derive_executable executable
  rcases source with ⟨seen, rfl, live, proven, _, bytes⟩ | ⟨rfl, _, _⟩
  · obtain ⟨drive', found', dedicated⟩ := dedicated_of_authority authority
    rw [found] at found'
    cases found'
    simp only [AdmissionFacts.proves, Bool.and_eq_true] at proven
    have shown := shows seen rfl proven.1.1.2 drive found known dedicated
    have free : world.free label = free := by
      have shown : free = world.free label := by simpa [World.Shows, bytes] using shown
      exact shown.symm
    subst free
    have fenced : ∃ drive keys, world.catalog.fleet.findDrive label = some drive ∧
        rules.lockKeys drive.fence = some keys ∧ ∀ key ∈ keys, key ∈ world.readers rules conn :=
      ⟨drive, keys, found, locked, shared⟩
    exact {
      free := by
        rw [admissible]
        omega
      floor := ⟨observed, admissible⟩
      clean := .inr ⟨live, fenced⟩
      unwritten := kept.unwritten conn ⟨drive, found, dedicated⟩ (.inr fenced)
      epoch := rfl
      derived := ⟨some seen, true, rfl, fun changed => absurd unchanged changed⟩ }
  · exact kept.grounded_anchor rfl (fun changed => absurd unchanged changed) executable

/-- What a preview derives as executable is grounded. -/
theorem Kept.grounded (kept : Kept rules world) {conn : ι} {now : String} {captured : AdmissionFacts}
    {evidence : AdmissionEvidence} (was : (world.previews conn).phase.facts? = some captured)
    (current : (world.previews conn).labels.head? = some label)
    (derived : Preview.Derives rules world.catalog label now (world.previews conn).phase evidence)
    (executable : evidence.executable = true) : Grounded rules world conn label now captured evidence := by
  generalize shape : (world.previews conn).phase = phase at was derived
  cases derived with
  | offline unknown => exact kept.grounded_anchor rfl (fun _ => rfl) executable
  | fenced =>
      cases was
      exact kept.grounded_fenced shape current rfl executable
  | refused refused =>
      rw [executable] at refused
      cases refused

section Runs

variable [DecidableEq ι] {conn : ι}

/-- A connection's preview moves only in its own steps. -/
theorem previews_step (rules : AdmissionRules) (conn : ι) (world : World ι) (event : Event ι) :
    (world.step rules event).previews conn = world.previews conn ∨
      ∃ action, event = .preview conn action ∧ Preview.Progress rules world.catalog (world.previews conn)
        action ((world.step rules event).previews conn) := by
  cases event with
  | preview other action =>
      by_cases same : other = conn
      · subst same
        refine .inr ⟨action, rfl, ?_⟩
        simpa [World.step] using Preview.step_progress
      · left
        simp [World.step, Function.update_of_ne (Ne.symm same)]
  | drive other action =>
      left
      simp only [World.step]
      split
      · rfl
      · split <;> rfl
  | hold other keys =>
      left
      simp only [World.step]
      split <;> rfl
  | release other =>
      left
      simp only [World.step]
      split <;> rfl
  | register call =>
      left
      simp only [World.step]
      split <;> rfl
  | write _ _ _ | others _ => exact .inl rfl

/-- The preview has this evidence of a drive. -/
def Returned (conn : ι) (label : String) (evidence : AdmissionEvidence) (world : World ι) : Prop :=
  (world.previews conn).out[label]? = some evidence

/-- The preview is at a drive whose facts it has captured. -/
def Holding (conn : ι) (label : String) (captured : AdmissionFacts) (world : World ι) : Prop :=
  (world.previews conn).labels.head? = some label ∧ (world.previews conn).phase.facts? = some captured

/-- Facts are captured in one step, from the catalog of that moment. -/
theorem captured_of_holding {event : Event ι} {captured : AdmissionFacts}
    (before : ¬Holding conn label captured world)
    (after : Holding conn label captured (world.step rules event)) :
    event = .preview conn .capture ∧ captured = admissionFacts world.catalog label := by
  obtain ⟨current, facts⟩ := after
  rcases previews_step rules conn world event with same | ⟨action, rfl, progress⟩
  · rw [same] at current facts
    exact absurd ⟨current, facts⟩ before
  · generalize (world.step rules (.preview conn action)).previews conn = next at current facts progress
    cases progress with
    | stays => exact absurd ⟨current, facts⟩ before
    | begins => cases facts
    | captures head =>
        have same := head.symm.trans current
        cases same
        cases facts
        exact ⟨rfl, rfl⟩
    | fences was known locked =>
        cases facts
        exact absurd ⟨current, by rw [was]; rfl⟩ before
    | refuses was unfenced =>
        refine absurd ⟨current, was.trans ?_⟩ before
        rcases unfenced with rfl | rfl | ⟨_, rfl⟩ <;> exact facts
    | observes head was =>
        cases facts
        exact absurd ⟨current, by rw [was]; rfl⟩ before
    | compares head was =>
        cases facts
        exact absurd ⟨current, by rw [was]; rfl⟩ before
    | derives _ _ _ => cases facts

/-- Evidence is returned for a drive in the step that derives it. -/
theorem derived_of_returned {event : Event ι} {evidence : AdmissionEvidence}
    (before : ¬Returned conn label evidence world)
    (after : Returned conn label evidence (world.step rules event)) :
    ∃ now captured, event = .preview conn (.derive now) ∧ Holding conn label captured world ∧
      Preview.Derives rules world.catalog label now (world.previews conn).phase evidence := by
  rcases previews_step rules conn world event with same | ⟨action, rfl, progress⟩
  · rw [Returned, same] at after
    exact absurd after before
  · unfold Returned at before after
    generalize (world.step rules (.preview conn action)).previews conn = next at after progress
    cases progress with
    | begins => simp at after
    | @derives current now facts evidence' head was derived =>
        by_cases same : current = label
        · subst same
          have same : evidence' = evidence := by simpa [Preview.finish] using after
          subst same
          exact ⟨now, facts, rfl, ⟨head, was⟩, derived⟩
        · rw [Preview.finish, Dict.lookup_insert_of_ne _ _ same] at after
          exact absurd after before
    | stays | captures _ | fences _ _ _ | refuses _ _ | observes _ _ | compares _ _ =>
        exact absurd after before

theorem kept_after {catalog : Catalog} {free : String → Nat} {events : List (Event ι)}
    (permitted : Permitted (World.step rules) (World.Allowed rules) (World.start catalog free) events) :
    Kept rules ((World.start catalog free).after rules events) :=
  run_invariant (fun _ _ allowed kept => kept.step allowed) permitted (.start catalog free)

/-- In every run of previews among the writers of drives, evidence that is returned as executable is
    grounded where it was derived, from the facts that the preview had captured. -/
theorem executable_evidence_grounded (rules : AdmissionRules) (catalog : Catalog) (free : String → Nat)
    (events : List (Event ι))
    (permitted : Permitted (World.step rules) (World.Allowed rules) (World.start catalog free) events)
    (conn : ι) (label : String) (evidence : AdmissionEvidence)
    (returned : Returned conn label evidence ((World.start catalog free).after rules events))
    (executable : evidence.executable = true) :
    ∃ earlier middle now later,
      events = earlier ++ .preview conn .capture :: (middle ++ .preview conn (.derive now) :: later) ∧
      (∀ done rest, middle = done ++ rest → Holding conn label
        (admissionFacts ((World.start catalog free).after rules earlier).catalog label)
        ((World.start catalog free).after rules (earlier ++ .preview conn .capture :: done))) ∧
      Grounded rules ((World.start catalog free).after rules (earlier ++ .preview conn .capture :: middle))
        conn label now
        (admissionFacts ((World.start catalog free).after rules earlier).catalog label) evidence := by
  have nothing : ¬Returned conn label evidence (World.start catalog free) := by
    simp [Returned, World.start, Preview.idle]
  obtain ⟨before, event, later, rfl, notYet, now⟩ := run_origin (World.step rules) nothing returned
  obtain ⟨time, captured, rfl, holding, derived⟩ := derived_of_returned notYet now
  have kept := kept_after (permitted_append.mp permitted).1
  have grounded := kept.grounded holding.2 holding.1 derived executable
  -- since when the preview has held these facts
  have nowhere : ¬Holding conn label captured (World.start catalog free) := by
    simp [Holding, World.start, Preview.idle]
  obtain ⟨earlier, capture, middle, rfl, fresh, since⟩ := run_since (World.step rules) nowhere holding
  have first := since [] middle rfl
  rw [run_snoc] at first
  obtain ⟨rfl, rfl⟩ := captured_of_holding fresh first
  exact ⟨earlier, middle, time, later, by simp, since, grounded⟩

def pairedAdmission : AdmissionRules where
  toSerialRules := pairedRules
  safetyFloor _ _ := 5

/-- A mutation of a drive between the capture and the fence of a preview, which then reads the anchor. -/
def admittedEvents : List (Event (Fin 2)) :=
  [.preview 1 (.start ["a"]), .preview 1 .capture,
    .drive 0 (.capture ["a"] "replica" none none pairedWorld), .drive 0 .enter, .write 0 "a" 40,
    .drive 0 .bodyReturns, .drive 0 (.close pairedWorld),
    .preview 1 (.fence true), .preview 1 (.observe none), .preview 1 .compare, .preview 1 (.derive "now")]

def admittedEvidence : AdmissionEvidence where
  kind := .anchor
  executable := true
  admissibleFree := 35
  code := none
  observedFree := some 40
  optimisticUsableMax := some 95
  observedAt := "now"
  identityEpoch := some 1

theorem executable_evidence_grounded_paired :
    Permitted (World.step pairedAdmission) (World.Allowed pairedAdmission)
      (World.start pairedSystem.catalog fun _ => 50) admittedEvents ∧
    ∃ earlier middle now later, admittedEvents =
        earlier ++ .preview 1 .capture :: (middle ++ .preview 1 (.derive now) :: later) ∧
      Grounded pairedAdmission
        ((World.start pairedSystem.catalog fun _ => 50).after pairedAdmission
          (earlier ++ .preview 1 .capture :: middle)) 1 "a" now
        (admissionFacts ((World.start pairedSystem.catalog fun _ => 50).after pairedAdmission
          earlier).catalog "a") admittedEvidence := by
  have permitted : Permitted (World.step pairedAdmission) (World.Allowed pairedAdmission)
      (World.start pairedSystem.catalog fun _ => 50) admittedEvents := by
    decide +kernel
  have returned : Returned 1 "a" admittedEvidence
      ((World.start pairedSystem.catalog fun _ => 50).after pairedAdmission admittedEvents) := by
    unfold Returned
    decide +kernel
  obtain ⟨earlier, middle, now, later, split, _, grounded⟩ :=
    executable_evidence_grounded pairedAdmission pairedSystem.catalog (fun _ => 50) admittedEvents permitted
      1 "a" admittedEvidence returned rfl
  exact ⟨permitted, earlier, middle, now, later, split, grounded⟩

end Runs

end Modelark.Admission
