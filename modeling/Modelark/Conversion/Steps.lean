import Modelark.Conversion.Phases

/-!
# The steps of a conversion

What each command does to the paths of a candidate, and the candidate from its copy to its retired source.
-/

namespace Modelark.Conversion

open Library Execution Revision

variable {tools : Tools} {place : Place} {before after : Archive} {path : String}

theorem mem_worktree_iff : path ∈ before.worktree ↔ before.worktree[path]?.isSome = true :=
  Dict.mem_iff_isSome

theorem tracks_iff : before.Tracks path ↔
    (before.tracked path).index.isSome = true ∨ (before.tracked path).head.isSome = true :=
  or_congr Dict.mem_iff_isSome Dict.mem_iff_isSome

/-- A change at the destination, or one that leaves less at its path. -/
theorem Moved.of_changed {now : Tracked} (changed : before.Changed after path now) (grown : Grown before after)
    (added : ∀ (key : String) (bytes : Bytes), after.objects[key]? = some bytes →
      before.objects[key]? = some bytes ∨ key = tools.location place.data ∧ bytes = place.data)
    (own : path = place.dest ∨ now.worktree = none ∧ now.index = none ∧
      (now.head.isSome = true → (before.tracked path).head.isSome = true)) :
    Moved tools place before after path where
  elsewhere := changed.elsewhere
  objects := grown
  added := added
  files other there := by
    rw [mem_worktree_iff] at there ⊢
    by_cases here : other = path
    · subst here
      rcases own with dest | ⟨gone, _⟩
      · exact .inr dest
      · have worktree := congrArg Tracked.worktree changed.own
        simp only [Archive.tracked, gone] at worktree
        rw [worktree] at there
        cases there
    · have same := congrArg Tracked.worktree (changed.elsewhere other here)
      simp only [Archive.tracked] at same
      rw [same] at there
      exact .inl there
  tracks other there := by
    rw [tracks_iff] at there ⊢
    by_cases here : other = path
    · subst here
      rcases own with dest | ⟨_, unlisted, kept⟩
      · exact .inr dest
      · rw [changed.own, unlisted] at there
        rcases there with index | head
        · cases index
        · exact .inl (.inr (kept head))
    · rw [changed.elsewhere other here] at there
      exact .inl there

theorem Moved.of_same {now : Tracked} (changed : before.Changed after path now)
    (objects : after.objects = before.objects)
    (own : path = place.dest ∨ now.worktree = none ∧ now.index = none ∧
      (now.head.isSome = true → (before.tracked path).head.isSome = true)) :
    Moved tools place before after path := by
  apply Moved.of_changed changed _ _ own
  · intro key bytes object
    rwa [objects]
  · intro key bytes object
    exact .inl (by rwa [objects] at object)

/-- A new file. -/
theorem create_spec (tools : Tools) (place : Place) (bytes : Bytes) (absent : before.worktree[place.dest]? = none)
    (room : ∀ path ∈ before.worktree, ¬Below place.dest path ∧ ¬Below path place.dest) :
    ∃ after, before.create place.dest bytes = some after ∧
      after.tracked place.dest =
        ⟨some (.content bytes), before.index[place.dest]?, before.head[place.dest]?⟩ ∧
      Moved tools place before after place.dest := by
  have directory : before.isDirectory place.dest = false := by
    rw [Archive.isDirectory, List.any_eq_false]
    intro other there
    rw [Bool.not_eq_true, ← Bool.not_eq_true, List.isPrefixOf_iff_prefix]
    exact (room other (Std.ExtTreeMap.mem_keys.mp there)).1
  have blocked : before.isBlocked place.dest = false := by
    rw [Archive.isBlocked, List.any_eq_false]
    intro other there
    rw [Bool.not_eq_true, ← Bool.not_eq_true, List.isPrefixOf_iff_prefix]
    exact (room other (Std.ExtTreeMap.mem_keys.mp there)).2
  have created : before.create place.dest bytes =
      some { before with worktree := before.worktree.insert place.dest (.content bytes) } := by
    simp [Archive.create, Archive.hasFile, absent, directory, blocked]
  have changed : before.Changed { before with worktree := before.worktree.insert place.dest (.content bytes) }
      place.dest ⟨some (.content bytes), before.index[place.dest]?, before.head[place.dest]?⟩ := by
    constructor
    · simp [Archive.tracked]
    · intro other apart
      simp [Archive.tracked, Dict.lookup_insert_of_ne _ _ (Ne.symm apart)]
  exact ⟨_, created, changed.own, Moved.of_same changed rfl (.inl rfl)⟩

/-- The bytes are added to the annex, and a link to them is left. -/
theorem annexAdd_spec (plain : before.Plain place.dest) (ready : Ready tools before place.dest place.data)
    (there : before.worktree[place.dest]?.isSome = true)
    (known : ∀ bytes, before.objects[tools.location place.data]? = some bytes → bytes = place.data) :
    ∃ after output, tools.git .annexAdd place.dest before = some (after, output) ∧
      after.tracked place.dest = ⟨some (.link (tools.location place.data)),
        some (.link (tools.location place.data)), none⟩ ∧
      after.objects[tools.location place.data]? = some place.data ∧
      Moved tools place before after place.dest := by
  obtain ⟨head, absent | ⟨content, index⟩ | ⟨link, object⟩⟩ := ready
  · simp only [Archive.tracked] at absent
    rw [absent.1] at there
    cases there
  · simp only [Archive.tracked] at head content index
    obtain ⟨after, output, ran, changed, objects⟩ := tools.addsContent plain content index
    change after.objects = if tools.location place.data ∈ before.objects then before.objects
      else before.objects.insert (tools.location place.data) place.data at objects
    have grown : Grown before after := by
      intro key bytes object
      rw [objects]
      split_ifs with stored
      · exact object
      · rw [Dict.lookup_insert]
        split_ifs with same
        · subst same
          rw [Dict.not_mem_iff_lookup.mp stored] at object
          cases object
        · exact object
    have added (key : String) (bytes : Bytes) (object : after.objects[key]? = some bytes) :
        before.objects[key]? = some bytes ∨ key = tools.location place.data ∧ bytes = place.data := by
      rw [objects] at object
      split_ifs at object with stored
      · exact .inl object
      · rw [Dict.lookup_insert] at object
        split_ifs at object with same
        · cases object
          exact .inr ⟨same.symm, rfl⟩
        · exact .inl object
    have held : after.objects[tools.location place.data]? = some place.data := by
      rw [objects]
      split_ifs with stored
      · obtain ⟨bytes, object⟩ := Dict.exists_lookup_of_mem stored
        obtain rfl := known bytes object
        exact object
      · rw [Dict.lookup_insert, if_pos rfl]
    refine ⟨after, output, ran, ?_, held, Moved.of_changed changed grown added (.inl rfl)⟩
    rw [changed.own, head]
    rfl
  · simp only [Archive.tracked] at head link
    obtain ⟨after, output, ran, changed, objects⟩ := tools.addsLink plain link
    refine ⟨after, output, ran, ?_, by rwa [objects], Moved.of_same changed objects (.inl rfl)⟩
    rw [changed.own, head]
    rfl

section Acts

variable {crash : World → Prop} {raises : Failure → World → Prop} {world : World} {label : String}

theorem meets_ensure {holds : Bool} {code : String} (here : crash world) (true' : holds = true) :
    (ensure holds code).Meets crash raises (fun _ now => now = world) world := by
  have checked : require holds (refused code) = .ok () := require_eq_ok.mpr true'
  exact (Program.meets_lift checked here).mono (fun _ kept => kept) (fun _ _ kept => kept)
    fun _ _ ended => ended.2

theorem meets_seeArchive {α : Type} {see : Archive → α} (here : crash world) :
    (seeArchive label see).Meets crash raises
      (fun value now => value = see (world.archives label) ∧ now = world) world := by
  apply Program.meets_look here
  · intro error saw
    cases saw
  · intro value saw
    cases saw
    exact ⟨rfl, rfl⟩

theorem meets_readBytes {read : Archive → Option Bytes} {bytes : Bytes} (here : crash world)
    (held : read (world.archives label) = some bytes) :
    (readBytes label read).Meets crash raises (fun value now => value = bytes ∧ now = world) world := by
  apply Program.meets_look here
  · intro error saw
    rw [held] at saw
    cases saw
  · intro value saw
    rw [held] at saw
    cases saw
    exact ⟨rfl, rfl⟩

/-- A command that succeeds. -/
theorem meets_git {command : GitCommand} {output : String} (here : crash world)
    (ran : tools.git command path (world.archives label) = some (after, output))
    (next : crash (world.setArchive label after)) :
    (git tools label command path).Meets crash raises
      (fun value now => value = output ∧ now = world.setArchive label after) world := by
  apply Program.meets_atomic here
  · intro error acted
    rw [ran] at acted
    cases acted
  · intro now value acted
    rw [ran] at acted
    cases acted
    exact ⟨next, rfl, rfl⟩

/-- A command that only looks. -/
theorem meets_gitLook {command : GitCommand} {output : String} (here : crash world)
    (ran : tools.git command path (world.archives label) = some (world.archives label, output)) :
    (git tools label command path).Meets crash raises (fun value now => value = output ∧ now = world)
      world := by
  have next : crash (world.setArchive label (world.archives label)) := by rwa [setArchive_same]
  refine (meets_git here ran next).mono (fun _ kept => kept) (fun _ _ kept => kept) ?_
  intro value now ended
  rw [setArchive_same] at ended
  exact ended

end Acts

section Candidates

variable {start world : World} {plan : Plan} {place : Candidate → Place} {candidate : Candidate}
variable {others base : Candidate → Phase → Prop} {raises : Failure → World → Prop} {phase : Phase}

/-- What one candidate may do at any moment. -/
theorem Kept.crash (kept : Kept tools start plan place (focus others candidate phase) world)
    (allowed : ∀ other now, others other now → base other now) (own : base candidate phase) :
    Kept tools start plan place base world := by
  apply kept.weaken
  intro other _ now permitted
  unfold focus at permitted
  split_ifs at permitted with here
  · subst here
    rwa [permitted]
  · exact allowed other now permitted

theorem hasFile_of_read {archive : Archive} {bytes : Bytes} (held : archive.read path = some bytes) :
    archive.hasFile path = true := by
  unfold Archive.read at held
  unfold Archive.hasFile
  cases there : archive.worktree[path]? with
  | none =>
      rw [there] at held
      cases held
  | some entry => rfl

/-- What has not been touched is read as before. -/
theorem read_grown {before after : Archive} {bytes : Bytes} (same : after.tracked path = before.tracked path)
    (objects : Grown before after) (held : before.read path = some bytes) : after.read path = some bytes := by
  have worktree := congrArg Tracked.worktree same
  simp only [Archive.tracked] at worktree
  unfold Archive.read at held ⊢
  rw [worktree]
  cases there : before.worktree[path]? with
  | none =>
      rw [there] at held
      cases held
  | some entry =>
      rw [there] at held
      cases entry with
      | content bytes => exact held
      | link location => exact objects location _ held

/-- The recorded copy is there until the row names the other one. -/
theorem Kept.readSource (fit : Fit tools start plan place) (member : candidate ∈ plan.convertible)
    (kept : Kept tools start plan place (focus others candidate .ready) world) :
    (world.archives candidate.row.driveLabel).read (place candidate).src = some (place candidate).data := by
  have fits := fit.each candidate member
  have at' := kept.at member
  by_cases same : (place candidate).src = (place candidate).dest
  · have there : (world.archives candidate.row.driveLabel).worktree[(place candidate).dest]?.isSome = true := by
      apply at'.present
      rw [← same]
      exact hasFile_of_read fits.held
    have target : Ready tools (world.archives candidate.row.driveLabel) (place candidate).dest
      (place candidate).data := at'.target
    obtain ⟨_, ⟨absent, _⟩ | ⟨content, _⟩ | ⟨link, object⟩⟩ := target
    · simp only [Archive.tracked] at absent
      rw [absent] at there
      cases there
    · simp only [Archive.tracked] at content
      rw [same, Archive.read, content]
    · simp only [Archive.tracked] at link
      rw [same, Archive.read, link]
      exact object
  · exact read_grown (at'.source same) (kept.objects _) fits.held

/-- A destination that is not there can be written. -/
theorem Kept.room (fit : Fit tools start plan place) (member : candidate ∈ plan.convertible)
    (kept : Kept tools start plan place (focus others candidate phase) world)
    (absent : (world.archives candidate.row.driveLabel).worktree[(place candidate).dest]? = none) :
    (place candidate).data.length ≤ writeLimit ∧
      ∀ path ∈ (world.archives candidate.row.driveLabel).worktree,
        ¬Below (place candidate).dest path ∧ ¬Below path (place candidate).dest := by
  have first : (start.archives candidate.row.driveLabel).worktree[(place candidate).dest]? = none := by
    rw [← Option.not_isSome_iff_eq_none]
    intro was
    have there := (kept.at member).present was
    rw [absent] at there
    cases there
  obtain ⟨short, room⟩ := (fit.each candidate member).room first
  refine ⟨short, fun path there => ?_⟩
  rcases kept.files _ path there with old | ⟨other, among, label, rfl⟩
  · exact room path old
  · by_cases here : other = candidate
    · subst here
      rw [mem_worktree_iff, absent] at there
      cases there
    · exact ⟨(fit.apart candidate member other among (Ne.symm here) label.symm).nested,
        (fit.apart other among candidate member here label).nested⟩

theorem not_below_self (path : String) : ¬Below path path := by
  intro below
  have long := below.length_le
  simp at long

/-- The path of a copy lies in a directory. -/
theorem confined_nested {repoId stored : String} (located : confined repoId stored = .ok path) :
    '/' ∈ path.toList := by
  simp only [confined, bind_eq_ok] at located
  obtain ⟨_, _, _, _, checked⟩ := located
  simp only [relativePath, bind_eq_ok] at checked
  obtain ⟨_, _, ends⟩ := checked
  cases ends
  simp

/-- Git takes the paths of a candidate at every moment for the files that they name. -/
theorem Kept.plain (fit : Fit tools start plan place) (member : candidate ∈ plan.convertible)
    (kept : Kept tools start plan place base world) :
    (world.archives candidate.row.driveLabel).Plain (place candidate).src ∧
      (world.archives candidate.row.driveLabel).Plain (place candidate).dest := by
  have fits := fit.each candidate member
  obtain ⟨stored, _, located⟩ := fits.source
  refine ⟨⟨fits.plain.1, confined_nested located, ?_⟩, fits.plain.2, confined_nested fits.target.2, ?_⟩
  · intro other tracked
    rcases kept.tracks _ other tracked with old | ⟨owner, among, label, rfl⟩
    · exact fits.level.1 other old
    · by_cases here : owner = candidate
      · subst here
        exact fits.nested
      · exact (fit.apart candidate member owner among (Ne.symm here) label.symm).level
  · intro other tracked
    rcases kept.tracks _ other tracked with old | ⟨owner, among, label, rfl⟩
    · exact fits.level.2 other old
    · by_cases here : owner = candidate
      · subst here
        exact ⟨not_below_self _, not_below_self _⟩
      · exact ⟨(fit.apart candidate member owner among (Ne.symm here) label.symm).nested,
          (fit.apart owner among candidate member here label).nested⟩

/-- Only a destination that is not there is written. -/
theorem fresh_iff {archive : Archive} {data : Bytes} {src dest : String}
    (ready : Ready tools archive dest data) (held : archive.read src = some data)
    (room : archive.worktree[dest]? = none → ∀ path ∈ archive.worktree, ¬Below dest path) :
    (archive.resolve dest != archive.resolve src && !archive.pathExists dest) = true ↔
      archive.worktree[dest]? = none := by
  obtain ⟨_, ⟨absent, _⟩ | ⟨content, _⟩ | ⟨link, object⟩⟩ := ready
  · simp only [Archive.tracked] at absent
    have directory : archive.isDirectory dest = false := by
      rw [Archive.isDirectory, List.any_eq_false]
      intro other there
      rw [Bool.not_eq_true, ← Bool.not_eq_true, List.isPrefixOf_iff_prefix]
      exact room absent other (Std.ExtTreeMap.mem_keys.mp there)
    have different : dest ≠ src := by
      rintro rfl
      rw [Archive.read, absent] at held
      cases held
    have apart : archive.resolve dest ≠ archive.resolve src := by
      unfold Archive.resolve
      rw [absent]
      intro same
      cases there : archive.worktree[src]? with
      | none =>
          rw [there] at same
          exact different (Archive.Target.file.inj same)
      | some entry =>
          rw [there] at same
          cases entry with
          | content bytes => exact different (Archive.Target.file.inj same)
          | link location => cases same
    simp [Archive.pathExists, Archive.read, absent, directory, apart]
  · simp only [Archive.tracked] at content
    simp [Archive.pathExists, Archive.read, content]
  · simp only [Archive.tracked] at link
    simp [Archive.pathExists, Archive.read, link, object]

/-- Writing the destination leaves all of it, or a part of it that the phase says. -/
theorem writeNew_meets (fit : Fit tools start plan place) (member : candidate ∈ plan.convertible)
    (kept : Kept tools start plan place (focus others candidate .ready) world)
    (absent : (world.archives candidate.row.driveLabel).worktree[(place candidate).dest]? = none)
    (allowed : ∀ other now, others other now → base other now) (free : ∀ now, base candidate now) :
    (writeNew candidate.row.driveLabel (place candidate).dest (place candidate).data).Meets
      (Kept tools start plan place base) raises
      (fun _ now => Kept tools start plan place (focus others candidate .ready) now ∧
        (now.archives candidate.row.driveLabel).worktree[(place candidate).dest]?.isSome = true) world := by
  have at' := kept.at member
  have held := kept.readSource fit member
  obtain ⟨short, room⟩ := kept.room fit member absent
  have different : (place candidate).src ≠ (place candidate).dest := by
    intro same
    rw [same, Archive.read, absent] at held
    cases held
  have target : Ready tools (world.archives candidate.row.driveLabel) (place candidate).dest
    (place candidate).data := at'.target
  obtain ⟨head, index⟩ : (world.archives candidate.row.driveLabel).head[(place candidate).dest]? = none ∧
      (world.archives candidate.row.driveLabel).index[(place candidate).dest]? ≠
        some (.content (place candidate).data) := by
    obtain ⟨head, ⟨_, index⟩ | ⟨content, _⟩ | ⟨link, _⟩⟩ := target
    · exact ⟨head, index⟩
    · simp only [Archive.tracked] at content
      rw [absent] at content
      cases content
    · simp only [Archive.tracked] at link
      rw [absent] at link
      cases link
  -- whatever has been written, the source is as it was
  have put {phase : Phase} {after : Archive}
      (moved : Moved tools (place candidate) (world.archives candidate.row.driveLabel) after
        (place candidate).dest)
      (target : TargetAt tools after (place candidate) phase)
      (early : phase = .ready ∨ phase = .torn) :
      Kept tools start plan place (focus others candidate phase)
        (world.setArchive candidate.row.driveLabel after) := by
    have source : SourceAt (start.archives candidate.row.driveLabel) after (place candidate).src .ready :=
      (at'.source different).grown (moved.elsewhere _ different)
    apply kept.moved fit member (.inr rfl) moved target
    · intro _
      rcases early with rfl | rfl <;> exact source
    · exact fun same => absurd same different
    · intro there
      rw [absent] at there
      cases there
    · rcases early with rfl | rfl <;> rfl
  apply Program.meets_tearing (kept.crash allowed (free _))
  · rintro left ⟨part, archive, cut, created, rfl⟩
    obtain ⟨after, created', tracked, moved⟩ := create_spec tools (place candidate) part absent room
    rw [created] at created'
    cases created'
    simp only [Archive.tracked, Tracked.mk.injEq] at tracked
    have torn : TargetAt tools archive (place candidate) .torn :=
      ⟨part, cut, tracked.1, tracked.2.1 ▸ index, tracked.2.2.trans head⟩
    exact (put moved torn (.inr rfl)).crash allowed (free _)
  · intro error acted
    obtain ⟨after, created, _, _⟩ := create_spec tools (place candidate)
      ((place candidate).data.take writeLimit) absent room
    rw [created] at acted
    cases acted
  · intro now value acted
    obtain ⟨after, created, tracked, moved⟩ := create_spec tools (place candidate)
      ((place candidate).data.take writeLimit) absent room
    rw [created] at acted
    cases acted
    rw [List.take_of_length_le short] at tracked
    have whole : TargetAt tools after (place candidate) .ready := by
      unfold TargetAt Ready
      rw [tracked]
      exact ⟨head, .inr (.inl ⟨rfl, index⟩)⟩
    have kept' := put moved whole (.inl rfl)
    refine ⟨kept'.crash allowed (free _), kept', ?_⟩
    simp only [Archive.tracked, Tracked.mk.injEq] at tracked
    rw [setArchive_self, tracked.1]
    rfl

/-- Adding the destination to the annex. -/
theorem annexAdd_meets (fit : Fit tools start plan place) (member : candidate ∈ plan.convertible)
    (kept : Kept tools start plan place (focus others candidate .ready) world)
    (there : (world.archives candidate.row.driveLabel).worktree[(place candidate).dest]?.isSome = true)
    (allowed : ∀ other now, others other now → base other now) (free : ∀ now, base candidate now) :
    (git tools candidate.row.driveLabel .annexAdd (place candidate).dest).Meets
      (Kept tools start plan place base) raises
      (fun _ now => Kept tools start plan place (focus others candidate .ready) now ∧
        (now.archives candidate.row.driveLabel).tracked (place candidate).dest =
          ⟨some (.link (tools.location (place candidate).data)),
            some (.link (tools.location (place candidate).data)), none⟩ ∧
        (now.archives candidate.row.driveLabel).objects[tools.location (place candidate).data]? =
          some (place candidate).data) world := by
  have at' := kept.at member
  have plain := (kept.plain fit member).2
  obtain ⟨after, output, ran, tracked, object, moved⟩ :=
    annexAdd_spec plain at'.target there (kept.known candidate member)
  have whole : TargetAt tools after (place candidate) .ready := by
    unfold TargetAt Ready
    rw [tracked]
    exact ⟨rfl, .inr (.inr ⟨rfl, object⟩)⟩
  have kept' : Kept tools start plan place (focus others candidate .ready)
      (world.setArchive candidate.row.driveLabel after) := by
    apply kept.moved fit member (.inr rfl) moved whole
    · intro different
      exact (at'.source different).grown (moved.elsewhere _ different)
    · exact fun _ => .inl rfl
    · intro _
      simp only [Archive.tracked, Tracked.mk.injEq] at tracked
      rw [tracked.1]
      rfl
    · rfl
  refine (meets_git (kept.crash allowed (free _)) ran (kept'.crash allowed (free _))).mono
    (fun _ kept => kept) (fun _ _ kept => kept) ?_
  rintro _ now ⟨_, rfl⟩
  rw [setArchive_self]
  exact ⟨kept', tracked, object⟩

/-- Committing the destination. -/
theorem commit_meets (fit : Fit tools start plan place) (member : candidate ∈ plan.convertible)
    (kept : Kept tools start plan place (focus others candidate .ready) world)
    (added : (world.archives candidate.row.driveLabel).tracked (place candidate).dest =
      ⟨some (.link (tools.location (place candidate).data)),
        some (.link (tools.location (place candidate).data)), none⟩)
    (object : (world.archives candidate.row.driveLabel).objects[tools.location (place candidate).data]? =
      some (place candidate).data)
    (allowed : ∀ other now, others other now → base other now) (free : ∀ now, base candidate now) :
    (git tools candidate.row.driveLabel .commit (place candidate).dest).Meets
      (Kept tools start plan place base) raises
      (fun _ now => Kept tools start plan place (focus others candidate .committed) now) world := by
  have at' := kept.at member
  obtain ⟨after, output, ran, changed, objects⟩ :=
    tools.commits (kept.plain fit member).2 (by simp [added]) (by simp [added]) (by simp [added])
  rw [added] at changed
  have tracked := changed.own
  have moved : Moved tools (place candidate) (world.archives candidate.row.driveLabel) after
      (place candidate).dest := Moved.of_same changed objects (.inl rfl)
  have kept' : Kept tools start plan place (focus others candidate .committed)
      (world.setArchive candidate.row.driveLabel after) := by
    have target : TargetAt tools after (place candidate) .committed := by
      refine ⟨tracked, ?_⟩
      rw [objects]
      exact object
    apply kept.moved fit member (.inr rfl) moved target
    · intro different
      have source : SourceAt (start.archives candidate.row.driveLabel) after (place candidate).src .ready :=
        (at'.source different).grown (moved.elsewhere _ different)
      exact source
    · exact fun _ => .inr (.inl rfl)
    · intro _
      simp only [Archive.tracked, Tracked.mk.injEq] at tracked
      rw [tracked.1]
      rfl
    · rfl
  refine (meets_git (kept.crash allowed (free _)) ran (kept'.crash allowed (free _))).mono
    (fun _ kept => kept) (fun _ _ kept => kept) ?_
  rintro _ now ⟨_, rfl⟩
  exact kept'

theorem sourcePath_meets {crash : World → Prop} (fits : Fits tools start candidate (place candidate))
    (here : crash world)
    (there : (world.archives candidate.row.driveLabel).hasFile (place candidate).src = true) :
    (sourcePath candidate.row.driveLabel candidate).Meets crash raises
      (fun src now => src = (place candidate).src ∧ now = world) world := by
  obtain ⟨stored, named, located⟩ := fits.source
  unfold sourcePath
  refine (Program.meets_lift (by rw [named]) here).seq ?_
  rintro _ _ ⟨rfl, rfl⟩
  refine (Program.meets_lift located here).seq ?_
  rintro _ _ ⟨rfl, rfl⟩
  refine (meets_seeArchive here).seq ?_
  rintro _ _ ⟨rfl, rfl⟩
  refine (meets_ensure here there).seq ?_
  rintro _ _ rfl
  exact Program.meets_pure here ⟨rfl, rfl⟩

/-- A candidate whose destination is ready is converted up to its commit. -/
theorem convertFile_meets (fit : Fit tools start plan place) (member : candidate ∈ plan.convertible)
    (kept : Kept tools start plan place (focus others candidate .ready) world)
    (allowed : ∀ other now, others other now → base other now) (free : ∀ now, base candidate now) :
    (convertFile tools candidate.row.driveLabel candidate).Meets (Kept tools start plan place base) raises
      (fun result now => result = (tools.key (place candidate).data, (place candidate).relpath) ∧
        Kept tools start plan place (focus others candidate .committed) now) world := by
  have fits := fit.each candidate member
  have here := kept.crash allowed (free .ready)
  have held := kept.readSource fit member
  have digest : sha256Key (place candidate).data.length (tools.sha256 (place candidate).data) =
      .ok (tools.key (place candidate).data) := sha256Key_digest tools.toDigests _
  have parsed : parseSha256Key (tools.key (place candidate).data) =
      .ok ((place candidate).data.length, tools.sha256 (place candidate).data) := parseSha256Key_key tools.toDigests _
  unfold convertFile
  refine (sourcePath_meets fits here (hasFile_of_read held)).seq ?_
  rintro _ _ ⟨rfl, rfl⟩
  refine (meets_readBytes here held).seq ?_
  rintro _ _ ⟨rfl, rfl⟩
  refine (meets_ensure here (by simp [fits.recorded])).seq ?_
  rintro _ _ rfl
  refine (Program.meets_lift fits.target.1 here).seq ?_
  rintro _ _ ⟨rfl, rfl⟩
  refine (Program.meets_lift fits.target.2 here).seq ?_
  rintro _ _ ⟨rfl, rfl⟩
  refine (meets_seeArchive here).seq ?_
  rintro fresh world ⟨decides, rfl⟩
  have written : (whenever fresh (writeNew candidate.row.driveLabel (place candidate).dest
      (place candidate).data)).Meets (Kept tools start plan place base) raises
      (fun _ now => Kept tools start plan place (focus others candidate .ready) now ∧
        (now.archives candidate.row.driveLabel).worktree[(place candidate).dest]?.isSome = true) world := by
    have absent := fresh_iff (kept.at member).target held
      fun absent path there => ((kept.room fit member absent).2 path there).1
    rw [← decides] at absent
    unfold whenever
    split_ifs with new
    · exact writeNew_meets fit member kept (absent.mp new) allowed free
    · refine Program.meets_pure here ⟨kept, ?_⟩
      rw [Option.isSome_iff_ne_none]
      exact fun missing => new (absent.mpr missing)
  refine written.seq ?_
  rintro _ now ⟨kept, there⟩
  refine (annexAdd_meets fit member kept there allowed free).seq ?_
  rintro _ now ⟨kept, added, object⟩
  have here := kept.crash allowed (free .ready)
  have looked : tools.git .annexLookupkey (place candidate).dest (now.archives candidate.row.driveLabel) =
      some (now.archives candidate.row.driveLabel, tools.key (place candidate).data) :=
    tools.looksUp (kept.plain fit member).2 (congrArg Tracked.worktree added) (congrArg Tracked.index added)
  refine (meets_gitLook here looked).seq ?_
  rintro _ _ ⟨rfl, rfl⟩
  refine (Program.meets_lift parsed here).seq ?_
  rintro _ _ ⟨rfl, rfl⟩
  refine (Program.meets_lift digest here).seq ?_
  rintro _ _ ⟨rfl, rfl⟩
  refine (meets_ensure here (by simp)).seq ?_
  rintro _ _ rfl
  refine (meets_gitLook here (tools.examines _ _)).seq ?_
  rintro _ _ ⟨rfl, rfl⟩
  refine (meets_readBytes here object).seq ?_
  rintro _ _ ⟨rfl, rfl⟩
  refine (meets_ensure here (by simp)).seq ?_
  rintro _ _ rfl
  refine (commit_meets fit member kept added object allowed free).seq ?_
  rintro _ now kept
  exact Program.meets_pure (kept.crash allowed (free _)) ⟨rfl, kept⟩

/-- The row of a copy names its destination. -/
theorem publishKey_spec {c : Catalog} {row : ArchivedRow} (found : c.tables.archived.find row.key = some row)
    (unkeyed : Modelark.Archive.truthy row.annexKey = false) (idle : c.sessions.liveExists = false)
    (key relpath name : String) :
    ∃ after, publishKey row key relpath name c = .ok after ∧ after.sessions = c.sessions ∧
      ∀ wanted, after.tables.archived.find wanted =
        if wanted = row.key then
          some { row with annexKey := some key, storedRelpath := some relpath, storedName := some name }
        else c.tables.archived.find wanted := by
  let selected (other : ArchivedRow) : Bool :=
    other.key == row.key && !Modelark.Archive.truthy other.annexKey && other.origSha256 == row.origSha256 &&
      other.origBytes == row.origBytes && other.storedRelpath == row.storedRelpath &&
      other.compressed == row.compressed && other.storedBytes == row.storedBytes &&
      other.origSha256Provenance == row.origSha256Provenance
  have own : selected row = true := by simp [selected, unkeyed]
  have pins (other : ArchivedRow) (chosen : selected other = true) : other.key = row.key := by
    simp only [selected, Bool.and_eq_true, beq_iff_eq] at chosen
    exact chosen.1.1.1.1.1.1.1
  have member := (c.tables.archived.find_eq_some.mp found).1
  have one : (c.tables.archived.rows.filter selected).length = 1 :=
    c.tables.archived.count_eq_one member own pins
  let change (other : ArchivedRow) : ArchivedRow :=
    { other with annexKey := some key, storedRelpath := some relpath, storedName := some name }
  refine ⟨⟨c.tables.updateArchived selected change (fun _ => rfl), c.plannerRevision + 1, c.sessions⟩,
    ?_, rfl, ?_⟩
  · have counted : require ((c.tables.archived.rows.filter selected).length == 1)
        (Failure.publication "PUBLICATION_MIGRATE_CATALOG_UNPROVEN") = .ok () := by
      rw [require_eq_ok, one]
      rfl
    have noLive : require (!c.sessions.liveExists) (refusal "FILL_SESSION_ACTIVE") = .ok () := by
      simp [idle]
    have unfolded : publishKey row key relpath name c =
        require (!c.sessions.liveExists) (refusal "FILL_SESSION_ACTIVE") >>= fun _ =>
          (require ((c.tables.archived.rows.filter selected).length == 1)
              (Failure.publication "PUBLICATION_MIGRATE_CATALOG_UNPROVEN") >>= fun _ =>
            .ok (c.tables.updateArchived selected change (fun _ => rfl), false)) >>= fun result =>
          if result.2 then .ok { c with tables := result.1 }
          else ({ c with tables := result.1 } : Catalog).bumpRevision false := rfl
    rw [unfolded, noLive, ok_bind, counted, ok_bind, ok_bind]
    simp [Catalog.bumpRevision, idle, require]
  · intro wanted
    have keeps (other : ArchivedRow) : (change other).key = other.key := rfl
    have updated : (c.tables.updateArchived selected change (fun _ => rfl)).archived.find wanted =
        (c.tables.archived.find wanted).map fun other => if selected other then change other else other :=
      c.tables.archived.find_update_map keeps wanted
    rw [updated]
    split_ifs with same
    · subst same
      rw [found, Option.map_some, if_pos own]
    · cases there : c.tables.archived.find wanted with
      | none => rfl
      | some other =>
          have key' := (c.tables.archived.find_eq_some.mp there).2
          have spared : selected other = false := by
            rw [← Bool.not_eq_true]
            exact fun chosen => same (key'.symm.trans (pins other chosen))
          rw [Option.map_some, spared]
          rfl

/-- Publishing the key of a committed destination. -/
theorem publish_meets (fit : Fit tools start plan place) (member : candidate ∈ plan.convertible)
    (kept : Kept tools start plan place (focus others candidate .committed) world)
    (allowed : ∀ other now, others other now → base other now) (free : ∀ now, base candidate now) :
    (publish candidate (tools.key (place candidate).data) (place candidate).relpath).Meets
      (Kept tools start plan place base) raises
      (fun _ now => Kept tools start plan place (focus others candidate .published) now) world := by
  have fits := fit.each candidate member
  have at' := kept.at member
  have idle : world.catalog.sessions.liveExists = false := by
    rw [kept.sessions]
    exact fit.idle
  obtain ⟨after, published, sessions, rows⟩ := publishKey_spec at'.row fits.unkeyed idle
    (tools.key (place candidate).data) (place candidate).relpath (baseName (place candidate).relpath)
  have kept' : Kept tools start plan place (focus others candidate .published)
      { world with catalog := after } := by
    constructor
    · intro other among
      by_cases here : other = candidate
      · subst here
        refine ⟨.published, ⟨?_, at'.target, at'.source, fun _ => .inr (.inr rfl), at'.present⟩, ?_⟩
        · dsimp only
          rw [rows, if_pos rfl]
          rfl
        · rw [focus, if_pos rfl]
      · obtain ⟨phase, there, permitted⟩ := kept.each other among
        have key : other.row.key ≠ candidate.row.key := fun same => here (key_inj fit among member same)
        refine ⟨phase, there.elsewhere ?_ rfl rfl (fun _ _ object => object), ?_⟩
        · dsimp only
          rw [rows, if_neg key]
        · rw [focus, if_neg here] at permitted ⊢
          exact permitted
    · exact kept.objects
    · exact kept.known
    · exact kept.files
    · exact kept.tracks
    · intro key absent
      dsimp only
      rw [rows, if_neg (Ne.symm (absent candidate member))]
      exact kept.others key absent
    · exact sessions.trans kept.sessions
    · exact kept.plans
  apply Program.meets_atomic (kept.crash allowed (free _))
  · intro error acted
    rw [published] at acted
    cases acted
  · intro now value acted
    rw [published] at acted
    cases acted
    exact ⟨kept'.crash allowed (free _), kept'⟩

theorem At.annexed (at' : At tools start candidate (place candidate) world phase)
    (published : phase.isPublished = true) :
    Annexed tools (world.archives candidate.row.driveLabel) (place candidate) := by
  cases phase with
  | published | removed | retired => exact at'.target
  | ready | torn | committed => cases published

/-- The head commit has the destination. -/
theorem At.born (at' : At tools start candidate (place candidate) world phase)
    (published : phase.isPublished = true) :
    (place candidate).dest ∈ (world.archives candidate.row.driveLabel).head := by
  have head : (world.archives candidate.row.driveLabel).head[(place candidate).dest]? =
      some (.link (tools.location (place candidate).data)) :=
    congrArg Tracked.head (at'.annexed published).1
  exact Dict.mem_iff_isSome.mpr (by rw [head]; rfl)

/-- Removing a source that is as it was committed. -/
theorem rm_meets (fit : Fit tools start plan place) (member : candidate ∈ plan.convertible)
    (kept : Kept tools start plan place (focus others candidate .published) world)
    (different : (place candidate).src ≠ (place candidate).dest)
    (committed : ((world.archives candidate.row.driveLabel).tracked (place candidate).src).head.isSome = true)
    (allowed : ∀ other now, others other now → base other now)
    (free : ∀ now, now.isPublished = true → base candidate now) :
    (git tools candidate.row.driveLabel .rm (place candidate).src).Meets
      (Kept tools start plan place base) raises
      (fun _ now => Kept tools start plan place (focus others candidate .removed) now) world := by
  have fits := fit.each candidate member
  have at' := kept.at member
  have source : (world.archives candidate.row.driveLabel).tracked (place candidate).src =
      (start.archives candidate.row.driveLabel).tracked (place candidate).src := at'.source different
  obtain ⟨entry, head⟩ := Option.isSome_iff_exists.mp committed
  have clean : (world.archives candidate.row.driveLabel).tracked (place candidate).src =
      ⟨some entry, some entry, some entry⟩ := by
    rw [source] at head ⊢
    rcases fits.clean with missing | ⟨index, same⟩
    · rw [missing] at head
      cases head
    · rw [Tracked.ext_iff, index, ← same, head]
      exact ⟨rfl, rfl, rfl⟩
  obtain ⟨after, output, ran, changed, objects⟩ := tools.removes (kept.plain fit member).1 clean
  have tracked := changed.own
  have moved : Moved tools (place candidate) (world.archives candidate.row.driveLabel) after
      (place candidate).src := Moved.of_same changed objects (.inr ⟨rfl, rfl, fun _ => committed⟩)
  have elsewhere : after.tracked (place candidate).dest =
      (world.archives candidate.row.driveLabel).tracked (place candidate).dest :=
    moved.elsewhere _ (Ne.symm different)
  have kept' : Kept tools start plan place (focus others candidate .removed)
      (world.setArchive candidate.row.driveLabel after) := by
    have before : TargetAt tools (world.archives candidate.row.driveLabel) (place candidate) .removed :=
      at'.target
    have target := before.grown elsewhere moved.objects
    apply kept.moved fit member (.inl rfl) moved target
    · intro _
      unfold SourceAt
      rw [tracked]
      exact ⟨rfl, rfl, rfl⟩
    · exact fun same => absurd same different
    · intro there
      have worktree := congrArg Tracked.worktree elsewhere
      simp only [Archive.tracked] at worktree
      rwa [worktree]
    · rfl
  refine (meets_git (kept.crash allowed (free _ rfl)) ran (kept'.crash allowed (free _ rfl))).mono
    (fun _ kept => kept) (fun _ _ kept => kept) ?_
  rintro _ now ⟨_, rfl⟩
  exact kept'

/-- Committing the removal of a source. -/
theorem commitRemoved_meets (fit : Fit tools start plan place) (member : candidate ∈ plan.convertible)
    (kept : Kept tools start plan place (focus others candidate .removed) world)
    (different : (place candidate).src ≠ (place candidate).dest)
    (allowed : ∀ other now, others other now → base other now)
    (free : ∀ now, now.isPublished = true → base candidate now) :
    (git tools candidate.row.driveLabel .commit (place candidate).src).Meets
      (Kept tools start plan place base) raises
      (fun _ now => Kept tools start plan place (focus others candidate .retired) now) world := by
  have fits := fit.each candidate member
  have at' := kept.at member
  obtain ⟨worktree, index, head⟩ := at'.source different
  obtain ⟨after, output, ran, changed, objects⟩ := tools.commits (kept.plain fit member).1 (.inr head)
    (by simp [worktree]) (by simpa [worktree] using Option.isSome_iff_ne_none.mp head)
  rw [worktree] at changed
  have tracked := changed.own
  have moved : Moved tools (place candidate) (world.archives candidate.row.driveLabel) after
      (place candidate).src := Moved.of_same changed objects (.inr ⟨rfl, rfl, fun impossible => by cases impossible⟩)
  have elsewhere : after.tracked (place candidate).dest =
      (world.archives candidate.row.driveLabel).tracked (place candidate).dest :=
    moved.elsewhere _ (Ne.symm different)
  have kept' : Kept tools start plan place (focus others candidate .retired)
      (world.setArchive candidate.row.driveLabel after) := by
    have before : TargetAt tools (world.archives candidate.row.driveLabel) (place candidate) .retired :=
      at'.target
    have target := before.grown elsewhere moved.objects
    apply kept.moved fit member (.inl rfl) moved target
    · exact fun _ => tracked
    · exact fun same => absurd same different
    · intro there
      have worktree := congrArg Tracked.worktree elsewhere
      simp only [Archive.tracked] at worktree
      rwa [worktree]
    · rfl
  refine (meets_git (kept.crash allowed (free _ rfl)) ran (kept'.crash allowed (free _ rfl))).mono
    (fun _ kept => kept) (fun _ _ kept => kept) ?_
  rintro _ now ⟨_, rfl⟩
  exact kept'

/-- What the retirement of a source ends with. -/
def Settled (tools : Tools) (start : World) (plan : Plan) (place : Candidate → Place)
    (others : Candidate → Phase → Prop) (candidate : Candidate) (world : World) : Prop :=
  ∃ phase : Phase, phase.isPublished = true ∧
    Kept tools start plan place (focus others candidate phase) world

/-- A source is retired as far as it is committed. -/
theorem retireSource_meets (fit : Fit tools start plan place) (member : candidate ∈ plan.convertible)
    (kept : Kept tools start plan place (focus others candidate phase) world)
    (published : phase.isPublished = true)
    (allowed : ∀ other now, others other now → base other now)
    (free : ∀ now, now.isPublished = true → base candidate now) :
    (retireSource tools candidate.row.driveLabel candidate (place candidate).dest).Meets
      (Kept tools start plan place base) raises
      (fun _ => Settled tools start plan place others candidate) world := by
  have fits := fit.each candidate member
  have at' := kept.at member
  have here := kept.crash allowed (free _ published)
  obtain ⟨stored, named, located⟩ := fits.source
  have ends {now : Phase} {world : World} (kept : Kept tools start plan place (focus others candidate now) world)
      (published : now.isPublished = true) :
      (pure () : Act Unit).Meets (Kept tools start plan place base) raises
        (fun _ => Settled tools start plan place others candidate) world :=
    Program.meets_pure (kept.crash allowed (free _ published)) ⟨now, published, kept⟩
  -- what is left to do once the source is gone from the worktree
  have finish {world : World} (kept : Kept tools start plan place (focus others candidate .removed) world)
      (different : (place candidate).src ≠ (place candidate).dest) :
      (do
        let _ ← git tools candidate.row.driveLabel .commit (place candidate).src
        let still ← git tools candidate.row.driveLabel .lsTree (place candidate).src
        ensure (still == "") "PUBLICATION_MIGRATE_GIT_FAILED" : Act Unit).Meets
        (Kept tools start plan place base) raises
        (fun _ => Settled tools start plan place others candidate) world := by
    refine (commitRemoved_meets fit member kept different allowed free).seq ?_
    intro _ world kept
    have here := kept.crash allowed (free _ rfl)
    have gone : (world.archives candidate.row.driveLabel).head[(place candidate).src]? = none := by
      have source : (world.archives candidate.row.driveLabel).tracked (place candidate).src =
          ⟨none, none, none⟩ := (kept.at member).source different
      exact congrArg Tracked.head source
    obtain ⟨still, looked, empty⟩ := tools.listsTree (kept.plain fit member).1 ((kept.at member).born rfl)
    refine (meets_gitLook here looked).seq ?_
    rintro _ world ⟨rfl, rfl⟩
    refine (meets_ensure here (by simp [empty.mpr gone])).mono (fun _ kept => kept) (fun _ _ kept => kept) ?_
    rintro _ _ rfl
    exact ⟨.retired, rfl, kept⟩
  unfold retireSource
  rw [named]
  refine (Program.meets_lift located here).seq ?_
  rintro _ _ ⟨rfl, rfl⟩
  refine (meets_seeArchive here).seq ?_
  rintro same world ⟨decides, rfl⟩
  split_ifs with resolved
  · exact ends kept published
  have different : (place candidate).src ≠ (place candidate).dest := by
    intro equal
    rw [equal] at decides
    simp [decides] at resolved
  obtain ⟨committed, tree, uncommitted⟩ := tools.listsTree (kept.plain fit member).1 (at'.born published)
  refine (meets_gitLook here tree).seq ?_
  rintro _ world ⟨rfl, rfl⟩
  split_ifs with nothing
  · exact ends kept published
  have committed : (world.archives candidate.row.driveLabel).head[(place candidate).src]?.isSome = true := by
    rw [Option.isSome_iff_ne_none]
    exact fun missing => nothing (uncommitted.mpr missing)
  obtain ⟨indexed, files, unlisted⟩ := tools.listsFiles (kept.plain fit member).1
  refine (meets_gitLook here files).seq ?_
  rintro _ world ⟨rfl, rfl⟩
  refine (meets_seeArchive here).seq ?_
  rintro present world ⟨decided, rfl⟩
  cases phase with
  | ready | torn | committed => cases published
  | published =>
      have source : (world.archives candidate.row.driveLabel).tracked (place candidate).src =
          (start.archives candidate.row.driveLabel).tracked (place candidate).src := at'.source different
      have there : present = true := by
        have head := congrArg Tracked.head source
        have worktree := congrArg Tracked.worktree source
        simp only [Archive.tracked] at head worktree
        rw [decided, Archive.hasFile, worktree]
        rw [head] at committed
        rcases fits.clean with missing | ⟨_, same⟩
        · simp only [Archive.tracked] at missing
          rw [missing] at committed
          cases committed
        · simp only [Archive.tracked] at same
          rwa [← same]
      rw [there]
      refine Program.Meets.seq (?_ : Program.Meets _ _ (fun _ now => Kept tools start plan place
        (focus others candidate .removed) now) _ _) fun _ _ kept => finish kept different
      refine (rm_meets fit member kept different committed allowed free).seq ?_
      intro _ world kept
      exact Program.meets_pure (kept.crash allowed (free _ rfl)) kept
  | removed =>
      obtain ⟨worktree, index, _⟩ := at'.source different
      have absent : present = false := by
        simp only [Archive.tracked] at worktree
        rw [decided, Archive.hasFile, worktree]
        rfl
      rw [absent, unlisted.mpr index]
      refine Program.Meets.seq (?_ : Program.Meets _ _ (fun _ now => now = world) _ _) ?_
      · exact Program.meets_pure here rfl
      · rintro _ _ rfl
        exact finish kept different
  | retired =>
      have source : (world.archives candidate.row.driveLabel).tracked (place candidate).src =
          ⟨none, none, none⟩ := at'.source different
      have head := congrArg Tracked.head source
      simp only [Archive.tracked] at head
      rw [head] at committed
      cases committed

end Candidates

end Modelark.Conversion
