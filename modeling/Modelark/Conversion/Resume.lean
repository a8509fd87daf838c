import Modelark.Conversion.Steps

/-!
# Conversions that are resumed

A conversion goes on from whatever its interruptions have left, as long as none of them has left a part
of a file, or a committed destination that its row does not name.
-/

namespace Modelark.Conversion

open Library Execution Revision

variable {tools : Tools} {start world : World} {plan : Plan} {place : Candidate → Place}
variable {candidate : Candidate} {raises : Failure → World → Prop}

/-- Rows that name their destination still do. -/
def Lasting (done : Candidate → Prop) (candidate : Candidate) (phase : Phase) : Prop :=
  done candidate → phase.isPublished = true

/-- No destination is partly written, and none is committed whose row names the source. -/
def Clean (plan : Plan) (place : Candidate → Place) (world : World) : Prop :=
  ∀ candidate ∈ plan.convertible,
    world.catalog.tables.archived.find candidate.row.key = some candidate.row →
      (∀ bytes, (world.archives candidate.row.driveLabel).worktree[(place candidate).dest]? =
        some (.content bytes) → bytes = (place candidate).data) ∧
      (world.archives candidate.row.driveLabel).head[(place candidate).dest]? = none

/-- A clean candidate is in a phase that a call can go on with. -/
theorem At.settled {phase : Phase} (member : candidate ∈ plan.convertible) (clean : Clean plan place world)
    (at' : At tools start candidate (place candidate) world phase) :
    ∃ now, At tools start candidate (place candidate) world now ∧ now.isSettled = true ∧
      now.isPublished = phase.isPublished := by
  cases phase with
  | ready => exact ⟨.ready, at', rfl, rfl⟩
  | published => exact ⟨.published, at', rfl, rfl⟩
  | removed => exact ⟨.removed, at', rfl, rfl⟩
  | retired => exact ⟨.retired, at', rfl, rfl⟩
  | torn =>
      obtain ⟨part, _, worktree, index, head⟩ := at'.target
      obtain rfl := (clean candidate member at'.row).1 part worktree
      exact ⟨.ready, ⟨at'.row, ⟨head, .inr (.inl ⟨worktree, index⟩)⟩, at'.source, fun _ => .inl rfl,
        at'.present⟩, rfl, rfl⟩
  | committed =>
      have annexed : Annexed tools (world.archives candidate.row.driveLabel) (place candidate) := at'.target
      have head := congrArg Tracked.head annexed.1
      simp only [Archive.tracked] at head
      rw [(clean candidate member at'.row).2] at head
      cases head

theorem meets_check {crash : World → Prop} {holds : Bool} {code : String} (here : crash world)
    (passes : holds = true ∨ ∀ failure now, raises failure now) :
    (ensure holds code).Meets crash raises (fun _ now => now = world) world := by
  cases holds with
  | true => exact ⟨here, rfl⟩
  | false =>
      rcases passes with impossible | any
      · cases impossible
      · exact ⟨here, any _ _⟩

theorem truthy_key (tools : Tools) (bytes : Bytes) :
    Modelark.Archive.truthy (some (tools.key bytes)) = true := by
  simp [Modelark.Archive.truthy, Digests.key]

/-- A candidate in a settled phase is converted, or its source retired. -/
theorem convertCandidate_meets {others base : Candidate → Phase → Prop} {phase : Phase}
    {archives : List String} (fit : Fit tools start plan place) (member : candidate ∈ plan.convertible)
    (kept : Kept tools start plan place (focus others candidate phase) world)
    (settled : phase.isSettled = true)
    (listed : archives.contains candidate.row.driveLabel = true ∨ ∀ failure now, raises failure now)
    (allowed : ∀ other now, others other now → base other now)
    (free : ∀ now, (phase.isPublished = true → now.isPublished = true) → base candidate now) :
    (convertCandidate tools archives candidate).Meets (Kept tools start plan place base) raises
      (fun _ => Settled tools start plan place others candidate) world := by
  have fits := fit.each candidate member
  have at' := kept.at member
  have here := kept.crash allowed (free phase id)
  have convertible : (candidate.state != "convertible") = false := by
    have state := (List.mem_filter.mp member).2
    simp only [beq_iff_eq] at state
    simp [state]
  have target : destPath tools candidate = .ok (place candidate).dest := by
    simp [destPath, fits.target]
  unfold convertCandidate
  rw [convertible, if_neg Bool.false_ne_true]
  refine (meets_check here listed).seq ?_
  rintro _ _ rfl
  refine (Program.meets_lift target here).seq ?_
  rintro _ world ⟨rfl, rfl⟩
  have current : (Program.look fun world : World => Except.ok (currentAnnexKey world.catalog candidate) :
      Act (Option String)).Meets (Kept tools start plan place base) raises
      (fun key now => Modelark.Archive.truthy key = phase.isPublished ∧ now = world) world := by
    apply Program.meets_look here
    · intro error saw
      cases saw
    · intro key saw
      cases saw
      refine ⟨?_, rfl⟩
      rw [currentAnnexKey, at'.row]
      cases phase with
      | ready => exact fits.unkeyed
      | published | removed | retired => exact truthy_key tools _
      | torn | committed => cases settled
  refine current.seq ?_
  rintro key world ⟨decides, rfl⟩
  cases published : phase.isPublished with
  | true =>
      rw [published] at decides
      rw [decides, if_pos rfl]
      refine (retireSource_meets fit member kept published allowed fun now later => free now fun _ => later).seq ?_
      intro _ now ends
      obtain ⟨last, lastPublished, kept'⟩ := ends
      exact Program.meets_pure (kept'.crash allowed (free _ fun _ => lastPublished)) ⟨last, lastPublished, kept'⟩
  | false =>
      rw [published] at decides
      have any (now : Phase) : base candidate now := by
        apply free
        rw [published]
        exact fun impossible => absurd impossible Bool.false_ne_true
      have ready : phase = .ready := by
        cases phase with
        | ready => rfl
        | published | removed | retired => cases published
        | torn | committed => cases settled
      subst ready
      rw [decides, if_neg Bool.false_ne_true]
      refine (convertFile_meets fit member kept allowed any).seq ?_
      rintro _ world ⟨rfl, kept⟩
      refine (publish_meets fit member kept allowed any).seq ?_
      intro _ world kept
      refine (retireSource_meets fit member kept rfl allowed fun now _ => any now).seq ?_
      intro _ now ends
      obtain ⟨last, lastPublished, kept'⟩ := ends
      exact Program.meets_pure (kept'.crash allowed (any _)) ⟨last, lastPublished, kept'⟩

/-- The candidates that are still to come are in a phase to go on with, the others have been published. -/
def Remaining (done : Candidate → Prop) (items : List Candidate) (candidate : Candidate) (phase : Phase) :
    Prop :=
  if candidate ∈ items then phase.isSettled = true ∧ Lasting done candidate phase
  else phase.isPublished = true

theorem Remaining.lasting {done : Candidate → Prop} {items : List Candidate} {phase : Phase}
    (remaining : Remaining done items candidate phase) : Lasting done candidate phase := by
  unfold Remaining at remaining
  split_ifs at remaining with among
  · exact remaining.2
  · exact fun _ => remaining

/-- The candidates of a plan are different. -/
theorem Fit.candidates (fit : Fit tools start plan place) {earlier later : List Candidate}
    (split : plan.candidates = earlier ++ candidate :: later) (member : candidate ∈ plan.convertible) :
    candidate ∉ later := by
  intro again
  have distinct : plan.convertible.Nodup := List.Nodup.of_map _ fit.keys
  have state := (List.mem_filter.mp member).2
  rw [Plan.convertible, split, List.filter_append, List.filter_cons, if_pos state] at distinct
  have tail := (List.nodup_append.mp distinct).2.1
  exact (List.nodup_cons.mp tail).1 (List.mem_filter.mpr ⟨again, state⟩)

/-- One candidate after another. -/
theorem gather_meets {done : Candidate → Prop} {archives : List String} (fit : Fit tools start plan place)
    (kept : Kept tools start plan place (Remaining done plan.candidates) world)
    (listed : (∀ candidate ∈ plan.convertible, archives.contains candidate.row.driveLabel = true) ∨
      ∀ failure now, raises failure now) :
    (Program.gather (convertCandidate tools archives) plan.candidates).Meets
      (Kept tools start plan place (Lasting done)) raises
      (fun _ => Kept tools start plan place fun _ phase => phase.isPublished = true) world := by
  have crash {items : List Candidate} {world : World}
      (kept : Kept tools start plan place (Remaining done items) world) :
      Kept tools start plan place (Lasting done) world :=
    kept.weaken fun _ _ _ remaining => remaining.lasting
  let inv (items : List Candidate) (world : World) : Prop :=
    (∃ earlier, plan.candidates = earlier ++ items) ∧
      Kept tools start plan place (Remaining done items) world
  have progress (item : Candidate) (items : List Candidate) (world : World) (holds : inv (item :: items) world) :
      (convertCandidate tools archives item).Meets (Kept tools start plan place (Lasting done)) raises
        (fun _ => inv items) world := by
    obtain ⟨⟨earlier, split⟩, kept⟩ := holds
    have rest : ∃ earlier, plan.candidates = earlier ++ items := ⟨earlier ++ [item], by simp [split]⟩
    have listedItem : item ∈ plan.candidates := by simp [split]
    by_cases member : item ∈ plan.convertible
    · have absent := fit.candidates split member
      obtain ⟨phase, at', remaining⟩ := kept.each item member
      rw [Remaining, if_pos List.mem_cons_self] at remaining
      have focused : Kept tools start plan place (focus (Remaining done items) item phase) world :=
        { kept with
          each := by
            intro other among
            by_cases here : other = item
            · subst here
              exact ⟨phase, at', by rw [focus, if_pos rfl]⟩
            · obtain ⟨now, there, remains⟩ := kept.each other among
              refine ⟨now, there, ?_⟩
              rw [focus, if_neg here]
              simpa [Remaining, here] using remains }
      have passes : archives.contains item.row.driveLabel = true ∨ ∀ failure now, raises failure now := by
        rcases listed with all | any
        · exact .inl (all item member)
        · exact .inr any
      have allowed (other : Candidate) (now : Phase) (remains : Remaining done items other now) :
          Lasting done other now := remains.lasting
      refine (convertCandidate_meets fit member focused remaining.1 passes allowed ?_).mono
        (fun _ kept => kept) (fun _ _ kept => kept) ?_
      · exact fun now later was => later (remaining.2 was)
      · rintro _ now ⟨last, published, kept'⟩
        refine ⟨rest, kept'.weaken fun other _ phase permitted => ?_⟩
        unfold focus at permitted
        split_ifs at permitted with here
        · subst here
          rw [Remaining, if_neg absent, permitted]
          exact published
        · exact permitted
    · have skipped : (item.state != "convertible") = true := by
        rw [bne_iff_ne]
        intro state
        exact member (List.mem_filter.mpr ⟨listedItem, by simp [state]⟩)
      rw [convertCandidate, if_pos skipped]
      refine Program.meets_pure (crash kept) ⟨rest, kept.weaken fun other among phase remains => ?_⟩
      have different : other ≠ item := fun same => member (same ▸ among)
      simpa [Remaining, different] using remains
  have all : (Program.gather (convertCandidate tools archives) plan.candidates).Meets
      (Kept tools start plan place (Lasting done)) raises (fun _ => inv []) world :=
    Program.meets_gather inv (fun _ _ holds => crash holds.2) progress plan.candidates ⟨⟨[], rfl⟩, kept⟩
  refine all.mono (fun _ kept => kept) (fun _ _ kept => kept) fun _ _ holds => ?_
  refine holds.2.weaken fun _ _ _ remaining => ?_
  simpa [Remaining] using remaining

/-- The plan's file is there. -/
def World.freeze (tools : Tools) (plan : Plan) (world : World) : World :=
  { world with plans := world.plans ++ [(plan.stem tools, plan.text tools)] }

theorem Fit.freeze (fit : Fit tools start plan place) : Fit tools (start.freeze tools plan) plan place where
  each candidate member := by
    have fits := fit.each candidate member
    exact ⟨fits.source, fits.target, fits.row, fits.unkeyed, fits.held, fits.recorded, fits.plain, fits.level,
      fits.nested, fits.clean, fits.ready, fits.room, fits.object⟩
  apart := fit.apart
  keys := fit.keys
  bytes := fit.bytes
  idle := fit.idle

/-- Where a conversion begins. -/
theorem Kept.begin {done : Candidate → Prop} (fit : Fit tools start plan place)
    (fresh : ∀ candidate ∈ plan.convertible, ¬done candidate) :
    Kept tools start plan place (Lasting done) start where
  each candidate member := by
    have fits := fit.each candidate member
    refine ⟨.ready, ⟨fits.row, fits.ready, fun _ => rfl, fun _ => .inl rfl, id⟩, ?_⟩
    exact fun was => absurd was (fresh candidate member)
  objects _ _ _ object := object
  known candidate member := (fit.each candidate member).object
  files _ _ there := .inl there
  tracks _ _ there := .inl there
  others _ _ := rfl
  sessions := rfl
  plans := rfl

/-- No other plan in the destination directory has a name that begins like this one's. -/
def Fresh (tools : Tools) (start : World) (plan : Plan) : Prop :=
  ∀ entry ∈ start.plans, ¬(plan.stem tools).toList <+: entry.1.toList

section Calls

variable {done : Candidate → Prop} {call : Call}

/-- What a call leaves: the start, a part of the plan's file, or a conversion that is under way. -/
def Left (tools : Tools) (start : World) (plan : Plan) (place : Candidate → Place)
    (done : Candidate → Prop) (world : World) : Prop :=
  (∃ part, part <+: (plan.text tools).toList ∧
    world = { start with plans := start.plans ++ [(plan.stem tools, String.ofList part)] }) ∨
  world = start ∨ Kept tools (start.freeze tools plan) plan place (Lasting done) world

theorem meets_checkCall {crash : World → Prop} (here : crash world)
    (passes : (call.writersStopped = true ∧ call.live = false ∧ call.destDir = true) ∨
      ∀ failure now, raises failure now) :
    (checkCall call).Meets crash raises (fun _ now => now = world) world := by
  have each {holds : Bool} (right : (call.writersStopped = true ∧ call.live = false ∧ call.destDir = true) →
      holds = true) : holds = true ∨ ∀ failure now, raises failure now :=
    passes.imp_left right
  refine (meets_check here (each fun right => right.1)).seq ?_
  rintro _ _ rfl
  refine (meets_check here (each fun right => by rw [right.2.1]; rfl)).seq ?_
  rintro _ _ rfl
  exact meets_check here (each fun right => right.2.2)

/-- A clean conversion goes on. -/
theorem Kept.remaining (kept : Kept tools start plan place (Lasting done) world)
    (clean : Clean plan place world) :
    Kept tools start plan place (Remaining done plan.candidates) world :=
  { kept with
    each := by
      intro candidate member
      obtain ⟨phase, at', lasting⟩ := kept.each candidate member
      obtain ⟨now, there, settled, same⟩ := at'.settled member clean
      refine ⟨now, there, ?_⟩
      rw [Remaining, if_pos (List.mem_filter.mp member).1]
      exact ⟨settled, fun was => same.trans (lasting was)⟩ }

/-- Every candidate's drive has an archive. -/
def Listed (plan : Plan) (archives : Option (List String)) : Prop :=
  ∃ labels, archives = some labels ∧
    ∀ candidate ∈ plan.convertible, labels.contains candidate.row.driveLabel = true

theorem convertWith_meets {crash : World → Prop} {frozen : List (String × Json)}
    (fit : Fit tools start plan place)
    (kept : Kept tools start plan place (Lasting done) world) (clean : Clean plan place world)
    (crashes : ∀ now, Kept tools start plan place (Lasting done) now → crash now)
    (read : candidatesOf frozen = .ok plan.candidates)
    (listed : Listed plan call.archives ∨ ∀ failure now, raises failure now) :
    (convertWith tools call.archives frozen).Meets crash raises
      (fun outcome now => outcome.frozen = frozen ∧ (Listed plan call.archives →
        Kept tools start plan place (fun _ phase => phase.isPublished = true) now)) world := by
  have here := crashes world kept
  unfold convertWith
  split
  · rename_i none'
    refine Program.meets_pure here ⟨rfl, fun listed => ?_⟩
    obtain ⟨labels, some', _⟩ := listed
    rw [none'] at some'
    cases some'
  · rename_i none'
    refine Program.meets_pure here ⟨rfl, fun listed => ?_⟩
    obtain ⟨labels, some', all⟩ := listed
    rw [none'] at some'
    cases some'
    refine kept.weaken fun candidate member => ?_
    have among := all candidate member
    simp at among
  · rename_i archives _ given
    have passes : (∀ candidate ∈ plan.convertible, archives.contains candidate.row.driveLabel = true) ∨
        ∀ failure now, raises failure now := by
      rcases listed with ⟨labels, same, all⟩ | any
      · rw [given] at same
        cases same
        exact .inl all
      · exact .inr any
    have each : (convertArchives tools archives frozen).Meets crash raises
        (fun _ => Kept tools start plan place fun _ phase => phase.isPublished = true) world := by
      refine (Program.meets_lift read here).seq ?_
      rintro _ world ⟨rfl, rfl⟩
      exact (gather_meets fit (kept.remaining clean) passes).mono crashes (fun _ _ kept => kept)
        fun _ _ kept => kept
    refine each.seq ?_
    intro _ now published
    refine Program.meets_pure (crashes now ?_) ⟨rfl, fun _ => published⟩
    exact published.weaken fun _ _ _ last _ => last

theorem lookup_fresh (fresh : Fresh tools start plan) : start.plans.lookup (plan.stem tools) = none := by
  rw [List.lookup_eq_none_iff]
  intro entry member
  rw [bne_iff_ne]
  intro same
  exact fresh entry member (same ▸ List.prefix_rfl)

/-- The plan's file as it has been frozen. -/
theorem lookup_frozen (fresh : Fresh tools start plan) :
    (start.freeze tools plan).plans.lookup (plan.stem tools) = some (plan.text tools) := by
  rw [World.freeze]
  dsimp only
  rw [List.lookup_append, lookup_fresh fresh, Option.none_or, List.lookup_cons_self]

theorem matching_frozen (fresh : Fresh tools start plan) :
    matching (plan.stem tools) (start.freeze tools plan).plans = [plan.stem tools] := by
  have none' : (start.plans.map Prod.fst).filter
      (fun other => (plan.stem tools).toList.isPrefixOf other.toList) = [] := by
    rw [List.filter_eq_nil_iff]
    intro name member
    obtain ⟨entry, among, rfl⟩ := List.mem_map.mp member
    rw [List.isPrefixOf_iff_prefix]
    exact fresh entry among
  have own : (plan.stem tools).toList.isPrefixOf (plan.stem tools).toList = true :=
    List.isPrefixOf_iff_prefix.mpr List.prefix_rfl
  rw [matching, World.freeze]
  dsimp only
  rw [List.map_append, List.filter_append, none', List.nil_append, List.map_singleton, List.filter_singleton,
    own]
  rfl

theorem matching_meets {crash : World → Prop} {name : String} (here : crash world)
    (found : matching name world.plans = [name]) :
    (Program.look fun world : World =>
      match matching name world.plans with
      | [found] => Except.ok found
      | _ => Except.error (refused "PUBLICATION_MIGRATE_PLAN_UNPROVEN")).Meets crash raises
      (fun other now => other = name ∧ now = world) world := by
  apply Program.meets_look here
  · intro error saw
    rw [found] at saw
    cases saw
  · intro other saw
    rw [found] at saw
    cases saw
    exact ⟨rfl, rfl⟩

/-- A plan that is whole is read. -/
theorem readPrivate_meets {crash : World → Prop} {name : String} (here : crash world)
    (whole : (plan.text tools).length ≤ readLimit)
    (there : world.plans.lookup name = some (plan.text tools)) :
    (readPrivate name).Meets crash raises (fun frozen now => frozen = plan.kept tools ∧ now = world)
      world := by
  have read := readPlan_text tools plan whole
  apply Program.meets_look here
  · intro error saw
    rw [there] at saw
    dsimp only at saw
    rw [read] at saw
    cases saw
  · intro frozen saw
    rw [there] at saw
    dsimp only at saw
    rw [read] at saw
    cases saw
    exact ⟨rfl, rfl⟩

/-- A plan that can be read at once is written at once. -/
theorem written_whole (whole : (plan.text tools).length ≤ readLimit) :
    String.ofList ((plan.text tools).toList.take writeLimit) = plan.text tools := by
  have fits : (plan.text tools).toList.length ≤ writeLimit := by
    rw [String.length_toList]
    exact whole.trans (by decide)
  rw [List.take_of_length_le fits, String.ofList_toList]

/-- A plan that is written at once. -/
theorem writePrivate_meets (whole : (plan.text tools).length ≤ readLimit)
    (fresh : Fresh tools start plan) :
    (writePrivate (plan.stem tools) (plan.text tools)).Meets (Left tools start plan place done) raises
      (fun _ now => now = start.freeze tools plan) start := by
  have absent : start.plans.lookup (plan.stem tools) = none := lookup_fresh fresh
  have frozen : ({ start with plans := start.plans ++
      [(plan.stem tools, String.ofList ((plan.text tools).toList.take writeLimit))] } : World) =
      start.freeze tools plan := by
    rw [written_whole whole]
    rfl
  have left (part : List Char) (cut : part <+: (plan.text tools).toList) :
      Left tools start plan place done
        { start with plans := start.plans ++ [(plan.stem tools, String.ofList part)] } :=
    .inl ⟨part, cut, rfl⟩
  apply Program.meets_tearing (.inr (.inl rfl))
  · rintro _ ⟨part, cut, rfl⟩
    exact left part cut
  · intro error acted
    simp [absent] at acted
  · intro now value acted
    rw [absent] at acted
    cases acted
    exact ⟨left _ (List.take_prefix _ _), frozen⟩

/-- A first call freezes its plan and begins with its conversion. -/
theorem applyConversion_meets (fit : Fit tools start plan place) (fresh : Fresh tools start plan)
    (whole : (plan.text tools).length ≤ readLimit) (begins : ∀ candidate ∈ plan.convertible, ¬done candidate)
    (clean : Clean plan place start) :
    (applyConversion tools call plan).Meets (Left tools start plan place done) (fun _ _ => True)
      (fun _ _ => True) start := by
  have here : Left tools start plan place done start := .inr (.inl rfl)
  have going (now : World) (kept : Kept tools (start.freeze tools plan) plan place (Lasting done) now) :
      Left tools start plan place done now := .inr (.inr kept)
  have present : (Program.look fun world : World => Except.ok (world.plans.lookup (plan.stem tools)).isSome :
      Act Bool).Meets (Left tools start plan place done) (fun _ _ => True)
      (fun present now => present = false ∧ now = start) start := by
    apply Program.meets_look here
    · intro error _
      trivial
    · intro present saw
      cases saw
      rw [lookup_fresh fresh]
      exact ⟨rfl, rfl⟩
  unfold applyConversion
  refine (meets_checkCall here (.inr fun _ _ => trivial)).seq ?_
  rintro _ world rfl
  refine present.seq ?_
  rintro _ world ⟨rfl, rfl⟩
  rw [if_neg Bool.false_ne_true]
  refine (writePrivate_meets whole fresh).seq ?_
  rintro _ world rfl
  refine (convertWith_meets fit.freeze (Kept.begin fit.freeze begins) clean going (candidatesOf_frozen tools plan)
    (.inr fun _ _ => trivial)).mono (fun _ kept => kept) (fun _ _ _ => trivial) fun _ _ _ => trivial

/-- Another call reads the plan that is there. -/
theorem applyAgain_meets {crash : World → Prop} (fit : Fit tools start plan place)
    (fresh : Fresh tools start plan) (whole : (plan.text tools).length ≤ readLimit)
    (kept : Kept tools (start.freeze tools plan) plan place (Lasting done) world)
    (clean : Clean plan place world)
    (crashes : ∀ now, Kept tools (start.freeze tools plan) plan place (Lasting done) now → crash now) :
    (applyConversion tools call plan).Meets crash (fun _ _ => True) (fun _ _ => True) world := by
  have here := crashes world kept
  have read : world.plans.lookup (plan.stem tools) = some (plan.text tools) := by
    rw [kept.plans]
    exact lookup_frozen fresh
  have present : (Program.look fun world : World => Except.ok (world.plans.lookup (plan.stem tools)).isSome :
      Act Bool).Meets crash (fun _ _ => True) (fun present now => present = true ∧ now = world) world := by
    apply Program.meets_look here
    · intro error _
      trivial
    · intro present saw
      cases saw
      rw [read]
      exact ⟨rfl, rfl⟩
  unfold applyConversion
  refine (meets_checkCall here (.inr fun _ _ => trivial)).seq ?_
  rintro _ world rfl
  refine present.seq ?_
  rintro _ world ⟨rfl, rfl⟩
  rw [if_pos rfl]
  refine (meets_check here (.inr fun _ _ => trivial)).seq ?_
  rintro _ world rfl
  refine (readPrivate_meets here whole read).seq ?_
  intro frozen now both
  have listed : candidatesOf frozen = .ok plan.candidates := by
    rw [both.1, candidatesOf_kept]
  rw [both.2]
  clear both
  refine (meets_check here (.inr fun _ _ => trivial)).seq ?_
  rintro _ world rfl
  exact (convertWith_meets fit.freeze kept clean crashes listed (.inr fun _ _ => trivial)).mono
    (fun _ kept => kept) (fun _ _ _ => trivial) fun _ _ _ => trivial

/-- A resumed call goes on with a frozen conversion. -/
theorem resumeConversion_meets {crash : World → Prop} (fit : Fit tools start plan place)
    (fresh : Fresh tools start plan) (whole : (plan.text tools).length ≤ readLimit)
    (kept : Kept tools (start.freeze tools plan) plan place (Lasting done) world)
    (clean : Clean plan place world)
    (crashes : ∀ now, Kept tools (start.freeze tools plan) plan place (Lasting done) now → crash now)
    (passes : ((call.writersStopped = true ∧ call.live = false ∧ call.destDir = true) ∧
      Listed plan call.archives) ∨ ∀ failure now, raises failure now) :
    (resumeConversion tools call (planSeal tools plan.fields)).Meets crash raises
      (fun outcome now => outcome.frozen = plan.kept tools ∧ (Listed plan call.archives →
        Kept tools (start.freeze tools plan) plan place (fun _ phase => phase.isPublished = true) now))
      world := by
  have here := crashes world kept
  have stem : String.ofList ((planSeal tools plan.fields).toList.take 12) = plan.stem tools := rfl
  have found : matching (plan.stem tools) world.plans = [plan.stem tools] := by
    rw [kept.plans]
    exact matching_frozen fresh
  have read : world.plans.lookup (plan.stem tools) = some (plan.text tools) := by
    rw [kept.plans]
    exact lookup_frozen fresh
  unfold resumeConversion
  refine (meets_checkCall here (passes.imp_left And.left)).seq ?_
  rintro _ world rfl
  rw [stem]
  refine (matching_meets here found).seq ?_
  rintro _ world ⟨rfl, rfl⟩
  refine (readPrivate_meets here whole read).seq ?_
  intro frozen now both
  -- What was read stays a variable: its fields are not to be computed below.
  have same := both.1
  have proved : sealOf frozen = some (planSeal tools frozen) := by
    rw [same, sealOf_kept, planSeal_kept]
  have listed : candidatesOf frozen = .ok plan.candidates := by
    rw [same, candidatesOf_kept]
  have named : ((sealOf frozen).getD "").toList.take 12 = (plan.stem tools).toList := by
    rw [same, sealOf_kept, ← stem]
    simp
  rw [both.2]
  clear both
  refine (meets_ensure here (by simp [proved])).seq ?_
  rintro _ world rfl
  refine (meets_ensure here (by simp [named])).seq ?_
  rintro _ world rfl
  refine (convertWith_meets fit.freeze kept clean crashes listed (passes.imp_left And.right)).mono
    (fun _ kept => kept) (fun _ _ any => any) ?_
  intro outcome now ended
  exact ⟨ended.1.trans same, ended.2⟩

end Calls

end Modelark.Conversion
