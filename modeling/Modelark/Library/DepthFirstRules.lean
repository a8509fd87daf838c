import Modelark.Library.DepthFirst

/-!
# Rules for bounded depth-first search

Four rules about `search`: enough fuel finishes it; what it records are complete nodes of the
tree; a search that runs to its end has recorded every complete node; two searches of the same
space under different policies record the same first node.
-/

namespace Modelark.Library.DepthFirst

variable {σ ι κ ρ : Type*} {space : Space σ ι κ ρ} {policy : Policy}

section Termination

/-- The tree branches at most `branch` ways. -/
def Branches (space : Space σ ι κ ρ) (branch : Nat) : Prop :=
  ∀ {path}, space.Reach path → (space.expand (space.nodeAt path)).length ≤ branch

/-- The turns a walk can still take: a frame costs its choices and its own removal, and every
    node that may still be entered can open one more frame. -/
def workLeft (policy : Policy) (branch : Nat) (walk : Walk σ ι κ ρ) : Nat :=
  (policy.limit - walk.visited) * (branch + 2) + (walk.stack.map fun frame => frame.length + 1).sum

theorem Move.workLeft {branch : Nat} (branches : Branches space branch) {walk next : Walk σ ι κ ρ}
    (tracks : Tracks space walk) (move : Move space policy walk next)
    (running : next.status = .running) :
    workLeft policy branch next < workLeft policy branch walk := by
  have spend (visited : Nat) (room : visited < policy.limit) :
      (policy.limit - (visited + 1)) * (branch + 2) + (branch + 2) =
        (policy.limit - visited) * (branch + 2) := by
    rw [← Nat.succ_mul]
    congr 1
    omega
  cases move with
  | done stack | backtrack stack | skip stack =>
      simp only [DepthFirst.workLeft, stack, List.map_cons, List.sum_cons, List.map_nil,
        List.sum_nil, List.length_cons]
      omega
  | exhaust | stop => cases running
  | alarm _ _ raised =>
      rw [raised] at running
      cases running
  | record stack _ room | deadEnd stack _ room =>
      have spent := spend walk.visited room
      simp only [DepthFirst.workLeft, stack, List.map_cons, List.sum_cons, List.length_cons]
      omega
  | descend stack _ room =>
      obtain ⟨reached, child⟩ := tracks.child stack
      have narrow := branches reached
      rw [← child] at narrow
      have spent := spend walk.visited room
      simp only [DepthFirst.workLeft, stack, List.map_cons, List.sum_cons, List.length_cons]
      omega

/-- The fuel the search needs under a limit. -/
def fuelFor (limit branch : Nat) : Nat :=
  limit * (branch + 2)

/-- With enough fuel the search runs to its end. -/
theorem search_finishes [DecidableEq κ] (lawful : space.Lawful) {branch : Nat} (branches : Branches space branch) :
    (search space policy (fuelFor policy.limit branch)).finished = true := by
  have loops : ∀ fuel walk, (walk.status = .running → Tracks space walk) →
      workLeft policy branch walk ≤ fuel → (loop space policy fuel walk).finished = true := by
    intro fuel
    induction fuel with
    | zero =>
        intro walk _ little
        rw [loop, finished_eq_true]
        left
        have empty : (walk.stack.map fun frame => frame.length + 1).sum = 0 := by
          rw [workLeft] at little
          omega
        cases stack : walk.stack with
        | nil => rfl
        | cons frame frames => simp [stack] at empty
    | succ fuel ih =>
        intro walk tracks enough
        rw [loop]
        cases ended : walk.finished with
        | true => rw [if_pos rfl, ended]
        | false =>
            rw [if_neg Bool.false_ne_true]
            have tracked := tracks (finished_eq_false.mp ended).2
            have move : Move space policy walk _ := step_move lawful ended tracked
            by_cases running : (step space policy walk).status = .running
            · have less := move.workLeft branches tracked running
              exact ih _ (fun _ => tracked.move move running) (by omega)
            · have stuck : (step space policy walk).finished = true :=
                finished_eq_true.mpr (.inr running)
              rw [loop_eq_iterate, Function.iterate_fixed (step_of_finished stuck)]
              exact stuck
  refine loops _ _ start_tracks ?_
  rcases start_cases space policy with ⟨none, refused⟩ | ⟨some, _, raised⟩ | ⟨some, _, opened⟩
  · simp [refused, workLeft, fuelFor, none, fresh]
  · rw [raised, workLeft, fuelFor]
    exact Nat.mul_le_mul_right _ (Nat.sub_le _ _)
  · have narrow := branches .root
    rw [Space.nodeAt_nil] at narrow
    have spent : fuelFor policy.limit branch =
        (policy.limit - 1) * (branch + 2) + (branch + 2) := by
      rw [fuelFor, ← Nat.succ_mul]
      congr 1
      omega
    simp only [opened, workLeft, spent, List.map_cons, List.map_nil, List.sum_cons, List.sum_nil]
    omega

end Termination

section Records

variable [DecidableEq κ]

/-- What recording a complete node of the tree preserves holds of the record. -/
theorem record_invariant (lawful : space.Lawful) {fuel : Nat} (Good : ρ → Prop)
    (blank : Good space.blank)
    (record : ∀ kept path choice, Good kept → space.Reach (path ++ [choice]) →
      space.complete (space.nodeAt (path ++ [choice])) = true →
      Good (space.record kept (space.nodeAt (path ++ [choice])))) :
    Good (search space policy fuel).record := by
  refine search_tracked_invariant lawful (fun walk => Good walk.record) ?_ ?_
  · rcases start_cases space policy with ⟨_, refused⟩ | ⟨_, _, raised⟩ | ⟨_, _, opened⟩
    · rw [refused]; exact blank
    · rw [raised]; exact blank
    · rw [opened]; exact blank
  · intro walk next _ tracks move good
    cases move with
    | done | backtrack | skip | exhaust | deadEnd | descend => exact good
    | alarm _ _ _ same => rw [same]; exact good
    | record stack _ _ complete | stop stack _ _ complete =>
        obtain ⟨reached, child⟩ := tracks.child stack
        rw [child] at complete ⊢
        exact record _ _ _ good reached complete

/-- A search for the first complete node stops exactly when it records one. -/
theorem stopped_or_blank (lawful : space.Lawful) {fuel : Nat} (first : policy.stopAtFirst = true) :
    ((search space policy fuel).status ≠ .stopped ∧
        (search space policy fuel).record = space.blank) ∨
      ((search space policy fuel).status = .stopped ∧ ∃ path choice,
        space.Reach (path ++ [choice]) ∧
        space.complete (space.nodeAt (path ++ [choice])) = true ∧
        (search space policy fuel).record =
          space.record space.blank (space.nodeAt (path ++ [choice]))) := by
  refine search_tracked_invariant lawful (fun walk =>
    (walk.status ≠ .stopped ∧ walk.record = space.blank) ∨
      (walk.status = .stopped ∧ ∃ path choice, space.Reach (path ++ [choice]) ∧
        space.complete (space.nodeAt (path ++ [choice])) = true ∧
        walk.record = space.record space.blank (space.nodeAt (path ++ [choice])))) ?_ ?_
  · left
    rcases start_cases space policy with ⟨_, refused⟩ | ⟨_, _, raised⟩ | ⟨_, _, opened⟩
    · rw [refused]; exact ⟨nofun, rfl⟩
    · rw [raised]; exact ⟨nofun, rfl⟩
    · rw [opened]; exact ⟨nofun, rfl⟩
  · intro walk next running tracks move holds
    have blank : walk.record = space.blank := by
      rcases holds with ⟨_, blank⟩ | ⟨stopped, _⟩
      · exact blank
      · rw [running] at stopped
        cases stopped
    have going : walk.status ≠ .stopped := by
      rw [running]
      nofun
    cases move with
    | done | backtrack | skip | deadEnd | descend => exact .inl ⟨going, blank⟩
    | exhaust => exact .inl ⟨nofun, blank⟩
    | alarm _ _ raised same => exact .inl ⟨by rw [raised]; nofun, by rw [same, blank]⟩
    | record _ _ _ _ more => rw [first] at more; cases more
    | stop stack _ _ complete =>
        obtain ⟨reached, child⟩ := tracks.child stack
        rw [child] at complete
        refine .inr ⟨rfl, _, _, reached, complete, ?_⟩
        rw [blank, child]

/-- A stopped search has just recorded a complete node. -/
theorem record_of_stopped (lawful : space.Lawful) {fuel : Nat}
    (stopped : (search space policy fuel).status = .stopped) :
    policy.stopAtFirst = true ∧ ∃ kept path, space.Reach path ∧
      space.complete (space.nodeAt path) = true ∧
      (search space policy fuel).record = space.record kept (space.nodeAt path) := by
  refine search_tracked_invariant lawful (fun walk => walk.status = .stopped →
    policy.stopAtFirst = true ∧ ∃ kept path, space.Reach path ∧
      space.complete (space.nodeAt path) = true ∧
      walk.record = space.record kept (space.nodeAt path)) ?_ ?_ stopped
  · rcases start_cases space policy with ⟨_, refused⟩ | ⟨_, _, raised⟩ | ⟨_, _, opened⟩
    · rw [refused]; nofun
    · rw [raised]; nofun
    · rw [opened]; nofun
  · intro walk next running tracks move _ stopped
    cases move with
    | done | backtrack | skip | deadEnd | descend | record => rw [running] at stopped; cases stopped
    | exhaust => cases stopped
    | alarm _ _ raised => rw [raised] at stopped; cases stopped
    | stop stack _ _ complete first =>
        obtain ⟨reached, child⟩ := tracks.child stack
        rw [child] at complete
        exact ⟨first, _, _, reached, complete, by rw [child]⟩

/-- A silent alarm is never raised. -/
theorem not_raised (lawful : space.Lawful) {fuel : Nat} (silent : ∀ count, policy.alarm count = false) :
    (search space policy fuel).status ≠ .raised := by
  refine search_tracked_invariant lawful (fun walk => walk.status ≠ .raised) ?_ ?_
  · rcases start_cases space policy with ⟨_, refused⟩ | ⟨_, alarm, _⟩ | ⟨_, _, opened⟩
    · rw [refused]; nofun
    · rw [silent] at alarm; cases alarm
    · rw [opened]; nofun
  · intro walk next running tracks move quiet
    cases move with
    | done | backtrack | skip | deadEnd | descend | record => exact quiet
    | exhaust | stop => nofun
    | alarm _ alarm => rw [silent] at alarm; cases alarm

/-- Whenever the steps have come to an end, they have come to the same walk. -/
theorem iterate_finished_eq {walk : Walk σ ι κ ρ} {turns turns' : Nat}
    (ended : ((step space policy)^[turns] walk).finished = true)
    (ended' : ((step space policy)^[turns'] walk).finished = true) :
    (step space policy)^[turns] walk = (step space policy)^[turns'] walk := by
  have later := iterate_of_finished space policy ended turns'
  have later' := iterate_of_finished space policy ended' turns
  rw [← Function.iterate_add_apply] at later later'
  rw [← later, ← later', Nat.add_comm]

end Records

section Coverage

/-- The child of `path` by `choice` is still to be tried by a frame of the stack. -/
def Pending : List ι → List (List ι) → List ι → ι → Prop
  | _, [], _, _ => False
  | pushed, frame :: frames, path, choice =>
      (path = pushed.reverse ∧ choice ∈ frame) ∨ Pending pushed.tail frames path choice

/-- No two paths that the search tries have nodes with the same key. -/
def KeysDistinct [DecidableEq κ] (space : Space σ ι κ ρ) (policy : Policy) : Prop :=
  ∀ {left right}, Tries space policy left → Tries space policy right →
    space.key (space.nodeAt left) = space.key (space.nodeAt right) → left = right

/-- The entered paths account for everything the walk has seen and is still going to try. -/
structure Covers [DecidableEq κ] (space : Space σ ι κ ρ) (policy : Policy) (Taken : ρ → List ι → Prop)
    (walk : Walk σ ι κ ρ) (entered : List (List ι)) : Prop where
  root : [] ∈ entered
  tried : ∀ path ∈ entered, Tries space policy path
  seen : ∀ key ∈ walk.seen, ∃ path ∈ entered, space.key (space.nodeAt path) = key
  taken : ∀ path ∈ entered, path ≠ [] → space.complete (space.nodeAt path) = true →
    Taken walk.record path
  children : ∀ path ∈ entered, ∀ choice ∈ space.expand (space.nodeAt path),
    path ++ [choice] ∈ entered ∨ Pending walk.pushed walk.stack path choice

variable [DecidableEq κ] {Taken : ρ → List ι → Prop}

/-- Entering a fresh child that is not descended into keeps the account. -/
theorem Covers.leaf {walk next : Walk σ ι κ ρ} {entered : List (List ι)} {choice choices frames}
    (covers : Covers space policy Taken walk entered) (tracks : Tracks space walk)
    (stack : walk.stack = (choice :: choices) :: frames)
    (tried : Tries space policy (walk.pushed.reverse ++ [choice]))
    (after : next.stack = choices :: frames) (pushed : next.pushed = walk.pushed)
    (seen : next.seen = space.key (space.push walk.node choice) :: walk.seen)
    (childless : space.expand (space.push walk.node choice) = [])
    (kept : ∀ path, Taken walk.record path → Taken next.record path)
    (taken : space.complete (space.push walk.node choice) = true →
      Taken next.record (walk.pushed.reverse ++ [choice])) :
    Covers space policy Taken next ((walk.pushed.reverse ++ [choice]) :: entered) := by
  obtain ⟨reached, child⟩ := tracks.child stack
  refine ⟨List.mem_cons_of_mem _ covers.root, ?_, ?_, ?_, ?_⟩
  · intro path member
    rcases List.mem_cons.mp member with rfl | old
    · exact tried
    · exact covers.tried path old
  · intro key member
    rw [seen] at member
    rcases List.mem_cons.mp member with rfl | old
    · exact ⟨_, List.mem_cons_self .., by rw [child]⟩
    · obtain ⟨path, listed, same⟩ := covers.seen key old
      exact ⟨path, List.mem_cons_of_mem _ listed, same⟩
  · intro path member nonempty complete
    rcases List.mem_cons.mp member with rfl | old
    · exact taken (by rw [child]; exact complete)
    · exact kept path (covers.taken path old nonempty complete)
  · intro path member other among
    rcases List.mem_cons.mp member with rfl | old
    · rw [← child, childless] at among
      exact absurd among List.not_mem_nil
    · rw [after, pushed]
      rcases covers.children path old other among with already | waiting
      · exact .inl (List.mem_cons_of_mem _ already)
      · rw [stack] at waiting
        rcases waiting with ⟨here, first | later⟩ | below
        · exact .inl (by rw [here]; exact List.mem_cons_self ..)
        · exact .inr (.inl ⟨here, by assumption⟩)
        · exact .inr (.inr below)

theorem Covers.move (lawful : space.Lawful) (distinct : KeysDistinct space policy)
    (record : ∀ kept path, space.Reach path → space.complete (space.nodeAt path) = true →
      Taken (space.record kept (space.nodeAt path)) path)
    (keep : ∀ kept path old, space.Reach path → space.complete (space.nodeAt path) = true →
      Taken kept old → Taken (space.record kept (space.nodeAt path)) old)
    {walk next : Walk σ ι κ ρ} {entered : List (List ι)} (covers : Covers space policy Taken walk entered)
    (occurs : Occurs space policy walk) (ran : walk.status = .running) (tracks : Tracks space walk)
    (move : Move space policy walk next) (running : next.status = .running) :
    ∃ more, Covers space policy Taken next more := by
  cases move with
  | done stack pushed =>
      refine ⟨entered, { covers with children := ?_ }⟩
      intro path member choice among
      rcases covers.children path member choice among with already | waiting
      · exact .inl already
      · rw [stack] at waiting
        rcases waiting with ⟨_, none⟩ | none
        · exact absurd none List.not_mem_nil
        · exact none.elim
  | backtrack stack pushed =>
      refine ⟨entered, { covers with children := ?_ }⟩
      intro path member choice among
      rcases covers.children path member choice among with already | waiting
      · exact .inl already
      · rw [stack, pushed] at waiting
        rcases waiting with ⟨_, none⟩ | below
        · exact absurd none List.not_mem_nil
        · exact .inr below
  | skip stack known =>
      obtain ⟨reached, child⟩ := tracks.child stack
      obtain ⟨path, listed, same⟩ := covers.seen _ known
      rw [child] at same
      obtain rfl := distinct (covers.tried path listed) (.child occurs ran stack) same
      refine ⟨entered, { covers with children := ?_ }⟩
      intro path member choice among
      rcases covers.children path member choice among with already | waiting
      · exact .inl already
      · rw [stack] at waiting
        rcases waiting with ⟨here, first | later⟩ | below
        · exact .inl (by rw [here]; exact listed)
        · exact .inr (.inl ⟨here, by assumption⟩)
        · exact .inr (.inr below)
  | exhaust | stop => cases running
  | alarm _ _ raised =>
      rw [raised] at running
      cases running
  | record stack _ _ complete =>
      obtain ⟨reached, child⟩ := tracks.child stack
      rw [child] at complete
      refine ⟨_, covers.leaf tracks stack (.child occurs ran stack) rfl rfl rfl ?_ ?_ ?_⟩
      · rw [child]
        exact lawful.complete_leaf reached complete
      · intro path taken
        rw [child]
        exact keep _ _ _ reached complete taken
      · intro _
        rw [child]
        exact record _ _ reached complete
  | deadEnd stack _ _ incomplete childless =>
      refine ⟨_, covers.leaf tracks stack (.child occurs ran stack) rfl rfl rfl childless
        (fun _ taken => taken) ?_⟩
      intro complete
      rw [incomplete] at complete
      cases complete
  | @descend choice _ _ stack _ _ incomplete =>
      obtain ⟨reached, child⟩ := tracks.child stack
      refine ⟨(walk.pushed.reverse ++ [choice]) :: entered,
        List.mem_cons_of_mem _ covers.root, ?_, ?_, ?_, ?_⟩
      · intro path member
        rcases List.mem_cons.mp member with rfl | old
        · exact .child occurs ran stack
        · exact covers.tried path old
      · intro key member
        rcases List.mem_cons.mp member with rfl | old
        · exact ⟨_, List.mem_cons_self .., by rw [child]⟩
        · obtain ⟨path, listed, same⟩ := covers.seen key old
          exact ⟨path, List.mem_cons_of_mem _ listed, same⟩
      · intro path member nonempty complete
        rcases List.mem_cons.mp member with rfl | old
        · rw [child, complete] at incomplete
          cases incomplete
        · exact covers.taken path old nonempty complete
      · intro path member other among
        rcases List.mem_cons.mp member with rfl | old
        · refine .inr (.inl ⟨by rw [List.reverse_cons], ?_⟩)
          rw [child]
          exact among
        · rcases covers.children path old other among with already | waiting
          · exact .inl (List.mem_cons_of_mem _ already)
          · rw [stack] at waiting
            rcases waiting with ⟨here, first | later⟩ | below
            · exact .inl (by rw [here]; exact List.mem_cons_self ..)
            · exact .inr (.inr (.inl ⟨here, by assumption⟩))
            · exact .inr (.inr (.inr below))

variable (Taken) in
/-- A search that runs to its end has taken every complete node of the tree into its record. -/
theorem search_exhaustive (lawful : space.Lawful) (distinct : KeysDistinct space policy)
    (record : ∀ kept path, space.Reach path → space.complete (space.nodeAt path) = true →
      Taken (space.record kept (space.nodeAt path)) path)
    (keep : ∀ kept path old, space.Reach path → space.complete (space.nodeAt path) = true →
      Taken kept old → Taken (space.record kept (space.nodeAt path)) old)
    {fuel : Nat} (finished : (search space policy fuel).finished = true)
    (running : (search space policy fuel).status = .running)
    {path : List ι} (reached : space.Reach path) (nonempty : path ≠ [])
    (complete : space.complete (space.nodeAt path) = true) :
    Taken (search space policy fuel).record path := by
  have account : (search space policy fuel).status = .running →
      ∃ entered, Covers space policy Taken (search space policy fuel) entered := by
    refine search_occurring_invariant lawful (fun walk => walk.status = .running →
      ∃ entered, Covers space policy Taken walk entered) ?_ ?_
    · rcases start_cases space policy with ⟨_, refused⟩ | ⟨_, _, raised⟩ | ⟨_, _, opened⟩
      · rw [refused]; nofun
      · rw [raised]; nofun
      · rw [opened]
        refine fun _ => ⟨[[]], List.mem_singleton_self _, ?_, ?_, ?_, ?_⟩
        · intro path member
          rw [List.mem_singleton.mp member]
          exact .root
        · intro key member
          exact ⟨[], List.mem_singleton_self _, (List.mem_singleton.mp member).symm⟩
        · intro path member nonempty
          exact absurd (List.mem_singleton.mp member) nonempty
        · intro path member choice among
          rw [List.mem_singleton.mp member] at among ⊢
          exact .inr (.inl ⟨rfl, among⟩)
    · intro walk next occurs running tracks move covers running'
      obtain ⟨entered, covered⟩ := covers running
      exact covered.move lawful distinct record keep occurs running tracks move running'
  obtain ⟨entered, covered⟩ := account running
  have empty : (search space policy fuel).stack = [] := by
    rcases finished_eq_true.mp finished with empty | ended
    · exact empty
    · exact absurd running ended
  have all : ∀ path, space.Reach path → path ∈ entered := by
    intro path reached
    induction reached with
    | root => exact covered.root
    | snoc _ among ih =>
        rcases covered.children _ ih _ among with already | waiting
        · exact already
        · rw [empty] at waiting
          exact waiting.elim
  exact covered.taken path (all path reached) nonempty complete

end Coverage

section Lockstep

variable [DecidableEq κ] {τ : Type*}

/-- `first` reads from a record the first node that was recorded. -/
structure KeepsFirst (space : Space σ ι κ ρ) (first : ρ → Option τ) (view : σ → τ) : Prop where
  blank : first space.blank = none
  opens : ∀ kept node, first kept = none → first (space.record kept node) = some (view node)
  keeps : ∀ kept node item, first kept = some item → first (space.record kept node) = some item

/-- Two walks of one space are at the same place and have recorded nothing. -/
structure InStep (first : ρ → Option τ) (left right : Walk σ ι κ ρ) : Prop where
  same : right = { left with record := right.record }
  running : left.status = .running
  leftNone : first left.record = none
  rightNone : first right.record = none

/-- What becomes of two walks in step: one may end with nothing recorded, else both record the
    same first node. -/
inductive Agreement (first : ρ → Option τ) (left right : Walk σ ι κ ρ) : Prop
  | inStep : InStep first left right → Agreement first left right
  | leftEnds : left.finished = true → first left.record = none → Agreement first left right
  | rightEnds : right.finished = true → first right.record = none → Agreement first left right
  | both {item} : first left.record = some item → first right.record = some item →
      Agreement first left right

theorem step_record (walk : Walk σ ι κ ρ) : (step space policy walk).record = walk.record ∨
    ∃ node, (step space policy walk).record = space.record walk.record node := by
  obtain ⟨node, seen, visited, record, status, stack, pushed⟩ := walk
  rcases status with _ | _ | _ | _
  · rcases stack with _ | ⟨_ | ⟨choice, choices⟩, frames⟩
    · exact .inl rfl
    · cases pushed <;> exact .inl rfl
    · by_cases known : space.key (space.push node choice) ∈ seen
      · exact .inl (by simp only [step, enter, if_pos known])
      by_cases full : policy.limit ≤ visited
      · exact .inl (by simp only [step, enter, if_neg known, if_pos full])
      by_cases raises : policy.alarm (visited + 1) = true
      · exact .inl (by simp only [step, enter, if_neg known, if_neg full, if_pos raises])
      by_cases complete : space.complete (space.push node choice) = true
      · refine .inr ⟨space.push node choice, ?_⟩
        simp only [step, enter, if_neg known, if_neg full, if_neg raises, if_pos complete]
        split_ifs <;> rfl
      · left
        simp only [step, enter, if_neg known, if_neg full, if_neg raises, if_neg complete]
        cases space.expand (space.push node choice) <;> rfl
  all_goals cases stack <;> exact .inl rfl

theorem KeepsFirst.step {first : ρ → Option τ} {view : σ → τ} (keeps : KeepsFirst space first view)
    {walk : Walk σ ι κ ρ} {item : τ} (known : first walk.record = some item) :
    first (step space policy walk).record = some item := by
  rcases step_record walk with same | ⟨node, recorded⟩
  · rw [same]
    exact known
  · rw [recorded]
    exact keeps.keeps _ _ _ known

variable {other : Policy}

theorem InStep.step {first : ρ → Option τ} {view : σ → τ} (keeps : KeepsFirst space first view)
    {left right : Walk σ ι κ ρ} (inStep : InStep first left right) :
    Agreement first (step space policy left) (step space other right) := by
  obtain ⟨same, running, leftNone, rightNone⟩ := inStep
  obtain ⟨node, seen, visited, leftRecord, status, stack, pushed⟩ := left
  obtain ⟨node', seen', visited', rightRecord, status', stack', pushed'⟩ := right
  simp only [Walk.mk.injEq] at same
  obtain ⟨rfl, rfl, rfl, -, rfl, rfl, rfl⟩ := same
  dsimp only at running leftNone rightNone
  subst running
  rcases stack' with _ | ⟨_ | ⟨choice, choices⟩, frames⟩
  · exact .inStep ⟨rfl, rfl, leftNone, rightNone⟩
  · cases pushed' <;> exact .inStep ⟨rfl, rfl, leftNone, rightNone⟩
  by_cases known : space.key (space.push node' choice) ∈ seen'
  · simp only [DepthFirst.step, enter, if_pos known]
    exact .inStep ⟨rfl, rfl, leftNone, rightNone⟩
  by_cases full : policy.limit ≤ visited'
  · simp only [DepthFirst.step, enter, if_neg known, if_pos full]
    exact .leftEnds (finished_eq_true.mpr (.inr (by simp))) leftNone
  by_cases full' : other.limit ≤ visited'
  · refine .rightEnds ?_ ?_ <;> simp only [DepthFirst.step, enter, if_neg known, if_pos full']
    · exact finished_eq_true.mpr (.inr (by simp))
    · exact rightNone
  by_cases raises : policy.alarm (visited' + 1) = true
  · simp only [DepthFirst.step, enter, if_neg known, if_neg full, if_pos raises]
    exact .leftEnds (finished_eq_true.mpr (.inr (by simp))) leftNone
  by_cases raises' : other.alarm (visited' + 1) = true
  · refine .rightEnds ?_ ?_ <;>
      simp only [DepthFirst.step, enter, if_neg known, if_neg full', if_pos raises']
    · exact finished_eq_true.mpr (.inr (by simp))
    · exact rightNone
  simp only [DepthFirst.step, enter, if_neg known, if_neg full, if_neg full', if_neg raises,
    if_neg raises']
  by_cases complete : space.complete (space.push node' choice) = true
  · have opensLeft := keeps.opens _ (space.push node' choice) leftNone
    have opensRight := keeps.opens _ (space.push node' choice) rightNone
    simp only [if_pos complete]
    exact .both (by split_ifs <;> exact opensLeft) (by split_ifs <;> exact opensRight)
  · simp only [if_neg complete]
    cases space.expand (space.push node' choice) <;>
      exact .inStep ⟨rfl, rfl, leftNone, rightNone⟩

theorem Agreement.step {first : ρ → Option τ} {view : σ → τ} (keeps : KeepsFirst space first view)
    {left right : Walk σ ι κ ρ} (agreement : Agreement first left right) :
    Agreement first (step space policy left) (step space other right) := by
  cases agreement with
  | inStep inStep => exact inStep.step keeps
  | leftEnds ended none =>
      rw [step_of_finished ended]
      exact .leftEnds ended none
  | rightEnds ended none =>
      rw [step_of_finished ended]
      exact .rightEnds ended none
  | both left right => exact .both (keeps.step left) (keeps.step right)

theorem start_agreement {first : ρ → Option τ} {view : σ → τ}
    (keeps : KeepsFirst space first view) :
    Agreement first (start space policy) (start space other) := by
  rcases start_cases space policy with ⟨_, refused⟩ | ⟨_, _, raised⟩ | ⟨_, _, opened⟩
  · rw [refused]
    exact .leftEnds (finished_eq_true.mpr (.inl rfl)) keeps.blank
  · rw [raised]
    exact .leftEnds (finished_eq_true.mpr (.inl rfl)) keeps.blank
  rcases start_cases space other with ⟨_, refused⟩ | ⟨_, _, raised⟩ | ⟨_, _, opened'⟩
  · rw [refused]
    exact .rightEnds (finished_eq_true.mpr (.inl rfl)) keeps.blank
  · rw [raised]
    exact .rightEnds (finished_eq_true.mpr (.inl rfl)) keeps.blank
  · rw [opened, opened']
    exact .inStep ⟨rfl, rfl, keeps.blank, keeps.blank⟩

/-- Finished searches of one space that both record something record the same first node. -/
theorem first_agrees {first : ρ → Option τ} {view : σ → τ} (keeps : KeepsFirst space first view)
    {fuel fuel' : Nat} (leftOver : (search space policy fuel).finished = true)
    (rightOver : (search space other fuel').finished = true) {left right : τ}
    (leftFirst : first (search space policy fuel).record = some left)
    (rightFirst : first (search space other fuel').record = some right) : left = right := by
  have agree : ∀ turns, Agreement first ((step space policy)^[turns] (start space policy))
      ((step space other)^[turns] (start space other)) := by
    intro turns
    induction turns with
    | zero => exact start_agreement keeps
    | succ turns ih =>
        rw [Function.iterate_succ_apply', Function.iterate_succ_apply']
        exact ih.step keeps
  rw [search, loop_eq_iterate] at leftOver leftFirst rightOver rightFirst
  have both := agree (fuel + fuel')
  rw [Nat.add_comm, Function.iterate_add_apply,
    iterate_of_finished _ _ leftOver, Nat.add_comm, Function.iterate_add_apply,
    iterate_of_finished _ _ rightOver] at both
  cases both with
  | inStep inStep => rw [inStep.leftNone] at leftFirst; cases leftFirst
  | leftEnds _ none => rw [none] at leftFirst; cases leftFirst
  | rightEnds _ none => rw [none] at rightFirst; cases rightFirst
  | both leftSame rightSame =>
      rw [leftSame] at leftFirst
      rw [rightSame] at rightFirst
      exact Option.some.inj (leftFirst.symm.trans rightFirst)

end Lockstep

end Modelark.Library.DepthFirst
