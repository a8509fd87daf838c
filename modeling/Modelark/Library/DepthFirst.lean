import Mathlib

/-!
# Bounded depth-first search with an undo stack

An iterative depth-first search over one mutable node. A frame holds the choices still to be tried
at its depth; a choice is pushed onto the node, and popped again when its subtree is done. A node
whose key was seen before is skipped, a limit bounds the number of nodes entered, an alarm may
abort the search, and complete nodes are folded into a record.

The module proves what such a search guarantees from laws about `push`, `pop` and `expand` alone:
it terminates, it records only complete nodes of the search tree, it records all of them unless it
is cut short, and its first steps do not depend on the limit.
-/

namespace Modelark.Library.DepthFirst

variable {σ ι κ ρ : Type*}

/-- What is searched: the mutable node, its children and what is kept of complete nodes. -/
structure Space (σ ι κ ρ : Type*) where
  root : σ
  push : σ → ι → σ
  pop : σ → σ
  key : σ → κ
  expand : σ → List ι
  complete : σ → Bool
  record : ρ → σ → ρ
  blank : ρ

/-- How far the search goes. -/
structure Policy where
  limit : Nat
  alarm : Nat → Bool
  stopAtFirst : Bool

inductive Status where
  | running
  | stopped
  | exhausted
  | raised
  deriving Repr, DecidableEq

structure Walk (σ ι κ ρ : Type*) where
  node : σ
  seen : List κ
  visited : Nat
  record : ρ
  status : Status
  stack : List (List ι)
  pushed : List ι

inductive Verdict where
  | ok
  | skip
  | exhaust
  | alarm
  deriving Repr, DecidableEq

section Search

variable [DecidableEq κ] (space : Space σ ι κ ρ) (policy : Policy)

/-- Account for the current node: skip it, refuse it at the limit, or count it. -/
def enter (walk : Walk σ ι κ ρ) : Verdict × Walk σ ι κ ρ :=
  if space.key walk.node ∈ walk.seen then (.skip, walk)
  else if policy.limit ≤ walk.visited then (.exhaust, { walk with status := .exhausted })
  else if policy.alarm (walk.visited + 1) then
    (.alarm, { walk with
      seen := space.key walk.node :: walk.seen, visited := walk.visited + 1, status := .raised })
  else
    (.ok, { walk with
      seen := space.key walk.node :: walk.seen, visited := walk.visited + 1 })

/-- One turn of the loop: leave a finished frame, or try the next choice of the top frame. -/
def step (walk : Walk σ ι κ ρ) : Walk σ ι κ ρ :=
  match walk.status, walk.stack with
  | .running, [] :: frames =>
      match walk.pushed with
      | [] => { walk with stack := frames }
      | _ :: rest => { walk with stack := frames, node := space.pop walk.node, pushed := rest }
  | .running, (choice :: choices) :: frames =>
      match enter space policy
          { walk with node := space.push walk.node choice, stack := choices :: frames } with
      | (.exhaust, entered) => { entered with node := space.pop entered.node }
      | (.skip, entered) => { entered with node := space.pop entered.node }
      | (.alarm, entered) => entered
      | (.ok, entered) =>
          if space.complete entered.node then
            let recorded := { entered with
              record := space.record entered.record entered.node
              node := space.pop entered.node }
            if policy.stopAtFirst then { recorded with stack := [], status := .stopped }
            else recorded
          else
            match space.expand entered.node with
            | [] => { entered with node := space.pop entered.node }
            | children => { entered with
                pushed := choice :: entered.pushed, stack := children :: entered.stack }
  | _, _ => walk

/-- The root is entered before the loop starts. -/
def start : Walk σ ι κ ρ :=
  match enter space policy
      { node := space.root, seen := [], visited := 0, record := space.blank
        status := .running, stack := [], pushed := [] } with
  | (.ok, entered) => { entered with stack := [space.expand entered.node] }
  | (_, entered) => entered

def Walk.finished (walk : Walk σ ι κ ρ) : Bool :=
  walk.stack.isEmpty || walk.status ≠ .running

/-- The loop, with fuel. -/
def loop : Nat → Walk σ ι κ ρ → Walk σ ι κ ρ
  | 0, walk => walk
  | fuel + 1, walk => if walk.finished then walk else loop fuel (step space policy walk)

def search (fuel : Nat) : Walk σ ι κ ρ :=
  loop space policy fuel (start space policy)

end Search

namespace Space

variable (space : Space σ ι κ ρ)

/-- The node reached from the root by pushing the choices of a path in order. -/
def nodeAt (path : List ι) : σ :=
  path.foldl space.push space.root

@[simp] theorem nodeAt_nil : space.nodeAt [] = space.root := rfl

@[simp] theorem nodeAt_snoc (path : List ι) (choice : ι) :
    space.nodeAt (path ++ [choice]) = space.push (space.nodeAt path) choice := by
  simp only [nodeAt, List.foldl_append, List.foldl_cons, List.foldl_nil]

/-- Paths of the search tree: every choice is one of those its node expands to. -/
inductive Reach : List ι → Prop
  | root : Reach []
  | snoc {path choice} : Reach path → choice ∈ space.expand (space.nodeAt path) →
      Reach (path ++ [choice])

/-- The laws of a search space along the paths of its tree. -/
structure Lawful : Prop where
  pop_push : ∀ {path choice}, space.Reach path → choice ∈ space.expand (space.nodeAt path) →
    space.pop (space.push (space.nodeAt path) choice) = space.nodeAt path
  complete_leaf : ∀ {path}, space.Reach path → space.complete (space.nodeAt path) = true →
    space.expand (space.nodeAt path) = []

theorem Reach.init {space : Space σ ι κ ρ} {path choice}
    (reached : space.Reach (path ++ [choice])) :
    space.Reach path ∧ choice ∈ space.expand (space.nodeAt path) := by
  generalize whole : path ++ [choice] = full at reached
  cases reached with
  | root => exact absurd whole (by simp)
  | snoc before among =>
      obtain ⟨rfl, same⟩ := List.append_inj' whole rfl
      obtain rfl := (List.cons.inj same).1
      exact ⟨before, among⟩

theorem Reach.of_append {space : Space σ ι κ ρ} {front back : List ι}
    (reached : space.Reach (front ++ back)) : space.Reach front := by
  induction back using List.reverseRecOn with
  | nil => simpa only [List.append_nil] using reached
  | append_singleton back choice ih =>
      rw [← List.append_assoc] at reached
      exact ih reached.init.1

/-- Every choice of a path is one its prefix expands to. -/
theorem Reach.choice_mem {space : Space σ ι κ ρ} {front back : List ι} {choice : ι}
    (reached : space.Reach (front ++ choice :: back)) :
    choice ∈ space.expand (space.nodeAt front) := by
  have upTo : space.Reach (front ++ [choice]) := by
    refine @Reach.of_append _ _ _ _ _ _ back ?_
    rw [List.append_assoc]
    exact reached
  exact upTo.init.2

end Space

section Moves

variable {space : Space σ ι κ ρ} {policy : Policy}

/-- The frames of the stack, topmost first, belong to the nodes along the pushed choices. -/
def Frames (space : Space σ ι κ ρ) : List ι → List (List ι) → Prop
  | [], [frame] => frame ⊆ space.expand space.root
  | choice :: rest, frame :: frames =>
      space.Reach (rest.reverse ++ [choice]) ∧
        frame ⊆ space.expand (space.nodeAt (rest.reverse ++ [choice])) ∧
        Frames space rest frames
  | [], [] => True
  | _, _ => False

/-- The current node is the one of the pushed choices, and the stack holds its frames. -/
structure Tracks (space : Space σ ι κ ρ) (walk : Walk σ ι κ ρ) : Prop where
  node : walk.node = space.nodeAt walk.pushed.reverse
  frames : Frames space walk.pushed walk.stack

theorem Frames.reach {pushed : List ι} {stack : List (List ι)}
    (frames : Frames space pushed stack) : space.Reach pushed.reverse := by
  cases pushed with
  | nil => exact .root
  | cons choice rest =>
      rw [List.reverse_cons]
      match stack, frames with
      | _ :: _, held => exact held.1

theorem Frames.top {pushed : List ι} {frame : List ι} {frames : List (List ι)}
    (held : Frames space pushed (frame :: frames)) :
    frame ⊆ space.expand (space.nodeAt pushed.reverse) := by
  cases pushed with
  | nil =>
      match frames, held with
      | [], top => exact top
  | cons choice rest =>
      rw [List.reverse_cons]
      exact held.2.1

theorem Frames.shrink {pushed : List ι} {frame smaller : List ι} {frames : List (List ι)}
    (held : Frames space pushed (frame :: frames)) (fewer : smaller ⊆ frame) :
    Frames space pushed (smaller :: frames) := by
  cases pushed with
  | nil =>
      match frames, held with
      | [], top => exact List.Subset.trans fewer top
  | cons choice rest => exact ⟨held.1, List.Subset.trans fewer held.2.1, held.2.2⟩

/-- Everything one turn of the loop can do to a tracked walk. -/
inductive Move (space : Space σ ι κ ρ) (policy : Policy) (walk : Walk σ ι κ ρ) :
    Walk σ ι κ ρ → Prop
  /-- The last frame is finished. -/
  | done : walk.stack = [[]] → walk.pushed = [] →
      Move space policy walk { walk with stack := [] }
  /-- A frame is finished and its choice is undone. -/
  | backtrack {choice rest frames} : walk.stack = [] :: frames → walk.pushed = choice :: rest →
      Move space policy walk { walk with
        stack := frames, node := space.nodeAt rest.reverse, pushed := rest }
  /-- The child was seen before. -/
  | skip {choice choices frames} : walk.stack = (choice :: choices) :: frames →
      space.key (space.push walk.node choice) ∈ walk.seen →
      Move space policy walk { walk with stack := choices :: frames }
  /-- The limit is reached on a fresh child. -/
  | exhaust {choice choices frames} : walk.stack = (choice :: choices) :: frames →
      space.key (space.push walk.node choice) ∉ walk.seen → policy.limit ≤ walk.visited →
      Move space policy walk { walk with stack := choices :: frames, status := .exhausted }
  /-- The alarm is raised on a fresh child. -/
  | alarm {choice choices frames} {next : Walk σ ι κ ρ} :
      walk.stack = (choice :: choices) :: frames → policy.alarm (walk.visited + 1) = true →
      next.status = .raised → next.record = walk.record → next.visited = walk.visited + 1 →
      walk.visited < policy.limit → Move space policy walk next
  /-- A fresh child is complete, and recorded. -/
  | record {choice choices frames} : walk.stack = (choice :: choices) :: frames →
      space.key (space.push walk.node choice) ∉ walk.seen → walk.visited < policy.limit →
      space.complete (space.push walk.node choice) = true → policy.stopAtFirst = false →
      Move space policy walk { walk with
        stack := choices :: frames
        seen := space.key (space.push walk.node choice) :: walk.seen
        visited := walk.visited + 1
        record := space.record walk.record (space.push walk.node choice) }
  /-- A fresh child is complete, and ends the search. -/
  | stop {choice choices frames} : walk.stack = (choice :: choices) :: frames →
      space.key (space.push walk.node choice) ∉ walk.seen → walk.visited < policy.limit →
      space.complete (space.push walk.node choice) = true → policy.stopAtFirst = true →
      Move space policy walk { walk with
        stack := []
        seen := space.key (space.push walk.node choice) :: walk.seen
        visited := walk.visited + 1
        record := space.record walk.record (space.push walk.node choice)
        status := .stopped }
  /-- A fresh child has no children. -/
  | deadEnd {choice choices frames} : walk.stack = (choice :: choices) :: frames →
      space.key (space.push walk.node choice) ∉ walk.seen → walk.visited < policy.limit →
      space.complete (space.push walk.node choice) = false →
      space.expand (space.push walk.node choice) = [] →
      Move space policy walk { walk with
        stack := choices :: frames
        seen := space.key (space.push walk.node choice) :: walk.seen
        visited := walk.visited + 1 }
  /-- A fresh child becomes the current node. -/
  | descend {choice choices frames} : walk.stack = (choice :: choices) :: frames →
      space.key (space.push walk.node choice) ∉ walk.seen → walk.visited < policy.limit →
      space.complete (space.push walk.node choice) = false →
      space.expand (space.push walk.node choice) ≠ [] →
      Move space policy walk { walk with
        node := space.push walk.node choice
        stack := space.expand (space.push walk.node choice) :: choices :: frames
        pushed := choice :: walk.pushed
        seen := space.key (space.push walk.node choice) :: walk.seen
        visited := walk.visited + 1 }

theorem step_of_finished [DecidableEq κ] {walk : Walk σ ι κ ρ} (ended : walk.finished = true) :
    step space policy walk = walk := by
  obtain ⟨node, seen, visited, record, status, stack, pushed⟩ := walk
  cases status with
  | running =>
      cases stack with
      | nil => rfl
      | cons frame frames => simp [Walk.finished] at ended
  | stopped | exhausted | raised => cases stack <;> rfl

/-- A turn of the loop is one of the moves. -/
theorem step_move [DecidableEq κ] (lawful : space.Lawful) {walk : Walk σ ι κ ρ}
    (running : walk.finished = false) (tracks : Tracks space walk) :
    Move space policy walk (step space policy walk) := by
  obtain ⟨node, seen, visited, record, status, stack, pushed⟩ := walk
  obtain ⟨here, frames⟩ := tracks
  dsimp only at here frames
  subst here
  simp only [Walk.finished, ne_eq, decide_not, Bool.or_eq_false_iff, List.isEmpty_eq_false_iff,
    Bool.not_eq_false', decide_eq_true_eq] at running
  obtain ⟨nonempty, rfl⟩ := running
  match stack, frames with
  | [] :: below, frames =>
      cases pushed with
      | nil =>
          match below, frames with
          | [], _ => exact .done rfl rfl
      | cons choice rest =>
          have undo : space.pop (space.nodeAt (choice :: rest).reverse) =
              space.nodeAt rest.reverse := by
            obtain ⟨reached, among⟩ := Space.Reach.init frames.1
            rw [List.reverse_cons, space.nodeAt_snoc, lawful.pop_push reached among]
          have move : step space policy
              ⟨space.nodeAt (choice :: rest).reverse, seen, visited, record, .running,
                [] :: below, choice :: rest⟩ =
              ⟨space.nodeAt rest.reverse, seen, visited, record, .running, below, rest⟩ := by
            simp only [step, undo]
          rw [move]
          exact .backtrack rfl rfl
  | (choice :: choices) :: below, frames =>
      have undo : space.pop (space.push (space.nodeAt pushed.reverse) choice) =
          space.nodeAt pushed.reverse :=
        lawful.pop_push frames.reach (frames.top (List.mem_cons_self ..))
      by_cases known : space.key (space.push (space.nodeAt pushed.reverse) choice) ∈ seen
      · have move : step space policy
            ⟨space.nodeAt pushed.reverse, seen, visited, record, .running,
              (choice :: choices) :: below, pushed⟩ =
            ⟨space.nodeAt pushed.reverse, seen, visited, record, .running, choices :: below,
              pushed⟩ := by
          simp only [step, enter, if_pos known, undo]
        rw [move]
        exact .skip rfl known
      by_cases full : policy.limit ≤ visited
      · have move : step space policy
            ⟨space.nodeAt pushed.reverse, seen, visited, record, .running,
              (choice :: choices) :: below, pushed⟩ =
            ⟨space.nodeAt pushed.reverse, seen, visited, record, .exhausted, choices :: below,
              pushed⟩ := by
          simp only [step, enter, if_neg known, if_pos full, undo]
        rw [move]
        exact .exhaust rfl known full
      have room : visited < policy.limit := Nat.lt_of_not_le full
      by_cases raises : policy.alarm (visited + 1) = true
      · refine .alarm rfl raises ?_ ?_ ?_ room <;>
          simp only [step, enter, if_neg known, if_neg full, if_pos raises]
      by_cases complete : space.complete (space.push (space.nodeAt pushed.reverse) choice) = true
      · by_cases ends : policy.stopAtFirst = true
        · have move : Move space policy ⟨space.nodeAt pushed.reverse, seen, visited, record, .running,
              (choice :: choices) :: below, pushed⟩ _ :=
            .stop rfl known room complete ends
          simpa only [step, enter, if_neg known, if_neg full, if_neg raises, if_pos complete,
            if_pos ends, undo] using move
        · have move : Move space policy ⟨space.nodeAt pushed.reverse, seen, visited, record, .running,
              (choice :: choices) :: below, pushed⟩ _ :=
            .record rfl known room complete
            (Bool.eq_false_iff.mpr ends)
          simpa only [step, enter, if_neg known, if_neg full, if_neg raises, if_pos complete,
            if_neg ends, undo] using move
      have open' : space.complete (space.push (space.nodeAt pushed.reverse) choice) = false :=
        Bool.eq_false_iff.mpr complete
      cases children : space.expand (space.push (space.nodeAt pushed.reverse) choice) with
      | nil =>
          have move : Move space policy ⟨space.nodeAt pushed.reverse, seen, visited, record, .running,
              (choice :: choices) :: below, pushed⟩ _ :=
            .deadEnd rfl known room open' children
          simpa only [step, enter, if_neg known, if_neg full, if_neg raises, if_neg complete,
            children, undo] using move
      | cons child others =>
          have move : Move space policy ⟨space.nodeAt pushed.reverse, seen, visited, record, .running,
              (choice :: choices) :: below, pushed⟩ _ :=
            .descend rfl known room open'
            (by rw [children]; exact List.cons_ne_nil child others)
          simpa only [step, enter, if_neg known, if_neg full, if_neg raises, if_neg complete,
            children] using move

/-- Trying a choice of the top frame leads to a path of the tree. -/
theorem Tracks.child {walk : Walk σ ι κ ρ} (tracks : Tracks space walk) {choice choices frames}
    (stack : walk.stack = (choice :: choices) :: frames) :
    space.Reach (walk.pushed.reverse ++ [choice]) ∧
      space.push walk.node choice = space.nodeAt (walk.pushed.reverse ++ [choice]) := by
  have frames := tracks.frames
  rw [stack] at frames
  refine ⟨.snoc frames.reach (frames.top (List.mem_cons_self ..)), ?_⟩
  rw [space.nodeAt_snoc, tracks.node]

theorem Tracks.move {walk next : Walk σ ι κ ρ} (tracks : Tracks space walk)
    (move : Move space policy walk next) (running : next.status = .running) :
    Tracks space next := by
  have frames := tracks.frames
  have tail {choice : ι} {choices : List ι} : choices ⊆ choice :: choices :=
    fun _ => List.mem_cons_of_mem choice
  cases move with
  | done stack pushed => exact ⟨tracks.node, by rw [pushed]; trivial⟩
  | backtrack stack pushed =>
      rw [stack, pushed] at frames
      exact ⟨rfl, frames.2.2⟩
  | skip stack | record stack | deadEnd stack =>
      rw [stack] at frames
      exact ⟨tracks.node, frames.shrink tail⟩
  | exhaust | stop => cases running
  | alarm _ _ raised =>
      rw [raised] at running
      cases running
  | descend stack _ _ _ children =>
      obtain ⟨reached, child⟩ := tracks.child stack
      rw [stack] at frames
      refine ⟨by rw [List.reverse_cons]; exact child, reached, ?_, frames.shrink tail⟩
      rw [child]
      exact List.Subset.refl _

end Moves

section Runs

theorem finished_eq_false {walk : Walk σ ι κ ρ} :
    walk.finished = false ↔ walk.stack ≠ [] ∧ walk.status = .running := by
  simp [Walk.finished]

theorem finished_eq_true {walk : Walk σ ι κ ρ} :
    walk.finished = true ↔ walk.stack = [] ∨ walk.status ≠ .running := by
  simp [Walk.finished]

variable [DecidableEq κ] {space : Space σ ι κ ρ} {policy : Policy}

/-- The walk before the root is entered. -/
def fresh (space : Space σ ι κ ρ) : Walk σ ι κ ρ :=
  { node := space.root, seen := [], visited := 0, record := space.blank
    status := .running, stack := [], pushed := [] }

/-- The root is refused by a zero limit, may raise the alarm, or opens the first frame. -/
theorem start_cases (space : Space σ ι κ ρ) (policy : Policy) :
    policy.limit = 0 ∧ start space policy = { fresh space with status := .exhausted } ∨
    0 < policy.limit ∧ policy.alarm 1 = true ∧ start space policy =
      { fresh space with seen := [space.key space.root], visited := 1, status := .raised } ∨
    0 < policy.limit ∧ policy.alarm 1 = false ∧ start space policy =
      { fresh space with
        seen := [space.key space.root], visited := 1, stack := [space.expand space.root] } := by
  have unseen : space.key space.root ∉ ([] : List κ) := List.not_mem_nil
  by_cases full : policy.limit ≤ 0
  · refine .inl ⟨Nat.le_zero.mp full, ?_⟩
    simp only [start, enter, if_neg unseen, if_pos full, fresh]
  have room : 0 < policy.limit := Nat.lt_of_not_le full
  by_cases raises : policy.alarm 1 = true
  · refine .inr (.inl ⟨room, raises, ?_⟩)
    simp only [start, enter, if_neg unseen, if_neg full, Nat.zero_add, if_pos raises, fresh]
  · refine .inr (.inr ⟨room, Bool.eq_false_iff.mpr raises, ?_⟩)
    simp only [start, enter, if_neg unseen, if_neg full, Nat.zero_add, if_neg raises, fresh]

variable (space policy) in
theorem iterate_of_finished {walk : Walk σ ι κ ρ} (ended : walk.finished = true) (turns : Nat) :
    (step space policy)^[turns] walk = walk :=
  Function.iterate_fixed (step_of_finished ended) turns

/-- The loop repeats the step; a finished walk stays as it is. -/
theorem loop_eq_iterate (fuel : Nat) (walk : Walk σ ι κ ρ) :
    loop space policy fuel walk = (step space policy)^[fuel] walk := by
  induction fuel generalizing walk with
  | zero => rfl
  | succ fuel ih =>
      rw [loop, Function.iterate_succ_apply]
      by_cases ended : walk.finished = true
      · rw [if_pos ended, step_of_finished ended]
        exact (iterate_of_finished space policy ended fuel).symm
      · rw [if_neg ended, ih]

/-- What one turn of the loop preserves holds of the whole search. -/
theorem search_invariant (Holds : Walk σ ι κ ρ → Prop) {fuel : Nat}
    (begins : Holds (start space policy))
    (preserved : ∀ walk, walk.finished = false → Holds walk → Holds (step space policy walk)) :
    Holds (search space policy fuel) := by
  have loops : ∀ fuel walk, Holds walk → Holds (loop space policy fuel walk) := by
    intro fuel
    induction fuel with
    | zero => exact fun _ holds => holds
    | succ fuel ih =>
        intro walk holds
        rw [loop]
        cases ended : walk.finished with
        | true => exact holds
        | false => exact ih _ (preserved walk ended holds)
  exact loops fuel _ begins

theorem start_tracks (running : (start space policy).status = .running) :
    Tracks space (start space policy) := by
  rcases start_cases space policy with ⟨_, refused⟩ | ⟨_, _, raised⟩ | ⟨_, _, opened⟩
  · rw [refused] at running
    cases running
  · rw [raised] at running
    cases running
  · rw [opened]
    exact ⟨rfl, List.Subset.refl _⟩

theorem search_tracks (lawful : space.Lawful) {fuel : Nat}
    (running : (search space policy fuel).status = .running) :
    Tracks space (search space policy fuel) := by
  have tracked : (search space policy fuel).status = .running →
      Tracks space (search space policy fuel) := by
    refine search_invariant (fun walk => walk.status = .running → Tracks space walk)
      start_tracks ?_
    intro walk unfinished tracks
    have running := (finished_eq_false.mp unfinished).2
    exact (tracks running).move (step_move lawful unfinished (tracks running))
  exact tracked running

/-- The walks of a search, turn by turn. -/
def Occurs (space : Space σ ι κ ρ) (policy : Policy) (walk : Walk σ ι κ ρ) : Prop :=
  ∃ turns, (step space policy)^[turns] (start space policy) = walk

/-- An invariant that may use that the walk before each turn occurs, and is tracked. -/
theorem search_occurring_invariant (lawful : space.Lawful) (Holds : Walk σ ι κ ρ → Prop)
    {fuel : Nat} (begins : Holds (start space policy))
    (preserved : ∀ walk next, Occurs space policy walk → walk.status = .running → Tracks space walk →
      Move space policy walk next → Holds walk → Holds next) :
    Holds (search space policy fuel) := by
  have all : Occurs space policy (search space policy fuel) ∧ Holds (search space policy fuel) ∧
      ((search space policy fuel).status = .running → Tracks space (search space policy fuel)) := by
    refine search_invariant (fun walk => Occurs space policy walk ∧ Holds walk ∧
      (walk.status = .running → Tracks space walk)) ⟨⟨0, rfl⟩, begins, start_tracks⟩ ?_
    rintro walk unfinished ⟨⟨turns, rfl⟩, holds, tracks⟩
    have running := (finished_eq_false.mp unfinished).2
    have move : Move space policy _ _ := step_move lawful unfinished (tracks running)
    refine ⟨⟨turns + 1, Function.iterate_succ_apply' _ _ _⟩, ?_, (tracks running).move move⟩
    exact preserved _ _ ⟨turns, rfl⟩ running (tracks running) move holds
  exact all.2.1

/-- A tracked invariant: it may use that the walk before each turn is tracked. -/
theorem search_tracked_invariant (lawful : space.Lawful) (Holds : Walk σ ι κ ρ → Prop)
    {fuel : Nat}
    (begins : Holds (start space policy))
    (preserved : ∀ walk next, walk.status = .running → Tracks space walk →
      Move space policy walk next → Holds walk → Holds next) :
    Holds (search space policy fuel) :=
  search_occurring_invariant lawful Holds begins fun walk next _ => preserved walk next

/-- The paths whose nodes the search looks up: that of the root, and those of the children it tries. -/
inductive Tries (space : Space σ ι κ ρ) (policy : Policy) : List ι → Prop
  | root : Tries space policy []
  | child {walk : Walk σ ι κ ρ} {choice : ι} {choices : List ι} {frames : List (List ι)}
      (occurs : Occurs space policy walk) (running : walk.status = .running)
      (stack : walk.stack = (choice :: choices) :: frames) :
      Tries space policy (walk.pushed.reverse ++ [choice])

/-- What is tried is a path of the tree. -/
theorem Tries.reach (lawful : space.Lawful) {path : List ι} (tried : Tries space policy path) :
    space.Reach path := by
  cases tried with
  | root => exact .root
  | child occurs running stack =>
      obtain ⟨turns, rfl⟩ := occurs
      rw [← loop_eq_iterate, ← search] at running stack ⊢
      exact ((search_tracks lawful running).child stack).1

end Runs

end Modelark.Library.DepthFirst
