import GridPuzzle.Proofs.Robot.Overheard
import GridPuzzle.Robot.Shared

/-!
# Panics of callbacks

A robot is shared, and every acceptor and observer may panic at any call; whoever made the access
catches the panic and goes on. A panic cuts the access short where it happens: among the acceptors
it leaves the robot where it is and nobody is told, among the observers it leaves the robot on the
target of the move and nobody else is told. It poisons the lock, but everybody takes the robot out
of a poisoned lock as out of any other.

To say whom an access calls, the callbacks are overheard.
-/

namespace GridPuzzle

variable {σ : Type}

/-- One access to a shared robot. -/
inductive Access
  | invoke (c : Command)
  | step (d : Direction)
  | reset
  deriving DecidableEq, Repr

/-- The direction of an access that is a step. -/
def Access.direction? : Access → Option Direction
  | invoke c => some c.direction
  | step d => some d
  | reset => none

/-- Whether the callback panicked. -/
def RobotCall.isPanic : RobotCall → Bool
  | asked _ _ _ answer => answer.isPanicked
  | told _ _ _ answer => answer.isPanicked

/-- What an access did: its answer, which a reset has not, the robot afterwards, and the world. -/
structure Accessed (σ : Type) where
  answer : Option (Outcome Bool)
  shared : SharedRobot σ
  world : σ

/-- What several accesses did. -/
structure AccessRun (σ : Type) where
  answers : List (Option (Outcome Bool))
  shared : SharedRobot σ
  world : σ

namespace SharedRobot

variable [Journal σ]

/-- Make one access. -/
def access (l : SharedRobot σ) (w : σ) : Access → Accessed σ
  | .invoke c =>
    let (answer, l, w) := c.invoke l w
    ⟨some answer, l, w⟩
  | .step d =>
    let (answer, l, w) := l.step d w
    ⟨some answer, l, w⟩
  | .reset => ⟨none, l.reset, w⟩

/-- Make accesses in order, whether they panic or not. -/
def accesses (l : SharedRobot σ) (w : σ) : List Access → AccessRun σ
  | [] => ⟨[], l, w⟩
  | a :: rest =>
    let first := l.access w a
    let further := accesses first.shared first.world rest
    { further with answers := first.answer :: further.answers }

end SharedRobot

/-- How an access to a robot ends, with its answer, where it leaves the robot and the calls it
makes. -/
inductive AccessEnds (r : Robot σ) :
    Access → Option (Outcome Bool) → Position → List RobotCall → Prop
  /-- A reset calls nobody. -/
  | reset : AccessEnds r .reset none r.start []
  /-- No callback panics, and so the step does not. -/
  | whole {a : Access} {d : Direction} {answer : Outcome Bool} {p : Position}
      {calls : List RobotCall} (ha : a.direction? = some d) (hcalls : r.StepCalls d answer p calls)
      (hanswer : answer ≠ .panicked) (hquiet : ∀ call ∈ calls, call.isPanic = false) :
      AccessEnds r a (some answer) p calls
  /-- An acceptor panics after those before it have approved: no observer is called, and the robot
  stays where it is. -/
  | acceptorPanicked {a : Access} {d : Direction} {m : Move} {i : Nat}
      (ha : a.direction? = some d) (hm : Move.towards? r.position d = some m)
      (hi : i < r.acceptors.length) :
      AccessEnds r a (some .panicked) r.position
        (approvals m r.snapshot 0 i ++ [.asked i m r.snapshot .panicked])
  /-- An observer panics after those before it have been told: nobody else is called, and the robot
  has made its move. -/
  | observerPanicked {a : Access} {d : Direction} {m : Move} {j : Nat}
      (ha : a.direction? = some d) (hm : Move.towards? r.position d = some m)
      (hj : j < r.observers.length) :
      AccessEnds r a (some .panicked) m.target
        (approvals m r.snapshot 0 r.acceptors.length ++
          (tidings m (r.movedTo m.target).snapshot 0 j ++
            [.told j m (r.movedTo m.target).snapshot .panicked]))

section Calls

variable {m : Move} {view : Snapshot} {first n : Nat}

/-- Nobody panics who approves a move. -/
theorem isPanic_of_mem_approvals {call : RobotCall} (h : call ∈ approvals m view first n) :
    call.isPanic = false := by
  obtain ⟨i, -, rfl⟩ := List.mem_map.mp h
  rfl

/-- Nobody panics who is told about a move and lets others be told. -/
theorem isPanic_of_mem_tidings {call : RobotCall} (h : call ∈ tidings m view first n) :
    call.isPanic = false := by
  obtain ⟨j, -, rfl⟩ := List.mem_map.mp h
  rfl

end Calls

/-- A step ends whole, or with the first panic of a callback. -/
theorem Robot.StepCalls.ends {r : Robot σ} {d : Direction} {answer : Outcome Bool} {p : Position}
    {calls : List RobotCall} (h : r.StepCalls d answer p calls) {a : Access}
    (ha : a.direction? = some d) : AccessEnds r a (some answer) p calls := by
  have hcalls := h
  cases h with
  | outOfRange hm => exact .whole ha hcalls nofun nofun
  | refused hm hasked hanswer =>
    cases hasked with
    | approved => exact absurd rfl hanswer
    | @ended k _ hk _ =>
      rw [Nat.zero_add] at hcalls ⊢
      cases answer with
      | value approved =>
        refine .whole ha hcalls nofun fun call hmem => ?_
        rcases List.mem_append.mp hmem with hbefore | hlast
        · exact isPanic_of_mem_approvals hbefore
        · rw [List.mem_singleton.mp hlast]
          rfl
      | panicked => exact .acceptorPanicked ha hm hk
  | made hm htold =>
    cases htold with
    | whole =>
      refine .whole ha hcalls nofun fun call hmem => ?_
      rcases List.mem_append.mp hmem with hasked | htold
      · exact isPanic_of_mem_approvals hasked
      · exact isPanic_of_mem_tidings htold
    | @panicked j hj =>
      rw [Nat.zero_add]
      exact .observerPanicked ha hm hj

namespace SharedRobot

variable [Journal σ] {l l' : SharedRobot σ}

/-- Whether a lock is poisoned makes no difference to an access but to the lock afterwards. -/
theorem access_congr (h : l'.content = l.content) (w : σ) (a : Access) :
    (l'.access w a).answer = (l.access w a).answer ∧
      (l'.access w a).shared.content = (l.access w a).shared.content ∧
      (l'.access w a).world = (l.access w a).world := by
  cases a with
  | invoke c | step d => simp [access, Command.invoke, step, h, Locked.release]
  | reset => simp [access, reset, h, Locked.release]

/-- An access poisons the lock if it panics, and nothing cleans it. -/
theorem poisoned_access (l : SharedRobot σ) (w : σ) (a : Access) :
    (l.access w a).shared.poisoned =
      (l.poisoned || decide ((l.access w a).answer = some .panicked)) := by
  cases a with
  | invoke c | step d =>
    have hpanicked (answer : Outcome Bool) :
        answer.isPanicked = decide (some answer = some .panicked) := by
      cases answer <;> simp [Outcome.isPanicked]
    simp [access, Command.invoke, step, Locked.release, hpanicked]
  | reset => simp [access, reset, Locked.release]

/-- Whether a lock is poisoned makes no difference to any accesses but to the lock afterwards. -/
theorem accesses_congr (h : l'.content = l.content) (w : σ) (as : List Access) :
    (l'.accesses w as).answers = (l.accesses w as).answers ∧
      (l'.accesses w as).shared.content = (l.accesses w as).shared.content ∧
      (l'.accesses w as).world = (l.accesses w as).world := by
  induction as generalizing l l' w with
  | nil => exact ⟨rfl, h, rfl⟩
  | cons a rest ih =>
    obtain ⟨hanswer, hcontent, hworld⟩ := access_congr h w a
    obtain ⟨hanswers, hrest, hlast⟩ := ih hcontent (l.access w a).world
    simp only [accesses, hanswer, hworld]
    exact ⟨congrArg _ hanswers, hrest, hlast⟩

/-- The lock is poisoned from the first access on that panics. -/
theorem poisoned_accesses (l : SharedRobot σ) (w : σ) (as : List Access) :
    (l.accesses w as).shared.poisoned = true ↔
      l.poisoned = true ∨ some .panicked ∈ (l.accesses w as).answers := by
  induction as generalizing l w with
  | nil => simp [accesses]
  | cons a rest ih =>
    simp only [accesses, ih, poisoned_access, List.mem_cons, Bool.or_eq_true, decide_eq_true_eq,
      or_assoc]
    rw [eq_comm (a := some Outcome.panicked)]

/-- An access changes nothing of a robot but where it stands. -/
theorem content_access (l : SharedRobot σ) (w : σ) (a : Access) :
    ∃ p, (l.access w a).shared.content = l.content.movedTo p := by
  cases a with
  | invoke c | step d =>
    simp only [access, Command.invoke, step, Locked.recover_eq, Locked.release]
    exact ⟨_, Robot.step_robot _ _ _⟩
  | reset =>
    simp only [access, reset, Locked.recover_eq, Locked.release]
    exact ⟨_, rfl⟩

theorem content_accesses (l : SharedRobot σ) (w : σ) (as : List Access) :
    ∃ p, (l.accesses w as).shared.content = l.content.movedTo p := by
  induction as generalizing l w with
  | nil => exact ⟨l.content.position, rfl⟩
  | cons a rest ih =>
    obtain ⟨p, hp⟩ := content_access l w a
    obtain ⟨q, hq⟩ := ih (l.access w a).shared (l.access w a).world
    rw [hp] at hq
    exact ⟨q, hq⟩

section Overheard

variable {heard : SharedRobot (Ledger σ)}

/-- An access to a robot and to the same robot overheard. -/
theorem access_overheard (h : heard.content = l.content.overheard) (w : Ledger σ) (a : Access) :
    ∃ calls, AccessEnds l.content a (l.access w.world a).answer
        (l.access w.world a).shared.content.position calls ∧
      (heard.access w a).answer = (l.access w.world a).answer ∧
      (heard.access w a).shared.content = (l.access w.world a).shared.content.overheard ∧
      (heard.access w a).world = ⟨(l.access w.world a).world, w.calls ++ calls⟩ := by
  have stepped (d : Direction) (ha : a.direction? = some d) : ∃ calls,
      AccessEnds l.content a (some (l.step d w.world).1) (l.step d w.world).2.1.content.position
        calls ∧
      some (heard.step d w).1 = some (l.step d w.world).1 ∧
      (heard.step d w).2.1.content = (l.step d w.world).2.1.content.overheard ∧
      (heard.step d w).2.2 = ⟨(l.step d w.world).2.2, w.calls ++ calls⟩ := by
    obtain ⟨answer, p, world, calls, hcalls, hstep, hoverheard⟩ :=
      l.content.step_overheard d w
    unfold step
    rw [Locked.recover_eq, Locked.recover_eq, h, hstep, hoverheard]
    exact ⟨calls, hcalls.ends ha, rfl, rfl, rfl⟩
  cases a with
  | invoke c => exact stepped c.direction rfl
  | step d => exact stepped d rfl
  | reset =>
    refine ⟨[], ?_, rfl, ?_, by rw [List.append_nil]; rfl⟩
    · simp only [access, reset, Locked.recover_eq, Locked.release]
      exact .reset
    · simp only [access, reset, Locked.recover_eq, Locked.release, h]
      rfl

/-- Accesses to a robot and to the same robot overheard. -/
theorem accesses_overheard (h : heard.content = l.content.overheard) (w : Ledger σ)
    (as : List Access) :
    (heard.accesses w as).answers = (l.accesses w.world as).answers ∧
      (heard.accesses w as).shared.content = (l.accesses w.world as).shared.content.overheard ∧
      (heard.accesses w as).world.world = (l.accesses w.world as).world := by
  induction as generalizing l heard w with
  | nil => exact ⟨rfl, h, rfl⟩
  | cons a rest ih =>
    obtain ⟨calls, -, hanswer, hcontent, hworld⟩ := access_overheard h w a
    obtain ⟨hanswers, hrest, hlast⟩ := ih hcontent (heard.access w a).world
    simp only [accesses, hanswer, hworld] at hanswers hrest hlast ⊢
    exact ⟨congrArg _ hanswers, hrest, hlast⟩

end Overheard

/-- However callbacks panic in some accesses, the robot keeps its callbacks, and all later accesses
come out as if its lock had never been poisoned. -/
theorem panics_leave_a_usable_robot (r : Robot σ) (poisoned : Bool) (w : Ledger σ)
    (as : List Access) :
    let plain := accesses ⟨r, poisoned⟩ w.world as
    let heard := accesses ⟨r.overheard, poisoned⟩ w as
    -- to overhear the callbacks changes nothing
    (heard.answers = plain.answers ∧ heard.shared.content = plain.shared.content.overheard ∧
      heard.world.world = plain.world) ∧
    -- the robot has its callbacks and its start as before
    (∃ p, plain.shared.content = r.movedTo p) ∧
    (heard.shared.poisoned = true ↔ poisoned = true ∨ some .panicked ∈ heard.answers) ∧
    -- the next access ends whole or with the first panic
    (∀ a, ∃ calls,
      AccessEnds plain.shared.content a (heard.shared.access heard.world a).answer
        (heard.shared.access heard.world a).shared.content.position calls ∧
      (heard.shared.access heard.world a).world.calls = heard.world.calls ++ calls) ∧
    -- and no access notices that the lock is poisoned
    ∀ later,
      let poisonedRun := heard.shared.accesses heard.world later
      let cleanRun := accesses ⟨heard.shared.content, false⟩ heard.world later
      poisonedRun.answers = cleanRun.answers ∧
        poisonedRun.shared.content = cleanRun.shared.content ∧
        poisonedRun.world = cleanRun.world := by
  intro plain heard
  have hstart : (⟨r.overheard, poisoned⟩ : SharedRobot (Ledger σ)).content =
      (⟨r, poisoned⟩ : SharedRobot σ).content.overheard := rfl
  have hsame := accesses_overheard hstart w as
  have hcontent : heard.shared.content = plain.shared.content.overheard := hsame.2.1
  -- a lock that has never been poisoned, around the same robot
  have hclean : heard.shared.content =
      (⟨heard.shared.content, false⟩ : SharedRobot (Ledger σ)).content := rfl
  refine ⟨hsame, content_accesses _ _ as, poisoned_accesses _ w as, fun a => ?_, fun later => ?_⟩
  · obtain ⟨calls, hends, hanswer, hleft, hcalls⟩ := access_overheard hcontent heard.world a
    refine ⟨calls, ?_, congrArg Ledger.calls hcalls⟩
    rw [hanswer, hleft]
    exact hends
  · exact accesses_congr hclean heard.world later

end SharedRobot

end GridPuzzle
