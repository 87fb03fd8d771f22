import GridPuzzle.Proofs.Robot.Step

/-!
# Overhearing the callbacks of a robot

The callbacks of a robot act on a world of any kind, and may panic. To say which of them a step
calls, and with what, each callback is wrapped: it writes its number down, what it was shown and how
it ended, and does nothing else than before. A step of the robot with its callbacks wrapped ends as
the step of the robot itself, and what was written down is one of a few patterns.
-/

namespace GridPuzzle

/-- A call of a callback, by its number: what the callback was shown, and how the call ended. -/
inductive RobotCall
  | asked (acceptor : Nat) (m : Move) (view : Snapshot) (answer : Outcome Bool)
  | told (observer : Nat) (m : Move) (view : Snapshot) (answer : Outcome Unit)
  deriving DecidableEq, Repr

/-- A world, and the calls of the callbacks that act on it. -/
structure Ledger (σ : Type) where
  world : σ
  calls : List RobotCall := []

variable {σ : Type}

instance [Journal σ] : Journal (Ledger σ) := ⟨fun r w => { w with world := note r w.world }⟩

/-- The acceptor with a number, overheard. -/
def overhearAcceptor (i : Nat) (accept : Acceptor σ) : Acceptor (Ledger σ) := fun m view w =>
  let (answer, world) := accept m view w.world
  (answer, ⟨world, w.calls ++ [.asked i m view answer]⟩)

/-- The observer with a number, overheard. -/
def overhearObserver (j : Nat) (observe : Observer σ) : Observer (Ledger σ) := fun m view w =>
  let (answer, world) := observe m view w.world
  (answer, ⟨world, w.calls ++ [.told j m view answer]⟩)

/-- Acceptors overheard, with numbers from `first` on. -/
def overhearAcceptors (first : Nat) (as : List (Acceptor σ)) : List (Acceptor (Ledger σ)) :=
  (as.zipIdx first).map fun a => overhearAcceptor a.2 a.1

/-- Observers overheard, with numbers from `first` on. -/
def overhearObservers (first : Nat) (os : List (Observer σ)) : List (Observer (Ledger σ)) :=
  (os.zipIdx first).map fun o => overhearObserver o.2 o.1

/-- A robot with all callbacks overheard. -/
def Robot.overheard (r : Robot σ) : Robot (Ledger σ) where
  position := r.position
  start := r.start
  sprite := r.sprite
  acceptors := overhearAcceptors 0 r.acceptors
  observers := overhearObservers 0 r.observers

/-- So many acceptors approve a move in order, from number `first` on. -/
def approvals (m : Move) (view : Snapshot) (first n : Nat) : List RobotCall :=
  (List.range' first n).map fun i => .asked i m view (.value true)

/-- So many observers are told about a move in order, from number `first` on. -/
def tidings (m : Move) (view : Snapshot) (first n : Nat) : List RobotCall :=
  (List.range' first n).map fun j => .told j m view (.value ())

section Chains

variable (m : Move) (view : Snapshot)

@[simp] theorem length_overhearAcceptors (first : Nat) (as : List (Acceptor σ)) :
    (overhearAcceptors first as).length = as.length := by simp [overhearAcceptors]

@[simp] theorem length_overhearObservers (first : Nat) (os : List (Observer σ)) :
    (overhearObservers first os).length = os.length := by simp [overhearObservers]

theorem approvals_succ (first n : Nat) :
    approvals m view first (n + 1) =
      .asked first m view (.value true) :: approvals m view (first + 1) n := by
  simp [approvals, List.range'_succ]

theorem tidings_succ (first n : Nat) :
    tidings m view first (n + 1) =
      .told first m view (.value ()) :: tidings m view (first + 1) n := by
  simp [tidings, List.range'_succ]

/-- Acceptors are asked in order while they approve, and the first one that does anything else is
the last one asked. -/
inductive AskedInOrder (m : Move) (view : Snapshot) (first n : Nat) :
    Outcome Bool → List RobotCall → Prop
  | approved : AskedInOrder m view first n (.value true) (approvals m view first n)
  | ended {k : Nat} {answer : Outcome Bool} (hk : k < n) (hanswer : answer ≠ .value true) :
      AskedInOrder m view first n answer
        (approvals m view first k ++ [.asked (first + k) m view answer])

/-- Observers are told in order, and the first one that panics is the last one told. -/
inductive ToldInOrder (m : Move) (view : Snapshot) (first n : Nat) :
    Outcome Unit → List RobotCall → Prop
  | whole : ToldInOrder m view first n (.value ()) (tidings m view first n)
  | panicked {j : Nat} (hj : j < n) :
      ToldInOrder m view first n .panicked
        (tidings m view first j ++ [.told (first + j) m view .panicked])

variable {m view}

theorem AskedInOrder.cons {first n : Nat} {answer : Outcome Bool} {calls : List RobotCall}
    (h : AskedInOrder m view (first + 1) n answer calls) :
    AskedInOrder m view first (n + 1) answer (.asked first m view (.value true) :: calls) := by
  cases h with
  | approved =>
    rw [← approvals_succ]
    exact .approved
  | @ended k _ hk hanswer =>
    have hcalls : AskedInOrder m view first (n + 1) answer
        (approvals m view first (k + 1) ++ [.asked (first + (k + 1)) m view answer]) :=
      .ended (Nat.succ_lt_succ hk) hanswer
    rw [approvals_succ, ← Nat.add_assoc, Nat.add_right_comm] at hcalls
    exact hcalls

theorem AskedInOrder.eq_approvals {first n : Nat} {calls : List RobotCall}
    (h : AskedInOrder m view first n (.value true) calls) : calls = approvals m view first n := by
  cases h with
  | approved => rfl
  | ended hk hanswer => exact absurd rfl hanswer

theorem ToldInOrder.cons {first n : Nat} {answer : Outcome Unit} {calls : List RobotCall}
    (h : ToldInOrder m view (first + 1) n answer calls) :
    ToldInOrder m view first (n + 1) answer (.told first m view (.value ()) :: calls) := by
  cases h with
  | whole =>
    rw [← tidings_succ]
    exact .whole
  | @panicked j hj =>
    have hcalls : ToldInOrder m view first (n + 1) .panicked
        (tidings m view first (j + 1) ++ [.told (first + (j + 1)) m view .panicked]) :=
      .panicked (Nat.succ_lt_succ hj)
    rw [tidings_succ, ← Nat.add_assoc, Nat.add_right_comm] at hcalls
    exact hcalls

variable (m view)

/-- Overheard acceptors answer and act as the acceptors do. -/
theorem consult_overheard (as : List (Acceptor σ)) (first : Nat) (w : Ledger σ) :
    ∃ calls, AskedInOrder m view first as.length (consult m view as w.world).1 calls ∧
      consult m view (overhearAcceptors first as) w =
        ((consult m view as w.world).1, ⟨(consult m view as w.world).2, w.calls ++ calls⟩) := by
  induction as generalizing first w with
  | nil => exact ⟨[], .approved, by simp [overhearAcceptors, consult]⟩
  | cons a rest ih =>
    have hcons : overhearAcceptors first (a :: rest) =
        overhearAcceptor first a :: overhearAcceptors (first + 1) rest := rfl
    rw [hcons]
    unfold consult overhearAcceptor
    dsimp only
    rcases a m view w.world with ⟨approved | _, world⟩
    · cases approved with
      | true =>
        obtain ⟨calls, hasked, hsame⟩ := ih (first + 1)
          ⟨world, w.calls ++ [.asked first m view (.value true)]⟩
        refine ⟨_, hasked.cons, ?_⟩
        simp only [andThen_value, if_true]
        rw [hsame, List.append_assoc]
        rfl
      | false => exact ⟨_, .ended (k := 0) (Nat.succ_pos _) (by simp), rfl⟩
    · exact ⟨_, .ended (k := 0) (Nat.succ_pos _) (by simp), rfl⟩

/-- Overheard observers act as the observers do. -/
theorem tell_overheard (os : List (Observer σ)) (first : Nat) (w : Ledger σ) :
    ∃ calls, ToldInOrder m view first os.length (tell m view os w.world).1 calls ∧
      tell m view (overhearObservers first os) w =
        ((tell m view os w.world).1, ⟨(tell m view os w.world).2, w.calls ++ calls⟩) := by
  induction os generalizing first w with
  | nil => exact ⟨[], .whole, by simp [overhearObservers, tell]⟩
  | cons o rest ih =>
    have hcons : overhearObservers first (o :: rest) =
        overhearObserver first o :: overhearObservers (first + 1) rest := rfl
    rw [hcons]
    unfold tell overhearObserver
    dsimp only
    rcases o m view w.world with ⟨_ | _, world⟩
    · obtain ⟨calls, htold, hsame⟩ := ih (first + 1)
        ⟨world, w.calls ++ [.told first m view (.value ())]⟩
      refine ⟨_, htold.cons, ?_⟩
      simp only [andThen_value]
      rw [hsame, List.append_assoc]
      rfl
    · exact ⟨_, .panicked (j := 0) (Nat.succ_pos _), rfl⟩

end Chains

namespace Robot

@[simp] theorem snapshot_overheard (r : Robot σ) : r.overheard.snapshot = r.snapshot := by
  simp [overheard, snapshot]

/-- The calls that a step makes, with its answer and where it leaves the robot. -/
inductive StepCalls (r : Robot σ) (d : Direction) :
    Outcome Bool → Position → List RobotCall → Prop
  /-- The step leaves the coordinate range. -/
  | outOfRange (hm : Move.towards? r.position d = none) :
      StepCalls r d (.value false) r.position []
  /-- The acceptors are asked up to one that does not approve. -/
  | refused {m : Move} {answer : Outcome Bool} {asked : List RobotCall}
      (hm : Move.towards? r.position d = some m)
      (hasked : AskedInOrder m r.snapshot 0 r.acceptors.length answer asked)
      (hanswer : answer ≠ .value true) :
      StepCalls r d answer r.position asked
  /-- All acceptors approve, and the observers are told, all of them unless one panics. -/
  | made {m : Move} {answer : Outcome Unit} {told : List RobotCall}
      (hm : Move.towards? r.position d = some m)
      (htold : ToldInOrder m (r.movedTo m.target).snapshot 0 r.observers.length answer told) :
      StepCalls r d (made answer) m.target (approvals m r.snapshot 0 r.acceptors.length ++ told)

variable [Journal σ]

/-- A step of an overheard robot ends as the step of the robot, and the calls are written down. -/
theorem step_overheard (r : Robot σ) (d : Direction) (w : Ledger σ) :
    ∃ answer p world calls, r.StepCalls d answer p calls ∧
      r.step d w.world = (answer, r.movedTo p, world) ∧
      r.overheard.step d w = (answer, r.overheard.movedTo p, ⟨world, w.calls ++ calls⟩) := by
  cases hm : Move.towards? r.position d with
  | none =>
    refine ⟨_, _, _, [], .outOfRange hm, step_outOfRange hm, ?_⟩
    rw [step_outOfRange (r := r.overheard) hm, List.append_nil]
    rfl
  | some m =>
    obtain ⟨asked, hasked, hsame⟩ := consult_overheard m r.snapshot r.acceptors 0 w
    rcases hconsult : consult m r.snapshot r.acceptors w.world with ⟨answer, world⟩
    rw [hconsult] at hasked hsame
    have hoverheard : consult m r.overheard.snapshot r.overheard.acceptors w =
        (answer, ⟨world, w.calls ++ asked⟩) := by
      rw [snapshot_overheard]
      exact hsame
    rcases answer with approved | _
    · cases approved with
      | false =>
        exact ⟨_, _, _, asked, .refused hm hasked nofun, step_vetoed hm hconsult,
          step_vetoed (r := r.overheard) hm hoverheard⟩
      | true =>
        obtain rfl := hasked.eq_approvals
        have htells := tell_overheard m (r.movedTo m.target).snapshot r.observers 0
          (note (.committed m) ⟨world, w.calls ++ approvals m r.snapshot 0 r.acceptors.length⟩)
        rcases htell : tell m (r.movedTo m.target).snapshot r.observers
          (note (.committed m) world) with ⟨answer, world'⟩
        -- the remark reaches the world inside the ledger
        rw [show ∀ calls, (note (.committed m) (⟨world, calls⟩ : Ledger σ)).world =
          note (.committed m) world from fun _ => rfl, htell] at htells
        obtain ⟨told, htold, hsame⟩ := htells
        refine ⟨_, _, _, _, .made hm htold, step_made hm hconsult htell, ?_⟩
        rw [← List.append_assoc]
        refine step_made (r := r.overheard) hm hoverheard ?_
        rw [show r.overheard.movedTo m.target = (r.movedTo m.target).overheard from rfl,
          snapshot_overheard]
        exact hsame
    · exact ⟨_, _, _, asked, .refused hm hasked nofun, step_cutShort hm hconsult,
        step_cutShort (r := r.overheard) hm hoverheard⟩

end Robot

end GridPuzzle
