import GridPuzzle.Proofs.Robot.Overheard
import Mathlib.Data.List.Basic

/-!
# The move pipeline over whole runs

A robot without callbacks is made, and then, in any order, policies and observers are subscribed to
it, it steps, and it is put back on its start. What the callbacks saw is compared with the legs of
the run, which are read off from outside: a step that answers that it was made leads from where the
robot was to where it is, and a reset leads back to the start. Each move starts where the leg before
it ended, and the robot stands where the last leg ended.
-/

namespace GridPuzzle

variable {σ : Type}

/-- An acceptor that judges moves and does nothing else. -/
def judge (policy : Move → Snapshot → Bool) : Acceptor σ :=
  fun m view w => (.value (policy m view), w)

/-- An observer that does nothing, and so only records when it is overheard. -/
def listen : Observer σ := fun _ _ w => (.value (), w)

/-- What is done with a robot. -/
inductive Handling
  | subscribeAcceptor (policy : Move → Snapshot → Bool)
  | subscribeObserver
  | step (d : Direction)
  | reset

namespace Handling

/-- The policy that is subscribed. -/
def policy? : Handling → Option (Move → Snapshot → Bool)
  | subscribeAcceptor policy => some policy
  | _ => none

/-- Whether an observer is subscribed. -/
def isObserver : Handling → Bool
  | subscribeObserver => true
  | _ => false

end Handling

/-- One leg of a run. -/
inductive Leg
  | moved (m : Move)
  | returned
  deriving DecidableEq, Repr

/-- Where the last leg ends; a robot that has not moved, or not since it returned, is on its
start. -/
def place (start : Position) (legs : List Leg) : Position :=
  match legs.getLast? with
  | some (.moved m) => m.target
  | _ => start

/-- The moves among some legs. -/
def moves (legs : List Leg) : List Move :=
  legs.filterMap fun
    | .moved m => some m
    | .returned => none

/-- The moves that one observer was told about. -/
def heardBy (j : Nat) (calls : List RobotCall) : List Move :=
  calls.filterMap fun
    | .told j' m _ _ => if j' = j then some m else none
    | .asked .. => none

/-- The policies up to the first one that refuses a move are asked about it, each once. -/
def questions (m : Move) (view : Snapshot) (first : Nat)
    (policies : List (Move → Snapshot → Bool)) : List RobotCall :=
  ((policies.take (policies.findIdx (! · m view) + 1)).zipIdx first).map fun p =>
    .asked p.2 m view (.value (p.1 m view))

/-- A robot in use, with the calls of its callbacks so far. -/
structure Handled (σ : Type) where
  robot : Robot (Ledger σ)
  ledger : Ledger σ

namespace Handled

/-- A robot that has just been made. -/
def fresh (start : Position) (sprite : String) (world : σ) : Handled σ :=
  ⟨(Robot.ofPosition start).withSprite sprite, { world }⟩

variable [Journal σ]

/-- Do one thing with a robot. -/
def handle (s : Handled σ) : Handling → Handled σ
  | .subscribeAcceptor policy => { s with
      robot := s.robot.subscribeAcceptor
        (overhearAcceptor s.robot.acceptors.length (judge policy)) }
  | .subscribeObserver => { s with
      robot := s.robot.subscribeObserver (overhearObserver s.robot.observers.length listen) }
  | .step d =>
    let (_, robot, ledger) := s.robot.step d s.ledger
    ⟨robot, ledger⟩
  | .reset => { s with robot := s.robot.reset }

/-- Do several things with a robot in order. -/
def run (s : Handled σ) (hs : List Handling) : Handled σ := hs.foldl handle s

/-- The leg that one handling makes: a step makes one if it answers so. -/
def legOf (s : Handled σ) : Handling → List Leg
  | .step d =>
    if (s.robot.step d s.ledger).1 = .value true then
      [.moved ⟨s.robot.position, (s.handle (.step d)).robot.position⟩]
    else
      []
  | .reset => [.returned]
  | _ => []

/-- The legs of a run. -/
def legs (s : Handled σ) : List Handling → List Leg
  | [] => []
  | h :: hs => s.legOf h ++ (s.handle h).legs hs

end Handled

/-- What a step does, given the policies of the acceptors and the number of observers. -/
structure PipelineLaw [Journal σ] (policies : List (Move → Snapshot → Bool)) (n : Nat)
    (s : Handled σ) (d : Direction) : Prop where
  /-- A step is made when its destination is representable and every policy approves. -/
  committed : (s.robot.step d s.ledger).1 = .value true ↔
    ∃ m, Move.towards? s.robot.position d = some m ∧
      ∀ policy ∈ policies, policy m s.robot.snapshot = true
  /-- Otherwise it answers that it was not made, and leaves the robot where it is. -/
  refused : (s.robot.step d s.ledger).1 ≠ .value true →
    (s.robot.step d s.ledger).1 = .value false ∧
      (s.handle (.step d)).robot.position = s.robot.position
  /-- Nobody is called where the destination is not representable. -/
  silent : Move.towards? s.robot.position d = none →
    (s.handle (.step d)).ledger.calls = s.ledger.calls
  /-- Otherwise policies are asked up to the first veto, about the robot on its old cell, and every
  observer of a step that is made is told about the robot on its new cell. -/
  called : ∀ m, Move.towards? s.robot.position d = some m →
    (s.handle (.step d)).ledger.calls = s.ledger.calls ++ questions m s.robot.snapshot 0 policies ++
      if (s.robot.step d s.ledger).1 = .value true then
        tidings m (s.robot.movedTo m.target).snapshot 0 n
      else
        []
  /-- A step that is made leads to its destination. -/
  moved : ∀ m, Move.towards? s.robot.position d = some m →
    (s.robot.step d s.ledger).1 = .value true →
      (s.handle (.step d)).robot.position = m.target

section Callbacks

variable (m : Move) (view : Snapshot)

theorem overhearAcceptors_snoc (first : Nat) (as : List (Acceptor σ)) (a : Acceptor σ) :
    overhearAcceptors first (as ++ [a]) =
      overhearAcceptors first as ++ [overhearAcceptor (first + as.length) a] := by
  simp [overhearAcceptors, List.zipIdx_append]

theorem overhearObservers_snoc (first : Nat) (os : List (Observer σ)) (o : Observer σ) :
    overhearObservers first (os ++ [o]) =
      overhearObservers first os ++ [overhearObserver (first + os.length) o] := by
  simp [overhearObservers, List.zipIdx_append]

/-- Policies that are overheard are asked up to the first veto. -/
theorem consult_judges (policies : List (Move → Snapshot → Bool)) (first : Nat) (w : Ledger σ) :
    consult m view (overhearAcceptors first (policies.map judge)) w =
      (.value (policies.all (· m view)),
        { w with calls := w.calls ++ questions m view first policies }) := by
  induction policies generalizing first w with
  | nil => simp [overhearAcceptors, consult, questions]
  | cons policy rest ih =>
    have hcons : overhearAcceptors first ((policy :: rest).map judge) =
        overhearAcceptor (σ := σ) first (judge policy) ::
          overhearAcceptors (first + 1) (rest.map judge) := rfl
    have hasked : overhearAcceptor first (judge policy) m view w =
        (.value (policy m view),
          ⟨w.world, w.calls ++ [.asked first m view (.value (policy m view))]⟩) := rfl
    rw [hcons, consult, hasked, andThen_value]
    cases hpolicy : policy m view with
    | true =>
      rw [if_pos rfl, ih]
      simp [questions, List.findIdx_cons, hpolicy]
    | false => simp [questions, List.findIdx_cons, hpolicy]

/-- Listeners are told one after the other. -/
theorem tell_listeners (n : Nat) (w : Ledger σ) :
    tell m view (overhearObservers 0 (List.replicate n listen)) w =
      (.value (), { w with calls := w.calls ++ tidings m view 0 n }) := by
  have hquiet (n : Nat) (w : σ) : tell m view (List.replicate n listen) w = (.value (), w) := by
    induction n generalizing w with
    | zero => rfl
    | succ n ih => exact ih w
  obtain ⟨calls, htold, hsame⟩ := tell_overheard m view (List.replicate n listen) 0 w
  rw [hquiet, List.length_replicate] at htold
  rw [hquiet] at hsame
  cases htold with
  | whole => exact hsame

end Callbacks

section Records

variable (m : Move) (view : Snapshot) (j : Nat)

@[simp] theorem heardBy_append (calls calls' : List RobotCall) :
    heardBy j (calls ++ calls') = heardBy j calls ++ heardBy j calls' := List.filterMap_append

/-- Observers hear nothing of the questions to policies. -/
@[simp] theorem heardBy_questions (first : Nat) (policies : List (Move → Snapshot → Bool)) :
    heardBy j (questions m view first policies) = [] := by
  simp [heardBy, questions, List.filterMap_map]

/-- Everybody who is told about a move hears of it once. -/
@[simp] theorem heardBy_tidings (n : Nat) :
    heardBy j (tidings m view 0 n) = if j < n then [m] else [] := by
  induction n with
  | zero => rfl
  | succ n ih =>
    have hlast : tidings m view 0 (n + 1) =
        tidings m view 0 n ++ [.told n m view (.value ())] := by
      simp [tidings, List.range'_concat]
    rw [hlast, heardBy_append, ih]
    rcases Nat.lt_trichotomy j n with hlt | rfl | hgt
    · simp [heardBy, hlt, Nat.lt_succ_of_lt hlt, Nat.ne_of_gt hlt]
    · simp [heardBy]
    · simp [heardBy, Nat.not_lt_of_gt hgt, Nat.not_lt.mpr (Nat.succ_le_of_lt hgt),
        Nat.ne_of_lt hgt]

end Records

namespace Handled

variable [Journal σ] {start : Position} {policies : List (Move → Snapshot → Bool)} {n : Nat}
  {s : Handled σ} {d : Direction}

/-- What is known of a robot in use: its start, who is subscribed to it, and that nobody has heard
of a move who is not. -/
structure Serving (start : Position) (policies : List (Move → Snapshot → Bool)) (n : Nat)
    (s : Handled σ) : Prop where
  start : s.robot.start = start
  acceptors : s.robot.acceptors = overhearAcceptors 0 (policies.map judge)
  observers : s.robot.observers = overhearObservers 0 (List.replicate n listen)
  unheard : ∀ j, n ≤ j → heardBy j s.ledger.calls = []

/-- A step to a representable destination, as the policies judge it. -/
theorem Serving.step_eq (h : Serving start policies n s) {m : Move}
    (hm : Move.towards? s.robot.position d = some m) :
    ∃ world, s.robot.step d s.ledger =
      if policies.all (· m s.robot.snapshot) then
        (.value true, s.robot.movedTo m.target,
          ⟨world, s.ledger.calls ++ questions m s.robot.snapshot 0 policies ++
            tidings m (s.robot.movedTo m.target).snapshot 0 n⟩)
      else
        (.value false, s.robot,
          ⟨world, s.ledger.calls ++ questions m s.robot.snapshot 0 policies⟩) := by
  have hasked : consult m s.robot.snapshot s.robot.acceptors s.ledger =
      (.value (policies.all (· m s.robot.snapshot)), { s.ledger with
        calls := s.ledger.calls ++ questions m s.robot.snapshot 0 policies }) := by
    rw [h.acceptors]
    exact consult_judges m s.robot.snapshot policies 0 s.ledger
  cases hall : policies.all (· m s.robot.snapshot) with
  | true =>
    rw [hall] at hasked
    have htold := tell_listeners m (s.robot.movedTo m.target).snapshot n (note (.committed m)
      { s.ledger with calls := s.ledger.calls ++ questions m s.robot.snapshot 0 policies })
    rw [← h.observers] at htold
    exact ⟨_, Robot.step_made hm hasked htold⟩
  | false =>
    rw [hall] at hasked
    exact ⟨_, Robot.step_vetoed hm hasked⟩

/-- A step of a robot in use. -/
theorem Serving.law (h : Serving start policies n s) (d : Direction) :
    PipelineLaw policies n s d := by
  cases hm : Move.towards? s.robot.position d with
  | none =>
    have hstep := Robot.step_outOfRange (w := s.ledger) hm
    exact
      { committed := by simp [hstep, hm]
        refused := by simp [handle, hstep]
        silent := fun _ => by simp only [handle, hstep]; rfl
        called := by simp [hm]
        moved := by simp [hm] }
  | some m =>
    obtain ⟨world, hstep⟩ := h.step_eq hm
    cases hall : policies.all (· m s.robot.snapshot) with
    | true =>
      rw [if_pos hall] at hstep
      exact
        { committed := by simpa [hstep, hm] using hall
          refused := by simp [hstep]
          silent := by simp [hm]
          called := by simp [handle, hstep, hm]
          moved := by simp [handle, hstep, hm, Robot.movedTo] }
    | false =>
      rw [if_neg (by simp [hall])] at hstep
      exact
        { committed := by simpa [hstep, hm] using hall
          refused := by simp [handle, hstep]
          silent := by simp [hm]
          called := by simp [handle, hstep, hm]
          moved := by simp [hstep] }

omit [Journal σ] in
theorem serving_fresh (start : Position) (sprite : String) (world : σ) :
    Serving start [] 0 (fresh start sprite world) := ⟨rfl, rfl, rfl, fun _ _ => rfl⟩

/-- A step that is made leads from where the robot was to its destination. -/
theorem Serving.legOf_step (h : Serving start policies n s) {m : Move}
    (hm : Move.towards? s.robot.position d = some m) :
    s.legOf (.step d) =
      if (s.robot.step d s.ledger).1 = .value true then [.moved m] else [] := by
  simp only [legOf]
  split
  · rename_i hmade
    rw [(h.law d).moved m hm hmade, ← Move.source_of_towards? hm]
  · rfl

/-- Of one thing that is done with a robot, its observers hear the moves it makes. -/
theorem Serving.heardBy_handle (h : Serving start policies n s) (what : Handling) (j : Nat) :
    heardBy j (s.handle what).ledger.calls =
      heardBy j s.ledger.calls ++ if j < n then moves (s.legOf what) else [] := by
  cases what with
  | step d =>
    cases hm : Move.towards? s.robot.position d with
    | none =>
      have hrefused : (s.robot.step d s.ledger).1 ≠ .value true := by
        rw [Ne, (h.law d).committed, hm]
        simp
      rw [(h.law d).silent hm, legOf, if_neg hrefused]
      simp [moves]
    | some m =>
      rw [(h.law d).called m hm, h.legOf_step hm]
      split <;> simp [moves]
  | reset => simp [handle, legOf, moves]
  | subscribeAcceptor policy => simp [handle, legOf, moves]
  | subscribeObserver => simp [handle, legOf, moves]

/-- Whatever is done with a robot, it is still known who is subscribed to it. -/
theorem Serving.after_handle (h : Serving start policies n s) (what : Handling) :
    Serving start (policies ++ what.policy?.toList) (n + if what.isObserver then 1 else 0)
      (s.handle what) := by
  have hunheard (j : Nat) (hj : n ≤ j) : heardBy j (s.handle what).ledger.calls = [] := by
    rw [h.heardBy_handle, h.unheard j hj, if_neg (Nat.not_lt.mpr hj), List.append_nil]
  have hkept : s.robot.acceptors = overhearAcceptors 0 ((policies ++ []).map judge) := by
    rw [List.append_nil]
    exact h.acceptors
  cases what with
  | step d =>
    have hrobot : (s.handle (.step d)).robot =
        s.robot.movedTo (s.handle (.step d)).robot.position :=
      Robot.step_robot s.robot d s.ledger
    refine ⟨?_, ?_, ?_, hunheard⟩
    · rw [hrobot]
      exact h.start
    · rw [hrobot]
      exact hkept
    · rw [hrobot]
      exact h.observers
  | reset => exact ⟨h.start, hkept, h.observers, hunheard⟩
  | subscribeAcceptor policy =>
    refine ⟨h.start, ?_, h.observers, hunheard⟩
    change s.robot.acceptors ++ [overhearAcceptor s.robot.acceptors.length (judge policy)] = _
    rw [h.acceptors, length_overhearAcceptors, Handling.policy?, Option.toList, List.map_append,
      List.map_cons, List.map_nil, overhearAcceptors_snoc, Nat.zero_add]
  | subscribeObserver =>
    refine ⟨h.start, hkept, ?_, fun j hj => hunheard j (Nat.le_of_succ_le hj)⟩
    change s.robot.observers ++ [overhearObserver s.robot.observers.length listen] = _
    rw [h.observers, length_overhearObservers, Handling.isObserver, if_pos rfl,
      List.replicate_succ', overhearObservers_snoc, Nat.zero_add]

/-- Where one thing that is done with a robot leaves it. -/
theorem Serving.place_handle (h : Serving start policies n s) {before : List Leg}
    (hplace : s.robot.position = place start before) (what : Handling) :
    (s.handle what).robot.position = place start (before ++ s.legOf what) := by
  cases what with
  | step d =>
    simp only [legOf]
    split
    · simp [place]
    · rename_i hrefused
      rw [((h.law d).refused hrefused).2, List.append_nil]
      exact hplace
  | reset =>
    have hreturned : place start (before ++ [.returned]) = start := by simp [place]
    exact h.start.trans hreturned.symm
  | subscribeAcceptor policy => simpa [handle, legOf, Robot.subscribeAcceptor] using hplace
  | subscribeObserver => simpa [handle, legOf, Robot.subscribeObserver] using hplace

theorem run_append (s : Handled σ) (hs hs' : List Handling) :
    s.run (hs ++ hs') = (s.run hs).run hs' := List.foldl_append

theorem Serving.after_run (h : Serving start policies n s) (hs : List Handling) :
    Serving start (policies ++ hs.filterMap Handling.policy?) (n + hs.countP Handling.isObserver)
      (s.run hs) := by
  induction hs generalizing policies n s with
  | nil =>
    rw [List.filterMap_nil, List.append_nil, List.countP_nil, Nat.add_zero]
    exact h
  | cons what rest ih =>
    have hrest := ih (h.after_handle what)
    rw [List.append_assoc, Nat.add_assoc] at hrest
    have hpolicies : what.policy?.toList ++ rest.filterMap Handling.policy? =
        (what :: rest).filterMap Handling.policy? := by
      cases hpolicy : what.policy? <;> simp [hpolicy]
    have hobservers : (if what.isObserver then 1 else 0) + rest.countP Handling.isObserver =
        (what :: rest).countP Handling.isObserver := by
      rw [List.countP_cons, Nat.add_comm]
    rw [hpolicies, hobservers] at hrest
    exact hrest

/-- Along a run the observers hear every move that is made. -/
theorem Serving.heardBy_run (h : Serving start policies n s) {j : Nat} (hj : j < n)
    (hs : List Handling) :
    heardBy j (s.run hs).ledger.calls = heardBy j s.ledger.calls ++ moves (s.legs hs) := by
  induction hs generalizing policies n s with
  | nil => simp [run, legs, moves]
  | cons what rest ih =>
    have hrest := ih (h.after_handle what) (Nat.lt_add_right _ hj)
    have hmoves : moves (s.legs (what :: rest)) =
        moves (s.legOf what) ++ moves ((s.handle what).legs rest) := List.filterMap_append
    have hheard := h.heardBy_handle what j
    rw [if_pos hj] at hheard
    rw [hmoves, ← List.append_assoc, ← hheard]
    exact hrest

theorem Serving.place_run (h : Serving start policies n s) {before : List Leg}
    (hplace : s.robot.position = place start before) (hs : List Handling) :
    (s.run hs).robot.position = place start (before ++ s.legs hs) := by
  induction hs generalizing policies n s before with
  | nil => simpa [run, legs] using hplace
  | cons what rest ih =>
    have hrest := ih (h.after_handle what) (h.place_handle hplace what)
    rw [List.append_assoc] at hrest
    exact hrest

/-- A move that one handling makes is its only leg, and starts where the robot was. -/
theorem legOf_of_moved {what : Handling} {m : Move} (h : .moved m ∈ s.legOf what) :
    s.legOf what = [.moved m] ∧ m.source = s.robot.position := by
  cases what with
  | step d =>
    simp only [legOf] at h ⊢
    split at h
    · rename_i hmade
      obtain rfl := Leg.moved.inj (List.mem_singleton.mp h)
      exact ⟨if_pos hmade, rfl⟩
    · cases h
  | reset => simp [legOf] at h
  | subscribeAcceptor policy => cases h
  | subscribeObserver => cases h

/-- Every move starts where the leg before it ended. -/
theorem Serving.source_run (h : Serving start policies n s) {hs : List Handling}
    {earlier before later : List Leg} {m : Move} (hplace : s.robot.position = place start earlier)
    (hlegs : s.legs hs = before ++ .moved m :: later) :
    m.source = place start (earlier ++ before) := by
  induction hs generalizing policies n s earlier before with
  | nil => simp [legs] at hlegs
  | cons what rest ih =>
    have hthen := h.place_handle hplace what
    rcases List.append_eq_append_iff.mp hlegs with ⟨legs', rfl, hrest⟩ | ⟨legs', hleg, hrest⟩
    · rw [← List.append_assoc]
      exact ih (h.after_handle what) hthen hrest
    · cases legs' with
      | nil =>
        rw [List.append_nil] at hleg
        rw [← hleg, ← List.append_nil (_ ++ _)]
        exact ih (h.after_handle what) hthen hrest.symm
      | cons leg legs' =>
        obtain ⟨rfl, -⟩ := List.cons.inj hrest
        have hmem : .moved m ∈ s.legOf what := by simp [hleg]
        obtain ⟨honly, hsource⟩ := legOf_of_moved hmem
        have hfirst : before = [] := by
          rw [honly] at hleg
          cases before with
          | nil => rfl
          | cons _ _ => simp at hleg
        rw [hsource, hplace, hfirst, List.append_nil]

/-- After any run a step obeys the law of the pipeline, every observer has heard of the moves since
it was subscribed, and the legs follow each other. -/
theorem moves_pass_the_pipeline (start : Position) (sprite : String) (world : σ)
    (hs : List Handling) :
    let s := (fresh start sprite world).run hs
    (∀ d, PipelineLaw (hs.filterMap Handling.policy?) (hs.countP Handling.isObserver) s d) ∧
      (∀ before later, hs = before ++ .subscribeObserver :: later →
        heardBy (before.countP Handling.isObserver) s.ledger.calls =
          moves (((fresh start sprite world).run (before ++ [.subscribeObserver])).legs later)) ∧
      (∀ before m later, (fresh start sprite world).legs hs = before ++ .moved m :: later →
        m.source = place start before) ∧
      s.robot.position = place start ((fresh start sprite world).legs hs) := by
  intro s
  have hfresh := serving_fresh start sprite world
  have hplace : (fresh start sprite world).robot.position = place start [] := rfl
  have hserving (hs : List Handling) : Serving start (hs.filterMap Handling.policy?)
      (hs.countP Handling.isObserver) ((fresh start sprite world).run hs) := by
    have hrun := hfresh.after_run hs
    rw [List.nil_append, Nat.zero_add] at hrun
    exact hrun
  refine ⟨(hserving hs).law, ?_, fun before m later => ?_, ?_⟩
  · rintro before later rfl
    have hsplit : s =
        ((fresh start sprite world).run (before ++ [.subscribeObserver])).run later := by
      rw [← run_append, List.append_assoc]
      rfl
    have hledger : ((fresh start sprite world).run (before ++ [.subscribeObserver])).ledger =
        ((fresh start sprite world).run before).ledger := by
      rw [run_append]
      rfl
    have hlast : before.countP Handling.isObserver <
        (before ++ [Handling.subscribeObserver]).countP Handling.isObserver := by
      simp [Handling.isObserver]
    rw [hsplit, (hserving (before ++ [Handling.subscribeObserver])).heardBy_run hlast, hledger,
      (hserving before).unheard _ (Nat.le_refl _), List.nil_append]
  · exact hfresh.source_run hplace
  · exact hfresh.place_run hplace hs

end Handled

end GridPuzzle
