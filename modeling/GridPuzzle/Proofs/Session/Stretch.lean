import GridPuzzle.Proofs.Session.Later

/-!
# What a turn comes to

The turn of a task plays a stretch of its program: the next action, if there is one, up to the sleep
after it or the end of the task. A stretch keeps a record of the action invoked, which the session
itself does not; apart from that record it is the turn that the library gives. The ways in which a
stretch can go are listed once, and whatever holds of every stretch is shown for each of them.
-/

namespace GridPuzzle.Session

/-- One action that a task has invoked. -/
structure Invocation where
  program : ProgramId
  /-- The number of the action in its program. -/
  index : Nat
  action : Action
  /-- The time at which it was invoked. -/
  time : Nat
  /-- Whether it came to its end without a panic. -/
  completed : Bool
  /-- Whether its program still ran afterwards. -/
  running : Bool
  deriving DecidableEq

/-- What is invoked in a turn, the session afterwards, and where the task is then. -/
structure Stretch where
  invocations : List Invocation
  session : Session
  state : TaskState

variable (perform : Perform)

/-- A stretch that invokes nothing and ends the task with a call. -/
def endStretch (p : ProgramId) (call : Outcome Unit × Session) : Stretch :=
  match call with
  | (.value _, s) => ⟨[], s, .ended (.returned ((s.status? p).getD .stopped))⟩
  | (.panicked, s) => ⟨[], s, .ended .panicked⟩

/-- The invocation of an action. -/
def invocation (p : ProgramId) (index : Nat) (a : Action) (s : Session) : Invocation where
  program := p
  index := index
  action := a
  time := s.now
  completed := (act perform p index a s).1 == .value ()
  running := (act perform p index a s).2.isRunning p

/-- Go on with a program of which `left` actions are left, and tell what has been invoked. -/
def stretch (p : ProgramId) (q : Program) : Nat → Session → Stretch
  | 0, s => endStretch p (finishProgram perform p s)
  | left + 1, s =>
    let index := q.length - (left + 1)
    if s.isRunning p then
      match q.actions[index]? with
      | none => endStretch p (.value (), s)
      | some a =>
        match act perform p index a s with
        | (.panicked, t) => ⟨[invocation perform p index a s], t, .ended .panicked⟩
        | (.value _, t) =>
          ⟨[invocation perform p index a s], t, .asleep left (t.now + t.timer q.delay)⟩
    else
      endStretch p (.value (), note (.skipped (index + 1) q.length) s)

/-- The stretch that a task plays in its turn, if it has not ended. -/
def stretchOf? (k : TaskId) (s : Session) : Option Stretch :=
  match s.tasks[k]? with
  | none => none
  | some task =>
    match s.programs[task.program]? with
    | none => none
    | some q =>
      match task.state with
      | .ready _ => some (stretch perform task.program q q.length s)
      | .asleep left _ =>
        if s.isRunning task.program then
          some (stretch perform task.program q left s)
        else
          some (endStretch task.program
            (.value (), note (.stoppedAfter (q.length - left) q.length) s))
      | .ended _ => none

/-- How a stretch of a program of which `left` actions are left can go. -/
inductive Stretches (p : ProgramId) (q : Program) : Nat → Session → Stretch → Prop
  /-- Everything has been played. -/
  | complete (s : Session) : Stretches p q 0 s (endStretch p (finishProgram perform p s))
  /-- The program does not run, whatever is left of it. -/
  | halted (left : Nat) {s : Session} (hidle : s.isRunning p = false) (r : Remark) :
      Stretches p q left s (endStretch p (.value (), note r s))
  /-- No action has the next number. -/
  | missing {left : Nat} {s : Session} (hrun : s.isRunning p = true)
      (hnone : q.actions[q.length - (left + 1)]? = none) :
      Stretches p q (left + 1) s (endStretch p (.value (), s))
  /-- The next action panics. -/
  | panicked {left : Nat} {s t : Session} {a : Action} (hrun : s.isRunning p = true)
      (ha : q.actions[q.length - (left + 1)]? = some a)
      (hact : act perform p (q.length - (left + 1)) a s = (.panicked, t)) :
      Stretches p q (left + 1) s
        ⟨[invocation perform p (q.length - (left + 1)) a s], t, .ended .panicked⟩
  /-- The task falls asleep after the next action. -/
  | paused {left : Nat} {s t : Session} {a : Action} (hrun : s.isRunning p = true)
      (ha : q.actions[q.length - (left + 1)]? = some a)
      (hact : act perform p (q.length - (left + 1)) a s = (.value (), t)) :
      Stretches p q (left + 1) s ⟨[invocation perform p (q.length - (left + 1)) a s], t,
        .asleep left (t.now + t.timer q.delay)⟩

variable {perform}

theorem stretch_stretches (p : ProgramId) (q : Program) (left : Nat) (s : Session) :
    Stretches perform p q left s (stretch perform p q left s) := by
  cases left with
  | zero => exact .complete s
  | succ left =>
    simp only [stretch]
    by_cases hrun : s.isRunning p = true
    · rw [if_pos hrun]
      cases ha : q.actions[q.length - (left + 1)]? with
      | none => exact .missing hrun ha
      | some a =>
        dsimp only
        rcases hact : act perform p (q.length - (left + 1)) a s with ⟨_ | _, t⟩
        · exact .paused hrun ha hact
        · exact .panicked hrun ha hact
    · rw [if_neg hrun]
      exact .halted (left + 1) (by simpa using hrun) _

/-- The stretch of a task covers what its state leaves to be played. -/
theorem stretchOf?_stretches {k : TaskId} {s : Session} {r : Stretch}
    (hr : stretchOf? perform k s = some r) :
    ∃ task q left, s.tasks[k]? = some task ∧ s.programs[task.program]? = some q ∧
      task.state.turns q.length = left + 1 ∧ Stretches perform task.program q left s r := by
  unfold stretchOf? at hr
  cases htask : s.tasks[k]? with
  | none =>
    rw [htask] at hr
    cases hr
  | some task =>
    rw [htask] at hr
    dsimp only at hr
    cases hq : s.programs[task.program]? with
    | none =>
      rw [hq] at hr
      cases hr
    | some q =>
      rw [hq] at hr
      dsimp only at hr
      cases hstate : task.state with
      | ready since =>
        rw [hstate] at hr
        cases hr
        exact ⟨task, q, q.length, rfl, hq, by rw [hstate]; rfl, stretch_stretches _ q _ s⟩
      | asleep left wake =>
        rw [hstate] at hr
        dsimp only at hr
        refine ⟨task, q, left, rfl, hq, by rw [hstate]; rfl, ?_⟩
        split at hr
        · cases hr
          exact stretch_stretches _ q left s
        · rename_i hidle
          cases hr
          exact .halted left (by simpa using hidle) _
      | ended how =>
        rw [hstate] at hr
        cases hr

theorem endTask_eq (k : TaskId) (p : ProgramId) (call : Outcome Unit × Session) :
    endTask k p call = (endStretch p call).session.setTask k (endStretch p call).state := by
  rcases call with ⟨_ | _, s⟩ <;> rfl

/-- Playing on is playing a stretch and leaving the task where the stretch ends. -/
theorem playOn_eq (k : TaskId) (p : ProgramId) (q : Program) (left : Nat) (s : Session) :
    playOn perform (act perform) k p q left s =
      (stretch perform p q left s).session.setTask k (stretch perform p q left s).state := by
  cases left with
  | zero => exact endTask_eq k p _
  | succ left =>
    simp only [playOn, stretch]
    by_cases hrun : s.isRunning p = true
    · simp only [if_pos hrun]
      cases ha : q.actions[q.length - (left + 1)]? with
      | none => exact endTask_eq k p _
      | some a =>
        dsimp only
        rcases act perform p (q.length - (left + 1)) a s with ⟨_ | _, t⟩ <;> rfl
    · simp only [if_neg hrun]
      exact endTask_eq k p _

/-- A turn plays the stretch of its task, if there is one. -/
theorem resume_eq (k : TaskId) (s : Session) :
    resume perform k s =
      match stretchOf? perform k s with
      | none => s
      | some r => r.session.setTask k r.state := by
  simp only [resume, resumeBy, stretchOf?]
  cases s.tasks[k]? with
  | none => rfl
  | some task =>
    dsimp only
    cases s.programs[task.program]? with
    | none => rfl
    | some q =>
      dsimp only
      cases task.state with
      | ready since => exact playOn_eq k _ _ _ s
      | asleep left wake =>
        dsimp only
        by_cases hrun : s.isRunning task.program = true
        · simp only [if_pos hrun]
          exact playOn_eq k _ _ _ s
        · simp only [if_neg hrun]
          exact endTask_eq k _ _
      | ended how => rfl

/-- What a stretch of a program of which `left` actions are left has invoked, and how it ends. -/
structure Plays (perform : Perform) (p : ProgramId) (q : Program) (left : Nat) (s : Session)
    (r : Stretch) : Prop where
  later : Later s r.session
  recruits : Recruits s r.session
  others : ∀ p', p' ≠ p → r.session.status? p' = some .finished → s.status? p' = some .finished
  /-- Nothing is invoked while the program does not run. -/
  idle : s.isRunning p = false → r.invocations = []
  /-- The actions come in their order, while the program runs. -/
  script : ∀ (i : Nat) (e : Invocation), r.invocations[i]? = some e →
    ∃ a u, q.actions[q.length - left + i]? = some a ∧ u.isRunning p = true ∧
      e = invocation perform p (q.length - left + i) a u
  bounded : r.invocations.length ≤ left
  /-- Nothing is invoked after an action that has stopped the program. -/
  last : ∀ es e es', r.invocations = es ++ e :: es' → e.running = false →
    es' = [] ∧ r.session.isRunning p = false
  finished : r.session.status? p = some .finished →
    s.status? p = some .finished ∨ r.invocations.length = left
  started : ∀ since, r.state ≠ .ready since
  asleep : ∀ left' wake, r.state = .asleep left' wake → r.invocations.length + left' = left
  returned : ∀ status, r.state = .ended (.returned status) →
    r.session.isRunning p = false ∧ r.session.status? p = some status

/-- What the stretch of a whole turn has invoked, and how it ends. -/
structure PlaysTurn (perform : Perform) (p : ProgramId) (q : Program) (left : Nat) (s : Session)
    (r : Stretch) : Prop extends Plays perform p q left s r where
  /-- A task falls asleep after an action only. -/
  advanced : ∀ left' wake, r.state = .asleep left' wake → r.invocations ≠ []
  /-- A task that ends with a panic was in an action, or its program had just finished. -/
  panicked : r.state = .ended .panicked →
    (∃ e ∈ r.invocations, e.completed = false) ∨ r.session.status? p = some .finished

section Playing

variable {perform : Perform} {p : ProgramId} {q : Program} {left : Nat} {s : Session}

/-- A stretch that invokes nothing. -/
theorem Plays.nothing {t : Session} {state : TaskState} (h : Proceeds s t)
    (hstarted : ∀ since, state ≠ .ready since)
    (hasleep : ∀ left' wake, state = .asleep left' wake → left' = left)
    (hreturned : ∀ status, state = .ended (.returned status) →
      t.isRunning p = false ∧ t.status? p = some status) :
    Plays perform p q left s ⟨[], t, state⟩ where
  later := h.later
  recruits := h.recruits
  others p' _ := h.unfinished p'
  idle _ := rfl
  script i e he := by simp at he
  bounded := Nat.zero_le _
  last es e es' h := by simp at h
  finished h' := .inl (h.unfinished p h')
  started := hstarted
  asleep left' wake h := by simpa using hasleep left' wake h
  returned := hreturned

/-- The end of a task whose program does not run, with a remark at most. -/
theorem Plays.halted (hclaimed : s.Claimed p) (hidle : s.isRunning p = false) (r : Remark) :
    Plays perform p q left s (endStretch p (.value (), note r s)) := by
  obtain ⟨old, hold, -⟩ := hclaimed
  have hold' : (note r s).status? p = some old := hold
  refine .nothing (.of_same rfl rfl rfl) nofun nofun ?_
  intro status hstatus
  cases hstatus
  refine ⟨hidle, ?_⟩
  rw [hold']
  rfl

/-- A program that is finished by its task stays so, whatever its observers do. -/
theorem status?_finishProgram (hperform : perform.Disciplined) (hrun : s.isRunning p = true) :
    (finishProgram perform p s).2.status? p = some .finished := by
  have hafter : (s.setStatus p .finished).status? p = some .finished :=
    status?_setStatus_self (isRunning_iff.mp hrun) .finished
  unfold finishProgram
  rw [if_pos hrun]
  exact (Proceeds.steady.announce hperform p .finished .running _).2.later.final hafter rfl

/-- The end of a task whose program has just been finished. -/
theorem Plays.exhausted {t : Session} {how : Ending} (hlater : Later s t)
    (hrecruits : Recruits s t)
    (hothers : ∀ p', p' ≠ p → t.status? p' = some .finished → s.status? p' = some .finished)
    (hfinished : t.status? p = some .finished)
    (hhow : ∀ status, how = .returned status → status = .finished) :
    Plays perform p q 0 s ⟨[], t, .ended how⟩ where
  later := hlater
  recruits := hrecruits
  others := hothers
  idle _ := rfl
  script i e he := by simp at he
  bounded := Nat.zero_le _
  last es e es' h := by simp at h
  finished _ := .inr rfl
  started := nofun
  asleep := nofun
  returned status h := by
    cases hhow status (TaskState.ended.inj h)
    exact ⟨isRunning_of_final? (final?_eq_some.mpr ⟨hfinished, rfl⟩), hfinished⟩

/-- The end of a task that has played everything: its program is finished, if it still runs. -/
theorem Plays.finish (hperform : perform.Disciplined) (hclaimed : s.Claimed p) :
    Plays perform p q 0 s (endStretch p (finishProgram perform p s)) := by
  by_cases hrun : s.isRunning p = true
  · have hfinish : Change s (s.setStatus p .finished) := .finish hrun
    have hannounce := (Proceeds.steady.announce hperform p .finished .running
      (s.setStatus p .finished)).2
    have hfinished := status?_finishProgram hperform hrun
    unfold finishProgram at hfinished ⊢
    rw [if_pos hrun] at hfinished ⊢
    have hlater := hfinish.later.trans hannounce.later
    have hrecruits := (Recruits.of_tasks (s := s) (t := s.setStatus p .finished) rfl).trans
      hfinish.later hannounce.recruits hannounce.later
    have hothers : ∀ p', p' ≠ p →
        (announce perform p .finished .running (s.setStatus p .finished)).2.status? p' =
          some .finished → s.status? p' = some .finished := by
      intro p' hne hp'
      have hbefore := hannounce.unfinished p' hp'
      rwa [status?_setStatus, if_neg (Ne.symm hne)] at hbefore
    generalize announce perform p .finished .running (s.setStatus p .finished) = call at *
    obtain ⟨_ | _, t⟩ := call
    · refine .exhausted hlater hrecruits hothers hfinished fun status h => ?_
      cases h
      exact congrArg (Option.getD · .stopped) hfinished
    · exact .exhausted hlater hrecruits hothers hfinished nofun
  · have hidle : s.isRunning p = false := by simpa using hrun
    unfold finishProgram
    rw [if_neg hrun]
    obtain ⟨old, hold, -⟩ := hclaimed
    refine .nothing (.of_same rfl rfl rfl) nofun nofun fun status hstatus => ⟨hidle, ?_⟩
    cases hstatus
    rw [hold]
    rfl

/-- An action, after which the task sleeps or has panicked. -/
theorem Plays.act (hperform : perform.Disciplined) {a : Action}
    (ha : q.actions[q.length - (left + 1)]? = some a) (hrun : s.isRunning p = true) {t : Session}
    (ht : (act perform p (q.length - (left + 1)) a s).2 = t) {state : TaskState}
    (hstate : state = .ended .panicked ∨ ∃ wake, state = .asleep left wake) :
    Plays perform p q (left + 1) s
      ⟨[invocation perform p (q.length - (left + 1)) a s], t, state⟩ := by
  have hact : Proceeds s t := ht ▸ act_proceeds hperform p _ a s
  refine ⟨hact.later, hact.recruits, fun p' _ => hact.unfinished p', ?idle, ?script,
    Nat.succ_le_succ (Nat.zero_le left), ?last, fun hfinished => .inl (hact.unfinished p hfinished),
    ?started, ?asleep, ?returned⟩
  case idle =>
    intro hidle
    cases hrun.symm.trans hidle
  case script =>
    intro i e he
    cases i with
    | zero =>
      cases he
      exact ⟨a, s, ha, hrun, rfl⟩
    | succ i => cases he
  case last =>
    intro es e es' hsplit hstopped
    cases es with
    | nil =>
      -- the action itself has stopped the program
      obtain ⟨rfl, rfl⟩ := List.cons.inj hsplit
      exact ⟨rfl, ht ▸ hstopped⟩
    | cons e' es => simp at hsplit
  case started | returned =>
    obtain rfl | ⟨wake, rfl⟩ := hstate <;> exact nofun
  case asleep =>
    intro left' wake h
    obtain rfl | ⟨_, rfl⟩ := hstate
    · cases h
    · cases h
      exact Nat.add_comm 1 left

/-- A stretch plays the next action of its program, if it comes to that. -/
theorem Stretches.plays (hperform : perform.Disciplined) {r : Stretch}
    (h : Stretches perform p q left s r) (hclaimed : s.Claimed p) (hleft : left ≤ q.length) :
    Plays perform p q left s r := by
  cases h with
  | complete s => exact .finish hperform hclaimed
  | halted left hidle r => exact .halted hclaimed hidle r
  | missing hrun hnone =>
    have hsize := Array.getElem?_eq_none_iff.mp hnone
    unfold Program.length at hleft hsize
    omega
  | panicked hrun ha hact =>
    exact .act hperform ha hrun (congrArg Prod.snd hact) (.inl rfl)
  | paused hrun ha hact =>
    exact .act hperform ha hrun (congrArg Prod.snd hact) (.inr ⟨_, rfl⟩)

/-- A stretch that ends with a panic was in an action, or its program had just finished. -/
theorem Stretches.panic (hperform : perform.Disciplined) {r : Stretch}
    (h : Stretches perform p q left s r) (hstate : r.state = .ended .panicked) :
    (∃ e ∈ r.invocations, e.completed = false) ∨ r.session.status? p = some .finished := by
  cases h with
  | complete s =>
    right
    by_cases hrun : s.isRunning p = true
    · have hstatus := status?_finishProgram hperform hrun
      revert hstatus
      rcases finishProgram perform p s with ⟨_ | _, t⟩ <;> exact id
    · unfold finishProgram at hstate
      rw [if_neg hrun] at hstate
      cases hstate
  | halted | missing | paused => cases hstate
  | panicked hrun ha hact =>
    refine .inl ⟨_, List.mem_cons_self, ?_⟩
    simp only [invocation, hact]
    rfl

/-- A task falls asleep after an action only. -/
theorem Stretches.advanced {r : Stretch} (h : Stretches perform p q left s r) {left' wake : Nat}
    (hstate : r.state = .asleep left' wake) : r.invocations ≠ [] := by
  cases h with
  | complete s =>
    revert hstate
    rcases finishProgram perform p s with ⟨_ | _, t⟩ <;> exact nofun
  | halted | missing => cases hstate
  | panicked | paused => exact List.cons_ne_nil _ _

theorem Stretches.playsTurn (hperform : perform.Disciplined) {r : Stretch}
    (h : Stretches perform p q left s r) (hclaimed : s.Claimed p) (hleft : left ≤ q.length) :
    PlaysTurn perform p q left s r where
  toPlays := h.plays hperform hclaimed hleft
  advanced _ _ := h.advanced
  panicked := h.panic hperform

end Playing

/-- A task without a stretch has ended, or there is nothing that it could play. -/
theorem stretchOf?_eq_none {perform : Perform} {k : TaskId} {s : Session}
    (h : stretchOf? perform k s = none) {task : Task} {q : Program}
    (htask : s.tasks[k]? = some task) (hq : s.programs[task.program]? = some q) :
    ∃ how, task.state = .ended how := by
  simp only [stretchOf?, htask, hq] at h
  cases hstate : task.state with
  | ready since =>
    rw [hstate] at h
    cases h
  | asleep left wake =>
    rw [hstate] at h
    dsimp only at h
    split at h <;> cases h
  | ended how => exact ⟨how, rfl⟩

end GridPuzzle.Session
