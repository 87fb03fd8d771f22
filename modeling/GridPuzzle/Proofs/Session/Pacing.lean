import GridPuzzle.Proofs.Session.Ticking

/-!
# The pace of a playback

In a life that keeps to the clock, a program that nothing stops is played at an even pace, whatever
else happens meanwhile: its first action is invoked when its task begins, each of the others one
sleep after the one before it, and one sleep after the last of them it is finished. How many ticks a
sleep takes is up to the timer, which treats the delay of the program alike each time.

So the time that has passed tells how many actions have been invoked, as soon as nothing is due any
more: as many as there are multiples of the sleep up to then, or all of them. Whatever follows a
stop at that moment, no further action is ever invoked, and the program is aborted if its last sleep
was not over, and finished otherwise.
-/

namespace GridPuzzle.Session

/-- Nothing has stopped a program: it is not aborted, and none of its actions panicked. -/
structure Life.Undisturbed (l : Life) (p : ProgramId) : Prop where
  unaborted : l.session.status? p ≠ some .aborted
  completed : ∀ e ∈ l.invocations p, e.completed = true

/-- Where the task of a program is that has been played at its pace from `start` on, with sleeps of
`d` ticks, and has invoked `m` actions. -/
inductive Pace (s : Session) (p : ProgramId) (q : Program) (d start m : Nat) : TaskState → Prop
  /-- The next turn is due one sleep after the last one, which is over. -/
  | playing {state : TaskState} (hrun : s.status? p = some .running)
      (hdue : state.due? = some (start + m * d))
      (hlate : start + m * d ≤ s.now + d)
      (hearly : s.now ≤ start + m * d) : Pace s p q d start m state
  | done {how : Ending} (hfinished : s.status? p = some .finished) (hall : m = q.length)
      (hlate : start + q.length * d ≤ s.now) : Pace s p q d start m (.ended how)

/-- A life in which a task plays its program at its pace, with sleeps of `d` ticks. -/
structure InPace (perform : Perform) (k : TaskId) (p : ProgramId) (q : Program) (d start : Nat)
    (l : Life) : Prop where
  sound : l.Sound perform
  program : l.session.Has p q
  timer : l.session.timer q.delay = d
  begun : start ≤ l.session.now
  task : ∃ task, l.session.tasks[k]? = some task ∧ task.program = p ∧
    Pace l.session p q d start (l.invocations p).length task.state
  times : (l.invocations p).map Invocation.time =
    (List.range (l.invocations p).length).map fun i => start + i * d

/-- What happens beside the task of a program: the task stays where it is, and the clock does not go
past its next turn. -/
structure Beside (k : TaskId) (p : ProgramId) (l l' : Life) : Prop where
  task : ∀ {task : Task}, l.session.tasks[k]? = some task → l'.session.tasks[k]? = some task
  invocations : l'.invocations p = l.invocations p
  unfinished : l'.session.status? p = some .finished → l.session.status? p = some .finished
  now : l.session.now ≤ l'.session.now
  due : ∀ {task : Task} {due : Nat}, l.session.tasks[k]? = some task →
    task.state.due? = some due → l'.session.now ≤ max l.session.now due

/-! ## One stretch -/

section Stretches

variable {perform : Perform} {p : ProgramId} {q : Program} {left : Nat} {s : Session}

/-- Where no action is left a stretch finishes its running program. -/
theorem stretch_finishes (hperform : perform.Disciplined) (hrun : s.isRunning p = true) :
    (stretch perform p q 0 s).invocations = [] ∧
      (stretch perform p q 0 s).session.status? p = some .finished ∧
      ∃ how, (stretch perform p q 0 s).state = .ended how := by
  have hfinished := status?_finishProgram hperform hrun
  rw [stretch]
  generalize finishProgram perform p s = call at hfinished
  rcases call with ⟨_ | _, t⟩ <;> exact ⟨rfl, hfinished, _, rfl⟩

/-- The turn of a task that is due plays what is left of its running program. -/
theorem stretchOf?_running {k : TaskId} {task : Task} (htask : s.tasks[k]? = some task)
    (hq : s.programs[task.program]? = some q) (hrun : s.isRunning task.program = true)
    (hturns : task.state.turns q.length = left + 1) :
    stretchOf? perform k s = some (stretch perform task.program q left s) := by
  unfold stretchOf?
  rw [htask]
  dsimp only
  rw [hq]
  cases hstate : task.state with
  | ready since =>
    rw [hstate] at hturns
    cases hturns
    rfl
  | asleep left' wake =>
    rw [hstate] at hturns
    cases hturns
    dsimp only
    rw [if_pos hrun]
  | ended how =>
    rw [hstate] at hturns
    cases hturns

/-- A stretch invokes the next action and sleeps, unless the action panics. -/
theorem stretch_pauses (hperform : perform.Orderly) (hrun : s.isRunning p = true) {a : Action}
    (ha : q.actions[q.length - (left + 1)]? = some a)
    (hcompleted : ∀ e ∈ (stretch perform p q (left + 1) s).invocations, e.completed = true) :
    stretch perform p q (left + 1) s =
      ⟨[invocation perform p (q.length - (left + 1)) a s],
        (act perform p (q.length - (left + 1)) a s).2, .asleep left (s.now + s.timer q.delay)⟩ := by
  have hstretch : Stretches perform p q (left + 1) s _ := stretch_stretches p q (left + 1) s
  generalize stretch perform p q (left + 1) s = r at hcompleted hstretch ⊢
  have hnow := act_now hperform p (q.length - (left + 1)) a s
  have htimer := act_timer hperform p (q.length - (left + 1)) a s
  cases hstretch with
  | halted _ hidle => cases hrun.symm.trans hidle
  | missing _ hnone => cases ha.symm.trans hnone
  | panicked _ ha' hact =>
    cases ha.symm.trans ha'
    have hplayed := hcompleted _ List.mem_cons_self
    simp only [invocation, hact] at hplayed
    cases hplayed
  | paused _ ha' hact =>
    cases ha.symm.trans ha'
    rw [hact] at hnow htimer ⊢
    rw [← hnow, ← htimer]

end Stretches

section Playing

variable {perform : Perform} {k : TaskId} {p : ProgramId} {q : Program} {d start : Nat}
  {l l' : Life}

/-- A turn with a stretch to play logs what that invokes. -/
theorem Life.use_turn {due : Nat} {u : Session} {r : Stretch}
    (hu : { l.session with now := max l.session.now due } = u)
    (hr : stretchOf? perform k u = some r) : l.use perform (.turn k due) =
      { l with session := r.session.setTask k r.state, log := l.log ++ r.invocations } := by
  subst hu
  show { l with session := turn perform k due l.session,
                log := l.log ++ invoked perform k due l.session } = _
  unfold turn invoked
  rw [resume_eq, hr]

/-- What a turn invokes counts for the program of its task. -/
theorem Life.invocations_turn {due left : Nat} {u : Session} {r : Stretch}
    (hu : { l.session with now := max l.session.now due } = u)
    (hr : stretchOf? perform k u = some r) (hplays : Plays perform p q left u r) :
    (l.use perform (.turn k due)).invocations p = l.invocations p ++ r.invocations := by
  rw [Life.use_turn hu hr]
  exact hplays.invocationsOf_append l.log

section Disciplined

variable (hperform : perform.Disciplined)

include hperform

/-- Nothing had stopped a program before, either. -/
theorem Life.Undisturbed.before (hundisturbed : l'.Undisturbed p) (h : Tick perform l l') :
    l.Undisturbed p where
  unaborted hst := hundisturbed.unaborted ((h.later hperform).final hst rfl)
  completed e he := hundisturbed.completed e ((h.log_grows.sublist.filter _).subset he)

omit hperform in
/-- A claimed program that is neither aborted nor finished runs. -/
theorem Life.Undisturbed.running (hundisturbed : l.Undisturbed p) (hclaimed : l.session.Claimed p)
    (hunfinished : l.session.status? p ≠ some .finished) : l.session.status? p = some .running := by
  obtain ⟨status, hst, hne⟩ := hclaimed
  cases status with
  | stopped => exact absurd rfl hne
  | running => exact hst
  | finished => exact absurd hst hunfinished
  | aborted => exact absurd hst hundisturbed.unaborted

/-- The turn of another task happens beside a task. -/
theorem Beside.turn (hl : l.Sound perform) {task : Task} (htask : l.session.tasks[k]? = some task)
    {j : TaskId} {due : Nat} (hnext : l.session.nextDue? = some (j, due)) (hne : j ≠ k) :
    Beside k task.program l (l.use perform (.turn j due)) := by
  have hclock : Sound { l.session with now := max l.session.now due } := hl.session.anytime _
  have hnow := l.use_turn_now hperform j due
  obtain ⟨task', htask', hdue'⟩ := task_of_nextDue? hnext
  obtain ⟨status, hst, -⟩ := (hl.session.task htask').claimed
  obtain ⟨q', hq', -⟩ := Option.map_eq_some_iff.mp hst
  cases hr : stretchOf? perform j { l.session with now := max l.session.now due } with
  | none =>
    obtain ⟨how, hstate⟩ := stretchOf?_eq_none hr htask' hq'
    rw [hstate] at hdue'
    cases hdue'
  | some r =>
    obtain ⟨task'', _, _, htask'', -, -, -, hplays⟩ := hclock.stretch hperform hr
    cases htask'.symm.trans htask''
    have hprogram : task.program ≠ task'.program := fun hsame =>
      hne (hl.task_unique htask' htask hsame.symm)
    have hkept : r.session.tasks[k]? = some task := hplays.recruits.getElem? htask
    have hlaw := Life.use_turn rfl hr
    refine ⟨fun {task₀} h₀ => ?_, ?_, fun hfinished => ?_, ?_, fun {task₀ due₀} h₀ hdue₀ => ?_⟩
    · cases htask.symm.trans h₀
      rw [hlaw]
      simp only [setTask, Array.getElem?_modify, if_neg hne, hkept]
    · rw [hlaw]
      exact hplays.invocationsOf_append_of_ne _ hprogram
    · rw [hlaw] at hfinished
      exact hplays.others _ hprogram hfinished
    · rw [hnow]
      exact Nat.le_max_left _ _
    · rw [hnow]
      obtain ⟨_, _, hfirst, hle⟩ := exists_nextDue? h₀ hdue₀
      cases hnext.symm.trans hfirst
      exact Nat.max_le.mpr ⟨Nat.le_max_left _ _, hle.trans (Nat.le_max_right _ _)⟩

/-- What happens is the turn of a task that is due, or it happens beside the task. -/
theorem Tick.turn_or_beside (h : Tick perform l l') (hl : l.Sound perform) {task : Task}
    (htask : l.session.tasks[k]? = some task) :
    (∃ due, task.state.due? = some due ∧ l' = l.use perform (.turn k due)) ∨
      Beside k task.program l l' := by
  cases h with
  | @turn j due hnext =>
    by_cases hjk : j = k
    · subst hjk
      obtain ⟨task', htask', hdue⟩ := task_of_nextDue? hnext
      cases htask.symm.trans htask'
      exact .inl ⟨due, hdue, rfl⟩
    · exact .inr (.turn hperform hl htask hnext hjk)
  | @pass time hnow hnext =>
    refine .inr ⟨id, rfl, id, hnow, fun {_ _} htask' hdue => ?_⟩
    obtain ⟨j, due', hfirst, hle⟩ := exists_nextDue? htask' hdue
    exact ((hnext j due' hfirst).trans hle).trans (Nat.le_max_right _ _)
  | @use u hu =>
    have hstill := l.use_still hperform hu
    refine .inr ⟨hstill.task, ?_, hstill.unfinished _, hstill.now.ge, fun {_ _} _ _ => ?_⟩
    · unfold Life.invocations
      rw [Life.log_use hu]
    · rw [hstill.now]
      exact Nat.le_max_left _ _

omit hperform in
/-- What happens beside a playback leaves it at its pace. -/
theorem InPace.beside (h : InPace perform k p q d start l) (hsound : l'.Sound perform)
    (hlater : Later l.session l'.session) (hbeside : Beside k p l l')
    (hundisturbed : l'.Undisturbed p) : InPace perform k p q d start l' := by
  obtain ⟨task, htask, hprogram, hpace⟩ := h.task
  refine ⟨hsound, hlater.has h.program, by rw [hlater.timer, h.timer], h.begun.trans hbeside.now,
    ⟨task, hbeside.task htask, hprogram, ?_⟩, ?_⟩
  · rw [hbeside.invocations]
    generalize hstate : task.state = state at hpace
    cases hpace with
    | playing hrun hdue hlate hearly =>
      have hclaimed := hlater.claimed ⟨.running, hrun, by decide⟩
      have hrun' : l'.session.status? p = some .running :=
        hundisturbed.running hclaimed fun hfinished => by
          cases hrun.symm.trans (hbeside.unfinished hfinished)
      have hearly' := hbeside.due htask (hstate ▸ hdue)
      rw [Nat.max_eq_right hearly] at hearly'
      exact .playing hrun' hdue (hlate.trans (Nat.add_le_add_right hbeside.now _)) hearly'
    | done hfinished hall hlate =>
      exact .done (hlater.final hfinished rfl) hall (hlate.trans hbeside.now)
  · rw [hbeside.invocations]
    exact h.times

/-- The turn of the task of a playback keeps it at its pace if the stretch that it plays does. -/
theorem InPace.resumed (h : InPace perform k p q d start l) {task : Task}
    (htask : l.session.tasks[k]? = some task) (hprogram : task.program = p) {due : Nat}
    {u : Session} (hu : { l.session with now := max l.session.now due } = u) {r : Stretch}
    (hr : stretchOf? perform k u = some r)
    (hpace : Pace (l.use perform (.turn k due)).session p q d start
      ((l.invocations p).length + r.invocations.length) r.state)
    (htimes : r.invocations.map Invocation.time = (List.range r.invocations.length).map fun i =>
      start + ((l.invocations p).length + i) * d) :
    InPace perform k p q d start (l.use perform (.turn k due)) := by
  subst hprogram
  have hclock : Sound u := hu ▸ h.sound.session.anytime _
  have htask' : u.tasks[k]? = some task := hu ▸ htask
  obtain ⟨task', _, _, htask'', -, -, -, hplays⟩ := hclock.stretch hperform hr
  cases htask'.symm.trans htask''
  have hlater := l.use_later hperform (.turn k due)
  have hlaw := Life.use_turn hu hr
  have hlog := Life.invocations_turn hu hr hplays.toPlays
  have hkept : r.session.tasks[k]? = some task := hplays.recruits.getElem? htask'
  refine ⟨h.sound.use hperform _, hlater.has h.program, by rw [hlater.timer, h.timer], ?_,
    ⟨{ task with state := r.state }, ?_, rfl, ?_⟩, ?_⟩
  · rw [l.use_turn_now hperform]
    exact h.begun.trans (Nat.le_max_left _ _)
  · rw [hlaw]
    simp only [setTask, Array.getElem?_modify, if_pos, hkept, Option.map_some]
  · rw [hlog, List.length_append]
    exact hpace
  · rw [hlog, List.map_append, h.times, htimes, List.length_append, List.range_add, List.map_append,
      List.map_map]
    rfl

omit hperform in
/-- The task of a playback is due one sleep after its last turn, and its program runs. -/
theorem InPace.of_due (h : InPace perform k p q d start l) {task : Task}
    (htask : l.session.tasks[k]? = some task) {due : Nat} (hdue : task.state.due? = some due) :
    task.program = p ∧ l.session.status? p = some .running ∧
      due = start + (l.invocations p).length * d ∧ l.session.now ≤ due := by
  obtain ⟨task', htask', hprogram, hpace⟩ := h.task
  cases htask.symm.trans htask'
  generalize task.state = state at hdue hpace
  cases hpace with
  | playing hrun hdue' _ hearly =>
    cases hdue.symm.trans hdue'
    exact ⟨hprogram, hrun, rfl, hearly⟩
  | done => cases hdue

/-- The turn of a playback that has no action left finishes the program. -/
theorem InPace.turn_last (h : InPace perform k p q d start l) {task : Task}
    (htask : l.session.tasks[k]? = some task) (hprogram : task.program = p) {due : Nat}
    {u : Session} (hu : { l.session with now := max l.session.now due } = u)
    (hrun : u.isRunning p = true) {q' : Program}
    (hr : stretchOf? perform k u = some (stretch perform p q' 0 u))
    (hall : (l.invocations p).length = q.length)
    (hdue : u.now = start + (l.invocations p).length * d) :
    InPace perform k p q d start (l.use perform (.turn k due)) := by
  obtain ⟨hnone, hfinished, how, hstate⟩ := stretch_finishes (q := q') hperform hrun
  have hover : (l.use perform (.turn k due)).session.status? p = some .finished := by
    rw [Life.use_turn hu hr]
    exact hfinished
  have hnow : (l.use perform (.turn k due)).session.now = u.now := by
    rw [← hu, l.use_turn_now hperform]
  refine h.resumed hperform htask hprogram hu hr ?_ ?_
  · rw [hstate, hnone]
    refine .done hover hall ?_
    rw [hnow, hdue, hall]
  · rw [hnone]
    rfl

/-- The turn of a playback with an action left invokes the action, and then the task sleeps. -/
theorem InPace.turn_next (h : InPace perform k p q d start l) {task : Task}
    (htask : l.session.tasks[k]? = some task) (hprogram : task.program = p) {due : Nat}
    {u : Session} (hu : { l.session with now := max l.session.now due } = u)
    (hrun : u.isRunning p = true) {q' : Program} (hsame : q'.delay = q.delay) {left : Nat}
    (hr : stretchOf? perform k u = some (stretch perform p q' (left + 1) u))
    (hleft : left + 1 ≤ q'.length)
    (hdue : u.now = start + (l.invocations p).length * d)
    (hundisturbed : (l.use perform (.turn k due)).Undisturbed p) :
    InPace perform k p q d start (l.use perform (.turn k due)) := by
  obtain ⟨a, ha⟩ : ∃ a, q'.actions[q'.length - (left + 1)]? = some a :=
    ⟨_, Array.getElem?_eq_getElem (by unfold Program.length at *; omega)⟩
  have hclaimed : u.Claimed p := ⟨.running, isRunning_iff.mp hrun, by decide⟩
  have hplays : Plays perform p q' (left + 1) u _ :=
    (stretch_stretches p q' (left + 1) u).plays hperform hclaimed hleft
  have hlog := Life.invocations_turn hu hr hplays
  have hpauses := stretch_pauses hperform.orderly hrun ha fun e he =>
    hundisturbed.completed e (hlog ▸ List.mem_append_right _ he)
  have hsleep : u.timer q'.delay = d := by
    rw [hsame, ← hu]
    exact h.timer
  rw [hpauses] at hr
  have hlaw := Life.use_turn hu hr
  have hnow : (l.use perform (.turn k due)).session.now = u.now := by
    rw [← hu, l.use_turn_now hperform]
  have hrunning : (l.use perform (.turn k due)).session.status? p = some .running := by
    have hbefore : l.session.status? p = some .running := by
      rw [← hu] at hrun
      exact isRunning_iff.mp hrun
    have hlater := l.use_later hperform (.turn k due)
    refine hundisturbed.running (hlater.claimed ⟨.running, hbefore, by decide⟩) fun hfinished => ?_
    rw [hlaw] at hfinished
    have hearlier := (act_proceeds hperform _ _ a u).unfinished _ hfinished
    cases hearlier.symm.trans (isRunning_iff.mp hrun)
  have hnext : start + ((l.invocations p).length + 1) * d = u.now + d := by
    rw [hdue, Nat.succ_mul, Nat.add_assoc]
  refine h.resumed hperform htask hprogram hu hr (.playing hrunning ?_ ?_ ?_) ?_
  · rw [List.length_singleton, hnext, ← hsleep]
    rfl
  · rw [List.length_singleton, hnext, hnow]
  · rw [List.length_singleton, hnext, hnow]
    exact Nat.le_add_right _ _
  · exact congrArg (fun time => [time]) hdue

/-- The turn of the task of a playback invokes the next action, or it finishes the program. -/
theorem InPace.turn (h : InPace perform k p q d start l) {task : Task}
    (htask : l.session.tasks[k]? = some task) {due : Nat} (hdue : task.state.due? = some due)
    (hundisturbed : (l.use perform (.turn k due)).Undisturbed p) :
    InPace perform k p q d start (l.use perform (.turn k due)) := by
  obtain ⟨rfl, hrun, hdue', hearly⟩ := h.of_due htask hdue
  obtain ⟨q', hq', -, hactions, hsame⟩ := h.program
  have hlength : q'.length = q.length := congrArg Array.size hactions
  have hopen : 0 < task.state.turns q'.length := turns_of_due hdue
  obtain ⟨left, hturns⟩ := Nat.exists_eq_succ_of_ne_zero (Nat.ne_of_gt hopen)
  have hleft := (h.sound.standings k task htask).length_add_left hq' hturns
  -- what the turn finds when the clock has reached its time
  obtain ⟨u, hu⟩ : ∃ u, ({ l.session with now := max l.session.now due } : Session) = u := ⟨_, rfl⟩
  have hrun' : u.isRunning task.program = true := hu ▸ isRunning_iff.mpr hrun
  have hnow : u.now = start + (l.invocations task.program).length * d :=
    hu ▸ (Nat.max_eq_right hearly).trans hdue'
  have hr : stretchOf? perform k u = some (stretch perform task.program q' left u) :=
    stretchOf?_running (hu ▸ htask) (hu ▸ hq') hrun' hturns
  cases left with
  | zero => exact h.turn_last hperform htask rfl hu hrun' hr (hleft.trans hlength) hnow
  | succ left =>
    exact h.turn_next hperform htask rfl hu hrun' hsame hr (by omega) hnow hundisturbed

/-- A playback is still at its pace after anything that happens, if nothing has stopped it. -/
theorem InPace.tick (h : InPace perform k p q d start l)
    (htick : Tick perform l l') (hundisturbed : l'.Undisturbed p) :
    InPace perform k p q d start l' := by
  obtain ⟨task, htask, hprogram, -⟩ := h.task
  obtain ⟨due, hdue, rfl⟩ | hbeside := htick.turn_or_beside hperform h.sound htask
  · exact h.turn hperform htask hdue hundisturbed
  · exact h.beside (htick.sound hperform h.sound) (htick.later hperform) (hprogram ▸ hbeside)
      hundisturbed

/-- A playback that nothing stops stays at its pace. -/
theorem InPace.ticks (h : InPace perform k p q d start l)
    (hticks : Ticks perform l l') (hundisturbed : l'.Undisturbed p) :
    InPace perform k p q d start l' := by
  induction hticks with
  | refl => exact h
  | tail _ htick ih =>
    exact (ih (hundisturbed.before hperform htick)).tick hperform htick hundisturbed

omit hperform in
/-- A playback begins at its pace. -/
theorem InPace.opening (hl : l.Sound perform) {joined : Bool}
    (htask : l.session.tasks[k]? = some ⟨p, .ready l.session.now, joined⟩)
    (hq : l.session.programs[p]? = some q) (hlength : 0 < q.length)
    (hundisturbed : l.Undisturbed p) :
    InPace perform k p q (l.session.timer q.delay) l.session.now l := by
  have hnil : l.invocations p = [] := (hl.standings k _ htask).ready _ rfl
  have hunfinished : l.session.status? p ≠ some .finished := fun hfinished => by
    obtain ⟨q', hq', hstatus⟩ := Option.map_eq_some_iff.mp hfinished
    cases hq.symm.trans hq'
    have hall := (hl.accounts p).finished q hq hstatus
    rw [hnil] at hall
    exact absurd hall (Nat.ne_of_lt hlength)
  have hrun := hundisturbed.running (hl.session.task htask).claimed hunfinished
  refine ⟨hl, ⟨q, hq, rfl, rfl, rfl⟩, rfl, Nat.le_refl _, ⟨_, htask, rfl, ?_⟩, ?_⟩
  · rw [hnil]
    exact .playing hrun (by simp [TaskState.due?]) (by simp) (by simp)
  · rw [hnil]
    rfl

end Disciplined

/-! ## What the time tells -/

namespace InPace

variable (h : InPace perform k p q d start l)

include h

/-- No more actions are invoked than there are. -/
theorem length_le : (l.invocations p).length ≤ q.length := by
  obtain ⟨q', hq', -, hactions, -⟩ := h.program
  have hbounded := ((h.sound.accounts p).script q' hq').bounded
  unfold Program.length at hbounded ⊢
  rwa [← hactions]

/-- Where nothing is due any more, the time tells how many actions have been invoked, and whether
the program has come to its end. -/
theorem count (hd : 0 < d)
    (hsettled : ∀ j due, l.session.nextDue? = some (j, due) → l.session.now < due) :
    (l.invocations p).length = min q.length ((l.session.now - start) / d + 1) ∧
      l.session.status? p = some
        (if l.session.now - start < q.length * d then .running else .finished) := by
  obtain ⟨task, htask, -, hpace⟩ := h.task
  have hbegun := h.begun
  have hlength := h.length_le
  have hbound := Nat.mul_le_mul_right d hlength
  generalize hstate : task.state = state at hpace
  cases hpace with
  | playing hrun hdue hlate hearly =>
    obtain ⟨j, due, hnext, hle⟩ := exists_nextDue? htask (hstate ▸ hdue)
    have hopen : l.session.now < start + (l.invocations p).length * d :=
      Nat.lt_of_lt_of_le (hsettled j due hnext) hle
    obtain ⟨m, hm⟩ : ∃ m, (l.invocations p).length = m + 1 := by
      refine Nat.exists_eq_add_one_of_ne_zero fun hzero => ?_
      rw [hzero, Nat.zero_mul] at hopen
      omega
    rw [hm] at hopen hlate hlength hbound ⊢
    have hquotient : (l.session.now - start) / d = m := by
      refine Nat.div_eq_of_lt_le ?_ (by omega)
      rw [Nat.succ_mul] at hlate
      omega
    rw [hquotient, if_pos (by omega)]
    exact ⟨(Nat.min_eq_right hlength).symm, hrun⟩
  | done hfinished hall hlate =>
    have hquotient : q.length ≤ (l.session.now - start) / d :=
      (Nat.le_div_iff_mul_le hd).mpr (by omega)
    rw [if_neg (by omega), hall]
    exact ⟨(Nat.min_eq_left (Nat.le_succ_of_le hquotient)).symm, hfinished⟩

end InPace

/-- A program that has been told to stop has the status that it had then or is aborted, and nothing
is invoked for it any more. -/
theorem Life.Sound.stopped (hl : l.Sound perform) (hperform : perform.Disciplined) {status : Status}
    (hst : l.session.status? p = some status) (us : List Usage) :
    ((l.use perform (.call (.stop p) id)).after perform us).invocations p = l.invocations p ∧
      final? p ((l.use perform (.call (.stop p) id)).after perform us).session =
        some (if status.isTerminal then status else .aborted) := by
  generalize hfinal : (if status.isTerminal then status else .aborted) = final
  have hterminal : final.isTerminal = true := by
    rw [← hfinal]
    split
    · assumption
    · rfl
  have hstopped : (l.use perform (.call (.stop p) id)).session.status? p = some final := by
    change (call perform (.stop p) l.session).2.status? p = some final
    rw [snd_call_stop, ← hfinal]
    exact status?_stop hperform hst
  obtain ⟨us', -, hsession, -⟩ :=
    Life.session_after perform us (l.use perform (.call (.stop p) id))
  refine ⟨(hl.use hperform _).invocations_after hperform
    (final?_eq_some.mpr ⟨hstopped, hterminal⟩) us, final?_eq_some.mpr ⟨?_, hterminal⟩⟩
  rw [hsession]
  exact (uses_later hperform us' _).final hstopped hterminal

end Playing

end GridPuzzle.Session
