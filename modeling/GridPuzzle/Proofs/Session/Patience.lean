import GridPuzzle.CommandLine.Transcript
import GridPuzzle.Proofs.Session.Playback
import GridPuzzle.Proofs.Session.Refusal
import GridPuzzle.Proofs.Session.Stretch

/-!
# Waiting until a playback has ended

A task that falls asleep in a turn wakes up when the timer lets it, and the timer treats the delay
of its program alike each time. So a program that plays alone has its turns at the times of the
clock: between two of them lies one sleep, and the last of them is due before everybody's patience
is over. Each of them is also paid for by the budget of turns, hence whoever waits for the task gets
its result.
-/

namespace GridPuzzle.Session

/-- The clock has stood still during a stretch, and a task that falls asleep sleeps for the time
that the timer gives it. -/
structure Stretch.Timely (r : Stretch) (q : Program) (s : Session) : Prop where
  now : r.session.now = s.now
  due : ∀ due, r.state.due? = some due → due = s.now + s.timer q.delay

section Clock

variable {perform : Perform} (hperform : perform.Orderly)

include hperform

/-- The clock stands still during a step of the robot. -/
theorem step_now (d : Direction) (s : Session) : (step perform d s).2.now = s.now :=
  step_keeps hperform (P := fun u => u.now = s.now) (fun hc hs => hc.now.trans hs)
    (fun _ hs => hs) d rfl

/-- The clock stands still while an action is played. -/
theorem act_now (p : ProgramId) (index : Nat) (a : Action) (s : Session) :
    (act perform p index a s).2.now = s.now :=
  act_keeps hperform (P := fun u => u.now = s.now) (fun hc hs => hc.now.trans hs)
    (fun _ hs => hs) p index a rfl

/-- The timer stays the same while an action is played. -/
theorem act_timer (p : ProgramId) (index : Nat) (a : Action) (s : Session) :
    (act perform p index a s).2.timer = s.timer :=
  act_keeps hperform (P := fun u => u.timer = s.timer) (fun hc hs => hc.sameFrame.timer.trans hs)
    (fun _ hs => hs) p index a rfl

omit hperform in
theorem endStretch_timely (p : ProgramId) (q : Program) {s : Session}
    {call : Outcome Unit × Session} (hcall : call.2.now = s.now) :
    (endStretch p call).Timely q s := by
  rcases call with ⟨_ | _, t⟩ <;> exact ⟨hcall, nofun⟩

theorem stretches_timely {p : ProgramId} {q : Program} {left : Nat} {s : Session} {r : Stretch}
    (h : Stretches perform p q left s r) : r.Timely q s := by
  cases h with
  | complete s => exact endStretch_timely p q (finishProgram_changes hperform p s).now
  | halted | missing => exact endStretch_timely p q rfl
  | @panicked left _ _ a hrun ha hact =>
    have hnow := act_now hperform p (q.length - (left + 1)) a s
    rw [hact] at hnow
    exact ⟨hnow, nofun⟩
  | @paused left _ _ a hrun ha hact =>
    have hnow := act_now hperform p (q.length - (left + 1)) a s
    have htimer := act_timer hperform p (q.length - (left + 1)) a s
    rw [hact] at hnow htimer
    refine ⟨hnow, fun due hdue => ?_⟩
    cases hdue
    rw [hnow, htimer]

theorem stretchOf?_timely {k : TaskId} {s : Session} {r : Stretch}
    (hr : stretchOf? perform k s = some r) {task : Task} (htask : s.tasks[k]? = some task)
    {q : Program} (hq : s.programs[task.program]? = some q) : r.Timely q s := by
  obtain ⟨task', q', left, htask', hq', -, hstretch⟩ := stretchOf?_stretches hr
  cases htask.symm.trans htask'
  cases hq.symm.trans hq'
  exact stretches_timely hperform hstretch

/-- A turn leaves the clock where it is, or at the time at which the turn was due. -/
theorem turn_now (k : TaskId) (due : Nat) (s : Session) :
    (turn perform k due s).now = max s.now due := by
  unfold turn
  rw [resume_eq]
  cases hr : stretchOf? perform k { s with now := max s.now due } with
  | none => rfl
  | some r =>
    obtain ⟨task, q, -, htask, hq, -, -⟩ := stretchOf?_stretches hr
    exact (stretchOf?_timely hperform hr htask hq).now

/-- After its turn a task has ended, or it is due again one sleep later. -/
theorem turn_wakes {k : TaskId} {s : Session} {task : Task} (htask : s.tasks[k]? = some task)
    (hopen : ∀ how, task.state ≠ .ended how) {q : Program}
    (hq : s.programs[task.program]? = some q) (due : Nat) :
    (turn perform k due s).now = max s.now due ∧
      ∀ task' due', (turn perform k due s).tasks[k]? = some task' →
        task'.state.due? = some due' → due' = max s.now due + s.timer q.delay := by
  refine ⟨turn_now hperform k due s, fun task' due' htask' hdue' => ?_⟩
  unfold turn at htask'
  rw [resume_eq] at htask'
  cases hr : stretchOf? perform k { s with now := max s.now due } with
  | none =>
    obtain ⟨how, hstate⟩ := stretchOf?_eq_none hr htask hq
    exact absurd hstate (hopen how)
  | some r =>
    rw [hr] at htask'
    simp only [setTask, Array.getElem?_modify, if_pos] at htask'
    obtain ⟨_, -, rfl⟩ := Option.map_eq_some_iff.mp htask'
    exact (stretchOf?_timely hperform hr htask hq).due due' hdue'

end Clock

/-- A task that is due has a turn to take. -/
theorem turns_of_due {state : TaskState} {length due : Nat} (h : state.due? = some due) :
    0 < state.turns length := by
  cases state with
  | ready | asleep => exact Nat.succ_pos _
  | ended => cases h

namespace Performance

variable {v : Performance} {q : Program} {limit : Nat} {s : Session}

/-- The only task of a session plays its program, and has time for the turns that are left to it
before a limit. -/
structure Punctual (v : Performance) (q : Program) (limit : Nat) (s : Session) : Prop where
  played : v.Played 0 s
  only : s.tasks.size = 1
  program : s.Has v.program q
  time : ∀ task due, s.tasks[0]? = some task → task.state.due? = some due →
    s.now ≤ due ∧
      due + (task.state.turns (compile v.source).length - 1) * s.timer q.delay < limit

theorem toList_tasks_only (honly : s.tasks.size = 1) {task : Task}
    (htask : s.tasks[0]? = some task) : s.tasks.toList = [task] := by
  refine List.ext_getElem? fun i => ?_
  rw [Array.getElem?_toList]
  cases i with
  | zero => exact htask
  | succ i =>
    rw [Array.getElem?_eq_none (by omega)]
    rfl

/-- The only task that has not ended gets the next turn. -/
theorem nextDue?_only (honly : s.tasks.size = 1) {task : Task} (htask : s.tasks[0]? = some task) :
    s.nextDue? = task.state.due?.map fun due => (0, due) := by
  unfold nextDue?
  rw [toList_tasks_only honly htask]
  unfold firstDue
  cases task.state.due? <;> rfl

/-- The task of a performance is the only one that it can be. -/
theorem Punctual.task (h : v.Punctual q limit s) :
    ∃ task q', s.tasks[0]? = some task ∧ task.program = v.program ∧
      s.programs[v.program]? = some q' ∧ q'.delay = q.delay ∧
      s.nextDue? = task.state.due?.map fun due => (0, due) := by
  obtain ⟨task, htask, hprogram, -⟩ := h.played.task
  obtain ⟨q', hq', -, -, hdelay⟩ := h.program
  exact ⟨task, q', htask, hprogram, hq', hdelay, nextDue?_only h.only htask⟩

/-- A task that has not ended is due. -/
theorem due_of_open {k : TaskId} {task : Task} (htask : s.tasks[k]? = some task)
    (hopen : ending? k s = none) :
    (∀ how, task.state ≠ .ended how) ∧ ∃ due, task.state.due? = some due := by
  obtain ⟨p, state, joined⟩ := task
  unfold ending? at hopen
  rw [htask] at hopen
  cases state with
  | ready since => exact ⟨nofun, since, rfl⟩
  | asleep left wake => exact ⟨nofun, wake, rfl⟩
  | ended how => cases hopen

theorem turnsLeft_of_task {k : TaskId} {task : Task} (htask : s.tasks[k]? = some task) :
    v.turnsLeft k s = task.state.turns (compile v.source).length := by
  unfold turnsLeft
  rw [htask]
  rfl

/-- The task of a performance ends with the status of the walk. -/
theorem Played.returns {k : TaskId} (h : v.Played k s) {how : Ending}
    (hended : ending? k s = some how) :
    how = .returned v.walk.status ∧ v.turnsLeft k s = 0 := by
  obtain ⟨⟨p, state, joined⟩, htask, -, hstage⟩ := h.task
  rw [turnsLeft_of_task htask]
  unfold ending? at hended
  rw [htask] at hended
  cases hstage with
  | ready | asleep | overslept => cases hended
  | ended hover =>
    cases hended
    exact ⟨rfl, rfl⟩

/-- The budget of turns is enough for the only task. -/
theorem Punctual.turnsLeft_le (h : v.Punctual q limit s) : v.turnsLeft 0 s ≤ s.turnBudget := by
  obtain ⟨task, htask, hprogram, hstage⟩ := h.played.task
  obtain ⟨q', hq', -, hactions, -⟩ := hstage.staged.program
  have hlength : q'.length = (compile v.source).length := by simp [Program.length, hactions]
  rw [turnsLeft_of_task htask, turnBudget, toList_tasks_only h.only htask, List.foldr_cons,
    hprogram, hq', Option.map_some, Option.getD_some, hlength]
  exact Nat.le_add_right _ _

section Waiting

variable {perform : Perform} (hperform : perform.Orderly)

include hperform

/-- The turn of the task of a performance makes no other task. -/
theorem Played.turn_size {k : TaskId} (h : v.Played k s) (due : Nat) :
    (turn perform k due s).tasks.size = s.tasks.size := by
  obtain ⟨task, htask, hprogram, hstage⟩ := h.task
  have hclock : Aside s { s with now := max s.now due } := ⟨rfl, rfl, rfl, rfl, rfl⟩
  have hready : ({ s with now := max s.now due } : Session).tasks[k]? = some task := htask
  obtain ⟨u, state, hresume, htasks, -⟩ := (hstage.aside hclock).resume hperform hready hprogram
  rw [turn, hresume, setTask, Array.size_modify, htasks]

/-- The turn that is due next leaves enough time for the turns after it. -/
theorem Punctual.turn (h : v.Punctual q limit s) (hopen : ending? 0 s = none) :
    ∃ due, s.nextDue? = some (0, due) ∧ due < limit ∧
      v.Punctual q limit (Session.turn perform 0 due s) ∧
      v.turnsLeft 0 (Session.turn perform 0 due s) ≤ v.turnsLeft 0 s - 1 := by
  obtain ⟨task, q', htask, hprogram, hq', hdelay, hnext⟩ := h.task
  obtain ⟨hstate, due, hdue⟩ := due_of_open htask hopen
  obtain ⟨hnow, hlimit⟩ := h.time task due htask hdue
  rw [hdue] at hnext
  obtain ⟨hplayed, hturns⟩ := h.played.turn_self hperform due
  have hdeeds : Deeds perform (fun _ => True) s (Session.turn perform 0 due s) :=
    turn_deeds 0 due s
  have hlater : Later s (Session.turn perform 0 due s) :=
    hdeeds.keeps (P := Later s) (fun hd hs => hs.trans (hd.later hperform)) (.refl s)
  obtain ⟨hnow', hwake⟩ := turn_wakes hperform htask hstate (hprogram ▸ hq') due
  have honly := (h.played.turn_size hperform due).trans h.only
  refine ⟨due, hnext, Nat.lt_of_le_of_lt (Nat.le_add_right _ _) hlimit,
    ⟨hplayed, honly, hlater.has h.program, fun task' due' htask' hdue' => ?_⟩, hturns⟩
  have hwoken := hwake task' due' htask' hdue'
  have hpositive : 0 < task'.state.turns (compile v.source).length := turns_of_due hdue'
  rw [turnsLeft_of_task htask, turnsLeft_of_task htask'] at hturns
  rw [hdelay, Nat.max_eq_right hnow] at hwoken
  refine ⟨by omega, ?_⟩
  rw [hlater.timer]
  calc due' + (task'.state.turns (compile v.source).length - 1) * s.timer q.delay
      = due + task'.state.turns (compile v.source).length * s.timer q.delay := by
        rw [hwoken, Nat.sub_mul, Nat.one_mul]
        have := Nat.le_mul_of_pos_left (s.timer q.delay) hpositive
        omega
    _ ≤ due + (task.state.turns (compile v.source).length - 1) * s.timer q.delay :=
        Nat.add_le_add_left (Nat.mul_le_mul_right _ hturns) _
    _ < limit := hlimit

/-- Whoever waits until the limit, with turns enough, sees the end of a performance. -/
theorem Punctual.waitFor (h : v.Punctual q limit s) {turns : Nat}
    (hturns : v.turnsLeft 0 s ≤ turns) :
    ∃ how u, Session.waitFor perform (ending? 0) limit turns s = (some how, u) ∧
      ending? 0 u = some how ∧ v.Played 0 u := by
  induction turns generalizing s with
  | zero =>
    obtain ⟨how, hended⟩ := h.played.ended (Nat.le_zero.mp hturns)
    exact ⟨how, s, by rw [Session.waitFor, hended], hended, h.played⟩
  | succ turns ih =>
    unfold Session.waitFor
    cases hended : ending? 0 s with
    | some how => exact ⟨how, s, rfl, hended, h.played⟩
    | none =>
      obtain ⟨due, hnext, hlimit, hpunctual, hleft⟩ := h.turn hperform hended
      dsimp only
      rw [hnext]
      dsimp only
      rw [if_pos hlimit]
      exact ih hpunctual (by omega)

/-- Whoever waits for the task as long as it needs gets its result, and the performance has
ended. -/
theorem Punctual.join {ms : Nat} (h : v.Punctual q (s.now + ms) s)
    (hunjoined : ∀ task, s.tasks[0]? = some task → task.joined = false) :
    ∃ u, Session.join perform 0 ms s = (.value (.returned v.walk.status), u) ∧
      ending? 0 u = some (.returned v.walk.status) ∧ v.Played 0 u := by
  obtain ⟨how, w, hwait, hended, hplayed⟩ := h.waitFor hperform h.turnsLeft_le
  obtain ⟨rfl, hleft⟩ := hplayed.returns hended
  have hawait : await perform (ending? 0) ms s =
      (some (.returned v.walk.status), passUntil perform w.now w) := by
    unfold await
    rw [hwait]
  obtain ⟨⟨p, state, joined⟩, htask, -, -⟩ := h.played.task
  have hjoined : joined = false := hunjoined _ htask
  subst hjoined
  unfold Session.join
  rw [htask]
  dsimp only
  rw [hawait]
  -- what happens until the caller goes on, the mark that it has the result included
  obtain ⟨hlast, hlastleft⟩ := hplayed.beats hperform
    ((passUntil_beats w.now w).tail (.joined _ 0))
  obtain ⟨how, hendedlast⟩ :=
    hlast.ended (Nat.le_zero.mp (Nat.le_trans hlastleft (Nat.le_of_eq hleft)))
  obtain ⟨rfl, -⟩ := hlast.returns hendedlast
  exact ⟨_, rfl, hendedlast, hlast⟩

end Waiting

end Performance

/-- A performance that begins with its task alone ends before somebody who waits for the task as
long as it needs loses patience. -/
theorem punctual_opening {l : Level} {s t u : Session} {source : String} {q : Program}
    (hplayed : (Performance.opening l s source).Played 0 t)
    (hprogram : u.programs[s.programs.size]? = some q)
    (hlength : q.length = (compile source).length)
    (ht : t = { announced s.programs.size .running .stopped u with
      tasks := #[⟨s.programs.size, .ready u.now, false⟩] }) :
    (Performance.opening l s source).Punctual q (t.now + Transcript.patience t 0) t := by
  have htask : t.tasks[0]? = some ⟨s.programs.size, .ready u.now, false⟩ := by rw [ht]; rfl
  have hat : t.programs[s.programs.size]? = some q := by
    rw [ht, ← hprogram]
    exact congrArg (·[s.programs.size]?) (programs_announced _ _ _ _)
  have hnow : t.now = u.now := by
    rw [ht]
    exact now_announced _ _ _ _
  have hpatience : Transcript.patience t 0 = q.length * t.timer q.delay + 1 := by
    unfold Transcript.patience
    rw [htask, Option.bind_some, hat]
  refine ⟨hplayed, by rw [ht]; rfl, ⟨q, hat, rfl, rfl, rfl⟩, fun task due htask' hdue => ?_⟩
  cases htask.symm.trans htask'
  cases hdue
  refine ⟨Nat.le_of_eq hnow, ?_⟩
  rw [hpatience, hlength, hnow]
  exact Nat.lt_succ_self _

/-- A text with steps that is played alone is waited for to the end of its performance. -/
theorem Plain.join_performed {perform : Perform} (hperform : perform.Orderly) {l : Level}
    {s : Session} (h : Plain l s) (hplayer : OnePlayer s) (htasks : s.tasks = #[])
    (hidle : s.isPlaying = false) {source : String} (hsource : compile source ≠ []) :
    ∃ t u, play perform true source s = (.value (.started 0), t) ∧
      join perform 0 (Transcript.patience t 0) t =
        (.value (.returned (l.walk l.robot (compile source)).status), u) ∧
      Performed l source s 0 u := by
  have hstaffed : Staffed s := by
    intro k task htask
    rw [htasks] at htask
    cases htask
  have hnone : s.tasks.size = 0 := by rw [htasks]; rfl
  obtain ⟨t, hplay, hplayed, -⟩ := h.play_opens hperform hplayer hstaffed hidle hsource
  obtain ⟨u, hstarts, hprogram, -⟩ : ∃ u, play perform true source s = _ ∧ _ :=
    h.toQuiet.play_starts hidle hsource
  generalize hq :
    (Program.ofSource source s.scene.delay s.scene.statusObservers).become .running = q at hprogram
  have hlength : q.length = (compile source).length := by
    simp [← hq, Program.ofSource, Program.become, Program.length]
  have ht : t = { announced s.programs.size .running .stopped u with
      tasks := #[⟨s.programs.size, .ready u.now, false⟩] } := by
    rw [htasks] at hstarts
    exact congrArg Prod.snd (hplay.symm.trans hstarts)
  rw [hnone] at hplay hplayed
  have hunjoined (task : Task) (htask : t.tasks[0]? = some task) : task.joined = false := by
    rw [ht] at htask
    cases htask
    rfl
  obtain ⟨w, hjoin, hended, hlast⟩ :=
    (punctual_opening hplayed hprogram hlength ht).join hperform hunjoined
  exact ⟨t, w, hplay, hjoin, hlast.performed hended⟩

end GridPuzzle.Session
