import GridPuzzle.Proofs.Session.Life
import GridPuzzle.Proofs.Session.Spared

/-!
# Actions are played in their order, each once

What a program has played so far is the beginning of its actions, each once and in order. Nothing is
played after an action that has stopped the program, or once the program does not run any more. A
finished program has played everything. A task that gets one turn more than its program has actions
brings the program to its end, which is the full one unless somebody asks for a stop.
-/

namespace GridPuzzle

/-- Whether a usage is a turn of a given task. -/
def Usage.isTurnOf (k : TaskId) : Usage → Bool
  | .turn j _ => j == k
  | _ => false

/-- Whether a usage is the turn of a task. -/
def Usage.isTurn : Usage → Bool
  | .turn _ _ => true
  | _ => false

/-- Whether an action asks for a program to be stopped. -/
def Action.asksToStop (p : ProgramId) : Action → Bool
  | .script _ requests => requests.contains (.stop p)
  | .command _ => false

namespace Session

/-! ## Stops -/

/-- A claimed program does not run once a request to stop it has been carried out. -/
theorem isRunning_of_stopped {depth : Nat} {p : ProgramId} {s t : Session}
    (h : performWithin depth (.stop p) s = (.value (), t)) (hclaimed : s.Claimed p) :
    t.isRunning p = false := by
  cases depth with
  | zero => cases h
  | succ depth =>
    obtain ⟨status, hst, -⟩ := hclaimed
    obtain ⟨q, hq, -⟩ := Option.map_eq_some_iff.mp hst
    obtain ⟨final, hfinal⟩ := final?_stop (performWithin_disciplined depth) hq
    have hstop : (stop (performWithin depth) p s).2 = t := congrArg Prod.snd h
    rw [hstop] at hfinal
    exact isRunning_of_final? hfinal

/-- A claimed program does not run once all requests of a list have been carried out, one of which
was to stop it. -/
theorem isRunning_performAll {depth : Nat} {p : ProgramId} {requests : List Request}
    {s t : Session} (h : performAll (performWithin depth) requests s = (.value (), t))
    (hp : .stop p ∈ requests) (hclaimed : s.Claimed p) : t.isRunning p = false := by
  have hperform := performWithin_disciplined depth
  induction requests generalizing s with
  | nil => cases hp
  | cons r rest ih =>
    unfold performAll at h
    have hr := (hperform r s trivial).2.later
    cases hu : performWithin depth r s with
    | mk answer u =>
      rw [hu] at h hr
      cases answer with
      | panicked => cases h
      | value _ =>
        rw [andThen_value] at h
        have hclaimed' := hr.claimed hclaimed
        obtain rfl | hp := List.mem_cons.mp hp
        · -- the requests that follow find the program halted
          have hrest : Later u (performAll (performWithin depth) rest u).2 :=
            (Proceeds.steady.performAll hperform (fun _ _ => trivial) u).2.later
          rw [h] at hrest
          exact hrest.halted hclaimed' (isRunning_of_stopped hu hclaimed)
        · exact ih h hp hclaimed'

/-- An action that asks for its own program to be stopped has stopped it when it is over. -/
theorem running_invocation {depth : Nat} {p : ProgramId} {index : Nat} {a : Action} {s : Session}
    (hrun : s.isRunning p = true)
    (hcompleted : (invocation (performWithin depth) p index a s).completed = true)
    (hstop : a.asksToStop p = true) :
    (invocation (performWithin depth) p index a s).running = false := by
  have hclaimed : s.Claimed p := ⟨.running, isRunning_iff.mp hrun, by decide⟩
  cases a with
  | command d => cases hstop
  | script name requests =>
    have hmem : Request.stop p ∈ requests := by simpa [Action.asksToStop] using hstop
    have hclaimed' : (s.record (.action p index name)).Claimed p := hclaimed
    simp only [invocation, act] at hcompleted ⊢
    cases hperformed : performAll (performWithin depth) requests
        (s.record (.action p index name)) with
    | mk answer t =>
      rw [hperformed] at hcompleted
      cases answer with
      | value _ => exact isRunning_performAll hperformed hmem hclaimed'
      | panicked => cases hcompleted

/-! ## Turns -/

section Turns

variable {perform : Perform} (hperform : perform.Disciplined)

include hperform

/-- The start of a claimed program answers with its task, which is ready. -/
theorem getElem?_startClaimed {p : ProgramId} {s t : Session} {k : TaskId}
    (h : startClaimed perform p s = (.value k, t)) :
    t.tasks[k]? = some ⟨p, .ready t.now, false⟩ := by
  obtain ⟨u, -, hstart | hstart⟩ := Proceeds.steady.startClaimed_cases hperform p s
  · cases h.symm.trans hstart
  · cases h.symm.trans hstart
    exact Array.getElem?_push_size

/-- A run that succeeds answers with the task of the program, which is ready. -/
theorem getElem?_start {inRuntime : Bool} {p : ProgramId} {s t : Session} {k : TaskId}
    (h : start perform inRuntime p s = (.value (some k), t)) :
    t.tasks[k]? = some ⟨p, .ready t.now, false⟩ := by
  unfold start at h
  cases inRuntime with
  | false => cases h
  | true =>
    rw [if_pos rfl] at h
    revert h
    rcases claim p s with ⟨_ | _, u⟩
    · exact nofun
    · intro h
      dsimp only at h
      cases hstart : startClaimed perform p u with
      | mk answer v =>
        rw [hstart] at h
        cases answer with
        | panicked => cases h
        | value j =>
          cases h
          exact getElem?_startClaimed hperform hstart

/-- A stretch leaves its task fewer turns than it had. -/
private theorem turns_stretch {k : TaskId} {s : Session} {r : Stretch} {task : Task} {q : Program}
    (h : Sound s) (hr : stretchOf? perform k s = some r)
    (htask : s.tasks[k]? = some task) (hq : s.programs[task.program]? = some q) :
    r.state.turns q.length ≤ task.state.turns q.length - 1 := by
  obtain ⟨task', q', left, htask', hq', hturns, -, hplays⟩ := h.stretch hperform hr
  cases htask.symm.trans htask'
  cases hq.symm.trans hq'
  rw [hturns, Nat.add_sub_cancel]
  cases hstate : r.state with
  | ready since => exact absurd hstate (hplays.started since)
  | asleep left' wake =>
    have hplayed := List.length_pos_iff.mpr (hplays.advanced left' wake hstate)
    have hrest := hplays.asleep left' wake hstate
    show left' + 1 ≤ left
    omega
  | ended how => exact Nat.zero_le left

/-- Giving a task its turn leaves no other task with other turns, and itself with fewer. -/
private theorem turns_resume {s : Session} (h : Sound s) {k : TaskId} {task : Task} {q : Program}
    (htask : s.tasks[k]? = some task) (hq : s.programs[task.program]? = some q) (j : TaskId) :
    ∃ task', (resume perform j s).tasks[k]? = some task' ∧ task'.program = task.program ∧
      task'.state.turns q.length ≤ task.state.turns q.length - (j == k).toNat := by
  rw [resume_eq]
  cases hr : stretchOf? perform j s with
  | none =>
    refine ⟨task, htask, rfl, ?_⟩
    by_cases hjk : j = k
    · subst hjk
      obtain ⟨how, hstate⟩ := stretchOf?_eq_none hr htask hq
      rw [hstate]
      exact Nat.zero_le _
    · rw [beq_false_of_ne hjk]
      exact Nat.le_refl _
  | some r =>
    obtain ⟨_, _, _, -, -, -, -, hplays⟩ := h.stretch hperform hr
    have hkept : r.session.tasks[k]? = some task := hplays.recruits.getElem? htask
    simp only [setTask, Array.getElem?_modify, hkept]
    by_cases hjk : j = k
    · subst hjk
      rw [if_pos rfl, beq_self_eq_true]
      exact ⟨_, rfl, rfl, turns_stretch hperform h hr htask hq⟩
    · rw [if_neg hjk, beq_false_of_ne hjk]
      exact ⟨task, rfl, rfl, Nat.le_refl _⟩

/-- What clients do leaves a task where it is. -/
theorem getElem?_use {s : Session} {k : TaskId} {task : Task} (htask : s.tasks[k]? = some task)
    {u : Usage} (hu : u.isTurn = false) : (use perform u s).tasks[k]? = some task := by
  cases u with
  | call c acts => exact (call_proceeds hperform acts s).recruits.getElem? htask
  | claim p => exact (congrArg (·[k]?) (tasks_claim p s)).trans htask
  | startClaimed p =>
    show (if s.isClaimed p then (startClaimed perform p s).2 else s).tasks[k]? = some task
    split
    · obtain ⟨t, ht, hstart⟩ := Proceeds.steady.startClaimed_cases hperform p s
      have hkept := ht.2.recruits.getElem? htask
      obtain hstart | hstart := hstart
      · rw [hstart]
        exact hkept
      · rw [hstart, spawned, Array.getElem?_push,
          if_neg (Nat.ne_of_lt (Array.getElem?_eq_some_iff.mp hkept).1)]
        exact hkept
    · exact htask
  | turn j due => cases hu

/-- A usage leaves a task no more turns than it had, and the task's own turn leaves it fewer. -/
theorem turns_use {s : Session} (h : Sound s) {k : TaskId} {task : Task} {q : Program}
    (htask : s.tasks[k]? = some task) (hq : s.programs[task.program]? = some q) (u : Usage) :
    ∃ task', (use perform u s).tasks[k]? = some task' ∧ task'.program = task.program ∧
      task'.state.turns q.length ≤ task.state.turns q.length - (u.isTurnOf k).toNat := by
  cases u with
  | call | claim | startClaimed =>
    exact ⟨task, getElem?_use hperform htask rfl, rfl, Nat.le_refl _⟩
  | turn j due => exact turns_resume hperform (h.anytime (max s.now due)) htask hq j

/-- Usages leave a task fewer turns by as many as it gets. -/
theorem turns_uses {s : Session} (h : Sound s) {k : TaskId} {task : Task} {q : Program}
    (htask : s.tasks[k]? = some task) (hq : s.programs[task.program]? = some q)
    (us : List Usage) :
    ∃ task', (uses perform us s).tasks[k]? = some task' ∧ task'.program = task.program ∧
      task'.state.turns q.length ≤ task.state.turns q.length - us.countP (·.isTurnOf k) := by
  induction us generalizing s task q with
  | nil => exact ⟨task, htask, rfl, Nat.le_refl _⟩
  | cons u us ih =>
    have hsound := use_sound hperform u h
    obtain ⟨task', htask', hprogram, hturns⟩ := turns_use hperform h htask hq u
    have hclaimed := (h.task htask).claimed
    have hlater := use_later hperform u s
    obtain ⟨q', hq', -⟩ := hlater.history hq
    obtain ⟨q'', hq'', hactions⟩ := hlater.length_eq hclaimed hq'
    cases hq.symm.trans hq''
    have hlength : q'.length = q.length := congrArg Array.size hactions.symm
    obtain ⟨task'', htask'', hprogram', hturns'⟩ := ih hsound htask' (by rw [hprogram]; exact hq')
    refine ⟨task'', htask'', hprogram'.trans hprogram, ?_⟩
    have hturn : (u.isTurnOf k).toNat = if u.isTurnOf k = true then 1 else 0 := by
      cases u.isTurnOf k <;> rfl
    rw [hlength] at hturns'
    rw [hturn] at hturns
    rw [List.countP_cons]
    omega

end Turns

/-! ## The whole life -/

/-- The sessions of a life come about by usages, all but those that start a program without a
claim. -/
theorem Life.session_after (perform : Perform) (us : List Usage) (l : Life) :
    ∃ us', us'.Sublist us ∧ (l.after perform us).session = uses perform us' l.session ∧
      ∀ k, us'.countP (·.isTurnOf k) = us.countP (·.isTurnOf k) := by
  induction us generalizing l with
  | nil => exact ⟨[], .slnil, rfl, fun _ => rfl⟩
  | cons u us ih =>
    obtain ⟨us', hsublist, hsession, hturns⟩ := ih (l.use perform u)
    rw [Life.after_cons]
    have taken (h : (l.use perform u).session = Session.use perform u l.session) :
        ∃ us', us'.Sublist (u :: us) ∧
          ((l.use perform u).after perform us).session = uses perform us' l.session ∧
          ∀ k, us'.countP (·.isTurnOf k) = (u :: us).countP (·.isTurnOf k) := by
      refine ⟨u :: us', hsublist.cons_cons u, ?_, fun k => ?_⟩
      · rw [uses_cons, ← h]
        exact hsession
      · rw [List.countP_cons, List.countP_cons, hturns]
    cases u with
    | call | claim | turn => exact taken rfl
    | startClaimed p =>
      by_cases hp : p ∈ l.claims
      · exact taken (by rw [Life.use_startClaimed, if_pos hp])
      · have hskipped : l.use perform (.startClaimed p) = l := if_neg hp
        rw [hskipped] at hsession ⊢
        exact ⟨us', hsublist.cons _, hsession, fun k => by rw [hturns, List.countP_cons]; rfl⟩

section Whole

variable {perform : Perform}

/-- Where nothing has been started yet, nothing has been invoked. -/
theorem Fresh.life {s : Session} (h : s.Fresh) : Life.Sound perform ⟨s, [], []⟩ where
  session := h.sound
  players := by
    rw [h.tasks]
    exact List.nodup_nil
  claimed p hp := by cases hp
  staffed e he := by cases he
  accounts p :=
    { claimed := fun hne => absurd rfl hne
      script := fun q hq => ⟨Nat.zero_le _, nofun⟩
      last := fun es e es' hsplit => by simp [Life.invocations, invocationsOf] at hsplit
      finished := fun q hq hstatus => by
        rw [(h.programs p q hq).1] at hstatus
        cases hstatus }
  standings k task htask := by
    rw [h.tasks] at htask
    cases htask

namespace Life.Sound

variable {l : Life} (h : l.Sound perform) (hperform : perform.Disciplined)

include h hperform

/-- Nothing is invoked for a program that does not run any more. -/
theorem invocations_use {p : ProgramId} (hidle : l.session.isRunning p = false) (u : Usage) :
    (l.use perform u).invocations p = l.invocations p := by
  cases u with
  | call | claim => rfl
  | startClaimed p' =>
    rw [Life.use_startClaimed]
    split <;> rfl
  | turn k due =>
    show invocationsOf p (l.log ++ invoked perform k due l.session) = invocationsOf p l.log
    have hclock : Session.Sound { l.session with now := max l.session.now due } :=
      h.session.anytime _
    unfold invoked
    cases hr : stretchOf? perform k { l.session with now := max l.session.now due } with
    | none =>
      dsimp only
      rw [List.append_nil]
    | some r =>
      obtain ⟨task, _, _, -, -, -, -, hplays⟩ := hclock.stretch hperform hr
      dsimp only
      by_cases hp : p = task.program
      · subst hp
        rw [hplays.idle hidle, List.append_nil]
      · exact hplays.invocationsOf_append_of_ne _ hp

/-- Once a program has a final status, nothing is invoked for it any more. -/
theorem invocations_after {p : ProgramId} {status : Status}
    (hfinal : final? p l.session = some status) (us : List Usage) :
    (l.after perform us).invocations p = l.invocations p := by
  induction us generalizing l with
  | nil => rfl
  | cons u us ih =>
    have hafter : final? p (l.use perform u).session = some status := by
      obtain ⟨us', -, hsession, -⟩ := Life.session_after perform [u] l
      obtain ⟨hst, hterminal⟩ := final?_eq_some.mp hfinal
      rw [Life.after_cons, Life.after_nil] at hsession
      rw [hsession]
      exact final?_eq_some.mpr ⟨(uses_later hperform us' _).final hst hterminal, hterminal⟩
    rw [Life.after_cons, ih (h.use hperform u) hafter]
    exact h.invocations_use hperform (isRunning_of_final? hfinal) u

/-- A task that gets its turns, and whose program's actions do not panic, ends with its program. -/
theorem final?_of_turns {k : TaskId} {task : Task} {q : Program}
    (htask : l.session.tasks[k]? = some task) (hq : l.session.programs[task.program]? = some q)
    {us : List Usage} (hturns : q.length < us.countP (·.isTurnOf k))
    (hcompleted : ∀ e ∈ (l.after perform us).invocations task.program, e.completed = true) :
    ∃ status, final? task.program (l.after perform us).session = some status := by
  have hafter := h.after hperform us
  have hsound := h.session.task htask
  have hfew : task.state.turns q.length ≤ q.length + 1 := by
    cases hstate : task.state with
    | ready since => exact Nat.le_refl _
    | asleep left wake => exact Nat.succ_le_succ (hsound.asleep left wake q hstate hq)
    | ended how => exact Nat.zero_le _
  obtain ⟨us', -, hsession, hsame⟩ := Life.session_after perform us l
  obtain ⟨task', htask', hprogram, hleft⟩ := turns_uses hperform h.session htask hq us'
  rw [← hsession] at htask'
  rw [hsame] at hleft
  have hnone : task'.state.turns q.length = 0 := by omega
  rw [← hprogram] at hcompleted ⊢
  cases hstate : task'.state with
  | ready since =>
    rw [hstate] at hnone
    cases hnone
  | asleep left wake =>
    rw [hstate] at hnone
    cases hnone
  | ended how =>
    cases how with
    | returned status =>
      obtain ⟨hst, hfinal⟩ := (hafter.session.task htask').returned status hstate
      exact ⟨status, final?_eq_some.mpr ⟨hst, hfinal⟩⟩
    | panicked =>
      have hstanding := hafter.standings k task' htask'
      obtain ⟨e, he, hpanicked⟩ | hfinished := hstanding.panicked hstate
      · rw [hcompleted e he] at hpanicked
        cases hpanicked
      · exact ⟨.finished, final?_eq_some.mpr ⟨hfinished, rfl⟩⟩

omit hperform in
/-- The actions of a finished program are those that were invoked for it. -/
theorem actions_of_finished {p : ProgramId} {q : Program}
    (hq : l.session.programs[p]? = some q) (hfinished : q.status = .finished) :
    (l.invocations p).map Invocation.action = q.actions.toList := by
  have haccount := h.accounts p
  rw [(haccount.script q hq).actions, haccount.finished q hq hfinished]
  exact List.take_length

end Life.Sound

end Whole

/-- Nothing is invoked after an action that has stopped its program. -/
theorem Life.Sound.last_of_stop {depth : Nat} {l : Life} (h : l.Sound (performWithin depth))
    {p : ProgramId} {q : Program} (hq : l.session.programs[p]? = some q) {es es' : List Invocation}
    {e : Invocation} (hsplit : l.invocations p = es ++ e :: es')
    (hstop : e.running = false ∨ e.completed = true ∧ e.action.asksToStop p = true) : es' = [] := by
  have haccount := h.accounts p
  have hrunning : e.running = false := by
    obtain hidle | ⟨hcompleted, hasks⟩ := hstop
    · exact hidle
    · have hentry : (l.invocations p)[es.length]? = some e := by
        rw [hsplit, List.getElem?_append_right (Nat.le_refl _), Nat.sub_self]
        rfl
      obtain ⟨a, u, -, hrun, rfl⟩ := (haccount.script q hq).entry es.length e hentry
      exact running_invocation hrun hcompleted hasks
  exact (haccount.last es e es' hsplit hrunning).1

/-- However programs are used, each plays the beginning of its actions, in order and each once,
nothing after a stop, and everything if nobody stops it. -/
theorem actions_are_played_in_order {depth : Nat} {s : Session} (fresh : s.Fresh)
    (us : List Usage) :
    let perform := performWithin depth
    let l := Life.after perform us ⟨s, [], []⟩
    ∀ (p : ProgramId) (q : Program), l.session.programs[p]? = some q →
      (∃ n ≤ q.length, (l.invocations p).map Invocation.index = List.range n ∧
        (l.invocations p).map Invocation.action = q.actions.toList.take n) ∧
      -- nothing follows an action that has stopped the program, or a stop that has returned
      (∀ es e es', l.invocations p = es ++ e :: es' →
        e.running = false ∨ e.completed = true ∧ e.action.asksToStop p = true → es' = []) ∧
      (∀ us', ((l.use perform (.call (.stop p) id)).after perform us').invocations p =
        l.invocations p) ∧
      (q.status.isTerminal = true →
        ∀ us', (l.after perform us').invocations p = l.invocations p) ∧
      (q.status = .finished →
        (l.invocations p).map Invocation.action = q.actions.toList ∧ .aborted ∉ q.history) ∧
      -- whoever starts a program gets its task
      (∀ k t, startClaimed perform p l.session = (.value k, t) ∨
        start perform true p l.session = (.value (some k), t) →
          t.tasks[k]? = some ⟨p, .ready t.now, false⟩) ∧
      -- the task gets a turn for its begin and for each of its sleeps, and no action panics
      ∀ (k : TaskId) (task : Task), l.session.tasks[k]? = some task → task.program = p → ∀ us',
        q.length < us'.countP (·.isTurnOf k) →
        (∀ e ∈ (l.after perform us').invocations p, e.completed = true) →
        (final? p (l.after perform us').session = some .aborted ∨
          final? p (l.after perform us').session = some .finished ∧
            ((l.after perform us').invocations p).map Invocation.action = q.actions.toList) ∧
        -- nobody asks for a stop, and the scene does not bring it about
        (l.session.Spared (· ≠ .stop p) → (∀ u ∈ us', u.AsksOnly (· ≠ .stop p)) →
          final? p (l.after perform us').session = some .finished) := by
  have hperform := performWithin_disciplined depth
  intro perform l p q hq
  have hl : l.Sound perform := fresh.life.after hperform us
  have hscript := (hl.accounts p).script q hq
  refine ⟨⟨_, hscript.bounded, hscript.indices, hscript.actions⟩,
    fun es e es' => hl.last_of_stop hq, fun us' => ?_, fun hfinal us' => ?_,
    fun hfinished => ⟨hl.actions_of_finished hq hfinished, ?_⟩,
    fun k t hstart => hstart.elim (getElem?_startClaimed hperform) (getElem?_start hperform),
    fun k task htask hprogram us' hturns hcompleted => ?_⟩
  · obtain ⟨status, hstatus⟩ := final?_stop hperform hq
    have hafter : final? p (l.use perform (.call (.stop p) id)).session = some status := by
      show final? p (answered (fun _ => CallAnswer.none) (stop perform p l.session)).2 = _
      rw [snd_answered]
      exact hstatus
    exact (hl.use hperform _).invocations_after hperform hafter us'
  · have hst : l.session.status? p = some q.status := by simp [status?, hq]
    exact hl.invocations_after hperform (final?_eq_some.mpr ⟨hst, hfinal⟩) us'
  · have hlawful := hl.session.lawful p q hq
    unfold Program.Lawful at hlawful
    rw [hfinished] at hlawful
    rw [Program.history, hfinished, show q.past = _ from hlawful]
    decide
  · subst hprogram
    have hl' : (l.after perform us').Sound perform := hl.after hperform us'
    have hclaimed := (hl.session.task htask).claimed
    obtain ⟨us'', hsublist, hsession, -⟩ := Life.session_after perform us' l
    have hlater : Later l.session (l.after perform us').session := by
      rw [hsession]
      exact uses_later hperform us'' _
    obtain ⟨status, hstatus⟩ := hl.final?_of_turns hperform htask hq hturns hcompleted
    obtain ⟨hst, hfinal⟩ := final?_eq_some.mp hstatus
    rw [hstatus]
    refine ⟨?_, fun hspared hus => ?_⟩
    · cases status with
      | stopped | running => cases hfinal
      | aborted => exact .inl rfl
      | finished =>
        obtain ⟨q', hq', hfinished⟩ := Option.map_eq_some_iff.mp hst
        obtain ⟨q'', hq'', hactions⟩ := hlater.length_eq hclaimed hq'
        cases hq.symm.trans hq''
        refine .inr ⟨rfl, ?_⟩
        rw [hl'.actions_of_finished hq' hfinished, hactions]
    · have hafter : (l.after perform us').session.Spared (· ≠ .stop task.program) := by
        rw [hsession]
        exact hspared.uses ((Spares.steady _).performWithin depth)
          fun u hu => hus u (hsublist.subset hu)
      cases status with
      | stopped | running => cases hfinal
      | aborted => exact absurd hst (hafter.unstopped task.program (by simp))
      | finished => rfl

/-- A program of two actions that ask for nothing. -/
def modestProgram : Program where
  source := ""
  actions := #[.script "one" [], .script "two" []]
  delay := .ofMillis 100

/-- Nobody asks for the program to be stopped, and the scene plays none. -/
theorem spared_modestProgram : (ofProgram modestProgram).Spared (· ≠ .stop 0) where
  observers p q hq := by
    rw [eq_of_ofProgram hq]
    exact nofun
  actions p q hq := by
    rw [eq_of_ofProgram hq]
    simp [modestProgram, Action.AsksOnly]
  watchers c hc := by simp [ofProgram, Scene.ofLevel] at hc
  statuses := nofun
  completions := nofun
  bumps := nofun
  slot := nofun
  fresh p hp := by
    rintro ⟨rfl⟩
    exact absurd hp (by decide)
  unstopped p hp := by
    have hzero : p = 0 := by simpa using hp
    rw [hzero]
    decide

/-- The last action of a program is never played, for the one before it has stopped the program; a
program that nobody stops is finished in one turn more than it has actions. -/
theorem scripts_end_with_a_stop_or_in_full :
    (let l := (Life.mk (ofProgram shortProgram) [] []).after (performWithin 1)
        [.call (.start true 0) id, .turn 0 0, .turn 0 100]
      ∀ us, ((l.after (performWithin 1) us).invocations 0).map Invocation.index = [0, 1]) ∧
    let l := (Life.mk (ofProgram modestProgram) [] []).after (performWithin 1)
      [.call (.start true 0) id]
    final? 0 (l.after (performWithin 1) [.turn 0 0, .turn 0 100, .turn 0 200]).session =
      some .finished := by
  constructor
  · intro l us
    have fresh : (ofProgram shortProgram).Fresh := fresh_ofProgram rfl rfl
    have hst : l.session.status? 0 = some .aborted := by decide +kernel
    obtain ⟨q, hq, hstatus⟩ := Option.map_eq_some_iff.mp hst
    obtain ⟨-, -, -, hover, -⟩ := actions_are_played_in_order fresh
      [.call (.start true 0) id, .turn 0 0, .turn 0 100] 0 q hq
    rw [hover (by rw [hstatus]; rfl) us]
    decide +kernel
  · intro l
    have fresh : (ofProgram modestProgram).Fresh := fresh_ofProgram rfl rfl
    have hlength : (l.session.programs[0]?).map Program.length = some 2 := by decide +kernel
    obtain ⟨q, hq, htwo⟩ := Option.map_eq_some_iff.mp hlength
    obtain ⟨-, -, -, -, -, -, hlive⟩ := actions_are_played_in_order fresh
      [.call (.start true 0) id] 0 q hq
    have hstart : ∀ u ∈ [Usage.call (.start true 0) id], u.AsksOnly (· ≠ .stop 0) := by
      simp [Usage.AsksOnly, Call.AsksOnly]
    have hspared : l.session.Spared (· ≠ .stop 0) :=
      spared_modestProgram.uses ((Spares.steady _).performWithin 1) hstart
    have htask : l.session.tasks[0]? = some ⟨0, .ready 0, false⟩ := by decide +kernel
    refine (hlive 0 _ htask rfl [.turn 0 0, .turn 0 100, .turn 0 200] ?_ ?_).2 hspared ?_
    · rw [htwo]
      decide
    · decide +kernel
    · simp [Usage.AsksOnly]

/-- A sleep that takes no time ends a turn as well, so a stop may come between two actions. -/
example :
    let l := (Life.mk (ofProgram { modestProgram with delay := .ofMillis 0 }) [] []).after
      (performWithin 1) [.call (.start true 0) id, .turn 0 0, .call (.stop 0) id, .turn 0 0]
    (l.invocations 0).map Invocation.index = [0] ∧ final? 0 l.session = some .aborted := by
  decide +kernel

end Session

end GridPuzzle
