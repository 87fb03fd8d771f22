import GridPuzzle.Proofs.Session.SinglePlayer

/-!
# What time leaves of a program

Whatever happens in a session, a program stays what it was made as, its history only grows, a final
status is kept, and a program that has left its first status never returns to it. Whatever is
asked for within one call or one action, tasks are only started for programs claimed on the way,
each for another one, and no program is finished: that is left to its own task.
-/

namespace GridPuzzle

/-- A program's past fits its present status. -/
def Program.Lawful (q : Program) : Prop :=
  match q.status with
  | .stopped => q.past = []
  | .running => q.past = [.stopped]
  | .finished => q.past = [.running, .stopped]
  | .aborted => q.past = [.stopped] ∨ q.past = [.running, .stopped]

/-- The history of a program is the beginning of one of three. -/
theorem Program.Lawful.history {q : Program} (h : q.Lawful) :
    q.history <+: [.stopped, .running, .finished] ∨
      q.history <+: [.stopped, .running, .aborted] ∨ q.history <+: [.stopped, .aborted] := by
  unfold Program.Lawful at h
  unfold Program.history
  cases hstatus : q.status with
  | stopped =>
    rw [hstatus] at h
    rw [show q.past = [] from h]
    decide
  | running =>
    rw [hstatus] at h
    rw [show q.past = [.stopped] from h]
    decide
  | finished =>
    rw [hstatus] at h
    rw [show q.past = [.running, .stopped] from h]
    decide
  | aborted =>
    rw [hstatus] at h
    obtain hpast | hpast : q.past = [.stopped] ∨ q.past = [.running, .stopped] := h
    · rw [hpast]
      decide
    · rw [hpast]
      decide

/-- A further status is put at the end of a history. -/
theorem Program.history_become (q : Program) (status : Status) :
    (q.become status).history = q.history ++ [status] := by
  simp [Program.history, Program.become]

/-- The history of a program with a final status grows no more. -/
theorem Program.Lawful.history_final {q q' : Program} (h : q.Lawful) (h' : q'.Lawful)
    (hfinal : q.status.isTerminal = true) (hsame : q'.status = q.status)
    (hgrown : q.history <+: q'.history) : q'.history = q.history := by
  unfold Program.Lawful at h h'
  unfold Program.history at hgrown ⊢
  rw [hsame] at h' hgrown ⊢
  cases hstatus : q.status with
  | stopped | running =>
    rw [hstatus] at hfinal
    cases hfinal
  | finished =>
    rw [hstatus] at h h'
    rw [show q.past = _ from h, show q'.past = _ from h']
  | aborted =>
    rw [hstatus] at h h' hgrown
    obtain hpast | hpast : q.past = [.stopped] ∨ q.past = [.running, .stopped] := h
    all_goals
      obtain hpast' | hpast' : q'.past = [.stopped] ∨ q'.past = [.running, .stopped] := h'
      all_goals
        revert hgrown
        rw [hpast, hpast']
        decide

/-- A program that can be claimed has been neither started nor stopped. -/
theorem Program.Lawful.history_claimable {q : Program} (h : q.Lawful)
    (hclaimable : q.isClaimable = true) : q.isEmpty = false ∧ q.history = [.stopped] := by
  simp only [Program.isClaimable, Bool.and_eq_true, beq_iff_eq, Bool.not_eq_true'] at hclaimable
  obtain ⟨hempty, hstopped⟩ := hclaimable
  unfold Program.Lawful at h
  rw [hstopped] at h
  refine ⟨hempty, ?_⟩
  rw [Program.history, hstopped, show q.past = _ from h]
  rfl

/-- A program that has not ended may be stopped. -/
theorem Program.Lawful.aborted {q : Program} (h : q.Lawful)
    (hopen : q.status.isTerminal = false) : (q.become .aborted).Lawful := by
  unfold Program.Lawful at h
  show q.status :: q.past = _ ∨ q.status :: q.past = _
  cases hstatus : q.status with
  | stopped =>
    rw [hstatus] at h
    exact .inl (congrArg _ h)
  | running =>
    rw [hstatus] at h
    exact .inr (congrArg _ h)
  | finished | aborted =>
    rw [hstatus] at hopen
    cases hopen

/-- A running program may be finished. -/
theorem Program.Lawful.finished {q : Program} (h : q.Lawful) (hrun : q.status = .running) :
    (q.become .finished).Lawful := by
  unfold Program.Lawful at h
  rw [hrun] at h
  show q.status :: q.past = _
  rw [hrun, h]

/-- A program that has never been started or stopped may be started. -/
theorem Program.Lawful.running {q : Program} (h : q.Lawful) (hstopped : q.status = .stopped) :
    (q.become .running).Lawful := by
  unfold Program.Lawful at h
  rw [hstopped] at h
  show q.status :: q.past = _
  rw [hstopped, h]

/-- The program of a text is accepted with a lawful past. -/
theorem Program.lawful_claimed_ofSource (source : String) (delay : Delay)
    (observers : List (Callback StatusNotice)) :
    (Program.ofSource source delay observers).claimed.Lawful := by
  unfold Program.claimed
  split <;> rfl

namespace Session

/-- Every program's past fits its present status. -/
def Lawful (s : Session) : Prop :=
  ∀ (p : ProgramId) (q : Program), s.programs[p]? = some q → q.Lawful

/-- A lawful change of one status keeps every past lawful. -/
theorem Lawful.setStatus {s : Session} (h : s.Lawful) {p : ProgramId} {status : Status}
    (hp : ∀ q, s.programs[p]? = some q → (q.become status).Lawful) :
    (s.setStatus p status).Lawful := by
  intro p' q hq
  simp only [Session.setStatus, Array.getElem?_modify] at hq
  split at hq
  · rename_i hpp
    obtain ⟨q', hq', rfl⟩ := Option.map_eq_some_iff.mp hq
    exact hp q' (by rw [hpp]; exact hq')
  · exact h p' q hq

/-- A subscription is no matter of the past. -/
theorem Lawful.subscribe {s : Session} (h : s.Lawful) (p : ProgramId)
    (c : Callback StatusNotice) : (s.subscribe p c).Lawful := by
  intro p' q hq
  simp only [Session.subscribe, Array.getElem?_modify] at hq
  split at hq
  · obtain ⟨q', hq', rfl⟩ := Option.map_eq_some_iff.mp hq
    exact h p' q' hq'
  · exact h p' q hq

/-- Every primitive change keeps every past lawful. -/
theorem Change.lawful {s t : Session} (hc : Change s t) (h : s.Lawful) : t.Lawful := by
  have status_of {p : ProgramId} {q : Program} {status : Status}
      (hst : s.status? p = some status) (hq : s.programs[p]? = some q) : q.status = status := by
    simpa [status?, hq] using hst
  cases hc with
  | abort hst hopen =>
    exact h.setStatus fun q hq => (h _ q hq).aborted (by rw [status_of hst hq]; exact hopen)
  | finish hrun =>
    exact h.setStatus fun q hq => (h _ q hq).finished (status_of (isRunning_iff.mp hrun) hq)
  | @claim p q hq hclaimable =>
    refine h.setStatus fun q' hq' => (h _ q' hq').running ?_
    cases hq.symm.trans hq'
    simp only [Program.isClaimable, Bool.and_eq_true, beq_iff_eq] at hclaimable
    exact hclaimable.2
  | accept source hidle =>
    intro p q hq
    simp only [accepted, Array.getElem?_push] at hq
    split at hq
    · cases hq
      exact Program.lawful_claimed_ofSource source _ _
    · exact h p q hq
  | follow p tag => exact h.subscribe p _
  | note | record | tell | witness | spawn | complete => exact h

/-- A history only grows. -/
theorem Change.history {s t : Session} (hc : Change s t) {p : ProgramId} {q : Program}
    (hq : s.programs[p]? = some q) :
    ∃ q', t.programs[p]? = some q' ∧ q.history <+: q'.history := by
  have modified (p' : ProgramId) (f : Program → Program) (hf : q.history <+: (f q).history) :
      ∃ q', (s.programs.modify p' f)[p]? = some q' ∧ q.history <+: q'.history := by
    rw [Array.getElem?_modify, hq]
    split
    · exact ⟨_, rfl, hf⟩
    · exact ⟨q, rfl, List.prefix_refl _⟩
  have become (p' : ProgramId) (status : Status) :
      ∃ q', (s.setStatus p' status).programs[p]? = some q' ∧ q.history <+: q'.history := by
    refine modified p' _ ?_
    rw [Program.history_become]
    exact List.prefix_append _ _
  cases hc with
  | abort | finish | claim => exact become _ _
  | follow => exact modified _ _ (List.prefix_refl _)
  | accept source hidle =>
    have hlt : p < s.programs.size := (Array.getElem?_eq_some_iff.mp hq).1
    refine ⟨q, ?_, List.prefix_refl _⟩
    simp only [accepted, Array.getElem?_push, if_neg (Nat.ne_of_lt hlt), hq]
  | note | record | tell | witness | spawn | complete => exact ⟨q, hq, List.prefix_refl _⟩

/-- What holds of every program later on, too, with the same timer. -/
structure Later (s t : Session) : Prop where
  claimed : ∀ {p : ProgramId}, s.Claimed p → t.Claimed p
  final : ∀ {p : ProgramId} {status : Status}, s.status? p = some status →
    status.isTerminal = true → t.status? p = some status
  has : ∀ {p : ProgramId} {q : Program}, s.Has p q → t.Has p q
  history : ∀ {p : ProgramId} {q : Program}, s.programs[p]? = some q →
    ∃ q', t.programs[p]? = some q' ∧ q.history <+: q'.history
  timer : t.timer = s.timer

namespace Later

theorem refl (s : Session) : Later s s where
  claimed h := h
  final h _ := h
  has h := h
  history hq := ⟨_, hq, List.prefix_refl _⟩
  timer := rfl

theorem trans {s t u : Session} (h : Later s t) (h' : Later t u) : Later s u where
  claimed hp := h'.claimed (h.claimed hp)
  final hst hfinal := h'.final (h.final hst hfinal) hfinal
  has hq := h'.has (h.has hq)
  history hq := by
    obtain ⟨q', hq', hgrown⟩ := h.history hq
    obtain ⟨q'', hq'', hgrown'⟩ := h'.history hq'
    exact ⟨q'', hq'', hgrown.trans hgrown'⟩
  timer := h'.timer.trans h.timer

/-- Nothing is lost where the programs stay as they are. -/
theorem of_programs {s t : Session} (h : t.programs = s.programs) (htimer : t.timer = s.timer) :
    Later s t where
  claimed := by
    rintro p ⟨status, hst, hne⟩
    exact ⟨status, (status?_congr h p).trans hst, hne⟩
  final hst _ := (status?_congr h _).trans hst
  has := by
    rintro p q ⟨q', hq', hsame⟩
    exact ⟨q', by rw [h]; exact hq', hsame⟩
  history hq := ⟨_, by rw [h]; exact hq, List.prefix_refl _⟩
  timer := htimer

theorem subscribe (s : Session) (p : ProgramId) (c : Callback StatusNotice) :
    Later s (s.subscribe p c) where
  claimed := by
    rintro p' ⟨status, hst, hne⟩
    exact ⟨status, (status?_subscribe s p p' c).trans hst, hne⟩
  final hst _ := (status?_subscribe s p _ c).trans hst
  has := by
    rintro p' q ⟨q', hq', hsame⟩
    simp only [Has, Session.subscribe, Array.getElem?_modify, hq']
    split
    · exact ⟨_, rfl, hsame⟩
    · exact ⟨q', rfl, hsame⟩
  history := by
    intro p' q hq
    simp only [Session.subscribe, Array.getElem?_modify, hq]
    split
    · exact ⟨_, rfl, List.prefix_refl _⟩
    · exact ⟨q, rfl, List.prefix_refl _⟩
  timer := rfl

/-- A program that was claimed and does not run never runs again. -/
theorem halted {s t : Session} (h : Later s t) {p : ProgramId} (hp : s.Claimed p)
    (hidle : s.isRunning p = false) : t.isRunning p = false := by
  obtain ⟨status, hst, hne⟩ := hp
  have hfinal : status.isTerminal = true := by
    cases status with
    | stopped => exact absurd rfl hne
    | running =>
      rw [isRunning_iff.mpr hst] at hidle
      cases hidle
    | finished | aborted => rfl
  exact isRunning_of_final? (final?_eq_some.mpr ⟨h.final hst hfinal, hfinal⟩)

end Later

theorem Change.later {s t : Session} (hc : Change s t) : Later s t :=
  ⟨hc.claimed, hc.final, hc.has, hc.history, hc.sameFrame.timer⟩

theorem Changes.later {s t : Session} (h : Changes s t) : Later s t :=
  h.keeps (fun hc hs => hs.trans hc.later) (.refl s)

/-- Every deed leaves programs with what they have. -/
theorem Deed.later {perform : Perform} (hperform : perform.Orderly) {allowed : Call → Prop}
    {s t : Session} (hd : Deed perform allowed s t) : Later s t := by
  refine hd.keeps (P := Later s) hperform (fun hc hs => hs.trans hc.later)
    (fun ha hs => hs.trans (.of_programs ha.programs ha.timer))
    (fun _ hs => hs.trans (.of_programs rfl rfl))
    ?_ (.refl s)
  intro u c hc _ hs
  rcases arrange_cases hc u with ⟨p, c', hcall⟩ | ⟨scene, -, hcall⟩
  · rw [hcall]
    exact hs.trans (.subscribe u p c')
  · rw [hcall]
    exact hs.trans (.of_programs rfl rfl)

/-- Every deed keeps every past lawful. -/
theorem Deed.lawful {perform : Perform} (hperform : perform.Orderly) {allowed : Call → Prop}
    {s t : Session} (hd : Deed perform allowed s t) (h : s.Lawful) : t.Lawful := by
  refine hd.keeps (P := Lawful) hperform Change.lawful ?_ (fun _ h => h) ?_ h
  · intro s t ha h p q hq
    rw [ha.programs] at hq
    exact h p q hq
  · intro s c hc _ h
    rcases arrange_cases hc s with ⟨p, c', hcall⟩ | ⟨scene, -, hcall⟩
    · rw [hcall]
      exact h.subscribe p c'
    · rw [hcall]
      exact h

/-- New tasks have come for programs claimed meanwhile, each for another one. -/
def Recruits (s t : Session) : Prop :=
  ∃ new : List Task, t.tasks.toList = s.tasks.toList ++ new ∧ (new.map Task.program).Nodup ∧
    ∀ task ∈ new, (∃ since, task.state = .ready since) ∧ ¬s.Claimed task.program ∧
      t.Claimed task.program

theorem Recruits.of_tasks {s t : Session} (h : t.tasks = s.tasks) : Recruits s t :=
  ⟨[], by rw [h, List.append_nil], List.nodup_nil, by simp⟩

/-- The tasks that there were keep their places. -/
theorem Recruits.getElem? {s t : Session} (h : Recruits s t) {k : TaskId} {task : Task}
    (htask : s.tasks[k]? = some task) : t.tasks[k]? = some task := by
  obtain ⟨new, htasks, -⟩ := h
  rw [← Array.getElem?_toList] at htask ⊢
  rw [htasks]
  rw [List.getElem?_append_left (List.getElem?_eq_some_iff.mp htask).1]
  exact htask

/-- A task was there before, or it is a recruit. -/
theorem Recruits.cases {s t : Session} (h : Recruits s t) {k : TaskId} {task : Task}
    (htask : t.tasks[k]? = some task) : s.tasks[k]? = some task ∨
      (∃ since, task.state = .ready since) ∧ ¬s.Claimed task.program ∧ t.Claimed task.program := by
  obtain ⟨new, htasks, -, hnew⟩ := h
  rw [← Array.getElem?_toList, htasks] at htask
  by_cases hold : k < s.tasks.toList.length
  · rw [List.getElem?_append_left hold, Array.getElem?_toList] at htask
    exact .inl htask
  · rw [List.getElem?_append_right (Nat.le_of_not_lt hold)] at htask
    exact .inr (hnew task (List.mem_iff_getElem?.mpr ⟨_, htask⟩))

theorem Recruits.trans {s t u : Session} (h : Recruits s t) (hst : Later s t)
    (h' : Recruits t u) (htu : Later t u) : Recruits s u := by
  obtain ⟨new, htasks, hnodup, hnew⟩ := h
  obtain ⟨new', htasks', hnodup', hnew'⟩ := h'
  refine ⟨new ++ new', by rw [htasks', htasks, List.append_assoc], ?_, ?_⟩
  · rw [List.map_append, List.nodup_append]
    refine ⟨hnodup, hnodup', ?_⟩
    rintro p hp p' hp' rfl
    obtain ⟨task, hmem, rfl⟩ := List.mem_map.mp hp
    obtain ⟨task', hmem', hsame⟩ := List.mem_map.mp hp'
    have hunclaimed := (hnew' task' hmem').2.1
    rw [hsame] at hunclaimed
    exact hunclaimed (hnew task hmem).2.2
  · intro task hmem
    obtain hmem | hmem := List.mem_append.mp hmem
    · obtain ⟨hready, hunclaimed, hclaimed⟩ := hnew task hmem
      exact ⟨hready, hunclaimed, htu.claimed hclaimed⟩
    · obtain ⟨hready, hunclaimed, hclaimed⟩ := hnew' task hmem
      exact ⟨hready, fun hp => hunclaimed (hst.claimed hp), hclaimed⟩

/-- A task for a program that was claimed first is one more recruit. -/
theorem Recruits.spawned {s t u : Session} {p : ProgramId} (htasks : t.tasks = s.tasks)
    (hst : Later s t) (hnew : ¬s.Claimed p) (hclaimed : t.Claimed p) (h : Recruits t u)
    (htu : Later t u) : Recruits s (u.spawned p) := by
  have hsu : Recruits s u := (Recruits.of_tasks htasks).trans hst h htu
  obtain ⟨recruits, hrecruits, -, hunclaimed⟩ := h
  obtain ⟨new, hall, hnodup, hready⟩ := hsu
  have hsame : new = recruits := by
    rw [hrecruits, htasks] at hall
    exact (List.append_cancel_left hall).symm
  refine ⟨new ++ [⟨p, .ready u.now, false⟩], ?_, ?_, ?_⟩
  · rw [Session.spawned, Array.toList_push, hall, List.append_assoc]
  · rw [List.map_append, List.nodup_append]
    refine ⟨hnodup, by simp, ?_⟩
    intro p' hp' p'' hp'' hpp
    obtain ⟨task, hmem, rfl⟩ := List.mem_map.mp hp'
    rw [hsame] at hmem
    have hp : p'' = p := by simpa using hp''
    rw [← hp, ← hpp] at hclaimed
    exact (hunclaimed task hmem).2.1 hclaimed
  · intro task hmem
    obtain hmem | hmem := List.mem_append.mp hmem
    · exact hready task hmem
    · cases List.mem_singleton.mp hmem
      exact ⟨⟨_, rfl⟩, hnew, htu.claimed hclaimed⟩

/-- What callbacks, actions and most calls do with programs and tasks. -/
structure Proceeds (s t : Session) : Prop where
  later : Later s t
  recruits : Recruits s t
  unfinished : ∀ p, t.status? p = some .finished → s.status? p = some .finished

namespace Proceeds

theorem trans {s t u : Session} (h : Proceeds s t) (h' : Proceeds t u) : Proceeds s u :=
  ⟨h.later.trans h'.later, h.recruits.trans h.later h'.recruits h'.later,
    fun p hp => h.unfinished p (h'.unfinished p hp)⟩

/-- Nothing proceeds where programs and tasks stay as they are. -/
theorem of_same {s t : Session} (hprograms : t.programs = s.programs)
    (htasks : t.tasks = s.tasks) (htimer : t.timer = s.timer) : Proceeds s t :=
  ⟨.of_programs hprograms htimer, .of_tasks htasks,
    fun p hp => (status?_congr hprograms p).symm.trans hp⟩

/-- Tame changes proceed. -/
theorem of_tame {allowed : Request → Prop} {s t : Session} (h : Tame allowed s t) :
    Proceeds s t := ⟨h.change.later, .of_tasks h.tasks, h.unfinished⟩

/-- Requests bring about nothing else. -/
theorem steady : Steady (fun _ => True) fun _ s t => Changes s t ∧ Proceeds s t where
  refl _ _ := ⟨.refl, .of_same rfl rfl rfl⟩
  trans h h' := ⟨h.1.trans h'.1, h.2.trans h'.2⟩
  given {_ s _} h := h (.anything s)
  changes _ := And.left
  calm h := ⟨.single h.change, .of_tame h.toTame⟩
  spawned {s t u p} h hafter := by
    have hspawned : Change u (u.spawned p) := .spawn (hafter.2.later.claimed h.claimed)
    refine ⟨(Relation.ReflTransGen.head h.change hafter.1).tail hspawned,
      (h.change.later.trans hafter.2.later).trans hspawned.later,
      .spawned h.tasks h.change.later h.unclaimed h.claimed hafter.2.recruits hafter.2.later, ?_⟩
    exact fun p' hp' => h.unfinished p' (hafter.2.unfinished p' hp')
  cutShort h hafter :=
    ⟨.head h.change hafter.1, (Proceeds.of_tame h.toTame).trans hafter.2⟩

end Proceeds

/-- A way to carry out requests that starts tasks for claimed programs only and finishes no
program. -/
abbrev Perform.Disciplined (perform : Perform) : Prop :=
  perform.Within (fun _ => True) fun _ s t => Changes s t ∧ Proceeds s t

theorem performWithin_disciplined (depth : Nat) : (performWithin depth).Disciplined :=
  Proceeds.steady.performWithin depth

section Calls

variable {perform : Perform} (hperform : perform.Disciplined)

include hperform

theorem Perform.Disciplined.orderly : perform.Orderly := fun r s h => (hperform r s h).1

/-- A step of the robot proceeds like the callbacks that it calls. -/
theorem step_proceeds (d : Direction) (s : Session) : Proceeds s (step perform d s).2 := by
  obtain ⟨t, ht, hstep | ⟨m, -, -, hstep⟩⟩ := Proceeds.steady.step_cases hperform d s
  · rw [hstep]
    exact ht.2.trans (.of_same rfl rfl rfl)
  · rw [hstep]
    exact ht.2.trans (.of_same rfl rfl rfl)

theorem act_proceeds (p : ProgramId) (index : Nat) (a : Action) (s : Session) :
    Proceeds s (act perform p index a s).2 := by
  cases a with
  | command d =>
    rw [act_command]
    exact step_proceeds hperform d s
  | script name requests =>
    exact (Proceeds.steady.script hperform p index name (fun _ _ => trivial) s).2

/-- A call that does not wait proceeds like the callbacks that it calls. -/
theorem call_proceeds {c : Call} (hc : ¬c.IsWait) (s : Session) :
    Proceeds s (call perform c s).2 := by
  have ordered (horder : c.IsOrder) : Proceeds s (call perform c s).2 := by
    obtain ⟨_, ⟨-, h⟩, -⟩ := Proceeds.steady.order hperform horder (fun _ _ => trivial) s
    exact h
  have arranged (harrange : c.isArrangement = true) : Proceeds s (call perform c s).2 := by
    rcases arrange_cases harrange s with ⟨p, c', hcall⟩ | ⟨scene, -, hcall⟩
    · rw [hcall]
      exact ⟨.subscribe s p c', .of_tasks rfl, fun p' hp' => by rwa [status?_subscribe] at hp'⟩
    · rw [hcall]
      exact .of_same rfl rfl rfl
  cases c with
  | start | stop | play | stopCurrent | finishReached => exact ordered trivial
  | step d =>
    rw [snd_call_step]
    exact step_proceeds hperform d s
  | reset => exact .of_same rfl rfl rfl
  | subscribe | onMove | onStatus | onComplete | onWall | guard | dropScene => exact arranged rfl
  | advance | join | waitFinal | waitCurrent | watch | pollWatch | look => exact absurd trivial hc

end Calls

end Session

end GridPuzzle
