import Mathlib.Algebra.Order.BigOperators.Group.List
import Mathlib.Algebra.GroupWithZero.Nat
import Mathlib.Algebra.Order.Group.Nat
import GridPuzzle.Proofs.Session.Patience
import GridPuzzle.Proofs.Session.Script

/-!
# Lives that keep to the clock

In the life of a session that keeps to the clock, turns are given when they are due: the task that
is due first gets the next turn, the clock stands at its time then, and it never goes past a turn
that is due. Between the turns clients do what they like. Letting time pass is such a life, which
has come to the end of it with nothing due any more, unless tasks are started meanwhile.
-/

namespace GridPuzzle

namespace Session

/-! ## The turn that is due first -/

/-- Nothing is due before the task that is due first. -/
theorem firstDue_le {ts : List Task} {i : Nat} {task : Task} {due : Nat}
    (htask : ts[i]? = some task) (hdue : task.state.due? = some due) (k : TaskId) :
    ∃ j due', firstDue k ts = some (j, due') ∧ due' ≤ due := by
  induction ts generalizing k i with
  | nil => cases htask
  | cons t rest ih =>
    unfold firstDue
    cases i with
    | zero =>
      cases htask
      rw [hdue]
      cases firstDue (k + 1) rest with
      | none => exact ⟨k, due, rfl, Nat.le_refl due⟩
      | some found =>
        dsimp only
        split
        · exact ⟨k, due, rfl, Nat.le_refl due⟩
        · rename_i hlater
          exact ⟨_, _, rfl, Nat.le_of_not_le hlater⟩
    | succ i =>
      obtain ⟨j, due', hfirst, hle⟩ := ih htask (k + 1)
      rw [hfirst]
      cases t.state.due? with
      | none => exact ⟨j, due', rfl, hle⟩
      | some own =>
        dsimp only
        split
        · rename_i hown
          exact ⟨k, own, rfl, Nat.le_trans hown hle⟩
        · exact ⟨j, due', rfl, hle⟩

/-- The task that is due first is one of them, and due at that time. -/
theorem firstDue_eq_some {ts : List Task} {k j : TaskId} {due : Nat}
    (h : firstDue k ts = some (j, due)) :
    ∃ i task, j = k + i ∧ ts[i]? = some task ∧ task.state.due? = some due := by
  induction ts generalizing k with
  | nil => cases h
  | cons t rest ih =>
    have further {found : TaskId × Nat} (hrest : firstDue (k + 1) rest = some found)
        (hfound : found = (j, due)) :
        ∃ i task, j = k + i ∧ (t :: rest)[i]? = some task ∧ task.state.due? = some due := by
      obtain ⟨i, task, rfl, htask, hdue⟩ := ih (hfound ▸ hrest)
      exact ⟨i + 1, task, Nat.add_right_comm k 1 i, htask, hdue⟩
    unfold firstDue at h
    split at h
    · exact further h rfl
    · rename_i hown _
      cases h
      exact ⟨0, t, rfl, rfl, hown⟩
    · rename_i hown hrest
      split at h
      · cases h
        exact ⟨0, t, rfl, rfl, hown⟩
      · exact further hrest (Option.some.inj h)

variable {s : Session} {k : TaskId} {due : Nat}

/-- A task that is due is not due before the next turn. -/
theorem exists_nextDue? {task : Task} (htask : s.tasks[k]? = some task)
    (hdue : task.state.due? = some due) : ∃ j due', s.nextDue? = some (j, due') ∧ due' ≤ due :=
  firstDue_le ((Array.getElem?_toList ..).trans htask) hdue 0

/-- The next turn is that of a task, at the time at which it is due. -/
theorem task_of_nextDue? (h : s.nextDue? = some (k, due)) :
    ∃ task, s.tasks[k]? = some task ∧ task.state.due? = some due := by
  obtain ⟨i, task, rfl, htask, hdue⟩ := firstDue_eq_some h
  rw [Array.getElem?_toList] at htask
  exact ⟨task, by rw [Nat.zero_add]; exact htask, hdue⟩

/-! ## The turns that are left -/

/-- How many turns a task can still take. -/
def turnsOf (s : Session) (k : TaskId) : Nat :=
  match s.tasks[k]? with
  | some task => task.state.turns (((s.programs[task.program]?).map Program.length).getD 0)
  | none => 0

/-- The budget of turns is what all tasks can still take, and the spare turns. -/
theorem turnBudget_eq (s : Session) :
    s.turnBudget = ((List.range s.tasks.size).map s.turnsOf).sum + spareTurns := by
  have hfold (f : Task → Nat) (spare : Nat) (ts : List Task) :
      ts.foldr (fun t turns => f t + turns) spare = (ts.map f).sum + spare := by
    induction ts with
    | nil => exact (Nat.zero_add spare).symm
    | cons t ts ih => rw [List.foldr_cons, ih, List.map_cons, List.sum_cons, Nat.add_assoc]
  unfold turnBudget
  rw [hfold]
  refine congrArg (fun turns : List Nat => turns.sum + spareTurns) (List.ext_getElem? fun k => ?_)
  rw [List.getElem?_map, List.getElem?_map, Array.getElem?_toList]
  unfold turnsOf
  by_cases hk : k < s.tasks.size <;> simp [hk]

theorem turnsOf_eq {task : Task} {q : Program} (htask : s.tasks[k]? = some task)
    (hq : s.programs[task.program]? = some q) : s.turnsOf k = task.state.turns q.length := by
  unfold turnsOf
  rw [htask]
  dsimp only
  rw [hq, Option.map_some, Option.getD_some]

section Budget

variable {perform : Perform} (hperform : perform.Disciplined)

include hperform

/-- The turn of a task leaves it fewer turns, and no other task more. -/
theorem turnsOf_turn (h : s.Sound) (k : TaskId) (due : Nat) {j : TaskId} (hj : j < s.tasks.size) :
    (turn perform k due s).turnsOf j ≤ s.turnsOf j - (k == j).toNat := by
  obtain ⟨task, htask⟩ : ∃ task, s.tasks[j]? = some task := ⟨_, Array.getElem?_eq_getElem hj⟩
  have hclaimed := (h.task htask).claimed
  obtain ⟨status, hst, -⟩ := hclaimed
  obtain ⟨q, hq, -⟩ := Option.map_eq_some_iff.mp hst
  obtain ⟨task', htask', hprogram, hturns⟩ := turns_use hperform h htask hq (.turn k due)
  have hlater : Later s (turn perform k due s) := use_later hperform (.turn k due) s
  obtain ⟨q', hq', -⟩ := hlater.history hq
  obtain ⟨q'', hq'', hactions⟩ := hlater.length_eq (h.task htask).claimed hq'
  cases hq.symm.trans hq''
  have hlength : q'.length = q.length := congrArg Array.size hactions.symm
  have hafter : (turn perform k due s).turnsOf j = task'.state.turns q'.length :=
    turnsOf_eq htask' (by rw [hprogram]; exact hq')
  rw [turnsOf_eq htask hq, hafter, hlength]
  exact hturns

/-- No turn takes a task away. -/
theorem size_le_turn (h : s.Sound) : s.tasks.size ≤ (turn perform k due s).tasks.size := by
  have hclock : Sound { s with now := max s.now due } := h.anytime _
  unfold turn
  rw [resume_eq]
  cases hr : stretchOf? perform k { s with now := max s.now due } with
  | none => exact Nat.le_refl _
  | some r =>
    obtain ⟨_, _, _, -, -, -, -, hplays⟩ := hclock.stretch hperform hr
    obtain ⟨new, htasks, -⟩ := hplays.recruits
    have hsize := congrArg List.length htasks
    rw [List.length_append, Array.length_toList, Array.length_toList] at hsize
    simp only [setTask, Array.size_modify, hsize]
    exact Nat.le_add_right _ _

/-- A turn uses up some of the budget, unless it starts a task. -/
theorem turnBudget_turn (h : s.Sound) (hnext : s.nextDue? = some (k, due))
    (hsize : (turn perform k due s).tasks.size = s.tasks.size) :
    (turn perform k due s).turnBudget < s.turnBudget := by
  obtain ⟨task, htask, hdue⟩ := task_of_nextDue? hnext
  have hk : k < s.tasks.size := (Array.getElem?_eq_some_iff.mp htask).1
  have hopen : 0 < s.turnsOf k := by
    unfold turnsOf
    rw [htask]
    exact turns_of_due hdue
  rw [turnBudget_eq, turnBudget_eq, hsize]
  refine Nat.add_lt_add_right ?_ spareTurns
  refine List.sum_lt_sum _ _ (fun j hj => ?_) ⟨k, List.mem_range.mpr hk, ?_⟩
  · exact (turnsOf_turn hperform h k due (List.mem_range.mp hj)).trans (Nat.sub_le _ _)
  · have hless := turnsOf_turn hperform h k due hk
    rw [beq_self_eq_true, Bool.toNat_true] at hless
    exact Nat.lt_of_le_of_lt hless (Nat.sub_lt hopen Nat.one_pos)

omit hperform in
/-- Where only the spare turns are left, nothing is due. -/
theorem nextDue?_eq_none (h : s.turnBudget ≤ spareTurns) : s.nextDue? = none := by
  refine Option.eq_none_iff_forall_ne_some.mpr fun ⟨k, due⟩ hnext => ?_
  obtain ⟨task, htask, hdue⟩ := task_of_nextDue? hnext
  have hk : k < s.tasks.size := (Array.getElem?_eq_some_iff.mp htask).1
  rw [turnBudget_eq] at h
  have hzero : s.turnsOf k = 0 := List.sum_eq_zero_iff_forall_eq_nat.mp (by omega) _
    (List.mem_map_of_mem (List.mem_range.mpr hk))
  unfold turnsOf at hzero
  rw [htask] at hzero
  exact absurd hzero (Nat.ne_of_gt (turns_of_due hdue))

end Budget

/-! ## What clients do between turns -/

/-- What everything but a turn leaves as it is: the clock, the tasks that there are, and the
programs that are not finished. -/
structure Still (s t : Session) : Prop where
  later : Later s t
  now : t.now = s.now
  task : ∀ {k : TaskId} {task : Task}, s.tasks[k]? = some task → t.tasks[k]? = some task
  unfinished : ∀ p, t.status? p = some .finished → s.status? p = some .finished

section Clock

variable {perform : Perform} (hperform : perform.Disciplined)

include hperform

/-- The clock stands still during a call that does not wait. -/
theorem call_now {c : Call} (hc : ¬c.IsWait) (s : Session) : (call perform c s).2.now = s.now := by
  have ordered (horder : c.IsOrder) : (call perform c s).2.now = s.now := by
    obtain ⟨_, h, -⟩ := Changes.steady.order hperform.orderly horder (fun _ _ => trivial) s
    exact h.now
  have arranged (harrange : c.isArrangement = true) : (call perform c s).2.now = s.now := by
    rcases arrange_cases harrange s with ⟨p, c', hcall⟩ | ⟨scene, -, hcall⟩
    · exact (congrArg now hcall).trans rfl
    · exact (congrArg now hcall).trans rfl
  cases c with
  | start | stop | play | stopCurrent | finishReached => exact ordered trivial
  | step d =>
    rw [snd_call_step]
    exact step_now hperform.orderly d s
  | reset => rfl
  | subscribe | onMove | onStatus | onComplete | onWall | guard | dropScene => exact arranged rfl
  | advance | join | waitFinal | waitCurrent | watch | pollWatch | look => exact absurd trivial hc

/-- Everything but a turn leaves the clock, the tasks and the unfinished programs as they are. -/
theorem use_still {u : Usage} (hu : u.isTurn = false) (s : Session) :
    Still s (use perform u s) := by
  have hlater := use_later hperform u s
  have htask {k : TaskId} {task : Task} (h : s.tasks[k]? = some task) :
      (use perform u s).tasks[k]? = some task := getElem?_use hperform h hu
  suffices h : (use perform u s).now = s.now ∧
      ∀ p, (use perform u s).status? p = some .finished → s.status? p = some .finished from
    ⟨hlater, h.1, htask, h.2⟩
  cases u with
  | call c acts => exact ⟨call_now hperform acts s, (call_proceeds hperform acts s).unfinished⟩
  | claim p =>
    show (claim p s).2.now = s.now ∧ ∀ p', (claim p s).2.status? p' = some .finished → _
    rcases claim_cases p s with hclaim | ⟨r, hclaim⟩ | ⟨q, hq, hclaimable, hclaim⟩
    · rw [hclaim]
      exact ⟨rfl, fun _ h => h⟩
    · rw [hclaim]
      exact ⟨rfl, fun _ h => h⟩
    · rw [hclaim]
      have hbegins : Begins (fun _ => True) p s (s.setStatus p .running) := .claim hq hclaimable
      exact ⟨rfl, hbegins.toTame.unfinished⟩
  | startClaimed p =>
    show (if s.isClaimed p then (startClaimed perform p s).2 else s).now = s.now ∧ ∀ p',
      (if s.isClaimed p then (startClaimed perform p s).2 else s).status? p' = some .finished → _
    split
    · obtain ⟨t, ⟨hchanges, ht⟩, hstart⟩ := Proceeds.steady.startClaimed_cases hperform p s
      obtain hstart | hstart := hstart
      all_goals
        rw [hstart]
        exact ⟨hchanges.now, ht.unfinished⟩
    · exact ⟨rfl, fun _ h => h⟩
  | turn k due => cases hu

end Clock

/-! ## Keeping to the clock -/

namespace Life

variable (perform : Perform)

/-- The life at another time. -/
def reach (time : Nat) (l : Life) : Life := { l with session := { l.session with now := time } }

/-- Give all turns that are due up to and including a time. -/
def settle (limit : Nat) : Nat → Life → Life
  | 0, l => l
  | turns + 1, l =>
    match l.session.nextDue? with
    | some (k, due) => if due ≤ limit then settle limit turns (l.use perform (.turn k due)) else l
    | none => l

/-- Let some time pass. -/
def advance (ms : Nat) (l : Life) : Life :=
  let after := l.settle perform (l.session.now + ms) l.session.turnBudget
  after.reach (max after.session.now (l.session.now + ms))

end Life

/-- One thing that happens in a life that keeps to the clock. -/
inductive Tick (perform : Perform) : Life → Life → Prop
  /-- The task that is due first gets its turn. -/
  | turn {l : Life} {k : TaskId} {due : Nat} (hnext : l.session.nextDue? = some (k, due)) :
      Tick perform l (l.use perform (.turn k due))
  /-- The clock goes on, up to the time of the next turn at most. -/
  | pass {l : Life} {time : Nat} (hnow : l.session.now ≤ time)
      (hnext : ∀ k due, l.session.nextDue? = some (k, due) → time ≤ due) :
      Tick perform l (l.reach time)
  /-- A client does something. -/
  | use {l : Life} {u : Usage} (hu : u.isTurn = false) : Tick perform l (l.use perform u)

/-- What a life that keeps to the clock comes to. -/
abbrev Ticks (perform : Perform) : Life → Life → Prop := Relation.ReflTransGen (Tick perform)

variable {perform : Perform} {l l' : Life}

namespace Life

/-- A usage is one of the session, unless it is a start without a claim. -/
theorem use_eq_or (perform : Perform) (u : Usage) (l : Life) :
    (l.use perform u).session = Session.use perform u l.session ∨ l.use perform u = l := by
  cases u with
  | call | claim | turn => exact .inl rfl
  | startClaimed p =>
    rw [use_startClaimed]
    split
    · exact .inl rfl
    · exact .inr rfl

/-- The log is only added to. -/
theorem log_grows_use (u : Usage) (l : Life) : l.log <+: (l.use perform u).log := by
  cases u with
  | call | claim => exact List.prefix_refl _
  | turn k due => exact List.prefix_append _ _
  | startClaimed p =>
    rw [use_startClaimed]
    split <;> exact List.prefix_refl _

/-- Only turns are logged. -/
theorem log_use {u : Usage} (hu : u.isTurn = false) (l : Life) :
    (l.use perform u).log = l.log := by
  cases u with
  | call | claim => rfl
  | turn => cases hu
  | startClaimed p =>
    rw [use_startClaimed]
    split <;> rfl

end Life

section Ticks

variable (hperform : perform.Disciplined)

include hperform

theorem Life.use_later (u : Usage) (l : Life) : Later l.session (l.use perform u).session := by
  obtain hsession | hsame := use_eq_or perform u l
  · rw [hsession]
    exact Session.use_later hperform u l.session
  · rw [hsame]
    exact .refl _

theorem Life.use_still {u : Usage} (hu : u.isTurn = false) (l : Life) :
    Still l.session (l.use perform u).session := by
  obtain hsession | hsame := use_eq_or perform u l
  · rw [hsession]
    exact Session.use_still hperform hu l.session
  · rw [hsame]
    exact ⟨.refl _, rfl, id, fun _ h => h⟩

/-- A turn is given when the clock has reached its time. -/
theorem Life.use_turn_now (k : TaskId) (due : Nat) (l : Life) :
    (l.use perform (.turn k due)).session.now = max l.session.now due :=
  turn_now hperform.orderly k due l.session

theorem Tick.later (h : Tick perform l l') : Later l.session l'.session := by
  cases h with
  | turn | use => exact Life.use_later hperform _ l
  | pass => exact .of_programs rfl rfl

theorem Tick.sound (h : Tick perform l l') (hl : l.Sound perform) : l'.Sound perform := by
  cases h with
  | turn | use => exact hl.use hperform _
  | pass => exact hl.proceeds (.of_same rfl rfl rfl) hl.session.lawful

omit hperform in
theorem Tick.log_grows (h : Tick perform l l') : l.log <+: l'.log := by
  cases h with
  | turn | use => exact Life.log_grows_use _ l
  | pass => exact List.prefix_refl _

namespace Life.Sound

variable (h : l.Sound perform)

include h

theorem size_le_settle (limit turns : Nat) :
    l.session.tasks.size ≤ (l.settle perform limit turns).session.tasks.size := by
  induction turns generalizing l with
  | zero => exact Nat.le_refl _
  | succ turns ih =>
    unfold Life.settle
    split
    · rename_i k due _
      split
      · have hturn : l.session.tasks.size ≤ (l.use perform (.turn k due)).session.tasks.size :=
          size_le_turn hperform h.session
        exact hturn.trans (ih (h.use hperform _))
      · exact Nat.le_refl _
    · exact Nat.le_refl _

/-- With a budget of turns that is large enough nothing stays due, unless tasks are started. -/
theorem settled {limit turns : Nat} (hturns : l.session.turnBudget ≤ spareTurns + turns)
    (hsize : (l.settle perform limit turns).session.tasks.size = l.session.tasks.size)
    {k : TaskId} {due : Nat}
    (hnext : (l.settle perform limit turns).session.nextDue? = some (k, due)) : limit < due := by
  induction turns generalizing l with
  | zero =>
    have hnone : (l.settle perform limit 0).session.nextDue? = none := nextDue?_eq_none hturns
    cases hnone.symm.trans hnext
  | succ turns ih =>
    unfold Life.settle at hsize hnext
    split at hnext
    · rename_i j time hdue
      rw [hdue] at hsize
      dsimp only at hsize
      split at hnext
      · rename_i hlimit
        rw [if_pos hlimit] at hsize
        have hl' : (l.use perform (.turn j time)).Sound perform := h.use hperform _
        have hturn : l.session.tasks.size ≤ (l.use perform (.turn j time)).session.tasks.size :=
          size_le_turn hperform h.session
        have hrest := hl'.size_le_settle hperform limit turns
        have hkept : (l.use perform (.turn j time)).session.tasks.size = l.session.tasks.size := by
          omega
        have hless : (l.use perform (.turn j time)).session.turnBudget < l.session.turnBudget :=
          turnBudget_turn hperform h.session hdue hkept
        exact ih hl' (by omega) (hsize.trans hkept.symm) hnext
      · rename_i hlimit
        cases hdue.symm.trans hnext
        exact Nat.lt_of_not_le hlimit
    · rename_i hnone
      cases hnone.symm.trans hnext

end Life.Sound

end Ticks

end Session

end GridPuzzle
