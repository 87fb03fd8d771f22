import GridPuzzle.Proofs.Session.Performance

/-!
# Playback refines the walk

Whatever has happened before in a plain session, once nothing plays, a text that a scene accepts is
played as the walk in its steps from the start of the level. This holds for every order in which
tasks are woken meanwhile, those of earlier programs included: they find their programs stopped. A
turn of the new task plays one step more or ends the task.
-/

namespace GridPuzzle

namespace Session

namespace Performance

variable {v : Performance} {s t : Session}

/-- Where the task of a performance is, and what holds there. -/
inductive Stage (v : Performance) : TaskState → Session → Prop
  | ready {s : Session} (since : Nat) (h : v.On (compile v.source) s) : Stage v (.ready since) s
  | asleep {s : Session} {rest : List Direction} (wake : Nat) (hrest : rest <:+ compile v.source)
      (h : v.On rest s) : Stage v (.asleep rest.length wake) s
  /-- The program has ended while its task sleeps. -/
  | overslept {s : Session} (left wake : Nat) (h : v.Over s) : Stage v (.asleep left wake) s
  | ended {s : Session} (h : v.Over s) : Stage v (.ended (.returned v.walk.status)) s

theorem Stage.aside {state : TaskState} (h : v.Stage state s) (ha : Aside s t) :
    v.Stage state t := by
  cases h with
  | ready since h => exact .ready since (h.aside ha)
  | asleep wake hrest h => exact .asleep wake hrest (h.aside ha)
  | overslept left wake h => exact .overslept left wake (h.aside ha)
  | ended h => exact .ended (h.aside ha)

theorem Stage.staged {state : TaskState} (h : v.Stage state s) : v.Staged s := by
  cases h with
  | ready _ hon => exact hon.toStaged
  | asleep _ _ hon => exact hon.toStaged
  | overslept _ _ hover => exact hover.toStaged
  | ended hover => exact hover.toStaged

/-- A program that has ended does not run. -/
theorem Over.isRunning (h : v.Over s) : s.isRunning v.program = false := by
  rw [Session.isRunning, h.status]
  unfold Level.Walk.status
  split <;> rfl

/-- A task that finds its program ended returns the status of the walk. -/
theorem Over.endTask_eq (h : v.Over s) (k : TaskId) (r : Remark) :
    endTask k v.program (.value (), note r s) =
      (note r s).setTask k (.ended (.returned v.walk.status)) := by
  have hstatus : (note r s).status? v.program = some v.walk.status := h.status
  simp only [endTask, hstatus, Option.getD_some]

/-- The action before the last ones of a program. -/
private theorem getElem?_command {source : String} {q : Program} {d : Direction}
    {rest : List Direction} (hq : q.actions = ((compile source).map Action.command).toArray)
    (hrest : d :: rest <:+ compile source) :
    q.actions[q.length - (rest.length + 1)]? = some (.command d) := by
  obtain ⟨played, hplayed⟩ := hrest
  have hlength : q.length = played.length + (rest.length + 1) := by
    simp [Program.length, hq, ← hplayed]
  rw [hlength, Nat.add_sub_cancel, hq, ← hplayed]
  simp

section Turns

variable {perform : Perform} (hperform : perform.Orderly)

include hperform

/-- A turn that goes on with the last commands of the program takes one step of the walk and
sleeps, or it comes to the end. -/
theorem On.playOn {k : TaskId} {q : Program}
    (hq : q.actions = ((compile v.source).map Action.command).toArray) {rest : List Direction}
    (hrest : rest <:+ compile v.source) (h : v.On rest s) :
    ∃ u state, playOn perform (act perform) k v.program q rest.length s = u.setTask k state ∧
      u.tasks = s.tasks ∧ v.Stage state u ∧
      state.turns (compile v.source).length ≤ rest.length := by
  cases rest with
  | nil =>
    obtain ⟨hfinish, htasks, hover⟩ := h.finish hperform
    refine ⟨finished v.program s, .ended (.returned v.walk.status), ?_, htasks, .ended hover,
      Nat.le_refl 0⟩
    simp only [List.length_nil, Session.playOn, hfinish, endTask, hover.status, Option.getD_some]
  | cons d rest =>
    obtain ⟨b, t, hstep, htasks, hgone⟩ := h.step hperform
    have hact (index : Nat) : act perform v.program index (.command d) s = (.value (), t) := by
      simp only [act, hstep, andThen_value]
    have hsuffix : rest <:+ compile v.source := (List.suffix_cons d rest).trans hrest
    simp only [List.length_cons, Session.playOn, isRunning_iff.mpr h.running, if_true,
      getElem?_command hq hrest, hact]
    rcases hgone with hon | hover
    · exact ⟨t, _, rfl, htasks, .asleep _ hsuffix hon, Nat.le_refl _⟩
    · exact ⟨t, _, rfl, htasks, .overslept _ _ hover, Nat.le_refl _⟩

/-- A turn of the task of a performance: one turn less is left to it. -/
theorem Stage.resume {k : TaskId} {task : Task} (htask : s.tasks[k]? = some task)
    (hprogram : task.program = v.program) (h : v.Stage task.state s) :
    ∃ u state, Session.resume perform k s = u.setTask k state ∧ u.tasks = s.tasks ∧
      v.Stage state u ∧
      state.turns (compile v.source).length ≤ task.state.turns (compile v.source).length - 1 := by
  obtain ⟨p, state, joined⟩ := task
  cases hprogram
  unfold Session.resume resumeBy
  rw [htask]
  dsimp only
  cases h with
  | ready since hon =>
    obtain ⟨q, hq, -, hactions, -⟩ := hon.program
    have hlength : q.length = (compile v.source).length := by simp [Program.length, hactions]
    rw [hq]
    dsimp only
    rw [hlength]
    exact hon.playOn hperform hactions List.suffix_rfl
  | asleep wake hrest hon =>
    obtain ⟨q, hq, -, hactions, -⟩ := hon.program
    rw [hq]
    dsimp only
    rw [isRunning_iff.mpr hon.running, if_pos rfl]
    exact hon.playOn hperform hactions hrest
  | overslept left wake hover =>
    obtain ⟨q, hq, -⟩ := hover.program
    rw [hq]
    dsimp only
    rw [hover.isRunning, if_neg Bool.false_ne_true, hover.endTask_eq]
    exact ⟨_, _, rfl, rfl, .ended (hover.aside ⟨rfl, rfl, rfl, rfl, rfl⟩), Nat.zero_le _⟩
  | ended hover =>
    obtain ⟨q, hq, -⟩ := hover.program
    rw [hq]
    exact ⟨s, _, (setTask_self htask).symm, rfl, .ended hover, Nat.zero_le _⟩

end Turns

/-- The task of a performance is alone in playing its program. -/
structure Played (v : Performance) (k : TaskId) (s : Session) : Prop where
  alone : ∀ (j : TaskId) (task : Task), s.tasks[j]? = some task → task.program = v.program → j = k
  task : ∃ task, s.tasks[k]? = some task ∧ task.program = v.program ∧ v.Stage task.state s

/-- How many turns a task can still take. -/
def turnsLeft (v : Performance) (k : TaskId) (s : Session) : Nat :=
  ((s.tasks[k]?).map fun task => task.state.turns (compile v.source).length).getD 0

/-- What is made aside, and leaves the state of the task alone, does not touch a performance. -/
theorem Played.aside {k : TaskId} (h : v.Played k s) (ha : Aside s t)
    (hstate : (t.tasks[k]?).map Task.state = (s.tasks[k]?).map Task.state) :
    v.Played k t ∧ v.turnsLeft k t = v.turnsLeft k s := by
  have hprograms (j : TaskId) :
      (t.tasks[j]?).map Task.program = (s.tasks[j]?).map Task.program := by
    rw [← Array.getElem?_map, ← Array.getElem?_map, ha.tasks]
  obtain ⟨task, htask, hprogram, hstage⟩ := h.task
  have hprogramk := hprograms k
  rw [htask] at hstate hprogramk
  obtain ⟨task', htask', hstate'⟩ := Option.map_eq_some_iff.mp hstate
  rw [htask'] at hprogramk
  have hprogram' : task'.program = task.program := Option.some.inj hprogramk
  refine ⟨⟨fun j other hother hsame => ?_, task', htask', hprogram'.trans hprogram, ?_⟩, ?_⟩
  · have hj := hprograms j
    rw [hother] at hj
    obtain ⟨before, hbefore, heq⟩ := Option.map_eq_some_iff.mp hj.symm
    exact h.alone j before hbefore (heq.trans hsame)
  · rw [hstate']
    exact hstage.aside ha
  · unfold turnsLeft
    rw [htask, htask', Option.map_some, Option.map_some, hstate']

section Histories

variable {perform : Perform} (hperform : perform.Orderly)

include hperform

/-- The turn of the task itself. -/
theorem Played.turn_self {k : TaskId} (h : v.Played k s) (due : Nat) :
    v.Played k (turn perform k due s) ∧
      v.turnsLeft k (turn perform k due s) ≤ v.turnsLeft k s - 1 := by
  obtain ⟨task, htask, hprogram, hstage⟩ := h.task
  have hclock : Aside s { s with now := max s.now due } := ⟨rfl, rfl, rfl, rfl, rfl⟩
  have hready : ({ s with now := max s.now due } : Session).tasks[k]? = some task := htask
  obtain ⟨u, state, hresume, htasks, hstage', hturns⟩ :=
    (hstage.aside hclock).resume hperform hready hprogram
  have hset (j : TaskId) : (u.setTask k state).tasks[j]? =
      if k = j then (s.tasks[j]?).map fun t => { t with state := state } else s.tasks[j]? := by
    simp only [setTask, htasks, Array.getElem?_modify]
  have hown : (u.setTask k state).tasks[k]? = some { task with state := state } := by
    rw [hset, if_pos rfl, htask]
    rfl
  rw [turn, hresume]
  refine ⟨⟨fun j other hother hsame => ?_, _, hown, hprogram, ?_⟩, ?_⟩
  · rw [hset] at hother
    split at hother
    · rename_i hj
      exact hj.symm
    · exact h.alone j other hother hsame
  · exact hstage'.aside (aside_modify u k fun _ => rfl)
  · unfold turnsLeft
    rw [hown, htask]
    exact hturns

omit hperform in
/-- The turn of any other task, whose program does not run. -/
theorem Played.turn_other {j k : TaskId} (hjk : j ≠ k) (h : v.Played k s) (due : Nat) :
    v.Played k (turn perform j due s) ∧
      v.turnsLeft k (turn perform j due s) = v.turnsLeft k s := by
  obtain ⟨own, -, -, hstage⟩ := h.task
  have hstaged := hstage.staged
  have hclock : Aside s { s with now := max s.now due } := ⟨rfl, rfl, rfl, rfl, rfl⟩
  cases htask : s.tasks[j]? with
  | none =>
    have hturn : turn perform j due s = { s with now := max s.now due } := by
      simp only [turn, Session.resume, resumeBy, htask]
    rw [hturn]
    exact h.aside hclock rfl
  | some task =>
    have hidle : s.isRunning task.program = false := by
      cases hrunning : s.isRunning task.program with
      | false => rfl
      | true =>
        -- a running program is in the slot, and that program is played by the task `k` alone
        have hslot := hstaged.player.slot _ hrunning
        rw [hstaged.slot] at hslot
        exact absurd (h.alone j task htask (Option.some.inj hslot).symm) hjk
    obtain ⟨state, remarks, hresume⟩ : ∃ state remarks,
        Session.resume perform j { s with now := max s.now due } =
          { ({ s with now := max s.now due } : Session).setTask j state with remarks := remarks } :=
      resume_idle htask hidle
    have htasks := (aside_modify s j (f := fun t => { t with state := state }) fun _ => rfl).tasks
    rw [turn, hresume]
    refine h.aside ⟨rfl, rfl, rfl, htasks, rfl⟩ ?_
    change ((s.tasks.modify j _)[k]?).map Task.state = _
    rw [Array.getElem?_modify, if_neg hjk]

/-- While everybody waits a performance goes on, and its task does not get more turns to take. -/
theorem Played.beat {k : TaskId} (h : v.Played k s) (hb : Beat perform s t) :
    v.Played k t ∧ v.turnsLeft k t ≤ v.turnsLeft k s := by
  cases hb with
  | turn j due =>
    by_cases hjk : j = k
    · subst hjk
      obtain ⟨hplayed, hturns⟩ := h.turn_self hperform due
      exact ⟨hplayed, Nat.le_trans hturns (Nat.sub_le _ _)⟩
    · obtain ⟨hplayed, hturns⟩ : _ ∧ v.turnsLeft k (Session.turn perform j due s) = _ :=
        h.turn_other hjk due
      exact ⟨hplayed, Nat.le_of_eq hturns⟩
  | clock time =>
    obtain ⟨hplayed, hturns⟩ := h.aside (t := { s with now := time }) ⟨rfl, rfl, rfl, rfl, rfl⟩ rfl
    exact ⟨hplayed, Nat.le_of_eq hturns⟩
  | receivers rs =>
    obtain ⟨hplayed, hturns⟩ :=
      h.aside (t := { s with receivers := rs }) ⟨rfl, rfl, rfl, rfl, rfl⟩ rfl
    exact ⟨hplayed, Nat.le_of_eq hturns⟩
  | joined j =>
    have ha := aside_modify s j (f := fun t => { t with joined := true }) fun _ => rfl
    obtain ⟨hplayed, hturns⟩ := h.aside ha (by
      rw [Array.getElem?_modify]
      split
      · cases s.tasks[k]? <;> rfl
      · rfl)
    exact ⟨hplayed, Nat.le_of_eq hturns⟩

theorem Played.beats {k : TaskId} (h : v.Played k s) (hb : Beats perform s t) :
    v.Played k t ∧ v.turnsLeft k t ≤ v.turnsLeft k s := by
  induction hb with
  | refl => exact ⟨h, Nat.le_refl _⟩
  | tail _ hbeat ih =>
    obtain ⟨hplayed, hturns⟩ := ih.1.beat hperform hbeat
    exact ⟨hplayed, Nat.le_trans hturns ih.2⟩

/-- However everybody waits, every turn that the task gets is one turn less to take. -/
theorem Played.after {k : TaskId} {hs : List Happening} (h : v.Played k s)
    (hwait : ∀ h ∈ hs, h.Allowed Call.IsWait) :
    v.Played k (after perform hs s) ∧
      v.turnsLeft k (after perform hs s) ≤ v.turnsLeft k s - hs.countP (·.isTurnOf k) := by
  induction hs generalizing s with
  | nil => exact ⟨h, Nat.le_refl _⟩
  | cons happening rest ih =>
    have hallowed := hwait happening List.mem_cons_self
    have hrest := fun h hmem => hwait h (List.mem_cons_of_mem _ hmem)
    rw [after_cons, List.countP_cons]
    cases happening with
    | call c =>
      obtain ⟨hplayed, hturns⟩ := h.beats hperform (call_beats hallowed s)
      obtain ⟨hlast, hleft⟩ := ih hplayed hrest
      refine ⟨hlast, Nat.le_trans hleft ?_⟩
      have hnot : (Happening.call c).isTurnOf k = false := rfl
      rw [hnot, if_neg Bool.false_ne_true]
      exact Nat.sub_le_sub_right hturns _
    | turn j due =>
      by_cases hjk : j = k
      · subst hjk
        obtain ⟨hplayed, hturns⟩ := h.turn_self hperform due
        obtain ⟨hlast, hleft⟩ := ih hplayed hrest
        refine ⟨hlast, Nat.le_trans hleft ?_⟩
        have hown : (Happening.turn j due).isTurnOf j = true := beq_self_eq_true j
        rw [hown, if_pos rfl]
        omega
      · obtain ⟨hplayed, hturns⟩ : _ ∧ v.turnsLeft k (Session.turn perform j due s) = _ :=
          h.turn_other hjk due
        obtain ⟨hlast, hleft⟩ := ih hplayed hrest
        refine ⟨hlast, Nat.le_trans hleft ?_⟩
        have hnot : (Happening.turn j due).isTurnOf k = false := beq_false_of_ne hjk
        rw [hnot, if_neg Bool.false_ne_true]
        exact Nat.sub_le_sub_right (Nat.le_of_eq hturns) _

end Histories

/-- The performance of the program that a scene accepts for a text. -/
def opening (l : Level) (s : Session) (source : String) : Performance where
  level := l
  scene := s.scene
  program := s.programs.size
  source := source
  before := s.events.toList ++
    s.scene.announces s.programs.size source .running .stopped l.robot

end Performance

/-- Every task plays a program that exists. -/
def Staffed (s : Session) : Prop :=
  ∀ (k : TaskId) (task : Task), s.tasks[k]? = some task → task.program < s.programs.size

theorem Change.staffed {s t : Session} (hc : Change s t) (h : Staffed s) : Staffed t := by
  intro k task htask
  cases hc with
  | abort | finish | claim | follow =>
    have hlt := h k task htask
    simpa only [setStatus, subscribe, Array.size_modify] using hlt
  | accept source hidle =>
    have hlt := h k task htask
    simp only [accepted, Array.size_push]
    exact Nat.lt_succ_of_lt hlt
  | @spawn p hclaimed =>
    obtain ⟨status, hstatus, -⟩ := hclaimed
    obtain ⟨q, hq, -⟩ := Option.map_eq_some_iff.mp hstatus
    simp only [Array.getElem?_push] at htask
    split at htask
    · cases htask
      exact (Array.getElem?_eq_some_iff.mp hq).1
    · exact h k task htask
  | note | record | tell | witness | complete => exact h k task htask

/-- Every deed keeps the tasks on programs that exist. -/
theorem Deed.staffed {perform : Perform} (hperform : perform.Orderly) {allowed : Call → Prop}
    {s t : Session} (hd : Deed perform allowed s t) (h : Staffed s) : Staffed t := by
  refine hd.keeps hperform Change.staffed ?_ (fun _ h => h) ?_ h
  · intro s t ha h k task htask
    have hprogram : (s.tasks[k]?).map Task.program = some task.program := by
      rw [← Array.getElem?_map, ← ha.tasks, Array.getElem?_map, htask]
      rfl
    obtain ⟨before, hbefore, heq⟩ := Option.map_eq_some_iff.mp hprogram
    rw [ha.programs, ← heq]
    exact h k before hbefore
  · intro s c hc _ h
    rcases arrange_cases hc s with ⟨p, c', hcall⟩ | ⟨scene, -, hcall⟩
    · rw [hcall]
      intro k task htask
      have hlt := h k task htask
      simpa only [subscribe, Array.size_modify] using hlt
    · rw [hcall]
      exact h

/-- The program of a text with steps is accepted running. -/
theorem claimed_ofSource {source : String} (hsource : compile source ≠ []) (delay : Delay)
    (observers : List (Callback StatusNotice)) :
    (Program.ofSource source delay observers).claimed =
      (Program.ofSource source delay observers).become .running := by
  have hpositive : (Program.ofSource source delay observers).isEmpty = false := by
    simpa [Program.ofSource, Program.isEmpty, Program.length] using hsource
  unfold Program.claimed
  rw [hpositive, if_neg Bool.false_ne_true]

/-- A text with steps is accepted where nothing plays: its program runs, is announced, and gets a
task. -/
theorem Quiet.play_starts {perform : Perform} {s : Session} (h : Quiet s)
    (hidle : s.isPlaying = false) {source : String} (hsource : compile source ≠ []) :
    ∃ u : Session, play perform true source s = (.value (.started s.tasks.size),
        { announced s.programs.size .running .stopped u with
          tasks := s.tasks.push ⟨s.programs.size, .ready u.now, false⟩ }) ∧
      u.programs[s.programs.size]? = some
        ((Program.ofSource source s.scene.delay s.scene.statusObservers).become .running) ∧
      u.scene = { s.scene with
        slot := some s.programs.size, complete := false, position := s.scene.start } ∧
      u.events = s.events := by
  have hplay : play perform true source s = _ := h.play_idle_eq source hidle
  dsimp only at hplay
  rw [if_neg hsource, noteAll_eq] at hplay
  generalize (noteAll (compileRemarks source) s).remarks = remarks at hplay
  generalize hu : note (.playing (compile source).length)
    (({ s with remarks := remarks } : Session).accepted source) = u at hplay
  have hprogram : u.programs[s.programs.size]? = some
      ((Program.ofSource source s.scene.delay s.scene.statusObservers).become .running) := by
    rw [← hu, ← claimed_ofSource hsource]
    exact Array.getElem?_push_size
  have hrunning : u.isRunning s.programs.size = true := by
    rw [isRunning_iff, status?, hprogram]
    rfl
  have htasks : u.tasks = s.tasks := by
    rw [← hu]
    rfl
  have hlaunched : launched s.programs.size u =
      { announced s.programs.size .running .stopped u with
        tasks := s.tasks.push ⟨s.programs.size, .ready u.now, false⟩ } := by
    unfold launched
    dsimp only
    rw [if_pos hrunning, tasks_announced, now_announced, htasks]
  rw [hlaunched] at hplay
  exact ⟨u, hplay, hprogram, hu ▸ rfl, hu ▸ rfl⟩

/-- A performance begins on the start of the level, with all steps to come. -/
theorem opening_on {l : Level} {s t u : Session} (h : Plain l s) {source : String}
    (hprogram : u.programs[s.programs.size]? = some
      ((Program.ofSource source s.scene.delay s.scene.statusObservers).become .running))
    (hscene : u.scene = { s.scene with
      slot := some s.programs.size, complete := false, position := s.scene.start })
    (hevents : u.events = s.events)
    (ht : t = { announced s.programs.size .running .stopped u with tasks := t.tasks })
    (hplain : Plain l t) (hplayer : OnePlayer t) :
    (Performance.opening l s source).On (compile source) t := by
  have hlength : ((Program.ofSource source s.scene.delay s.scene.statusObservers).become
      .running).length = (compile source).length := by
    simp [Program.ofSource, Program.become, Program.length]
  have hprograms : t.programs = u.programs := by
    rw [ht]
    exact programs_announced _ _ _ _
  have hset : t.scene = { s.scene with
      slot := some s.programs.size, complete := false, position := s.scene.start } := by
    rw [ht]
    exact (scene_announced _ _ _ _).trans hscene
  have hposition : t.scene.position = l.robot := by
    rw [hset]
    exact h.start
  have hannounced : t.events.toList = (Performance.opening l s source).before := by
    have htold := events_announced hprogram .running .stopped
    rw [hlength, hevents, hscene, h.start] at htold
    rw [ht]
    exact htold
  exact
    { plain := hplain
      player := hplayer
      slot := by rw [hset]; rfl
      watchers := by rw [hset]; rfl
      walls := by rw [hset]; rfl
      completions := by rw [hset]; rfl
      program := by rw [hprograms]; exact ⟨_, hprogram, rfl, rfl, rfl⟩
      running := by
        rw [status?_congr hprograms, status?]
        exact congrArg (Option.map Program.status) hprogram
      opened := by rw [hset]
      events := by rw [hannounced, hposition]; rfl
      position := by rw [hposition]; rfl
      arrived := by rw [hposition]; rfl }

/-- A text with steps is accepted where nothing plays, and its performance begins. -/
theorem Plain.play_opens {perform : Perform} (hperform : perform.Orderly) {l : Level} {s : Session}
    (h : Plain l s) (hplayer : OnePlayer s) (hstaffed : Staffed s) (hidle : s.isPlaying = false)
    {source : String} (hsource : compile source ≠ []) :
    ∃ t, play perform true source s = (.value (.started s.tasks.size), t) ∧
      (Performance.opening l s source).Played s.tasks.size t ∧
      (Performance.opening l s source).turnsLeft s.tasks.size t = (compile source).length + 1 := by
  have hd : Deed perform Call.IsPlain s (play perform true source s).2 := .play s true source
  have hplain := hd.plain hperform h
  have honly := hd.onePlayer hperform hplayer
  obtain ⟨u, hplay, hprogram, hscene, hevents⟩ : ∃ u, play perform true source s = _ ∧ _ :=
    h.toQuiet.play_starts hidle hsource
  rw [hplay] at hplain honly
  have hon := opening_on h hprogram hscene hevents rfl hplain honly
  refine ⟨_, hplay, ⟨fun j task htask hsame => ?_, _, Array.getElem?_push_size, rfl,
    .ready u.now hon⟩, ?_⟩
  · simp only [Array.getElem?_push] at htask
    split at htask
    · assumption
    · have hlt := hstaffed j task htask
      rw [hsame] at hlt
      exact absurd hlt (Nat.lt_irrefl _)
  · unfold Performance.turnsLeft
    simp only [Array.getElem?_push_size]
    rfl

/-- What it comes to that a scene has played a text from one session to its end in another: the
walk in the steps of the text, and everything that recorders write down about it. -/
structure Performed (l : Level) (source : String) (s : Session) (k : TaskId) (t : Session) :
    Prop where
  /-- The task has returned the status of the walk: aborted if it has arrived. -/
  ending : ending? k t = some (.returned (l.walk l.robot (compile source)).status)
  status : t.status? s.programs.size = some (l.walk l.robot (compile source)).status
  slot : t.scene.slot = some s.programs.size
  idle : t.isPlaying = false
  position : t.scene.position = (l.walk l.robot (compile source)).position
  complete : t.scene.complete = (l.walk l.robot (compile source)).arrived
  /-- The program was announced, and then came what there is to tell about the walk. -/
  events : t.events.toList = s.events.toList ++
    s.scene.announces s.programs.size source .running .stopped l.robot ++
    s.scene.recounts s.programs.size source (l.walk l.robot (compile source))

/-- A task that has no turn left to take has ended. -/
theorem Performance.Played.ended {v : Performance} {k : TaskId} {s : Session} (h : v.Played k s)
    (hleft : v.turnsLeft k s = 0) : ∃ how, ending? k s = some how := by
  obtain ⟨⟨p, state, joined⟩, htask, -, hstage⟩ := h.task
  unfold Performance.turnsLeft at hleft
  unfold ending?
  rw [htask] at hleft ⊢
  cases hstage with
  | ready | asleep | overslept => cases hleft
  | ended => exact ⟨_, rfl⟩

/-- A performance whose task has ended has come to its end. -/
theorem Performance.Played.performed {l : Level} {source : String} {s t : Session} {k : TaskId}
    (h : (Performance.opening l s source).Played k t) {how : Ending}
    (hended : ending? k t = some how) : Performed l source s k t := by
  obtain ⟨⟨p, state, joined⟩, htask, hprogram, hstage⟩ := h.task
  unfold ending? at hended
  rw [htask] at hended
  cases hstage with
  | ready | asleep | overslept => cases hended
  | ended hover =>
    have hidle : t.isPlaying = false := by
      unfold isPlaying
      rw [hover.slot]
      exact hover.isRunning
    refine ⟨?_, hover.status, hover.slot, hidle, hover.position, hover.complete, hover.events⟩
    unfold ending?
    rw [htask]
    rfl

/-- A text with steps that is accepted while nothing plays is played as its walk, after one turn
more than there are steps at the latest. -/
theorem playback_is_the_walk {depth : Nat} {l : Level} {observers : List (Callback Move)}
    (hobservers : ∀ c ∈ observers, c.IsRecorder) {s : Session}
    (h : Reached (performWithin depth) Call.IsPlain l observers s) (hidle : s.isPlaying = false)
    {source : String} (hsource : compile source ≠ []) :
    ∃ t, play (performWithin depth) true source s = (.value (.started s.tasks.size), t) ∧
      ∀ hs, (∀ h ∈ hs, h.Allowed Call.IsWait) →
        ((compile source).length < hs.countP (·.isTurnOf s.tasks.size) →
          ∃ how, ending? s.tasks.size (after (performWithin depth) hs t) = some how) ∧
        ∀ how, ending? s.tasks.size (after (performWithin depth) hs t) = some how →
          Performed l source s s.tasks.size (after (performWithin depth) hs t) := by
  have horderly := performWithin_orderly depth
  obtain ⟨hplain, hplayer, hstaffed⟩ : Plain l s ∧ OnePlayer s ∧ Staffed s := by
    refine Reached.keeps (P := fun s => Plain l s ∧ OnePlayer s ∧ Staffed s)
      ?_ (fun s hlevel => ?_) h
    · rintro s t hd ⟨hplain, hplayer, hstaffed⟩
      exact ⟨hd.plain horderly hplain, hd.onePlayer horderly hplayer, hd.staffed horderly hstaffed⟩
    · refine ⟨plain_ofLevel hobservers hlevel, onePlayer_ofLevel hlevel, ?_⟩
      obtain ⟨-, r, rfl⟩ := ofLevel_eq_ok hlevel
      exact nofun
  obtain ⟨t, hplay, hplayed, hturns⟩ :=
    hplain.play_opens horderly hplayer hstaffed hidle hsource
  refine ⟨t, hplay, fun hs hwait => ?_⟩
  obtain ⟨hlast, hleft⟩ := hplayed.after horderly hwait
  refine ⟨fun hcount => hlast.ended ?_, fun how hended => hlast.performed hended⟩
  omega

/-- A program is stopped while its task sleeps. -/
def interruptedHistory : List Happening :=
  [.call (.onStatus (.recorder "status")), .call (.play true "left(2)"), .turn 0 0,
    .call .stopCurrent]

/-- The turns of a second program, with those of the task that slept among them. -/
def secondTurns : List Happening :=
  [.turn 1 0, .turn 0 500, .turn 1 500, .turn 1 1000, .turn 1 1500, .turn 1 2000]

/-- After a program that was stopped, a second one still takes the robot to the finish. -/
theorem second_program_reaches_the_finish :
    ∃ s₀, ofLevel .standard [.recorder "moves"] = .ok s₀ ∧
      ∃ t, play (performWithin 1) true "up(2)left(2)"
          (after (performWithin 1) interruptedHistory s₀) = (.value (.started 1), t) ∧
        (after (performWithin 1) secondTurns t).scene.position = Level.standard.finish ∧
        (after (performWithin 1) secondTurns t).scene.complete = true := by
  have hobservers : ∀ c ∈ ([.recorder "moves"] : List (Callback Move)), c.IsRecorder := by
    simp [Callback.isRecorder_recorder]
  have hall : ∀ h ∈ interruptedHistory, h.Allowed Call.IsPlain := by
    simp [interruptedHistory, Happening.Allowed, Call.IsPlain, Callback.isRecorder_recorder]
  have hwait : ∀ h ∈ secondTurns, h.Allowed Call.IsWait := by
    simp [secondTurns, Happening.Allowed]
  have hsource : compile "up(2)left(2)" ≠ [] := by decide +kernel
  have hwalk : (Level.standard.walk Level.standard.robot (compile "up(2)left(2)")).position =
      Level.standard.finish ∧
      (Level.standard.walk Level.standard.robot (compile "up(2)left(2)")).arrived = true := by
    decide +kernel
  obtain ⟨s₀, hlevel, hidle, htask⟩ : ∃ s₀, ofLevel .standard [.recorder "moves"] = .ok s₀ ∧
      (after (performWithin 1) interruptedHistory s₀).isPlaying = false ∧
      (after (performWithin 1) interruptedHistory s₀).tasks.size = 1 :=
    ⟨_, rfl, by decide +kernel, by decide +kernel⟩
  obtain ⟨t, hplay, hwaited⟩ := playback_is_the_walk hobservers
    ⟨s₀, interruptedHistory, hlevel, hall, rfl⟩ hidle hsource
  rw [htask] at hplay hwaited
  obtain ⟨hends, hperformed⟩ := hwaited secondTurns hwait
  obtain ⟨how, hended⟩ := hends (by decide +kernel)
  have hlast := hperformed how hended
  exact ⟨s₀, hlevel, t, hplay, hlast.position.trans hwalk.1, hlast.complete.trans hwalk.2⟩

end Session

end GridPuzzle
