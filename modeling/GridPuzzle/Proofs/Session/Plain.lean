import GridPuzzle.Proofs.Level.Playable
import GridPuzzle.Proofs.Level.Walk
import GridPuzzle.Proofs.Session.History

/-!
# Sessions in which callbacks only record

Where every callback only writes down that it was called, and the robot has no guards but those of
its scene, whatever the library does has one outcome that does not depend on how requests are
carried out. The outcomes are given here in full, with every event in its order, and a session
stays of this kind as long as clients subscribe recorders only.
-/

namespace GridPuzzle

/-- A callback that only writes down that it was called. -/
def Callback.IsRecorder {ν : Type} (c : Callback ν) : Prop := ∀ x, c.requests x = []

theorem Callback.isRecorder_recorder {ν : Type} (tag : String) :
    (Callback.recorder tag : Callback ν).IsRecorder := fun _ => rfl

/-- A call that subscribes recorders at most, and lets the scene have its robot for itself. -/
def Call.IsPlain : Call → Prop
  | .subscribe _ c | .onStatus c => c.IsRecorder
  | .onMove c | .onWall c => c.IsRecorder
  | .onComplete c => c.IsRecorder
  | .guard _ | .dropScene => False
  | _ => True

namespace Session

/-- Write some events down. -/
def recordAll (es : List Event) (s : Session) : Session := { s with events := s.events ++ es }

section Fields

variable (es : List Event) (s : Session)

@[simp] theorem scene_recordAll : (recordAll es s).scene = s.scene := rfl

@[simp] theorem now_recordAll : (recordAll es s).now = s.now := rfl

@[simp] theorem programs_recordAll : (recordAll es s).programs = s.programs := rfl

@[simp] theorem tasks_recordAll : (recordAll es s).tasks = s.tasks := rfl

@[simp] theorem events_recordAll : (recordAll es s).events.toList = s.events.toList ++ es := by
  simp [recordAll]

@[simp] theorem recordAll_nil : recordAll [] s = s := by
  simp [recordAll]

theorem recordAll_record (e : Event) : recordAll es (s.record e) = recordAll (e :: es) s := by
  have hevents : s.events.push e ++ es = s.events ++ (e :: es) :=
    Array.toList_inj.mp (by simp)
  simp only [recordAll, record, hevents]

end Fields

/-- The session after a change of status has been announced to recorders. -/
def announced (p : ProgramId) (new old : Status) (s : Session) : Session :=
  match s.programs[p]? with
  | some q =>
    recordAll (q.observers.map fun c => .status c.tag (s.notice p new old))
      (note (.statusChanged old new) s)
  | none => s

/-- The session after a program has been stopped. -/
def halted (p : ProgramId) (s : Session) : Session :=
  match s.status? p with
  | none => s
  | some old =>
    if old.isTerminal then s else announced p .aborted old (s.setStatus p .aborted)

/-- The session after the program in the slot has been stopped. -/
def haltedCurrent (s : Session) : Session :=
  match s.scene.slot with
  | some p => halted p s
  | none => s

/-- The session after a scene has been told that its finish was reached. -/
def arrived (p : Position) (s : Session) : Session :=
  if s.haltedCurrent.scene.complete then
    s.haltedCurrent
  else
    recordAll (s.scene.completionObservers.map fun c => .completed c.tag p)
      (note (.levelComplete p) { s.haltedCurrent with scene.complete := true })

/-- The session after a program has been finished, if it still ran. -/
def finished (p : ProgramId) (s : Session) : Session :=
  if s.isRunning p then announced p .finished .running (s.setStatus p .finished) else s

/-- The session after a claimed program has been announced and its task started. -/
def launched (p : ProgramId) (s : Session) : Session :=
  let t := if s.isRunning p then announced p .running .stopped s else s
  { t with tasks := t.tasks.push ⟨p, .ready t.now, false⟩ }

/-- The session after recorders of moves have been told about a move, some before the finish and
some after it. -/
def passed (l : Level) (early late : List (Callback Move)) (m : Move) (s : Session) : Session :=
  let told := recordAll (early.map fun c => .moved c.tag m m.target) (note (.committed m) s)
  recordAll (late.map fun c => .moved c.tag m m.target)
    (if m.target = l.finish then arrived l.finish told else told)

theorem passed_onto {l : Level} {m : Move} (hm : m.target = l.finish)
    (early late : List (Callback Move)) (s : Session) :
    passed l early late m s = recordAll (late.map fun c => .moved c.tag m m.target)
      (arrived l.finish (recordAll (early.map fun c => .moved c.tag m m.target)
        (note (.committed m) s))) := by
  simp only [passed, if_pos hm]

theorem passed_by {l : Level} {m : Move} (hm : m.target ≠ l.finish)
    (early late : List (Callback Move)) (s : Session) :
    passed l early late m s = recordAll (late.map fun c => .moved c.tag m m.target)
      (recordAll (early.map fun c => .moved c.tag m m.target) (note (.committed m) s)) := by
  simp only [passed, if_neg hm]

/-- Every callback only records, and programs consist of commands. -/
structure Quiet (s : Session) : Prop where
  observers : ∀ (p : ProgramId) (q : Program), s.programs[p]? = some q →
    ∀ c ∈ q.observers, c.IsRecorder
  commands : ∀ (p : ProgramId) (q : Program), s.programs[p]? = some q →
    ∀ a ∈ q.actions, ∃ d, a = .command d
  watchers : ∀ c, Watcher.client c ∈ s.scene.watchers → c.IsRecorder
  statuses : ∀ c ∈ s.scene.statusObservers, c.IsRecorder
  completions : ∀ c ∈ s.scene.completionObservers, c.IsRecorder
  bumps : ∀ c ∈ s.scene.wallObservers, c.IsRecorder

/-- A session of a level in which callbacks only record and the robot has the guards and the finish
of its level only. -/
structure Plain (l : Level) (s : Session) : Prop extends Quiet s where
  guards : s.scene.guards = .bounds l.bounds :: l.wallEntities.map .wall
  finish : ∃ early late : List (Callback Move), s.scene.watchers =
    early.map .client ++ .finish l.finishEntity :: late.map .client
  start : s.scene.start = l.robot
  delay : s.scene.delay = l.delay
  present : s.scene.present = true

/-- A change of status keeps a session quiet. -/
theorem Quiet.setStatus {s : Session} (h : Quiet s) (p : ProgramId) (status : Status) :
    Quiet (s.setStatus p status) := by
  have hmodified {p' : ProgramId} {q : Program}
      (hq : (s.setStatus p status).programs[p']? = some q) :
      ∃ q', s.programs[p']? = some q' ∧ q.observers = q'.observers ∧ q.actions = q'.actions := by
    simp only [Session.setStatus, Array.getElem?_modify] at hq
    split at hq
    · obtain ⟨q', hq', rfl⟩ := Option.map_eq_some_iff.mp hq
      exact ⟨q', hq', rfl, rfl⟩
    · exact ⟨q, hq, rfl, rfl⟩
  refine ⟨fun p' q hq => ?_, fun p' q hq => ?_, h.watchers, h.statuses, h.completions, h.bumps⟩
  · obtain ⟨q', hq', hobservers, -⟩ := hmodified hq
    rw [hobservers]
    exact h.observers p' q' hq'
  · obtain ⟨q', hq', -, hactions⟩ := hmodified hq
    rw [hactions]
    exact h.commands p' q' hq'

private theorem mem_append_recorder {ν : Type} {cs : List (Callback ν)}
    (hcs : ∀ c ∈ cs, c.IsRecorder) {c : Callback ν} (hc : c.IsRecorder) :
    ∀ c' ∈ cs ++ [c], c'.IsRecorder := by
  intro c' hc'
  rcases List.mem_append.mp hc' with hold | hnew
  · exact hcs c' hold
  · exact List.mem_singleton.mp hnew ▸ hc

/-- A recorder may follow a program. -/
theorem Quiet.subscribe {s : Session} (h : Quiet s) (p : ProgramId) {c : Callback StatusNotice}
    (hc : c.IsRecorder) : Quiet (s.subscribe p c) := by
  refine ⟨fun p' q hq => ?_, fun p' q hq => ?_, h.watchers, h.statuses, h.completions, h.bumps⟩
  · simp only [Session.subscribe, Array.getElem?_modify] at hq
    split at hq
    · obtain ⟨q', hq', rfl⟩ := Option.map_eq_some_iff.mp hq
      exact mem_append_recorder (h.observers p' q' hq') hc
    · exact h.observers p' q hq
  · simp only [Session.subscribe, Array.getElem?_modify] at hq
    split at hq
    · obtain ⟨q', hq', rfl⟩ := Option.map_eq_some_iff.mp hq
      exact h.commands p' q' hq'
    · exact h.commands p' q hq

/-- A program that a scene accepts has the scene's recorders, and commands only. -/
theorem Quiet.accepted {s : Session} (h : Quiet s) (source : String) :
    Quiet (s.accepted source) := by
  have hclaimed (q : Program) :
      q.claimed.observers = q.observers ∧ q.claimed.actions = q.actions := by
    unfold Program.claimed
    split <;> exact ⟨rfl, rfl⟩
  refine ⟨fun p q hq => ?_, fun p q hq => ?_, h.watchers, h.statuses, h.completions, h.bumps⟩
  · simp only [Session.accepted, Array.getElem?_push] at hq
    split at hq
    · cases hq
      rw [(hclaimed _).1]
      exact h.statuses
    · exact h.observers p q hq
  · simp only [Session.accepted, Array.getElem?_push] at hq
    split at hq
    · cases hq
      rw [(hclaimed _).2]
      intro a ha
      obtain ⟨d, -, rfl⟩ := List.mem_map.mp (List.mem_toArray.mp ha)
      exact ⟨d, rfl⟩
    · exact h.commands p q hq

/-- Only programs and scene decide whether a session is quiet. -/
theorem Quiet.congr {s t : Session} (h : Quiet s) (hprograms : t.programs = s.programs)
    (hscene : t.scene = s.scene) : Quiet t where
  observers := by rw [hprograms]; exact h.observers
  commands := by rw [hprograms]; exact h.commands
  watchers := by rw [hscene]; exact h.watchers
  statuses := by rw [hscene]; exact h.statuses
  completions := by rw [hscene]; exact h.completions
  bumps := by rw [hscene]; exact h.bumps

section OutcomeFields

/-- What observers of a program that exists are told. -/
theorem notice_of_program {s : Session} {p : ProgramId} {q : Program} (hq : s.programs[p]? = some q)
    (new old : Status) : s.notice p new old =
      ⟨p, q.source, q.length, new, old, q.status, s.scene.complete, s.scene.position⟩ := by
  unfold notice
  rw [hq]

/-- The events of an announcement. -/
theorem events_announced {s : Session} {p : ProgramId} {q : Program} (hq : s.programs[p]? = some q)
    (new old : Status) : (announced p new old s).events.toList = s.events.toList ++
      q.observers.map fun c => .status c.tag
        ⟨p, q.source, q.length, new, old, q.status, s.scene.complete, s.scene.position⟩ := by
  unfold announced
  rw [hq, notice_of_program hq]
  exact events_recordAll _ _

@[simp] theorem scene_announced (p : ProgramId) (new old : Status) (s : Session) :
    (announced p new old s).scene = s.scene := by
  unfold announced
  split <;> rfl

@[simp] theorem programs_announced (p : ProgramId) (new old : Status) (s : Session) :
    (announced p new old s).programs = s.programs := by
  unfold announced
  split <;> rfl

@[simp] theorem tasks_announced (p : ProgramId) (new old : Status) (s : Session) :
    (announced p new old s).tasks = s.tasks := by
  unfold announced
  split <;> rfl

@[simp] theorem now_announced (p : ProgramId) (new old : Status) (s : Session) :
    (announced p new old s).now = s.now := by
  unfold announced
  split <;> rfl

@[simp] theorem scene_halted (p : ProgramId) (s : Session) : (halted p s).scene = s.scene := by
  unfold halted
  split
  · rfl
  · split
    · rfl
    · exact scene_announced _ _ _ _

@[simp] theorem scene_haltedCurrent (s : Session) : s.haltedCurrent.scene = s.scene := by
  unfold haltedCurrent
  split
  · exact scene_halted _ s
  · rfl

end OutcomeFields

section Outcomes

variable {perform : Perform}

theorem tellStatus_quiet (p : ProgramId) (new old : Status) {cs : List (Callback StatusNotice)}
    (hcs : ∀ c ∈ cs, c.IsRecorder) (s : Session) :
    tellStatus perform p new old cs s =
      (.value (), recordAll (cs.map fun c => .status c.tag (s.notice p new old)) s) := by
  induction cs generalizing s with
  | nil => simp [tellStatus]
  | cons c rest ih =>
    have hc := hcs c List.mem_cons_self
    have hrest := ih (fun c' hc' => hcs c' (List.mem_cons_of_mem _ hc'))
      (s.record (.status c.tag (s.notice p new old)))
    unfold tellStatus
    dsimp only
    rw [hc, performAll, andThen_value, hrest, recordAll_record]
    rfl

theorem tellCallbacks_quiet {ν : Type} (event : String → Event) (x : ν) {cs : List (Callback ν)}
    (hcs : ∀ c ∈ cs, c.IsRecorder) (s : Session) :
    tellCallbacks perform event x cs s =
      (.value (), recordAll (cs.map fun c => event c.tag) s) := by
  induction cs generalizing s with
  | nil => simp [tellCallbacks]
  | cons c rest ih =>
    have hc := hcs c List.mem_cons_self
    have hrest := ih (fun c' hc' => hcs c' (List.mem_cons_of_mem _ hc')) (s.record (event c.tag))
    unfold tellCallbacks
    rw [hc, performAll, andThen_value, hrest, recordAll_record]
    rfl

/-- An announcement to recorders. -/
theorem Quiet.announce_eq {s : Session} (h : Quiet s) (p : ProgramId) (new old : Status) :
    announce perform p new old s = (.value (), announced p new old s) := by
  unfold announce announced
  cases hq : s.programs[p]? with
  | none => rfl
  | some q => exact tellStatus_quiet p new old (h.observers p q hq) _

theorem Quiet.stop_eq {s : Session} (h : Quiet s) (p : ProgramId) :
    stop perform p s = (.value (), halted p s) := by
  unfold stop halted
  cases s.status? p with
  | none => rfl
  | some old =>
    cases hfinal : old.isTerminal with
    | true => simp [hfinal]
    | false => simpa [hfinal] using (h.setStatus p .aborted).announce_eq p .aborted old

theorem Quiet.stopCurrent_eq {s : Session} (h : Quiet s) :
    stopCurrent perform s = (.value (), haltedCurrent s) := by
  unfold stopCurrent haltedCurrent
  cases s.scene.slot with
  | none => rfl
  | some p => exact h.stop_eq p

theorem Quiet.finishProgram_eq {s : Session} (h : Quiet s) (p : ProgramId) :
    finishProgram perform p s = (.value (), finished p s) := by
  unfold finishProgram finished
  cases s.isRunning p with
  | true => exact (h.setStatus p .finished).announce_eq p .finished .running
  | false => rfl

theorem Quiet.startClaimed_eq {s : Session} (h : Quiet s) (p : ProgramId) :
    startClaimed perform p s = (.value s.tasks.size, launched p s) := by
  unfold startClaimed launched
  cases s.isRunning p with
  | true =>
    simp only [if_true]
    rw [h.announce_eq, andThen_value, tasks_announced]
  | false => rfl

theorem Quiet.finishReached_eq {s : Session} (h : Quiet s) (p : Position) :
    finishReached perform p s = (.value (), arrived p s) := by
  unfold finishReached arrived
  rw [h.stopCurrent_eq, andThen_value]
  split
  · rfl
  · have hobservers : s.haltedCurrent.scene.completionObservers = s.scene.completionObservers := by
      rw [scene_haltedCurrent]
    have hcompletions := h.completions
    rw [← hobservers] at hcompletions
    refine (tellCallbacks_quiet (.completed · p) p hcompletions _).trans ?_
    rw [hobservers]

theorem Quiet.wallHit_eq {s : Session} (h : Quiet s) (hpresent : s.scene.present = true)
    (m : Move) :
    wallHit perform m s = (.value (), recordAll (s.scene.wallObservers.map fun c => .bumped c.tag m)
      (note (.bumped m.target) s)) := by
  unfold wallHit
  rw [if_pos hpresent]
  exact tellCallbacks_quiet _ _ h.bumps _

/-- The walls of a level refuse a move onto one of them, and tell about it once. -/
theorem consult_walls {s : Session} (h : Quiet s) (hpresent : s.scene.present = true) (m : Move)
    (view : Snapshot) (walls : List Wall) :
    consult m view ((walls.map Guard.wall).map (guardAcceptor perform)) s =
      if m.target ∈ walls.map Wall.position then
        (.value false, recordAll (s.scene.wallObservers.map fun c => .bumped c.tag m)
          (note (.bumped m.target) s))
      else
        (.value true, s) := by
  rw [consult_wallGuards, h.wallHit_eq hpresent, andThen_value]

/-- The guards of a level look at the bounds first, and then at the walls. -/
theorem Plain.ask_eq {l : Level} {s : Session} (h : Plain l s) (m : Move) :
    ask perform m s =
      if l.bounds.contains m.target then
        if m.target ∈ l.walls then
          (.value false, recordAll (s.scene.wallObservers.map fun c => .bumped c.tag m)
            (note (.bumped m.target) s))
        else
          (.value true, s)
      else
        (.value false, s) := by
  have hbounds : ∀ view, guardAcceptor perform (.bounds l.bounds) m view s =
      (.value (l.bounds.contains m.target), s) := fun _ => rfl
  have hpositions : l.wallEntities.map Wall.position = l.walls := by
    simp [Level.wallEntities, Function.comp_def]
  change consult m _ (s.scene.guards.map (guardAcceptor perform)) s = _
  rw [h.guards, List.map_cons, consult, hbounds, andThen_value, consult_walls h.toQuiet h.present,
    hpositions]

theorem tell_clients {cs : List (Callback Move)} (hcs : ∀ c ∈ cs, c.IsRecorder) (m : Move)
    (view : Snapshot) (s : Session) :
    tell m view ((cs.map Watcher.client).map (watcherObserver perform)) s =
      (.value (), recordAll (cs.map fun c => .moved c.tag m view.position) s) := by
  induction cs generalizing s with
  | nil => simp [tell]
  | cons c rest ih =>
    have hc : watcherObserver perform (.client c) m view s =
        performAll perform (c.requests m) (s.record (.moved c.tag m view.position)) := rfl
    have hrest := ih (fun c' hc' => hcs c' (List.mem_cons_of_mem _ hc'))
      (s.record (.moved c.tag m view.position))
    rw [List.map_cons, List.map_cons, tell, hc, hcs c List.mem_cons_self m, performAll,
      andThen_value, hrest, recordAll_record]
    rfl

/-- The finish hands a move that lands on it over to its scene. -/
theorem Quiet.finish_eq {s : Session} (h : Quiet s) (hpresent : s.scene.present = true) (f : Finish)
    (m : Move) (view : Snapshot) :
    watcherObserver perform (.finish f) m view s =
      (.value (), if m.target = f.position then arrived f.position s else s) := by
  change Finish.observer f (host perform) m view s = _
  have hhost : (host perform).present s = true := hpresent
  unfold Finish.observer Finish.arrive Finish.isReachedBy
  by_cases hm : m.target = f.position
  · have hreached : (host perform).reached f.position s = (.value (), arrived f.position s) :=
      h.finishReached_eq f.position
    simp [hm, hhost, hreached]
  · simp [hm]

omit perform in
/-- The clients among the watchers of a quiet session only record. -/
theorem Quiet.clients_record {s : Session} (h : Quiet s) {early late : List (Callback Move)}
    {f : Finish} (hw : s.scene.watchers = early.map .client ++ .finish f :: late.map .client) :
    (∀ c ∈ early, c.IsRecorder) ∧ ∀ c ∈ late, c.IsRecorder := by
  refine ⟨fun c hc => h.watchers c ?_, fun c hc => h.watchers c ?_⟩
  · rw [hw]
    exact List.mem_append_left _ (List.mem_map_of_mem hc)
  · rw [hw]
    exact List.mem_append_right _ (List.mem_cons_of_mem _ (List.mem_map_of_mem hc))

/-- The watchers of a level's robot are told in order, the finish among them. -/
theorem Plain.tell_eq {l : Level} {s : Session} (h : Plain l s) {early late : List (Callback Move)}
    (hw : s.scene.watchers = early.map .client ++ .finish l.finishEntity :: late.map .client)
    (m : Move) (view : Snapshot) (hview : view.position = m.target) :
    tell m view (s.scene.watchers.map (watcherObserver perform)) (note (.committed m) s) =
      (.value (), passed l early late m s) := by
  obtain ⟨hearly, hlate⟩ := h.clients_record hw
  have htold : Quiet (recordAll (early.map fun c => .moved c.tag m m.target)
      (note (.committed m) s)) := h.toQuiet.congr rfl rfl
  rw [hw, List.map_append, tell_append, tell_clients hearly, andThen_value, List.map_cons, tell,
    hview, htold.finish_eq h.present, andThen_value, tell_clients hlate, hview]
  rfl

/-- A step that is not seen leaves a remark that it was not made. -/
theorem Plain.step_unseen {l : Level} {s : Session} (h : Plain l s) {d : Direction}
    (hd : l.sight? s.scene.position d = none) :
    ∃ r, (r = .outOfRange d s.scene.position ∨ ∃ m, r = .vetoed m) ∧
      step perform d s = (.value false, note r s) := by
  rcases Level.unseen_of_sight? hd with hnone | ⟨m, hm, hout⟩
  · exact ⟨_, .inl rfl, step_outOfRange hnone⟩
  · have hasked : ask perform m s = (.value false, s) := by
      rw [h.ask_eq, hout, if_neg Bool.false_ne_true]
    exact ⟨_, .inr ⟨m, rfl⟩, step_vetoed hm hasked⟩

/-- A step against a wall is told to the recorders of wall hits, each once. -/
theorem Plain.step_bumped {l : Level} {s : Session} (h : Plain l s) {d : Direction} {m : Move}
    (hd : l.sight? s.scene.position d = some (.bumped m)) :
    step perform d s = (.value false, note (.vetoed m) (recordAll
      (s.scene.wallObservers.map fun c => .bumped c.tag m) (note (.bumped m.target) s))) := by
  obtain ⟨hm, hinside, hwall⟩ := Level.bumped_of_sight? hd
  have hasked : ask perform m s = _ := h.ask_eq m
  rw [if_pos hinside, if_pos hwall] at hasked
  exact step_vetoed hm hasked

/-- A step onto a free cell is made and told to the watchers. -/
theorem Plain.step_moved {l : Level} {s : Session} (h : Plain l s)
    {early late : List (Callback Move)}
    (hw : s.scene.watchers = early.map .client ++ .finish l.finishEntity :: late.map .client)
    {d : Direction} {m : Move} (hd : l.sight? s.scene.position d = some (.moved m)) :
    step perform d s =
      (.value true, { passed l early late m s with scene.position := m.target }) := by
  obtain ⟨hm, hinside, hfree⟩ := Level.moved_of_sight? hd
  have hasked : ask perform m s = (.value true, s) := by
    rw [h.ask_eq, if_pos hinside, if_neg hfree]
  exact step_made hm hasked (h.tell_eq hw m _ rfl)

/-- What a scene does with a text while it plays nothing. -/
theorem Quiet.play_idle_eq {s : Session} (h : Quiet s) (source : String)
    (hidle : s.isPlaying = false) :
    play perform true source s =
      let t := (noteAll (compileRemarks source) s).accepted source
      if compile source = [] then (.value .idle, note .emptyProgram t)
      else
        (.value (.started s.tasks.size), launched s.programs.size
          (note (.playing (compile source).length) t)) := by
  have hlength : (Program.ofSource source s.scene.delay s.scene.statusObservers).length =
      (compile source).length := by
    simp [Program.ofSource, Program.length]
  have hnoted : Quiet (noteAll (compileRemarks source) s) := by
    rw [noteAll_eq]
    exact h.congr rfl rfl
  have hplayed : Quiet (note (.playing (compile source).length)
      ((noteAll (compileRemarks source) s).accepted source)) :=
    (hnoted.accepted source).congr rfl rfl
  have htasks : (noteAll (compileRemarks source) s).tasks = s.tasks := by
    rw [noteAll_eq]
  rw [play_idle source hidle]
  dsimp only
  unfold Program.isEmpty
  rw [hlength]
  by_cases hempty : compile source = []
  · simp [hempty]
  · have hpositive : ((compile source).length == 0) = false := by simpa using hempty
    rw [hpositive, if_neg hempty, hplayed.startClaimed_eq]
    simp only [Bool.false_eq_true, if_false, andThen_value]
    rw [tasks_note]
    simp only [Session.accepted, htasks]

end Outcomes

/-- A session of a level begins plain when its first observers are recorders. -/
theorem plain_ofLevel {l : Level} {observers : List (Callback Move)}
    (hobservers : ∀ c ∈ observers, c.IsRecorder) {s : Session}
    (h : ofLevel l observers = .ok s) : Plain l s := by
  obtain ⟨-, r, rfl⟩ := ofLevel_eq_ok h
  refine ⟨⟨nofun, nofun, fun c hc => ?_, nofun, nofun, nofun⟩, rfl, ⟨observers, [], rfl⟩, rfl, rfl,
    rfl⟩
  rcases List.mem_append.mp hc with hearly | hfinish
  · obtain ⟨c', hc', heq⟩ := List.mem_map.mp hearly
    cases heq
    exact hobservers c hc'
  · cases List.mem_singleton.mp hfinish

theorem Change.quiet {s t : Session} (hc : Change s t) (h : Quiet s) : Quiet t := by
  cases hc with
  | abort | finish | claim => exact h.setStatus _ _
  | accept source hidle => exact h.accepted source
  | follow p tag => exact h.subscribe p fun _ => rfl
  | complete => exact ⟨h.observers, h.commands, h.watchers, h.statuses, h.completions, h.bumps⟩
  | note | record | tell | witness | spawn => exact h.congr rfl rfl

/-- Every primitive change keeps a session plain. -/
theorem Change.plain {l : Level} {s t : Session} (hc : Change s t) (h : Plain l s) : Plain l t := by
  have hframe := hc.sameFrame
  refine ⟨hc.quiet h.toQuiet, hframe.guards.trans h.guards, ?_, hframe.start.trans h.start,
    hframe.delay.trans h.delay, hframe.present.trans h.present⟩
  rw [hframe.watchers]
  exact h.finish

/-- Where the robot stands does not decide whether a session is plain. -/
theorem Plain.moveTo {l : Level} {s : Session} (h : Plain l s) (p : Position) :
    Plain l { s with scene.position := p } :=
  ⟨⟨h.observers, h.commands, h.watchers, h.statuses, h.completions, h.bumps⟩, h.guards, h.finish,
    h.start, h.delay, h.present⟩

/-- Only programs and scene decide whether a session is plain. -/
theorem Plain.congr {l : Level} {s t : Session} (h : Plain l s)
    (hprograms : t.programs = s.programs) (hscene : t.scene = s.scene) : Plain l t := by
  refine ⟨h.toQuiet.congr hprograms hscene, ?_, ?_, ?_, ?_, ?_⟩
  · rw [hscene]
    exact h.guards
  · rw [hscene]
    exact h.finish
  · rw [hscene]
    exact h.start
  · rw [hscene]
    exact h.delay
  · rw [hscene]
    exact h.present

/-- A recorder may be subscribed to a plain session. -/
theorem Plain.arrange {perform : Perform} {l : Level} {s : Session} (h : Plain l s) {c : Call}
    (hc : c.isArrangement = true) (hplain : c.IsPlain) : Plain l (call perform c s).2 := by
  cases c with
  | subscribe p c =>
    exact ⟨h.toQuiet.subscribe p hplain, h.guards, h.finish, h.start, h.delay, h.present⟩
  | onMove c =>
    obtain ⟨early, late, hw⟩ := h.finish
    have hwatchers : s.scene.watchers ++ [.client c] =
        early.map .client ++ .finish l.finishEntity :: (late ++ [c]).map .client := by
      simp [hw]
    refine ⟨⟨h.observers, h.commands, fun c' hc' => ?_, h.statuses, h.completions, h.bumps⟩,
      h.guards, ⟨early, late ++ [c], hwatchers⟩, h.start, h.delay, h.present⟩
    rcases List.mem_append.mp hc' with hold | hnew
    · exact h.watchers c' hold
    · cases List.mem_singleton.mp hnew
      exact hplain
  | onStatus c =>
    exact ⟨⟨h.observers, h.commands, h.watchers, mem_append_recorder h.statuses hplain,
      h.completions, h.bumps⟩, h.guards, h.finish, h.start, h.delay, h.present⟩
  | onComplete c =>
    exact ⟨⟨h.observers, h.commands, h.watchers, h.statuses,
      mem_append_recorder h.completions hplain, h.bumps⟩, h.guards, h.finish, h.start, h.delay,
      h.present⟩
  | onWall c =>
    exact ⟨⟨h.observers, h.commands, h.watchers, h.statuses, h.completions,
      mem_append_recorder h.bumps hplain⟩, h.guards, h.finish, h.start, h.delay, h.present⟩
  | guard | dropScene => cases hplain
  | _ => cases hc

/-- Every deed of plain calls keeps a session plain. -/
theorem Deed.plain {perform : Perform} (hperform : perform.Orderly) {l : Level} {s t : Session}
    (hd : Deed perform Call.IsPlain s t) (h : Plain l s) : Plain l t :=
  hd.keeps hperform Change.plain (fun ha h => h.congr ha.programs ha.scene)
    (fun p h => h.moveTo p) (fun hc hplain h => h.arrange hc hplain) h

end Session

end GridPuzzle
