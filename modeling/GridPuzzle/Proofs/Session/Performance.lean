import GridPuzzle.Proofs.Session.Plain
import GridPuzzle.Proofs.Session.SinglePlayer

/-!
# Performances

What recorders write down while a scene plays the program of a text is a function of the walk in
the steps of the text. The invariant of a performance says what is still to come: the events so
far, and those of the walk from the present cell in the steps that are left, are the events in the
end. Every command keeps it, and a command that reaches the finish ends the performance.
-/

namespace GridPuzzle

/-- The final status of a program that has been played to its end. -/
def Level.Walk.status (w : Level.Walk) : Status := if w.arrived then .aborted else .finished

namespace Scene

variable (scene : Scene) (p : ProgramId) (source : String)

/-- What observers of the program of a text write down about a change, where the level is open. -/
def announces (new old : Status) (position : Position) : List Event :=
  scene.statusObservers.map fun c =>
    .status c.tag ⟨p, source, (compile source).length, new, old, new, false, position⟩

/-- What comes of one watcher when a program moves the robot. -/
def watches (m : Move) : Watcher → List Event
  | .client c => [.moved c.tag m m.target]
  | .finish f =>
    if m.target = f.position then
      scene.announces p source .aborted .running m.source ++
        scene.completionObservers.map fun c => .completed c.tag f.position
    else
      []

/-- What is written down about one sight. -/
def reports : Sight → List Event
  | .moved m => scene.watchers.flatMap (scene.watches p source m)
  | .bumped m => scene.wallObservers.map fun c => .bumped c.tag m

/-- What is written down about a walk, to the end of the program. -/
def recounts (w : Level.Walk) : List Event :=
  w.sights.flatMap (scene.reports p source) ++
    if w.arrived then [] else scene.announces p source .finished .running w.position

theorem recounts_cons (seen : Sight) (w : Level.Walk) :
    scene.recounts p source (w.cons seen) =
      scene.reports p source seen ++ scene.recounts p source w := by
  unfold recounts Level.Walk.cons
  rw [List.flatMap_cons, List.append_assoc]

/-- A walk that arrives at once is told as its move. -/
theorem recounts_arrived (m : Move) :
    scene.recounts p source ⟨[.moved m], m.target, true⟩ = scene.reports p source (.moved m) := by
  simp [recounts]

/-- A move is told to the first watchers, to the finish and to the later watchers. -/
theorem reports_moved {l : Level} {early late : List (Callback Move)}
    (hw : scene.watchers = early.map .client ++ .finish l.finishEntity :: late.map .client)
    (m : Move) :
    scene.reports p source (.moved m) =
      early.map (fun c => .moved c.tag m m.target) ++
        ((if m.target = l.finish then
          scene.announces p source .aborted .running m.source ++
            scene.completionObservers.map fun c => .completed c.tag l.finish
        else []) ++
        late.map fun c => .moved c.tag m m.target) := by
  have hclients (cs : List (Callback Move)) :
      (cs.map Watcher.client).flatMap (scene.watches p source m) =
        cs.map fun c => .moved c.tag m m.target := by
    induction cs with
    | nil => rfl
    | cons c rest ih => simp [watches, ih]
  unfold reports
  dsimp only
  rw [hw, List.flatMap_append, List.flatMap_cons, hclients, hclients]
  rfl

end Scene

namespace Session

/-- A program that a scene plays: the callbacks of the scene, and the events up to the announcement
of the program. -/
structure Performance where
  level : Level
  scene : Scene
  program : ProgramId
  source : String
  before : List Event

namespace Performance

variable (v : Performance)

/-- The walk of the program. -/
def walk : Level.Walk := v.level.walk v.level.robot (compile v.source)

/-- The events in the end. -/
def events : List Event := v.before ++ v.scene.recounts v.program v.source v.walk

/-- The program is in the slot of a plain session, with the callbacks that it began with. -/
structure Staged (s : Session) : Prop where
  plain : Plain v.level s
  player : OnePlayer s
  slot : s.scene.slot = some v.program
  watchers : s.scene.watchers = v.scene.watchers
  walls : s.scene.wallObservers = v.scene.wallObservers
  completions : s.scene.completionObservers = v.scene.completionObservers
  program : ∃ q : Program, s.programs[v.program]? = some q ∧ q.source = v.source ∧
    q.actions = ((compile v.source).map Action.command).toArray ∧
    q.observers = v.scene.statusObservers

/-- The program runs, and what is to come is the walk from the present cell in some steps. -/
structure On (rest : List Direction) (s : Session) : Prop extends v.Staged s where
  running : s.status? v.program = some .running
  opened : s.scene.complete = false
  events : s.events.toList ++
    v.scene.recounts v.program v.source (v.level.walk s.scene.position rest) = v.events
  position : (v.level.walk s.scene.position rest).position = v.walk.position
  arrived : (v.level.walk s.scene.position rest).arrived = v.walk.arrived

/-- The program has come to its end. -/
structure Over (s : Session) : Prop extends v.Staged s where
  status : s.status? v.program = some v.walk.status
  complete : s.scene.complete = v.walk.arrived
  events : s.events.toList = v.events
  position : s.scene.position = v.walk.position

variable {v} {s t : Session}

/-- Only programs and scene decide whether a program is staged. -/
theorem Staged.congr (h : v.Staged s) (hprograms : t.programs = s.programs)
    (hscene : t.scene = s.scene) : v.Staged t where
  plain := h.plain.congr hprograms hscene
  player := h.player.congr hprograms (by rw [hscene])
  slot := by rw [hscene]; exact h.slot
  watchers := by rw [hscene]; exact h.watchers
  walls := by rw [hscene]; exact h.walls
  completions := by rw [hscene]; exact h.completions
  program := by rw [hprograms]; exact h.program

/-- What is made aside does not touch a performance. -/
theorem On.aside {rest : List Direction} (h : v.On rest s) (ha : Aside s t) : v.On rest t where
  toStaged := h.toStaged.congr ha.programs ha.scene
  running := (status?_congr ha.programs _).trans h.running
  opened := by rw [ha.scene]; exact h.opened
  events := by rw [ha.events, ha.scene]; exact h.events
  position := by rw [ha.scene]; exact h.position
  arrived := by rw [ha.scene]; exact h.arrived

theorem Over.aside (h : v.Over s) (ha : Aside s t) : v.Over t where
  toStaged := h.toStaged.congr ha.programs ha.scene
  status := (status?_congr ha.programs _).trans h.status
  complete := by rw [ha.scene]; exact h.complete
  events := by rw [ha.events]; exact h.events
  position := by rw [ha.scene]; exact h.position

/-- A deed that leaves the slot alone, and the program but for its status, keeps it staged. -/
theorem Staged.deed {perform : Perform} (hperform : perform.Orderly) (h : v.Staged s)
    (hd : Deed perform Call.IsPlain s t) (hframe : SameFrame s t)
    (hslot : t.scene.slot = s.scene.slot)
    (hprograms : t.programs = s.programs ∨
      ∃ status, t.programs = (s.setStatus v.program status).programs) : v.Staged t := by
  obtain ⟨q, hq, hsource, hactions, hobservers⟩ := h.program
  refine ⟨hd.plain hperform h.plain, hd.onePlayer hperform h.player, hslot.trans h.slot,
    hframe.watchers.trans h.watchers, hframe.wallObservers.trans h.walls,
    hframe.completionObservers.trans h.completions, ?_⟩
  rcases hprograms with hsame | ⟨status, hset⟩
  · rw [hsame]
    exact ⟨q, hq, hsource, hactions, hobservers⟩
  · refine ⟨q.become status, ?_, hsource, hactions, hobservers⟩
    rw [hset]
    exact getElem?_setStatus hq status

/-- A change of status of the program is announced to the observers that it began with. -/
theorem Staged.events_announced (h : v.Staged s) (hopen : s.scene.complete = false)
    (new old : Status) :
    (announced v.program new old (s.setStatus v.program new)).events.toList =
      s.events.toList ++ v.scene.announces v.program v.source new old s.scene.position := by
  obtain ⟨q, hq, hsource, hactions, hobservers⟩ := h.program
  have hset := getElem?_setStatus hq new
  have hlength : (q.become new).length = (compile v.source).length := by
    simp [Program.become, Program.length, hactions]
  rw [Session.events_announced hset, hlength]
  simp only [Program.become, hsource, hobservers, scene_setStatus, events_setStatus, hopen,
    Scene.announces]

/-- The status of the program after a change. -/
theorem Staged.status?_announced (h : v.Staged s) (new old : Status) :
    (announced v.program new old (s.setStatus v.program new)).status? v.program = some new := by
  obtain ⟨q, hq, -⟩ := h.program
  rw [status?_congr (programs_announced _ _ _ _), status?_setStatus_self (status?_of_program hq)]

/-- Reaching the finish in a performance: the program is aborted, and the level is complete. -/
theorem Staged.arrived_eq (h : v.Staged s) (hrunning : s.status? v.program = some .running)
    (hopen : s.scene.complete = false) (p : Position) :
    Session.arrived p s = recordAll (v.scene.completionObservers.map fun c => .completed c.tag p)
      (note (.levelComplete p)
        { announced v.program .aborted .running (s.setStatus v.program .aborted) with
          scene.complete := true }) := by
  have hhalted : s.haltedCurrent =
      announced v.program .aborted .running (s.setStatus v.program .aborted) := by
    unfold haltedCurrent halted
    rw [h.slot]
    dsimp only
    rw [hrunning]
    rfl
  have hopen' : s.haltedCurrent.scene.complete = false := by
    rw [scene_haltedCurrent]
    exact hopen
  unfold Session.arrived
  rw [hopen', if_neg Bool.false_ne_true, hhalted, h.completions]

section Commands

variable {perform : Perform} (hperform : perform.Orderly) {d : Direction} {m : Move}
  {rest : List Direction}

include hperform

/-- A step that leaves the slot alone, and the program but for its status, keeps it staged. -/
theorem Staged.step (h : v.Staged s) {b : Bool} (hstep : Session.step perform d s = (.value b, t))
    (hslot : t.scene.slot = s.scene.slot) (hprograms : t.programs = s.programs ∨
      ∃ status, t.programs = (s.setStatus v.program status).programs) : v.Staged t := by
  have hd : Deed perform Call.IsPlain s (Session.step perform d s).2 := .step s d
  have hframe := step_sameFrame hperform d s
  rw [hstep] at hd hframe
  exact h.deed hperform hd hframe hslot hprograms

theorem On.step_unseen (h : v.On (d :: rest) s) (hd : v.level.sight? s.scene.position d = none) :
    ∃ b t, Session.step perform d s = (.value b, t) ∧ t.tasks = s.tasks ∧ v.On rest t := by
  obtain ⟨r, -, hstep⟩ : ∃ r, _ ∧ Session.step perform d s = (.value false, note r s) :=
    h.plain.step_unseen hd
  have hwalk := Level.walk_cons_unseen rest hd
  exact ⟨false, _, hstep, rfl, h.toStaged.step hperform hstep rfl (.inl rfl), h.running, h.opened,
    hwalk ▸ h.events, hwalk ▸ h.position, hwalk ▸ h.arrived⟩

theorem On.step_bumped (h : v.On (d :: rest) s)
    (hd : v.level.sight? s.scene.position d = some (.bumped m)) :
    ∃ b t, Session.step perform d s = (.value b, t) ∧ t.tasks = s.tasks ∧ v.On rest t := by
  have hstep : Session.step perform d s = _ := h.plain.step_bumped hd
  have hevents := h.events
  have hposition := h.position
  have harrived := h.arrived
  rw [Level.walk_cons_bumped rest hd] at hevents hposition harrived
  rw [Scene.recounts_cons, ← List.append_assoc] at hevents
  refine ⟨false, _, hstep, rfl, h.toStaged.step hperform hstep rfl (.inl rfl), h.running, h.opened,
    ?_, hposition, harrived⟩
  rw [events_note, events_recordAll, events_note, h.walls]
  exact hevents

theorem On.step_moved (h : v.On (d :: rest) s)
    (hd : v.level.sight? s.scene.position d = some (.moved m)) (hm : m.target ≠ v.level.finish) :
    ∃ b t, Session.step perform d s = (.value b, t) ∧ t.tasks = s.tasks ∧ v.On rest t := by
  obtain ⟨early, late, hw⟩ := h.plain.finish
  have hstep : Session.step perform d s = _ := h.plain.step_moved hw hd
  rw [passed_by hm] at hstep
  have hreports := v.scene.reports_moved v.program v.source (h.watchers ▸ hw) m
  have hevents := h.events
  have hposition := h.position
  have harrived := h.arrived
  rw [Level.walk_cons_moved rest hd hm] at hevents hposition harrived
  rw [Scene.recounts_cons, hreports, if_neg hm, List.nil_append, ← List.append_assoc,
    ← List.append_assoc] at hevents
  refine ⟨true, _, hstep, rfl, h.toStaged.step hperform hstep rfl (.inl rfl), h.running, h.opened,
    ?_, hposition, harrived⟩
  simpa only [events_recordAll, events_note] using hevents

/-- The first move onto the finish ends a performance. -/
theorem On.step_arrived (h : v.On (d :: rest) s)
    (hd : v.level.sight? s.scene.position d = some (.moved m)) (hm : m.target = v.level.finish) :
    ∃ b t, Session.step perform d s = (.value b, t) ∧ t.tasks = s.tasks ∧ v.Over t := by
  obtain ⟨early, late, hw⟩ := h.plain.finish
  -- the finish is told while the robot still counts as standing on the cell that it leaves
  have htold : v.Staged (recordAll (early.map fun c => .moved c.tag m m.target)
      (note (.committed m) s)) := h.toStaged.congr rfl rfl
  have hstep : Session.step perform d s = _ := h.plain.step_moved hw hd
  rw [passed_onto hm, htold.arrived_eq h.running h.opened] at hstep
  have hreports := v.scene.reports_moved v.program v.source (h.watchers ▸ hw) m
  have hsource := Move.source_of_towards? (Level.moved_of_sight? hd).1
  have hannounced := htold.events_announced h.opened .aborted .running
  have hevents := h.events
  have hposition := h.position
  have harrived := h.arrived
  rw [Level.walk_cons_arrived rest hd hm] at hevents hposition harrived
  rw [Scene.recounts_arrived, hreports, if_pos hm, hsource] at hevents
  have hstatus : v.walk.status = .aborted := by
    unfold Level.Walk.status
    rw [← harrived]
    rfl
  refine ⟨true, _, hstep, ?_, h.toStaged.step hperform hstep ?_ (.inr ⟨.aborted, ?_⟩), ?_, harrived,
    ?_, hposition⟩
  · exact tasks_announced _ _ _ _
  · simp
  · exact programs_announced _ _ _ _
  · rw [hstatus]
    exact htold.status?_announced .aborted .running
  · rw [← hevents]
    simp only [events_recordAll, events_note, hannounced, scene_recordAll, scene_note,
      List.append_assoc]

/-- A command of the program goes one step further in the walk. -/
theorem On.step (h : v.On (d :: rest) s) :
    ∃ b t, Session.step perform d s = (.value b, t) ∧ t.tasks = s.tasks ∧
      (v.On rest t ∨ v.Over t) := by
  cases hd : v.level.sight? s.scene.position d with
  | none =>
    obtain ⟨b, t, hstep, htasks, hon⟩ := h.step_unseen hperform hd
    exact ⟨b, t, hstep, htasks, .inl hon⟩
  | some seen =>
    cases seen with
    | bumped m =>
      obtain ⟨b, t, hstep, htasks, hon⟩ := h.step_bumped hperform hd
      exact ⟨b, t, hstep, htasks, .inl hon⟩
    | moved m =>
      by_cases hm : m.target = v.level.finish
      · obtain ⟨b, t, hstep, htasks, hover⟩ := h.step_arrived hperform hd hm
        exact ⟨b, t, hstep, htasks, .inr hover⟩
      · obtain ⟨b, t, hstep, htasks, hon⟩ := h.step_moved hperform hd hm
        exact ⟨b, t, hstep, htasks, .inl hon⟩

/-- Where no step is left the program is finished. -/
theorem On.finish (h : v.On [] s) :
    finishProgram perform v.program s = (.value (), finished v.program s) ∧
      (finished v.program s).tasks = s.tasks ∧ v.Over (finished v.program s) := by
  have hfinish : finishProgram perform v.program s = _ := h.plain.finishProgram_eq v.program
  have hfinished : finished v.program s =
      announced v.program .finished .running (s.setStatus v.program .finished) := by
    unfold finished
    rw [if_pos (isRunning_iff.mpr h.running)]
  have hd : Deed perform Call.IsPlain s (finishProgram perform v.program s).2 :=
    .finish s v.program
  have hframe := (finishProgram_changes hperform v.program s).sameFrame
  rw [hfinish] at hd hframe
  have hstatus : v.walk.status = .finished := by
    unfold Level.Walk.status
    rw [← h.arrived]
    rfl
  refine ⟨hfinish, ?_, h.toStaged.deed hperform hd hframe ?_ ?_, ?_, ?_, ?_, ?_⟩
  · rw [hfinished, tasks_announced, tasks_setStatus]
  · rw [hfinished, scene_announced, scene_setStatus]
  · rw [hfinished, programs_announced]
    exact .inr ⟨.finished, rfl⟩
  · rw [hfinished, hstatus]
    exact h.status?_announced .finished .running
  · rw [hfinished, scene_announced, scene_setStatus, h.opened]
    exact h.arrived
  · rw [hfinished, h.events_announced h.opened]
    exact h.events
  · rw [hfinished, scene_announced, scene_setStatus]
    exact h.position

end Commands

end Performance

end Session

end GridPuzzle
