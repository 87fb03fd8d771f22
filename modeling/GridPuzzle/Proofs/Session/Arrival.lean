import GridPuzzle.Proofs.Session.Plain
import GridPuzzle.Proofs.Session.SinglePlayer

/-!
# Running, completion and the finish

While a program runs the level is not complete and the robot is not on the finish, and a robot on
the finish means a complete level. The status of the program, the mark of completion and the cell of
the robot are written at different points, so the invariant is shown for each of the pieces from
which the outcomes of a plain session are put together. It rests on a start that is not the finish,
and on the order in which a new program is accepted before anybody hears of it.
-/

namespace GridPuzzle

/-- Whoever was told that a program begins found the robot on its start and the level open. -/
def Event.Fair (l : Level) : Event → Prop
  | .status _ n =>
    n.new = .running → n.old = .stopped → n.position = l.robot ∧ n.complete = false
  | _ => True

namespace Session

/-- Running, completion and the finish agree. -/
structure Settled (l : Level) (s : Session) : Prop where
  playing : s.isPlaying = true → s.scene.complete = false
  arrived : s.scene.position = l.finish → s.scene.complete = true
  told : ∀ e ∈ s.events, e.Fair l

variable {l : Level} {s t : Session}

/-- Only programs, scene and events decide whether a session is settled. -/
theorem Settled.congr (h : Settled l s) (hprograms : t.programs = s.programs)
    (hscene : t.scene = s.scene) (hevents : t.events = s.events) : Settled l t := by
  refine ⟨fun hplaying => ?_, fun hpos => ?_, ?_⟩
  · rw [isPlaying_congr hprograms (by rw [hscene])] at hplaying
    rw [hscene]
    exact h.playing hplaying
  · rw [hscene] at hpos ⊢
    exact h.arrived hpos
  · rw [hevents]
    exact h.told

theorem Settled.note (h : Settled l s) (r : Remark) : Settled l (note r s) :=
  h.congr rfl rfl rfl

/-- Fair events may be written down. -/
theorem Settled.recordAll (h : Settled l s) {es : List Event} (hes : ∀ e ∈ es, e.Fair l) :
    Settled l (recordAll es s) := by
  refine ⟨h.playing, h.arrived, fun e he => ?_⟩
  have hmem : e ∈ s.events.toList ++ es := by
    rw [← events_recordAll]
    exact Array.mem_toList_iff.mpr he
  rcases List.mem_append.mp hmem with hold | hnew
  · exact h.told e (Array.mem_toList_iff.mp hold)
  · exact hes e hnew

/-- A program that moves on to a final status does not begin to play. -/
theorem isPlaying_of_setStatus {p : ProgramId} {status : Status} (hfinal : status.isTerminal = true)
    (h : (s.setStatus p status).isPlaying = true) : s.isPlaying = true := by
  obtain ⟨p', hslot, hrunning⟩ := isPlaying_iff.mp h
  rw [isRunning_iff, status?_setStatus] at hrunning
  split at hrunning
  · obtain ⟨_, _, rfl⟩ := Option.map_eq_some_iff.mp hrunning
    cases hfinal
  · exact isPlaying_iff.mpr ⟨p', hslot, isRunning_iff.mpr hrunning⟩

theorem Settled.setStatus (h : Settled l s) (p : ProgramId) {status : Status}
    (hfinal : status.isTerminal = true) : Settled l (s.setStatus p status) :=
  ⟨fun hplaying => h.playing (isPlaying_of_setStatus hfinal hplaying), h.arrived, h.told⟩

/-- Somebody may follow a program at any time. -/
theorem Settled.subscribe (h : Settled l s) (p : ProgramId) (c : Callback StatusNotice) :
    Settled l (s.subscribe p c) := by
  refine ⟨fun hplaying => ?_, h.arrived, h.told⟩
  obtain ⟨p', hslot, hrunning⟩ := isPlaying_iff.mp hplaying
  rw [isRunning_iff, status?_subscribe] at hrunning
  exact h.playing (isPlaying_iff.mpr ⟨p', hslot, isRunning_iff.mpr hrunning⟩)

/-- Whom the scene tells and asks does not matter. -/
theorem Settled.rearranged (h : Settled l s) {scene : Scene} (hscene : Rearranged s.scene scene) :
    Settled l { s with scene := scene } := by
  refine ⟨fun hplaying => ?_, fun hpos => ?_, h.told⟩
  · have hsame : ({ s with scene := scene } : Session).isPlaying = s.isPlaying :=
      isPlaying_congr rfl hscene.slot
    rw [hsame] at hplaying
    exact hscene.complete.trans (h.playing hplaying)
  · exact hscene.complete.trans (h.arrived (hscene.position.symm.trans hpos))

/-- A change may be announced, and the begin of a program where the robot is on its start and the
level open. -/
theorem Settled.announced (h : Settled l s) (p : ProgramId) {new old : Status}
    (hfair : new = .running → old = .stopped →
      s.scene.position = l.robot ∧ s.scene.complete = false) :
    Settled l (announced p new old s) := by
  unfold Session.announced
  split
  · rename_i q hq
    refine (h.note _).recordAll fun e he => ?_
    obtain ⟨c, -, rfl⟩ := List.mem_map.mp he
    rw [notice_of_program hq]
    exact hfair
  · exact h

theorem Settled.halted (h : Settled l s) (p : ProgramId) : Settled l (halted p s) := by
  unfold Session.halted
  split
  · exact h
  · split
    · exact h
    · exact (h.setStatus p rfl).announced p nofun

theorem Settled.haltedCurrent (h : Settled l s) : Settled l s.haltedCurrent := by
  unfold Session.haltedCurrent
  split
  · exact h.halted _
  · exact h

/-- After the program in the slot has been stopped, nothing plays. -/
theorem isPlaying_haltedCurrent (s : Session) : s.haltedCurrent.isPlaying = false := by
  unfold haltedCurrent
  cases hslot : s.scene.slot with
  | none => simp [isPlaying, hslot]
  | some p =>
    have hstatus : (halted p s).isRunning p = false := by
      unfold halted
      split
      · rename_i hnone
        simp [isRunning, hnone]
      · rename_i old hold
        split
        · rename_i hfinal
          rw [isRunning, hold]
          cases old <;> first | rfl | cases hfinal
        · rw [isRunning_congr (programs_announced _ _ _ _), isRunning, status?_setStatus,
            if_pos rfl, hold]
          rfl
    simp [isPlaying, hslot, hstatus]

/-- A level may be marked complete where nothing plays. -/
theorem Settled.completed (h : Settled l s) (hidle : s.isPlaying = false) :
    Settled l { s with scene.complete := true } := by
  refine ⟨fun hplaying => ?_, fun _ => rfl, h.told⟩
  have hsame : ({ s with scene.complete := true } : Session).isPlaying = s.isPlaying :=
    isPlaying_congr rfl rfl
  rw [hsame, hidle] at hplaying
  cases hplaying

/-- The finish may be reached at any time, and the level is complete then. -/
theorem Settled.reached (h : Settled l s) (p : Position) :
    Settled l (Session.arrived p s) ∧ (Session.arrived p s).scene.complete = true := by
  unfold Session.arrived
  split
  · rename_i hcomplete
    exact ⟨h.haltedCurrent, hcomplete⟩
  · have hmarked := h.haltedCurrent.completed (isPlaying_haltedCurrent s)
    refine ⟨(hmarked.note (.levelComplete p)).recordAll fun e he => ?_, rfl⟩
    obtain ⟨c, -, rfl⟩ := List.mem_map.mp he
    trivial

theorem Settled.finished (h : Settled l s) (p : ProgramId) : Settled l (finished p s) := by
  unfold Session.finished
  split
  · exact (h.setStatus p rfl).announced p nofun
  · exact h

/-- A new program is accepted with the robot on its start and the level open. -/
theorem Settled.accepted (h : Settled l s) (hl : l.Playable) (hstart : s.scene.start = l.robot)
    (source : String) : Settled l (s.accepted source) := by
  refine ⟨fun _ => rfl, fun hpos => ?_, h.told⟩
  have hfinish : s.scene.start = l.finish := hpos
  exact absurd (hstart.symm.trans hfinish) hl.apart

/-- A program may be announced and its task started where the robot is on its start and the level
open. -/
theorem Settled.launched (h : Settled l s) (p : ProgramId) (hpos : s.scene.position = l.robot)
    (hopen : s.scene.complete = false) : Settled l (launched p s) := by
  unfold Session.launched
  dsimp only
  split
  · exact (h.announced p fun _ _ => ⟨hpos, hopen⟩).congr rfl rfl rfl
  · exact h.congr rfl rfl rfl

/-- The robot may be put anywhere, on the finish if the level is complete. -/
theorem Settled.moveTo (h : Settled l s) {p : Position}
    (hp : p = l.finish → s.scene.complete = true) :
    Settled l { s with scene.position := p } :=
  ⟨fun hplaying => h.playing ((isPlaying_congr rfl rfl).symm.trans hplaying), hp, h.told⟩

/-- A move may be told to its watchers, and then made. -/
theorem Settled.passed (h : Settled l s) (early late : List (Callback Move)) (m : Move) :
    Settled l { passed l early late m s with scene.position := m.target } := by
  have htold (cs : List (Callback Move)) :
      ∀ e ∈ cs.map fun c => Event.moved c.tag m m.target, e.Fair l := by
    intro e he
    obtain ⟨c, -, rfl⟩ := List.mem_map.mp he
    trivial
  have hearly := (h.note (.committed m)).recordAll (htold early)
  unfold Session.passed
  dsimp only
  split
  · obtain ⟨hreached, hcomplete⟩ := hearly.reached l.finish
    exact (hreached.recordAll (htold late)).moveTo fun _ => hcomplete
  · rename_i hne
    exact (hearly.recordAll (htold late)).moveTo fun hpos => absurd hpos hne

/-- A step of the robot keeps a plain session settled. -/
theorem Settled.step {perform : Perform} (h : Settled l s) (hplain : Plain l s) (d : Direction) :
    Settled l (step perform d s).2 := by
  obtain ⟨early, late, hw⟩ := hplain.finish
  cases hd : l.sight? s.scene.position d with
  | none =>
    obtain ⟨r, -, hstep⟩ := hplain.step_unseen hd
    rw [hstep]
    exact h.note r
  | some seen =>
    cases seen with
    | bumped m =>
      rw [hplain.step_bumped hd]
      refine ((h.note _).recordAll fun e he => ?_).note _
      obtain ⟨c, -, rfl⟩ := List.mem_map.mp he
      trivial
    | moved m =>
      rw [hplain.step_moved hw hd]
      exact h.passed early late m

/-- A scene may be asked to play at any time. -/
theorem Settled.play {perform : Perform} (h : Settled l s) (hplain : Plain l s) (hl : l.Playable)
    (inRuntime : Bool) (source : String) : Settled l (play perform inRuntime source s).2 := by
  cases inRuntime with
  | false => exact h
  | true =>
    cases hplaying : s.isPlaying with
    | true =>
      rw [play_busy source hplaying]
      exact h.note _
    | false =>
      have hnoted : Settled l (noteAll (compileRemarks source) s) := by
        rw [noteAll_eq]
        exact h.congr rfl rfl rfl
      have hstart : (noteAll (compileRemarks source) s).scene.start = l.robot := by
        rw [noteAll_eq]
        exact hplain.start
      have haccepted := hnoted.accepted hl hstart source
      rw [hplain.play_idle_eq source hplaying]
      dsimp only
      split
      · exact haccepted.note _
      · exact (haccepted.note _).launched _ hstart rfl

/-- A session of a level begins settled. -/
theorem settled_ofLevel {observers : List (Callback Move)} (h : ofLevel l observers = .ok s) :
    Settled l s := by
  obtain ⟨hl, r, rfl⟩ := ofLevel_eq_ok h
  exact ⟨fun hplaying => absurd hplaying Bool.false_ne_true, fun hpos => absurd hpos hl.apart,
    fun e he => absurd he (Array.not_mem_empty e)⟩

/-- Every deed of plain calls keeps a session settled. -/
theorem Deed.settled {perform : Perform} (hd : Deed perform Call.IsPlain s t) (h : Settled l s)
    (hplain : Plain l s) (hplayer : OnePlayer s) (hl : l.Playable) : Settled l t := by
  cases hd with
  | note r => exact h.note r
  | clock | task | joined | receivers => exact h.congr rfl rfl rfl
  | reset => exact h.moveTo fun hpos => absurd (hplain.start.symm.trans hpos) hl.apart
  | step d => exact h.step hplain d
  | start inRuntime p =>
    obtain ⟨remarks, hstart⟩ : ∃ remarks, Session.start perform inRuntime p s =
        (.value none, { s with remarks := remarks }) := hplayer.start_eq inRuntime p
    rw [hstart]
    exact h.congr rfl rfl rfl
  | stop p =>
    rw [hplain.stop_eq]
    exact h.halted p
  | play inRuntime source => exact h.play hplain hl inRuntime source
  | finishReached p =>
    rw [hplain.finishReached_eq]
    exact (h.reached p).1
  | finish p =>
    rw [hplain.finishProgram_eq]
    exact h.finished p
  | script index hq ha =>
    obtain ⟨d, hd⟩ := hplain.commands _ _ hq _ ha
    cases hd
  | arrange hc ha =>
    rcases arrange_cases hc s with ⟨p, c', hcall⟩ | ⟨scene, hscene, hcall⟩
    · rw [hcall]
      exact h.subscribe p c'
    · rw [hcall]
      exact h.rearranged hscene

/-- While a program runs the level is open and the robot is off the finish, and a robot on the
finish means a complete level. -/
theorem running_completion_and_finish_agree {depth : Nat} {observers : List (Callback Move)}
    (hobservers : ∀ c ∈ observers, c.IsRecorder)
    (h : Reached (performWithin depth) Call.IsPlain l observers t) :
    (t.isPlaying = true → t.scene.complete = false ∧ t.scene.position ≠ l.finish) ∧
    (t.scene.position = l.finish → t.scene.complete = true) ∧
    -- who is told that a program begins finds the robot on its start and the level open
    ∀ tag n, Event.status tag n ∈ t.events → n.new = .running → n.old = .stopped →
      n.position = l.robot ∧ n.complete = false := by
  have horderly := performWithin_orderly depth
  obtain ⟨hsettled, -⟩ : Settled l t ∧ Plain l t ∧ OnePlayer t ∧ l.Playable := by
    refine Reached.keeps (P := fun t => Settled l t ∧ Plain l t ∧ OnePlayer t ∧ l.Playable)
      ?_ (fun s hlevel => ?_) h
    · rintro s t hd ⟨hsettled, hplain, hplayer, hl⟩
      exact ⟨hd.settled hsettled hplain hplayer hl, hd.plain horderly hplain,
        hd.onePlayer horderly hplayer, hl⟩
    · exact ⟨settled_ofLevel hlevel, plain_ofLevel hobservers hlevel, onePlayer_ofLevel hlevel,
        (ofLevel_eq_ok hlevel).1⟩
  refine ⟨fun hplaying => ⟨hsettled.playing hplaying, fun hpos => ?_⟩, hsettled.arrived,
    fun tag n hn => hsettled.told _ hn⟩
  have hcomplete := hsettled.playing hplaying
  rw [hsettled.arrived hpos] at hcomplete
  cases hcomplete

/-- The standard level with the finish beside the start. -/
def shortLevel : Level := { Level.standard with finish := ⟨3, 4⟩ }

/-- A program is watched on its way onto the finish. -/
def shortHistory : List Happening :=
  [.call (.onStatus (.recorder "status")), .call (.play true "left(1)"), .turn 0 0]

/-- The robot of such a history is on the finish, and the level is complete. -/
theorem short_history_completes_the_level :
    ∃ s, ofLevel shortLevel [.recorder "moves"] = .ok s ∧
      (after (performWithin 1) shortHistory s).scene.position = shortLevel.finish ∧
      (after (performWithin 1) shortHistory s).scene.complete = true := by
  have hobservers : ∀ c ∈ ([.recorder "moves"] : List (Callback Move)), c.IsRecorder := by
    simp [Callback.isRecorder_recorder]
  have hall : ∀ h ∈ shortHistory, h.Allowed Call.IsPlain := by
    simp [shortHistory, Happening.Allowed, Call.IsPlain, Callback.isRecorder_recorder]
  obtain ⟨s, hlevel, hpos⟩ : ∃ s, ofLevel shortLevel [.recorder "moves"] = .ok s ∧
      (after (performWithin 1) shortHistory s).scene.position = shortLevel.finish :=
    ⟨_, rfl, by decide +kernel⟩
  have hreached : Reached (performWithin 1) Call.IsPlain shortLevel [.recorder "moves"]
      (after (performWithin 1) shortHistory s) := ⟨s, shortHistory, hlevel, hall, rfl⟩
  obtain ⟨-, hcomplete, -⟩ := running_completion_and_finish_agree hobservers hreached
  exact ⟨s, hlevel, hpos, hcomplete hpos⟩

end Session

end GridPuzzle
