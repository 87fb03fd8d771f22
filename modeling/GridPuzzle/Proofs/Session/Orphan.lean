import GridPuzzle.Session.Call
import GridPuzzle.Proofs.Session.Plain

/-!
# Letting go of the scene

A robot that outlives its scene is compared with the same robot in a scene that is kept. From a
session that plain calls lead to on a valid level, commands are carried out one by one, and the
scene is let go of after some of them. The two runs are related step by step: the robots stand on
the same cell and are watched by the same observers, while the status of a program and the mark of
completion may differ, since nobody tells the gone scene about an arrival. A step of the one has the
same answer as a step of the other, and what is written down without the scene is what is written
down about moves with it.
-/

namespace GridPuzzle

/-- What a move observer writes down. -/
def Event.isMove : Event → Bool
  | .moved _ _ _ => true
  | _ => false

/-- What the observers of a scene write down about the walls and the finish. -/
def Event.isNews : Event → Bool
  | .bumped _ _ | .completed _ _ => true
  | _ => false

namespace Session

/-- What the move observers wrote down during a command. -/
def Stride.moves (stride : Stride) : List Event := stride.events.filter Event.isMove

/-- What was written down about walls and the finish during a command. -/
def Stride.news (stride : Stride) : List Event := stride.events.filter Event.isNews

/-- A command with what is written down about moves only. -/
def Stride.muted (stride : Stride) : Stride := { stride with events := stride.moves }

@[simp] theorem Stride.moves_muted (stride : Stride) : stride.muted.moves = stride.moves := by
  simp [Stride.muted, Stride.moves]

@[simp] theorem Stride.news_muted (stride : Stride) : stride.muted.news = [] := by
  simp only [Stride.muted, Stride.moves, Stride.news, List.filter_filter, List.filter_eq_nil_iff]
  intro e _
  cases e <;> simp [Event.isMove, Event.isNews]

variable {perform : Perform} {l : Level} {s t : Session}

section Muted

theorem filter_moved (cs : List (Callback Move)) (m : Move) (p : Position) :
    (cs.map fun c => Event.moved c.tag m p).filter Event.isMove =
      cs.map fun c => Event.moved c.tag m p :=
  List.filter_eq_self.mpr (by simp [Event.isMove])

/-- The events of an announcement are not about moves. -/
theorem events_announced_still (p : ProgramId) (new old : Status) (s : Session) :
    ∃ es : List Event, (announced p new old s).events.toList = s.events.toList ++ es ∧
      es.filter Event.isMove = [] := by
  unfold announced
  split
  · exact ⟨_, events_recordAll _ _, by simp [Event.isMove]⟩
  · exact ⟨[], (List.append_nil _).symm, rfl⟩

/-- Nor are those of an arrival. -/
theorem events_arrived_still (p : Position) (s : Session) :
    ∃ es : List Event, (arrived p s).events.toList = s.events.toList ++ es ∧
      es.filter Event.isMove = [] := by
  have hhalted (p : ProgramId) : ∃ es : List Event,
      (halted p s).events.toList = s.events.toList ++ es ∧ es.filter Event.isMove = [] := by
    unfold halted
    split
    · exact ⟨[], (List.append_nil _).symm, rfl⟩
    · split
      · exact ⟨[], (List.append_nil _).symm, rfl⟩
      · exact events_announced_still p _ _ (s.setStatus p .aborted)
  have hcurrent : ∃ es : List Event,
      s.haltedCurrent.events.toList = s.events.toList ++ es ∧ es.filter Event.isMove = [] := by
    unfold haltedCurrent
    split
    · exact hhalted _
    · exact ⟨[], (List.append_nil _).symm, rfl⟩
  obtain ⟨es, hes, hstill⟩ := hcurrent
  unfold arrived
  split
  · exact ⟨es, hes, hstill⟩
  · refine ⟨es ++ s.scene.completionObservers.map fun c => .completed c.tag p, ?_, ?_⟩
    · rw [events_recordAll, ← List.append_assoc, ← hes]
      rfl
    · simp [hstill, Event.isMove]

/-- Of what a move onto a free cell leaves, the part about moves is what the watchers write down
themselves. -/
theorem events_passed (early late : List (Callback Move)) (m : Move) (s : Session) :
    ∃ es : List Event, (passed l early late m s).events.toList = s.events.toList ++ es ∧
      es.filter Event.isMove = (early ++ late).map fun c => .moved c.tag m m.target := by
  by_cases hm : m.target = l.finish
  · obtain ⟨es, hes, hstill⟩ := events_arrived_still l.finish
      (recordAll (early.map fun c => .moved c.tag m m.target) (note (.committed m) s))
    refine ⟨early.map (fun c => .moved c.tag m m.target) ++
      (es ++ late.map fun c => .moved c.tag m m.target), ?_, ?_⟩
    · rw [passed_onto hm, events_recordAll, hes, events_recordAll, events_note]
      simp only [List.append_assoc]
    · simp only [List.filter_append, filter_moved, hstill, List.nil_append, List.map_append]
  · refine ⟨(early ++ late).map fun c => .moved c.tag m m.target, ?_, filter_moved _ _ _⟩
    rw [passed_by hm, events_recordAll, events_recordAll, events_note, List.map_append,
      List.append_assoc]

end Muted

section Dropped

/-- Without a scene the walls refuse in silence. -/
theorem consult_walls_dropped (m : Move) (view : Snapshot) (walls : List Wall) (s : Session) :
    consult m view ((walls.map Guard.wall).map (guardAcceptor perform)) (dropScene s) =
      (.value (decide (m.target ∉ walls.map Wall.position)), dropScene s) := by
  have hhit : wallHit perform m (dropScene s) = (.value (), dropScene s) := rfl
  rw [consult_wallGuards, hhit, andThen_value]
  by_cases hwall : m.target ∈ walls.map Wall.position
  · rw [if_pos hwall, decide_eq_false (not_not_intro hwall)]
  · rw [if_neg hwall, decide_eq_true hwall]

/-- Without a scene the guards let the same moves pass. -/
theorem Plain.ask_dropped (h : Plain l s) (m : Move) :
    ask perform m (dropScene s) =
      (.value (l.bounds.contains m.target && decide (m.target ∉ l.walls)), dropScene s) := by
  have hguards : (dropScene s).scene.guards = .bounds l.bounds :: l.wallEntities.map .wall :=
    h.guards
  have hbounds : ∀ view, guardAcceptor perform (.bounds l.bounds) m view (dropScene s) =
      (.value (l.bounds.contains m.target), dropScene s) := fun _ => rfl
  have hpositions : l.wallEntities.map Wall.position = l.walls := by
    simp [Level.wallEntities, Function.comp_def]
  change consult m _ ((dropScene s).scene.guards.map (guardAcceptor perform)) (dropScene s) = _
  rw [hguards, List.map_cons, consult, hbounds, andThen_value, consult_walls_dropped, hpositions]
  cases l.bounds.contains m.target <;> rfl

/-- The session after a move has been told to the watchers of a robot without a scene. -/
def strayed (l : Level) (early late : List (Callback Move)) (m : Move) (s : Session) : Session :=
  let told := recordAll (early.map fun c => .moved c.tag m m.target) (note (.committed m) s)
  recordAll (late.map fun c => .moved c.tag m m.target)
    (if m.target = l.finish then note (.finishAlone l.finish) told else told)

theorem events_strayed (early late : List (Callback Move)) (m : Move) (s : Session) :
    (strayed l early late m s).events.toList =
      s.events.toList ++ (early ++ late).map fun c => .moved c.tag m m.target := by
  unfold strayed
  dsimp only
  rw [events_recordAll, List.map_append, ← List.append_assoc]
  split
  · rw [events_note, events_recordAll, events_note]
  · rw [events_recordAll, events_note]

theorem scene_strayed (early late : List (Callback Move)) (m : Move) (s : Session) :
    (strayed l early late m s).scene = s.scene := by
  unfold strayed
  split <;> rfl

theorem programs_strayed (early late : List (Callback Move)) (m : Move) (s : Session) :
    (strayed l early late m s).programs = s.programs := by
  unfold strayed
  split <;> rfl

/-- The watchers of a robot without a scene are told in order; the finish finds nobody to tell. -/
theorem Plain.tell_dropped (h : Plain l s) {early late : List (Callback Move)}
    (hw : s.scene.watchers = early.map .client ++ .finish l.finishEntity :: late.map .client)
    (m : Move) (view : Snapshot) (hview : view.position = m.target) :
    tell m view ((dropScene s).scene.watchers.map (watcherObserver perform))
      (note (.committed m) (dropScene s)) =
      (.value (), dropScene (strayed l early late m s)) := by
  obtain ⟨hearly, hlate⟩ := h.clients_record hw
  have hdropped : (dropScene s).scene.watchers =
      early.map .client ++ .finish l.finishEntity :: late.map .client := hw
  have hfinish : ∀ u : Session, u.scene.present = false →
      watcherObserver perform (.finish l.finishEntity) m view u = (.value (),
        if m.target = l.finish then note (.finishAlone l.finish) u else u) := by
    intro u hu
    change Finish.observer l.finishEntity (host perform) m view u = _
    have hhost : (host perform).present u = false := hu
    have hposition : l.finishEntity.position = l.finish := rfl
    unfold Finish.observer Finish.arrive Finish.isReachedBy
    by_cases hm : m.target = l.finish
    · simp [hm, hhost, hposition]
    · simp [hm, hposition]
  rw [hdropped, List.map_append, tell_append, tell_clients hearly, andThen_value, List.map_cons,
    tell, hview, hfinish _ rfl, andThen_value, tell_clients hlate, hview]
  unfold strayed
  split <;> rfl

/-- A step of a robot without a scene that is not a move leaves its remark only. -/
theorem Plain.step_dropped_still (h : Plain l s) {d : Direction}
    (hd : ∀ m, l.sight? s.scene.position d ≠ some (.moved m)) :
    ∃ r, step perform d (dropScene s) = (.value false, dropScene (note r s)) := by
  cases hm : Move.towards? s.scene.position d with
  | none => exact ⟨_, step_outOfRange (s := dropScene s) hm⟩
  | some m =>
    have hrefused : (l.bounds.contains m.target && decide (m.target ∉ l.walls)) = false := by
      cases hsight : (l.bounds.contains m.target && decide (m.target ∉ l.walls)) with
      | false => rfl
      | true =>
        rw [Bool.and_eq_true, decide_eq_true_eq] at hsight
        refine absurd ?_ (hd m)
        simp only [Level.sight?, hm, hsight.1, hsight.2, if_true, if_false]
    have hasked : ask perform m (dropScene s) = (.value false, dropScene s) := by
      rw [h.ask_dropped, hrefused]
    exact ⟨_, step_vetoed (s := dropScene s) hm hasked⟩

/-- A robot without a scene still moves onto a free cell. -/
theorem Plain.step_dropped_moved (h : Plain l s) {early late : List (Callback Move)}
    (hw : s.scene.watchers = early.map .client ++ .finish l.finishEntity :: late.map .client)
    {d : Direction} {m : Move} (hd : l.sight? s.scene.position d = some (.moved m)) :
    step perform d (dropScene s) =
      (.value true, dropScene { strayed l early late m s with scene.position := m.target }) := by
  obtain ⟨hm, hinside, hfree⟩ := Level.moved_of_sight? hd
  have hasked : ask perform m (dropScene s) = (.value true, dropScene s) := by
    rw [h.ask_dropped, hinside, decide_eq_true hfree, Bool.and_self]
  exact step_made (s := dropScene s) hm hasked (h.tell_dropped hw m _ rfl)

end Dropped

section Abreast

/-- Two sessions of one level whose robots stand on the same cell and are watched alike. -/
structure Abreast (l : Level) (s t : Session) : Prop where
  kept : Plain l s
  lost : Plain l t
  position : t.scene.position = s.scene.position
  watchers : t.scene.watchers = s.scene.watchers

/-- A step of `s` with the scene and one of `t` without it have the same answer, leave the robots
side by side, and are told to the move observers alike. -/
inductive StepAbreast (perform : Perform) (l : Level) (d : Direction) (s t : Session) : Prop
  | intro (flag : Bool) (es : List Event) {s' t' : Session}
      (kept : step perform d s = (.value flag, s'))
      (events_kept : s'.events.toList = s.events.toList ++ es)
      (lost : step perform d (dropScene t) = (.value flag, dropScene t'))
      (events_lost : t'.events.toList = t.events.toList ++ es.filter Event.isMove)
      (abreast : Abreast l s' t')

theorem Abreast.step (hperform : perform.Orderly) (h : Abreast l s t) (d : Direction) :
    StepAbreast perform l d s t := by
  have hlost (hstill : ∀ m, l.sight? s.scene.position d ≠ some (.moved m)) :
      ∃ r, Session.step perform d (dropScene t) = (.value false, dropScene (note r t)) :=
    h.lost.step_dropped_still (h.position ▸ hstill)
  cases hsight : l.sight? s.scene.position d with
  | none =>
    obtain ⟨r, -, hs⟩ : ∃ r, _ ∧ Session.step perform d s = (.value false, note r s) :=
      h.kept.step_unseen hsight
    obtain ⟨r', ht⟩ := hlost (by simp [hsight])
    exact .intro false [] hs (List.append_nil _).symm ht (List.append_nil _).symm
      ⟨h.kept.congr rfl rfl, h.lost.congr rfl rfl, h.position, h.watchers⟩
  | some sight =>
    cases sight with
    | bumped m =>
      obtain ⟨r', ht⟩ := hlost (by simp [hsight])
      have hnone : (s.scene.wallObservers.map fun c => Event.bumped c.tag m).filter
          Event.isMove = [] := by simp [Event.isMove]
      refine .intro false _ (h.kept.step_bumped hsight) (events_recordAll _ _) ht ?_
        ⟨h.kept.congr rfl rfl, h.lost.congr rfl rfl, h.position, h.watchers⟩
      rw [hnone, events_note, List.append_nil]
    | moved m =>
      obtain ⟨early, late, hw⟩ := h.kept.finish
      obtain ⟨es, hes, hmoves⟩ := events_passed (l := l) early late m s
      have hs : Session.step perform d s =
          (.value true, { passed l early late m s with scene.position := m.target }) :=
        h.kept.step_moved hw hsight
      have ht : Session.step perform d (dropScene t) = (.value true,
          dropScene { strayed l early late m t with scene.position := m.target }) :=
        h.lost.step_dropped_moved (h.watchers.trans hw) (h.position ▸ hsight)
      have hframe := step_sameFrame hperform d s
      have hplain : Plain l (Session.step perform d s).2 := Deed.plain hperform (.step s d) h.kept
      have hscene := scene_strayed (l := l) early late m t
      have hprograms := programs_strayed (l := l) early late m t
      rw [hs] at hframe hplain
      refine .intro true es hs hes ht ?_
        ⟨hplain, (h.lost.congr hprograms hscene).moveTo _, rfl, ?_⟩
      · rw [hmoves]
        exact events_strayed early late m t
      · change (strayed l early late m t).scene.watchers = _
        rw [hscene, h.watchers]
        exact hframe.watchers.symm

end Abreast

section Walks

variable {d : Direction} {ds : List Direction} {answer : Outcome Bool} {es : List Event}
  {kept : Nat}

/-- A command while the scene is kept. -/
theorem walk_cons_kept (hkept : 0 < kept) (hs : step perform d s = (answer, t))
    (hes : t.events.toList = s.events.toList ++ es) :
    walk perform kept (d :: ds) s =
      (⟨d, answer, es⟩ :: (walk perform (kept - 1) ds t).1, (walk perform (kept - 1) ds t).2) := by
  have hdrop : t.events.toList.drop s.events.size = es := by
    rw [hes]
    exact List.drop_left
  simp only [walk, if_neg (Nat.ne_of_gt hkept), hs, hdrop]

/-- A command once the scene is gone. -/
theorem walk_cons_lost (hs : step perform d (dropScene s) = (answer, t))
    (hes : t.events.toList = s.events.toList ++ es) :
    walk perform 0 (d :: ds) s =
      (⟨d, answer, es⟩ :: (walk perform 0 ds t).1, (walk perform 0 ds t).2) := by
  have hdrop : t.events.toList.drop (dropScene s).events.size = es := by
    rw [hes]
    exact List.drop_left
  simp only [walk, if_true, hs, hdrop]

/-- Once the scene is gone, commands leave the strides of the run in which it is kept, with what is
written down about moves only, and lead to the same place. -/
theorem walk_lost (hperform : perform.Orderly) (h : Abreast l s t) (hkept : ds.length ≤ kept) :
    (walk perform 0 ds (dropScene t)).1 = (walk perform kept ds s).1.map Stride.muted ∧
      (walk perform 0 ds (dropScene t)).2.scene.position =
        (walk perform kept ds s).2.scene.position := by
  induction ds generalizing kept s t with
  | nil => exact ⟨rfl, h.position⟩
  | cons d ds ih =>
    obtain ⟨flag, es, hs, hes, ht, hes', hnext⟩ := h.step hperform d
    obtain ⟨hstrides, hposition⟩ := ih hnext (Nat.le_sub_one_of_lt hkept)
    rw [walk_cons_kept (Nat.zero_lt_of_lt hkept) hs hes,
      walk_cons_lost (s := dropScene t) ht hes']
    exact ⟨congrArg _ hstrides, hposition⟩

/-- A run that lets go of the scene leads to the same place by the same strides, muted once the
scene is gone. -/
theorem walk_eq_whole (hperform : perform.Orderly) (h : Plain l s) (kept : Nat) {most : Nat}
    (hmost : ds.length ≤ most) :
    (walk perform kept ds s).1 = (walk perform most ds s).1.take kept ++
        ((walk perform most ds s).1.drop kept).map Stride.muted ∧
      (walk perform kept ds s).2.scene.position = (walk perform most ds s).2.scene.position := by
  induction ds generalizing kept most s with
  | nil => exact ⟨by simp [walk], rfl⟩
  | cons d ds ih =>
    have habreast : Abreast l s s := ⟨h, h, rfl, rfl⟩
    cases kept with
    | zero =>
      rw [List.take_zero, List.drop_zero, List.nil_append]
      exact walk_lost hperform habreast hmost
    | succ kept =>
      obtain ⟨flag, es, hs, hes, -, -, hnext⟩ := habreast.step hperform d
      obtain ⟨hstrides, hposition⟩ := ih hnext.kept kept (Nat.le_sub_one_of_lt hmost)
      rw [walk_cons_kept (Nat.succ_pos kept) hs hes,
        walk_cons_kept (Nat.zero_lt_of_lt hmost) hs hes, List.take_succ_cons, List.drop_succ_cons,
        List.cons_append]
      exact ⟨congrArg _ hstrides, hposition⟩

/-- Each command has one stride, whose answer is a flag. -/
theorem walk_flags (hperform : perform.Orderly) (h : Plain l s) (hmost : ds.length ≤ kept) :
    ∃ flags : List Bool, flags.length = ds.length ∧
      (walk perform kept ds s).1.map Stride.answer = flags.map .value := by
  induction ds generalizing kept s with
  | nil => exact ⟨[], rfl, rfl⟩
  | cons d ds ih =>
    have habreast : Abreast l s s := ⟨h, h, rfl, rfl⟩
    obtain ⟨flag, es, hs, hes, -, -, hnext⟩ := habreast.step hperform d
    obtain ⟨flags, hlength, hflags⟩ := ih hnext.kept (Nat.le_sub_one_of_lt hmost)
    refine ⟨flag :: flags, congrArg Nat.succ hlength, ?_⟩
    rw [walk_cons_kept (Nat.zero_lt_of_lt hmost) hs hes]
    exact congrArg _ hflags

/-- However many commands are carried out with the scene, the flags, the cells and the moves told
are those of the run that keeps it. -/
theorem dropping_the_scene_only_silences_it {depth : Nat} {observers : List (Callback Move)}
    (hobservers : ∀ c ∈ observers, c.IsRecorder)
    (h : Reached (performWithin depth) Call.IsPlain l observers s) (ds : List Direction)
    (kept : Nat) :
    let whole := walk (performWithin depth) ds.length ds s
    let cut := walk (performWithin depth) kept ds s
    (∃ flags : List Bool, flags.length = ds.length ∧
      whole.1.map Stride.answer = flags.map .value ∧
      cut.1.map Stride.answer = flags.map .value) ∧
    (∀ n, (walk (performWithin depth) kept (ds.take n) s).2.scene.position =
      (walk (performWithin depth) ds.length (ds.take n) s).2.scene.position) ∧
    cut.1.map Stride.moves = whole.1.map Stride.moves ∧
    -- walls and the finish are told about as long as the scene is kept
    cut.1.map Stride.news =
      (whole.1.map Stride.news).take kept ++ List.replicate (ds.length - kept) [] := by
  have hperform := performWithin_orderly depth
  have hplain : Plain l s := h.keeps (fun hd h => hd.plain hperform h)
    fun _ hlevel => plain_ofLevel hobservers hlevel
  obtain ⟨hstrides, -⟩ := walk_eq_whole hperform hplain kept (Nat.le_refl ds.length)
  obtain ⟨flags, hlength, hflags⟩ := walk_flags hperform hplain (Nat.le_refl ds.length)
  -- muting a stride keeps its flag and its moves, so the two parts go together again
  have hkeeps {α : Type} (f : Stride → α) (hf : ∀ stride : Stride, f stride.muted = f stride) :
      (walk (performWithin depth) kept ds s).1.map f =
        (walk (performWithin depth) ds.length ds s).1.map f := by
    rw [hstrides, List.map_append, List.map_map, Function.comp_def]
    simp only [hf]
    rw [← List.map_append, List.take_append_drop]
  refine ⟨⟨flags, hlength, hflags, ?_⟩, fun n => ?_, hkeeps _ Stride.moves_muted, ?_⟩
  · rw [← hflags]
    exact hkeeps _ fun _ => rfl
  · have htake : (ds.take n).length ≤ ds.length := List.length_take_le' n ds
    exact (walk_eq_whole hperform hplain kept htake).2
  · have hcount : (walk (performWithin depth) ds.length ds s).1.length = ds.length := by
      rw [← List.length_map (f := Stride.answer), hflags, List.length_map, hlength]
    rw [hstrides, List.map_append, List.map_map, Function.comp_def]
    simp only [Stride.news_muted, List.map_const', List.map_take, List.length_drop, hcount]

end Walks

/-- The standard level with the finish beside the start, and walls above the start and behind the
finish. -/
def hedgedLevel : Level :=
  { Level.standard with finish := ⟨3, 4⟩, walls := [⟨4, 3⟩, ⟨2, 4⟩] }

/-- Wall hits and arrivals are written down. -/
def hedgedHistory : List Happening :=
  [.call (.onWall (.recorder "walls")), .call (.onComplete (.recorder "finish"))]

/-- A robot bumps into a wall, goes onto the finish and bumps into another wall; when the scene is
let go of after the first command, the first wall hit is all that is heard. -/
theorem first_bump_is_all_that_is_heard :
    ∃ s, ofLevel hedgedLevel [.recorder "moves"] = .ok s ∧
      (walk (performWithin 1) 1 [.up, .left, .left]
        (after (performWithin 1) hedgedHistory s)).1.map Stride.news =
          [[.bumped "walls" ⟨⟨4, 4⟩, ⟨4, 3⟩⟩], [], []] ∧
      (walk (performWithin 1) 1 [.up, .left, .left]
        (after (performWithin 1) hedgedHistory s)).2.scene.position = hedgedLevel.finish := by
  have hobservers : ∀ c ∈ ([.recorder "moves"] : List (Callback Move)), c.IsRecorder := by
    simp [Callback.isRecorder_recorder]
  have hall : ∀ h ∈ hedgedHistory, h.Allowed Call.IsPlain := by
    simp [hedgedHistory, Happening.Allowed, Call.IsPlain, Callback.isRecorder_recorder]
  obtain ⟨s, hlevel, hnews, hposition⟩ : ∃ s, ofLevel hedgedLevel [.recorder "moves"] = .ok s ∧
      (walk (performWithin 1) 3 [.up, .left, .left]
        (after (performWithin 1) hedgedHistory s)).1.map Stride.news =
          [[.bumped "walls" ⟨⟨4, 4⟩, ⟨4, 3⟩⟩], [.completed "finish" ⟨3, 4⟩],
            [.bumped "walls" ⟨⟨3, 4⟩, ⟨2, 4⟩⟩]] ∧
      (walk (performWithin 1) 3 [.up, .left, .left]
        (after (performWithin 1) hedgedHistory s)).2.scene.position = hedgedLevel.finish :=
    ⟨_, rfl, by decide +kernel, by decide +kernel⟩
  have hreached : Reached (performWithin 1) Call.IsPlain hedgedLevel [.recorder "moves"]
      (after (performWithin 1) hedgedHistory s) := ⟨s, hedgedHistory, hlevel, hall, rfl⟩
  obtain ⟨-, hpositions, -, hheard⟩ :=
    dropping_the_scene_only_silences_it hobservers hreached [.up, .left, .left] 1
  have hlast := hpositions 3
  simp only [List.take_succ_cons, List.take_zero, List.length_cons, List.length_nil,
    Nat.reduceAdd] at hlast hheard
  rw [hnews] at hheard
  exact ⟨s, hlevel, hheard, hlast.trans hposition⟩

end Session

end GridPuzzle
