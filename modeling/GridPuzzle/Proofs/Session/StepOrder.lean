import GridPuzzle.Proofs.Session.Arrival
import GridPuzzle.Proofs.Session.Registration

/-!
# The order in which a step is told

One step of the robot of a scene calls observers of every kind. A step out of the coordinate range
or the bounds is told to nobody, and one onto a wall to the wall-hit observers alone. Any other step
is made and told first to the move observers that the scene was set up with; where it leads onto the
finish, then to the followers of the program in the slot, if that program is stopped by it, and to
the completion observers, if the level has been open; and last to the move observers subscribed
since.

Who these observers are, and in which order, is read off the history: they are those that it has
subscribed. A program is followed by the status observers that its scene had when it accepted the
program, and by whoever was subscribed to the program afterwards.
-/

namespace GridPuzzle

namespace Happening

/-- The move observer that is subscribed. -/
def moveObserver? : Happening → Option (Callback Move)
  | .call (.onMove c) => some c
  | _ => none

/-- The wall-hit observer that is subscribed. -/
def wallObserver? : Happening → Option (Callback Move)
  | .call (.onWall c) => some c
  | _ => none

/-- The completion observer that is subscribed. -/
def completionObserver? : Happening → Option (Callback Position)
  | .call (.onComplete c) => some c
  | _ => none

end Happening

namespace Session

/-- What the observers of the program in the slot write down when it is stopped; nothing once its
status is final. -/
def stopEvents (s : Session) : List Event :=
  match s.scene.slot with
  | none => []
  | some p =>
    match s.programs[p]? with
    | none => []
    | some q =>
      if q.status.isTerminal then []
      else
        q.observers.map fun c => .status c.tag
          ⟨p, q.source, q.length, .aborted, q.status, .aborted, s.scene.complete, s.scene.position⟩

/-- What is written down when the finish is reached: the stop of the program first, and then the
completion, unless the level has been complete. -/
def arrivalEvents (finish : Position) (completions : List (Callback Position)) (s : Session) :
    List Event :=
  s.stopEvents ++
    if s.scene.complete then [] else completions.map fun c => .completed c.tag finish

/-- What one step of the robot does and writes down: `early` are told about a move before the
finish, `late` after it, `bumps` about a wall hit, and `completions` about the arrival. -/
structure StepLaw (l : Level) (early late bumps : List (Callback Move))
    (completions : List (Callback Position)) (d : Direction) (s : Session)
    (call : Outcome Bool × Session) : Prop where
  /-- The step would leave the coordinate range or the bounds. -/
  outside : (∀ m, Move.towards? s.scene.position d = some m →
      l.bounds.contains m.target = false) →
    call.1 = .value false ∧ call.2.scene.position = s.scene.position ∧
      call.2.events.toList = s.events.toList
  /-- The step would lead onto a wall. -/
  wall : ∀ m, Move.towards? s.scene.position d = some m → l.bounds.contains m.target = true →
    m.target ∈ l.walls →
    call.1 = .value false ∧ call.2.scene.position = s.scene.position ∧
      call.2.events.toList = s.events.toList ++ bumps.map fun c => .bumped c.tag m
  /-- The step leads onto a free cell. -/
  free : ∀ m, Move.towards? s.scene.position d = some m → l.bounds.contains m.target = true →
    m.target ∉ l.walls →
    call.1 = .value true ∧ call.2.scene.position = m.target ∧
      call.2.events.toList = s.events.toList ++
        (early.map (fun c => .moved c.tag m m.target) ++
          ((if m.target = l.finish then s.arrivalEvents l.finish completions else []) ++
            late.map fun c => .moved c.tag m m.target))

section Events

/-- The events of a stop of the program in the slot. -/
theorem events_haltedCurrent (s : Session) :
    s.haltedCurrent.events.toList = s.events.toList ++ s.stopEvents := by
  unfold haltedCurrent stopEvents
  cases s.scene.slot with
  | none => exact (List.append_nil _).symm
  | some p =>
    dsimp only
    unfold halted
    cases hq : s.programs[p]? with
    | none =>
      have hnone : s.status? p = none := by simp [status?, hq]
      rw [hnone]
      exact (List.append_nil _).symm
    | some q =>
      rw [status?_of_program hq]
      dsimp only
      split
      · exact (List.append_nil _).symm
      · exact events_announced (getElem?_setStatus hq .aborted) .aborted q.status

/-- The events of an arrival on the finish. -/
theorem events_arrived (finish : Position) (s : Session) :
    (arrived finish s).events.toList =
      s.events.toList ++ s.arrivalEvents finish s.scene.completionObservers := by
  have hcomplete : s.haltedCurrent.scene.complete = s.scene.complete := by
    rw [scene_haltedCurrent]
  unfold arrived arrivalEvents
  rw [hcomplete, ← List.append_assoc, ← events_haltedCurrent]
  split
  · exact (List.append_nil _).symm
  · exact events_recordAll _ _

/-- The events of a move that is made. -/
theorem events_passed_eq (l : Level) (early late : List (Callback Move)) (m : Move) (s : Session) :
    (passed l early late m s).events.toList = s.events.toList ++
      (early.map (fun c => .moved c.tag m m.target) ++
        ((if m.target = l.finish then s.arrivalEvents l.finish s.scene.completionObservers
          else []) ++ late.map fun c => .moved c.tag m m.target)) := by
  by_cases hm : m.target = l.finish
  · have harrived := events_arrived l.finish
      (recordAll (early.map fun c => .moved c.tag m m.target) (note (.committed m) s))
    rw [passed_onto hm, events_recordAll, harrived, events_recordAll, if_pos hm]
    simp only [List.append_assoc]
    rfl
  · rw [passed_by hm, events_recordAll, events_recordAll, if_neg hm]
    simp only [List.append_assoc]
    rfl

end Events

variable {perform : Perform} {l : Level} {s t u : Session}

/-- What a step is told, where it is known who the observers are. -/
theorem Plain.step_law (perform : Perform) (h : Plain l s) {early late : List (Callback Move)}
    (hwatchers : s.scene.watchers =
      early.map .client ++ .finish l.finishEntity :: late.map .client) (d : Direction) :
    StepLaw l early late s.scene.wallObservers s.scene.completionObservers d s
      (step perform d s) where
  outside hout := by
    have hunseen : l.sight? s.scene.position d = none := by
      unfold Level.sight?
      cases hm : Move.towards? s.scene.position d with
      | none => rfl
      | some m => simp [hout m hm]
    obtain ⟨r, -, hstep⟩ : ∃ r, _ ∧ step perform d s = (.value false, note r s) :=
      h.step_unseen hunseen
    rw [hstep]
    exact ⟨rfl, rfl, rfl⟩
  wall m hm hinside hwall := by
    have hbumped : l.sight? s.scene.position d = some (.bumped m) := by
      simp [Level.sight?, hm, hinside, hwall]
    rw [h.step_bumped hbumped]
    exact ⟨rfl, rfl, events_recordAll _ _⟩
  free m hm hinside hfree := by
    have hmoved : l.sight? s.scene.position d = some (.moved m) := by
      simp [Level.sight?, hm, hinside, hfree]
    rw [h.step_moved hwatchers hmoved]
    exact ⟨rfl, rfl, events_passed_eq l early late m s⟩

section Subscriptions

/-- Nothing but an arrangement changes who is subscribed to a scene. -/
theorem deeds_sameFrame (hperform : perform.Orderly) {allowed : Call → Prop}
    (hallowed : ∀ c, allowed c → c.isArrangement = false) (h : Deeds perform allowed s t) :
    SameFrame s t := by
  refine h.keeps (P := fun t => SameFrame s t) (fun {t u} hd ht => ?_) (.refl s)
  refine hd.keeps (P := fun t => SameFrame s t) hperform (fun hc h => h.trans hc.sameFrame)
    (fun {t u} ha h => ?_) (fun _ h => h.trans ⟨rfl, rfl, rfl, rfl, rfl, rfl, rfl, rfl, rfl⟩)
    (fun hc hcall _ => ?_) ht
  · exact h.trans ⟨by rw [ha.scene], by rw [ha.scene], by rw [ha.scene], by rw [ha.scene],
      by rw [ha.scene], by rw [ha.scene], by rw [ha.scene], by rw [ha.scene], ha.timer⟩
  · rw [hallowed _ hcall] at hc
    cases hc

theorem happen_sameFrame (hperform : perform.Orderly) {what : Happening}
    (hother : ∀ c, what = .call c → c.isArrangement = false) (s : Session) :
    SameFrame s (happen perform what s) := by
  have hall : ∀ h ∈ [what], h.Allowed fun c => c.isArrangement = false := by
    rw [List.forall_mem_singleton]
    cases what with
    | call c => exact hother c rfl
    | turn k due => trivial
  exact deeds_sameFrame hperform (fun _ hc => hc) (after_deeds hall s)

/-- One thing that happens adds the observers that it subscribes, and changes nobody else. -/
structure Subscribes (moves bumps : List (Callback Move)) (completions : List (Callback Position))
    (s t : Session) : Prop where
  watchers : t.scene.watchers = s.scene.watchers ++ moves.map .client
  wallObservers : t.scene.wallObservers = s.scene.wallObservers ++ bumps
  completionObservers :
    t.scene.completionObservers = s.scene.completionObservers ++ completions

theorem SameFrame.subscribes (h : SameFrame s t) : Subscribes [] [] [] s t := by
  refine ⟨?_, ?_, ?_⟩
  · rw [h.watchers]
    exact (List.append_nil _).symm
  · rw [h.wallObservers]
    exact (List.append_nil _).symm
  · rw [h.completionObservers]
    exact (List.append_nil _).symm

theorem Subscribes.trans {moves moves' bumps bumps' : List (Callback Move)}
    {completions completions' : List (Callback Position)}
    (h : Subscribes moves bumps completions s t)
    (h' : Subscribes moves' bumps' completions' t u) :
    Subscribes (moves ++ moves') (bumps ++ bumps') (completions ++ completions') s u where
  watchers := by rw [h'.watchers, h.watchers, List.map_append, List.append_assoc]
  wallObservers := by rw [h'.wallObservers, h.wallObservers, List.append_assoc]
  completionObservers := by
    rw [h'.completionObservers, h.completionObservers, List.append_assoc]

theorem subscribes_happen (hperform : perform.Orderly) (what : Happening) (s : Session) :
    Subscribes what.moveObserver?.toList what.wallObserver?.toList
      what.completionObserver?.toList s (happen perform what s) := by
  have other (hother : ∀ c, what = .call c → c.isArrangement = false) :
      Subscribes [] [] [] s (happen perform what s) :=
    (happen_sameFrame hperform hother s).subscribes
  cases what with
  | turn k due => exact other nofun
  | call c =>
    cases c with
    | onMove | onWall | onComplete | onStatus | subscribe | guard | dropScene =>
      constructor <;> simp [happen, call, Happening.moveObserver?, Happening.wallObserver?,
        Happening.completionObserver?, Session.subscribe, dropScene]
    | _ =>
      refine other fun c hc => ?_
      cases hc
      rfl

/-- Everybody who is subscribed in the course of a history is told from then on, in the order of
subscription. -/
theorem subscribes_after (hperform : perform.Orderly) (hs : List Happening) (s : Session) :
    Subscribes (hs.filterMap Happening.moveObserver?) (hs.filterMap Happening.wallObserver?)
      (hs.filterMap Happening.completionObserver?) s (after perform hs s) := by
  induction hs generalizing s with
  | nil => exact (SameFrame.refl s).subscribes
  | cons what hs ih =>
    have hnext := (subscribes_happen hperform what s).trans (ih (happen perform what s))
    have hcons {α : Type} (f : Happening → Option α) :
        (what :: hs).filterMap f = (f what).toList ++ hs.filterMap f := by
      rw [List.filterMap_cons]
      cases f what <;> rfl
    rw [after_cons, hcons, hcons, hcons]
    exact hnext

end Subscriptions

section Followers

/-- The status observers of a program. -/
def observersOf (p : ProgramId) (s : Session) : List (Callback StatusNotice) :=
  ((s.programs[p]?).map Program.observers).getD []

/-- Who begins to follow a program when one thing happens: the status observers of the scene that
has just accepted the program, or somebody who is subscribed to the program itself. -/
def newFollowers (p : ProgramId) (what : Happening) (answer : CallAnswer) (s : Session) :
    List (Callback StatusNotice) :=
  match what with
  | .call (.play _ _) =>
    if p = s.programs.size ∧ answer.isRefusal = false then s.scene.statusObservers else []
  | .call (.subscribe p' c) => if p = p' ∧ p < s.programs.size then [c] else []
  | _ => []

variable (perform) in
/-- Who begins to follow a program in the course of a history, in order. -/
def followers (p : ProgramId) : List Happening → Session → List (Callback StatusNotice)
  | [], _ => []
  | what :: hs, s =>
    newFollowers p what (respond perform what s).1 s ++ followers p hs (happen perform what s)

theorem observersOf_entries (p : ProgramId) (s : Session) :
    s.observersOf p = ((s.entries[p]?).map Prod.snd).getD [] := by
  simp only [observersOf, entries, List.getElem?_map, Array.getElem?_toList, Option.map_map]
  rfl

theorem observersOf_subscribe (p p' : ProgramId) (c : Callback StatusNotice) (s : Session) :
    (s.subscribe p' c).observersOf p =
      s.observersOf p ++ if p = p' ∧ p < s.programs.size then [c] else [] := by
  simp only [observersOf, Session.subscribe, Array.getElem?_modify]
  by_cases hpp : p' = p
  · subst hpp
    by_cases hp : p' < s.programs.size <;> simp [hp]
  · simp [hpp, Ne.symm hpp]

/-- A program that is accepted has the observers that it was given then. -/
theorem Passes.observersOf {made : List (String × List (Callback StatusNotice))}
    {xs : List Passage} (h : Passes made xs s t) (p : ProgramId) :
    t.observersOf p = if p < s.programs.size then s.observersOf p
      else ((made[p - s.programs.size]?).map Prod.snd).getD [] := by
  rw [observersOf_entries, observersOf_entries, h.entries]
  split
  · rename_i hp
    rw [List.getElem?_append_left (by rwa [length_entries])]
  · rename_i hp
    have hle : s.entries.length ≤ p := by rw [length_entries]; exact Nat.le_of_not_lt hp
    rw [List.getElem?_append_right hle, length_entries]

theorem observersOf_of_size_le {p : ProgramId} (hp : s.programs.size ≤ p) :
    s.observersOf p = [] := by
  simp [Session.observersOf, Array.getElem?_eq_none hp]

/-- One thing that happens gives a program the followers that begin then, and nobody else. -/
theorem observersOf_respond (hperform : perform.Orderly) (h : Plain l s ∧ OnePlayer s)
    {what : Happening} (hallowed : what.Allowed Call.IsPlain) (p : ProgramId) :
    (respond perform what s).2.observersOf p =
      s.observersOf p ++ newFollowers p what (respond perform what s).1 s := by
  by_cases hsubscribe : ∃ p' c, what = .call (.subscribe p' c)
  · obtain ⟨p', c, rfl⟩ := hsubscribe
    exact observersOf_subscribe p p' c s
  · have hwide : what.Allowed Call.IsSceneWide := by
      cases what with
      | call c => exact ⟨hallowed, fun p' c' hc => hsubscribe ⟨p', c', congrArg _ hc⟩⟩
      | turn k due => trivial
    obtain ⟨xs, -, hpasses⟩ := passes_happening hperform h.1 h.2 hwide
    rw [hpasses.observersOf]
    split
    · rename_i hp
      have hnobody : newFollowers p what (respond perform what s).1 s = [] := by
        unfold newFollowers
        split
        · exact if_neg fun hnew => Nat.ne_of_lt hp hnew.1
        · rename_i p' c
          exact absurd ⟨p', c, rfl⟩ hsubscribe
        · rfl
      rw [hnobody, List.append_nil]
    · rename_i hp
      rw [observersOf_of_size_le (Nat.le_of_not_lt hp), List.nil_append]
      unfold enlistment newFollowers
      split
      · split
        · rename_i hrefused
          simp [hrefused]
        · rename_i haccepted
          by_cases hnew : p = s.programs.size
          · simp [haccepted, hnew]
          · have hlater : p - s.programs.size ≠ 0 :=
              Nat.sub_ne_zero_of_lt (Nat.lt_of_le_of_ne (Nat.le_of_not_lt hp) (Ne.symm hnew))
            simp [hnew, hlater]
      · rename_i hplay
        split
        · exact absurd rfl (hplay _ _)
        · rename_i p' c
          exact absurd ⟨p', c, rfl⟩ hsubscribe
        · rfl

/-- A program is followed by whoever has begun to follow it. -/
theorem observersOf_after (hperform : perform.Orderly) (h : Plain l s ∧ OnePlayer s)
    {hs : List Happening} (hall : ∀ what ∈ hs, what.Allowed Call.IsPlain) (p : ProgramId) :
    (after perform hs s).observersOf p = s.observersOf p ++ followers perform p hs s := by
  induction hs generalizing s with
  | nil => exact (List.append_nil _).symm
  | cons what hs ih =>
    have hallowed := hall what List.mem_cons_self
    have hnext := ih (happen_plain hperform h hallowed) fun what' hmem =>
      hall what' (List.mem_cons_of_mem _ hmem)
    rw [after_cons, hnext, happen_eq_respond, observersOf_respond hperform h hallowed,
      List.append_assoc, followers, happen_eq_respond]

end Followers

/-- What is done where some calls are allowed may be done where more are. -/
theorem Deeds.mono {allowed allowed' : Call → Prop} (hmore : ∀ c, allowed c → allowed' c)
    (h : Deeds perform allowed s t) : Deeds perform allowed' s t := by
  refine Relation.ReflTransGen.mono (fun s t hd => ?_) _ _ h
  cases hd with
  | arrange hc hallowed => exact .arrange s hc (hmore _ hallowed)
  | script index hq ha => exact .script index hq ha
  | _ => constructor

/-- In every session that plain calls and turns lead to, and in every one passed on the way, a step
of the robot is told in the order of the law. -/
theorem step_is_told_in_order {depth : Nat} {observers : List (Callback Move)}
    (hobservers : ∀ c ∈ observers, c.IsRecorder) (hlevel : ofLevel l observers = .ok s)
    {hs : List Happening} (hall : ∀ what ∈ hs, what.Allowed Call.IsPlain) :
    let t := after (performWithin depth) hs s
    -- `u` is passed before anybody is subscribed again, maybe in the middle of a turn
    (∀ u, Deeds (performWithin depth) (fun _ => False) t u → ∀ d,
      StepLaw l observers (hs.filterMap Happening.moveObserver?)
        (hs.filterMap Happening.wallObserver?) (hs.filterMap Happening.completionObserver?) d u
        (step (performWithin depth) d u)) ∧
    -- whom the law takes for the followers of a program
    ∀ p q, t.programs[p]? = some q → q.observers = followers (performWithin depth) p hs s := by
  intro t
  have hperform := performWithin_orderly depth
  have hstart : Plain l s ∧ OnePlayer s :=
    ⟨plain_ofLevel hobservers hlevel, onePlayer_ofLevel hlevel⟩
  obtain ⟨hwatchers, hbumps, hcompletions, hprograms⟩ :
      s.scene.watchers = observers.map .client ++ [.finish l.finishEntity] ∧
      s.scene.wallObservers = [] ∧ s.scene.completionObservers = [] ∧ s.programs = #[] := by
    obtain ⟨-, r, rfl⟩ := ofLevel_eq_ok hlevel
    exact ⟨rfl, rfl, rfl, rfl⟩
  have hsubscribes : Subscribes (hs.filterMap Happening.moveObserver?)
      (hs.filterMap Happening.wallObserver?) (hs.filterMap Happening.completionObserver?) s t :=
    subscribes_after hperform hs s
  refine ⟨fun u hu d => ?_, fun p q hq => ?_⟩
  · have hdeeds : Deeds (performWithin depth) Call.IsPlain s u :=
      (after_deeds hall s).trans (hu.mono nofun)
    have hplain : Plain l u := hdeeds.keeps (fun hd h => hd.plain hperform h) hstart.1
    have hframe : SameFrame t u := deeds_sameFrame hperform nofun hu
    have hpresent : u.scene.watchers = observers.map .client ++
        .finish l.finishEntity :: (hs.filterMap Happening.moveObserver?).map .client := by
      rw [hframe.watchers, hsubscribes.watchers, hwatchers, List.append_assoc]
      rfl
    have hlaw := hplain.step_law (performWithin depth) hpresent d
    rw [hframe.wallObservers, hsubscribes.wallObservers, hbumps, List.nil_append,
      hframe.completionObservers, hsubscribes.completionObservers, hcompletions,
      List.nil_append] at hlaw
    exact hlaw
  · have hfollowers := observersOf_after hperform hstart hall p
    have hnobody : s.observersOf p = [] := by simp [observersOf, hprograms]
    have hobserved : t.observersOf p = q.observers := by simp [observersOf, hq]
    rw [hnobody, List.nil_append] at hfollowers
    exact hobserved.symm.trans hfollowers

/-- Observers of every kind are subscribed, one of them to a program that is accepted meanwhile. -/
def attendedHistory : List Happening :=
  [.call (.onMove (.recorder "late")), .call (.onStatus (.recorder "scene")),
    .call (.onComplete (.recorder "finish")), .call (.play true "left(2)"),
    .call (.subscribe 0 (.recorder "program")), .call (.onMove (.recorder "last"))]

/-- After such a history a client steps the robot onto the finish before the program has begun. -/
theorem step_onto_the_finish_is_told_in_order :
    ∃ s, ofLevel shortLevel [.recorder "early"] = .ok s ∧
      (step (performWithin 1) .left (after (performWithin 1) attendedHistory s)).1 = .value true ∧
      (step (performWithin 1) .left
        (after (performWithin 1) attendedHistory s)).2.events.toList =
          [.status "scene" ⟨0, "left(2)", 2, .running, .stopped, .running, false, ⟨4, 4⟩⟩,
            .moved "early" ⟨⟨4, 4⟩, ⟨3, 4⟩⟩ ⟨3, 4⟩,
            .status "scene" ⟨0, "left(2)", 2, .aborted, .running, .aborted, false, ⟨4, 4⟩⟩,
            .status "program" ⟨0, "left(2)", 2, .aborted, .running, .aborted, false, ⟨4, 4⟩⟩,
            .completed "finish" ⟨3, 4⟩, .moved "late" ⟨⟨4, 4⟩, ⟨3, 4⟩⟩ ⟨3, 4⟩,
            .moved "last" ⟨⟨4, 4⟩, ⟨3, 4⟩⟩ ⟨3, 4⟩] := by
  have hobservers : ∀ c ∈ ([.recorder "early"] : List (Callback Move)), c.IsRecorder := by
    simp [Callback.isRecorder_recorder]
  have hall : ∀ what ∈ attendedHistory, what.Allowed Call.IsPlain := by
    simp [attendedHistory, Happening.Allowed, Call.IsPlain, Callback.isRecorder_recorder]
  obtain ⟨s, hlevel, hposition, hbefore, hstop, hopen⟩ :
      ∃ s, ofLevel shortLevel [.recorder "early"] = .ok s ∧
        (after (performWithin 1) attendedHistory s).scene.position = ⟨4, 4⟩ ∧
        (after (performWithin 1) attendedHistory s).events.toList =
          [.status "scene" ⟨0, "left(2)", 2, .running, .stopped, .running, false, ⟨4, 4⟩⟩] ∧
        (after (performWithin 1) attendedHistory s).stopEvents =
          [.status "scene" ⟨0, "left(2)", 2, .aborted, .running, .aborted, false, ⟨4, 4⟩⟩,
            .status "program" ⟨0, "left(2)", 2, .aborted, .running, .aborted, false, ⟨4, 4⟩⟩] ∧
        (after (performWithin 1) attendedHistory s).scene.complete = false :=
    ⟨_, rfl, by decide +kernel, by decide +kernel, by decide +kernel, by decide +kernel⟩
  obtain ⟨hlaws, -⟩ := @step_is_told_in_order _ _ 1 _ hobservers hlevel _ hall
  obtain ⟨hanswer, -, hevents⟩ := (hlaws _ .refl .left).free ⟨⟨4, 4⟩, ⟨3, 4⟩⟩
    (by rw [hposition]; decide) (by decide) (by decide)
  refine ⟨s, hlevel, hanswer, ?_⟩
  rw [hevents, hbefore, if_pos (by decide), arrivalEvents, hstop, hopen]
  rfl

end Session

end GridPuzzle
