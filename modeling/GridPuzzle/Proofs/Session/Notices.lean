import GridPuzzle.Proofs.Session.Announcement

/-!
# What the observers of a status hear

The observers of a program are told about each change of its status in their order, and what they
ask for is carried out before the next one is told. An observer that asks for the stop of a program
while it is told that the program runs therefore lets everybody be told about the stop, and only
then are those after it told that the program runs: they hear of the two changes the wrong way
round. There is no other way out of order, because a final status is not left any more. Everybody
else is told about changes that follow each other from the first status to the present one.

The observers considered here only write down or ask for the stop of their program, however that is
started, stopped and played. There are late ones only behind one that has asked for the stop at the
begin of the program.
-/

namespace GridPuzzle

/-- A request to start or to stop, or a panic: nobody is subscribed and no text is played. -/
def Request.IsControl : Request → Prop
  | .stop _ | .start _ | .stopCurrent | .panic => True
  | .subscribe _ _ | .play _ => False

/-- A call to start or to stop a program by its handle, or one that waits. -/
def Call.IsControl (c : Call) : Prop :=
  c.IsWait ∨ (∃ inRuntime p, c = .start inRuntime p) ∨ ∃ p, c = .stop p

/-- Changes, each the new status and the old one, that follow each other from a status on up to
another one. -/
def Linked (first : Status) : List (Status × Status) → Status → Prop
  | [], last => first = last
  | (new, old) :: rest, last => old = first ∧ Linked new rest last

namespace Session

/-- The changes, each the new status and the old one, that somebody with a tag is told about. -/
def hearing (tag : String) (ts : List Telling) : List (Status × Status) :=
  (ts.filter fun x => x.tag == tag).map fun x => (x.new, x.old)

/-- The changes that the observer with a tag has been told about. -/
def heard (s : Session) (tag : String) : List (Status × Status) := hearing tag s.tellings

/-! ## The course of a program -/

/-- How far the observers of a program have been told about its statuses, up to a status. -/
inductive Course (p : ProgramId) (cs : List (Callback StatusNotice)) :
    Status → List Telling → Prop
  | stopped : Course p cs .stopped []
  | running : Course p cs .running (told cs .running .stopped)
  | finished : Course p cs .finished (told cs .running .stopped ++ told cs .finished .running)
  | unstarted : Course p cs .aborted (told cs .aborted .stopped)
  /-- The late observers are told that the program runs when everybody has been told about the
  stop. -/
  | aborted (early late : List (Callback StatusNotice)) (split : cs = early ++ late)
      (asked : late ≠ [] → EndsInStop p early) :
      Course p cs .aborted (told early .running .stopped ++ told cs .aborted .running ++
        told late .running .stopped)

namespace Course

variable {p : ProgramId} {cs : List (Callback StatusNotice)} {status : Status} {ts : List Telling}

/-- A stop that is announced in time. -/
theorem abort (h : Course p cs status ts) (hopen : status.isTerminal = false) :
    Course p cs .aborted (ts ++ told cs .aborted status) := by
  cases h with
  | stopped => exact .unstarted
  | running =>
    have hnobody : Course p cs .aborted _ :=
      .aborted cs [] (List.append_nil cs).symm fun hne => absurd rfl hne
    simpa [told] using hnobody
  | finished | unstarted | aborted => cases hopen

theorem finish (h : Course p cs .running ts) :
    Course p cs .finished (ts ++ told cs .finished .running) := by
  cases h
  exact .finished

theorem eq_nil (h : Course p cs .stopped ts) : ts = [] := by
  cases h
  rfl

end Course

/-- Nobody but the observers of statuses is told anything, and the scene plays nothing. -/
structure Alone (s : Session) : Prop where
  slot : s.scene.slot = none
  watchers : ∀ c, .client c ∉ s.scene.watchers
  bumps : s.scene.wallObservers = []
  completions : s.scene.completionObservers = []

/-- The only program of a session has observers who have been told about its course, and its actions
ask for nothing but starts and stops. -/
structure Followed (cs : List (Callback StatusNotice)) (s : Session) : Prop extends Alone s where
  size : s.programs.size = 1
  program : ∃ q, s.programs[0]? = some q ∧ q.observers = cs ∧
    (∀ a ∈ q.actions, a.AsksOnly Request.IsControl) ∧ Course 0 cs q.status s.tellings

/-- Two sessions that do not differ in what matters to the observers of statuses. -/
structure Apart (s t : Session) : Prop where
  programs : t.programs = s.programs
  tellings : t.tellings = s.tellings
  slot : t.scene.slot = s.scene.slot
  watchers : t.scene.watchers = s.scene.watchers
  bumps : t.scene.wallObservers = s.scene.wallObservers
  completions : t.scene.completionObservers = s.scene.completionObservers

namespace Apart

variable {s t u : Session}

theorem refl (s : Session) : Apart s s := ⟨rfl, rfl, rfl, rfl, rfl, rfl⟩

theorem trans (h : Apart s t) (h' : Apart t u) : Apart s u where
  programs := h'.programs.trans h.programs
  tellings := h'.tellings.trans h.tellings
  slot := h'.slot.trans h.slot
  watchers := h'.watchers.trans h.watchers
  bumps := h'.bumps.trans h.bumps
  completions := h'.completions.trans h.completions

theorem note (s : Session) (r : Remark) : Apart s (note r s) := ⟨rfl, rfl, rfl, rfl, rfl, rfl⟩

/-- Nobody is told about a status by another event. -/
theorem record (s : Session) {e : Event} (he : e.telling? = none) : Apart s (s.record e) := by
  refine ⟨rfl, ?_, rfl, rfl, rfl, rfl⟩
  simp [Session.tellings, Session.record, List.filterMap_append, he]

theorem alone (h : Apart s t) (hs : s.Alone) : t.Alone where
  slot := h.slot.trans hs.slot
  watchers := by
    rw [h.watchers]
    exact hs.watchers
  bumps := h.bumps.trans hs.bumps
  completions := h.completions.trans hs.completions

theorem followed {cs : List (Callback StatusNotice)} (h : Apart s t) (hs : s.Followed cs) :
    t.Followed cs := by
  obtain ⟨q, hq, hcs, hactions, hcourse⟩ := hs.program
  rw [← h.tellings] at hcourse
  rw [← h.programs] at hq
  exact ⟨h.alone hs.toAlone, (congrArg Array.size h.programs).trans hs.size, q, hq, hcs, hactions,
    hcourse⟩

end Apart

/-! ## Steps of a robot that nobody watches -/

section Steps

variable {perform : Perform} {s : Session}

theorem Alone.stopCurrent_eq (h : s.Alone) : stopCurrent perform s = (.value (), s) := by
  unfold stopCurrent
  rw [h.slot]

theorem Alone.wallHit (h : s.Alone) (m : Move) : Apart s (wallHit perform m s).2 := by
  unfold Session.wallHit
  split
  · rw [h.bumps]
    exact .note s _
  · exact .refl s

theorem Alone.finishReached (h : s.Alone) (p : Position) :
    Apart s (finishReached perform p s).2 := by
  unfold Session.finishReached
  rw [h.stopCurrent_eq, andThen_value]
  split
  · exact .refl s
  · rw [h.completions]
    exact ⟨rfl, rfl, rfl, rfl, rfl, rfl⟩

theorem Alone.guardAcceptor (h : s.Alone) (g : Guard) (m : Move) (view : Snapshot) :
    Apart s (guardAcceptor perform g m view s).2 := by
  cases g with
  | bounds b => exact .refl s
  | wall w =>
    change Apart s (w.block (Session.wallHit perform) m s).2
    unfold Wall.block
    split
    · exact andThen_keeps (h.wallHit m) fun _ _ ht => ht
    · exact .refl s
  | policy verdict => exact .refl s

theorem Alone.consult (h : s.Alone) (m : Move) (view : Snapshot) (guards : List Guard) :
    Apart s (consult m view (guards.map (Session.guardAcceptor perform)) s).2 := by
  induction guards generalizing s with
  | nil => exact .refl s
  | cons g rest ih =>
    refine andThen_keeps (P := Apart s) (h.guardAcceptor g m view) fun approved t ht => ?_
    split
    · exact ht.trans (ih (ht.alone h))
    · exact ht

theorem Alone.tell (h : s.Alone) (m : Move) (view : Snapshot) {watchers : List Watcher}
    (hwatchers : ∀ c, .client c ∉ watchers) :
    Apart s (tell m view (watchers.map (watcherObserver perform)) s).2 := by
  induction watchers generalizing s with
  | nil => exact .refl s
  | cons w rest ih =>
    have hw : Apart s (watcherObserver perform w m view s).2 := by
      cases w with
      | finish f =>
        refine andThen_keeps (P := Apart s) ?_ fun _ _ ht => ht
        unfold Finish.arrive
        split
        · split
          · exact andThen_keeps (h.finishReached f.position) fun _ _ ht => ht
          · exact .note s _
        · exact .refl s
      | client c => exact absurd List.mem_cons_self (hwatchers c)
    exact andThen_keeps hw fun _ t ht =>
      ht.trans (ih (ht.alone h) fun c hc => hwatchers c (List.mem_cons_of_mem w hc))

/-- The step of a robot that nobody watches is no matter of statuses. -/
theorem Alone.step (h : s.Alone) (d : Direction) : Apart s (step perform d s).2 := by
  have placed {t : Session} (p : Position) (ht : Apart s t) :
      Apart s { t with scene.position := p } :=
    ⟨ht.programs, ht.tellings, ht.slot, ht.watchers, ht.bumps, ht.completions⟩
  have hends : StepEnds perform d s (Session.step perform d s) := step_ends d s
  have consulted {m : Move} {call : Outcome Bool × Session}
      (hcall : GridPuzzle.consult m (s.robot perform).snapshot
        (s.scene.guards.map (Session.guardAcceptor perform)) s = call) : Apart s call.2 := by
    rw [← hcall]
    exact h.consult m _ s.scene.guards
  have committed {m : Move} {t : Session} {call : Outcome Unit × Session} (ht : Apart s t)
      (hcall : GridPuzzle.tell m { (s.robot perform).snapshot with position := m.target }
        (s.scene.watchers.map (watcherObserver perform)) (note (.committed m) t) = call) :
      Apart s call.2 := by
    have hnoted : Apart s (note (.committed m) t) := ht.trans (.note t _)
    rw [← hcall]
    exact hnoted.trans ((hnoted.alone h).tell m _ h.watchers)
  generalize Session.step perform d s = call at hends ⊢
  cases hends with
  | outOfRange _ => exact .note s _
  | cutShort _ ht => exact placed _ (consulted ht)
  | vetoed _ ht => exact placed _ ((consulted ht).trans (.note _ _))
  | toldInPart _ ht hu => exact placed _ (committed (consulted ht) hu)
  | told _ ht hu => exact placed _ (committed (consulted ht) hu)

end Steps

/-! ## Histories of one program -/

namespace Followed

variable {cs : List (Callback StatusNotice)} {s t : Session} {depth : Nat}

/-- No other program exists. -/
theorem status?_eq_none (h : s.Followed cs) {p : ProgramId} (hp : p ≠ 0) : s.status? p = none := by
  have hsize : s.programs.size ≤ p := by
    rw [h.size]
    exact Nat.one_le_iff_ne_zero.mpr hp
  rw [status?, Array.getElem?_eq_none hsize]
  rfl

theorem eq_zero (h : s.Followed cs) {p : ProgramId} {q : Program} (hq : s.programs[p]? = some q) :
    p = 0 := by
  have hlt := (Array.getElem?_eq_some_iff.mp hq).1
  rw [h.size] at hlt
  exact Nat.lt_one_iff.mp hlt

theorem stopsOnly (h : s.Followed cs) (hcs : ∀ c ∈ cs, c.StopsOnly) : s.StopsOnly 0 := by
  obtain ⟨q, hq, hobservers, -⟩ := h.program
  intro q' hq'
  cases hq.symm.trans hq'
  rwa [hobservers]

/-- The program has moved on in its course, and nothing else has changed. -/
theorem moved (h : s.Followed cs) (hscene : t.scene = s.scene)
    (hsize : t.programs.size = s.programs.size) {q q' : Program} (hq : s.programs[0]? = some q)
    (hq' : t.programs[0]? = some q') (hobservers : q'.observers = q.observers)
    (hactions : q'.actions = q.actions) (hcourse : Course 0 cs q'.status t.tellings) :
    t.Followed cs := by
  obtain ⟨q'', hq'', hcs, hcontrol, -⟩ := h.program
  cases hq.symm.trans hq''
  have halone : t.Alone := ⟨hscene ▸ h.slot, hscene ▸ h.watchers, hscene ▸ h.bumps,
    hscene ▸ h.completions⟩
  refine ⟨halone, hsize.trans h.size, q', hq', hobservers.trans hcs, ?_, hcourse⟩
  rw [hactions]
  exact hcontrol

/-- The program has another status now, and its observers have been told so. -/
theorem become (h : s.Followed cs) {status : Status} (hscene : t.scene = s.scene)
    (hprograms : t.programs = (s.setStatus 0 status).programs)
    (hcourse : Course 0 cs status t.tellings) : t.Followed cs := by
  obtain ⟨q, hq, -⟩ := h.program
  have hq' : t.programs[0]? = some (q.become status) := by
    rw [hprograms]
    exact getElem?_setStatus hq status
  exact h.moved hscene (by rw [hprograms, Session.setStatus, Array.size_modify]) hq hq' rfl rfl
    hcourse

variable (hcs : ∀ c ∈ cs, c.StopsOnly)

include hcs

theorem stop (h : s.Followed cs) (p : ProgramId) :
    (stop (performWithin (depth + 1)) p s).2.Followed cs := by
  by_cases hp : p = 0
  · subst hp
    rw [stop_eq_halted (h.stopsOnly hcs)]
    obtain ⟨q, hq, hobservers, -, hcourse⟩ := h.program
    cases hfinal : q.status.isTerminal with
    | true =>
      rw [halted_final (status?_of_program hq) hfinal]
      exact h
    | false =>
      obtain ⟨hprograms, htellings⟩ := halted_open hq hfinal
      refine h.become (scene_halted 0 s) hprograms ?_
      rw [htellings, hobservers]
      exact hcourse.abort hfinal
  · simpa only [Session.stop, h.status?_eq_none hp] using h

theorem finishProgram (h : s.Followed cs) (p : ProgramId) :
    (finishProgram (performWithin (depth + 1)) p s).2.Followed cs := by
  by_cases hp : p = 0
  · subst hp
    rw [finishProgram_eq_finished (h.stopsOnly hcs), finished]
    split
    · rename_i hrun
      obtain ⟨q, hq, hobservers, -, hcourse⟩ := h.program
      have hrunning : q.status = .running :=
        Option.some.inj ((status?_of_program hq).symm.trans (isRunning_iff.mp hrun))
      refine h.become (scene_announced _ _ _ _) (programs_announced _ _ _ _) ?_
      rw [tellings_become hq, hobservers]
      rw [hrunning] at hcourse
      exact hcourse.finish
    · exact h
  · have hidle : s.isRunning p = false := by simp [isRunning, h.status?_eq_none hp]
    simpa only [Session.finishProgram, hidle, Bool.false_eq_true, if_false] using h

/-- The announcement of a program that has just been claimed. -/
theorem announce (h : s.Followed cs) {q : Program} (hq : s.programs[0]? = some q)
    (hstopped : q.status = .stopped) :
    ∃ t, announce (performWithin (depth + 2)) 0 .running .stopped (s.setStatus 0 .running) =
      (.value (), t) ∧ t.Followed cs := by
  obtain ⟨q', hq', hobservers, -, hcourse⟩ := h.program
  cases hq.symm.trans hq'
  subst hobservers
  have hnothing : (s.setStatus 0 .running).tellings = [] := by
    rw [hstopped] at hcourse
    exact hcourse.eq_nil
  have hclaimed := getElem?_setStatus hq .running
  obtain ⟨t, ht, hscene, ⟨hprograms, htellings⟩ |
    ⟨early, late, hsplit, hasked, hprograms, htellings⟩⟩ :=
    @announce_running 0 depth _ _ hclaimed rfl hcs
  · refine ⟨t, ht, h.become hscene hprograms ?_⟩
    rw [htellings, hnothing]
    exact .running
  · have haborted : t.programs[0]? = some ((q.become .running).become .aborted) := by
      rw [hprograms]
      exact getElem?_setStatus hclaimed .aborted
    refine ⟨t, ht, h.moved hscene ?_ hq haborted rfl rfl ?_⟩
    · simp [hprograms, Session.setStatus]
    · rw [htellings, hnothing]
      exact .aborted early late hsplit fun _ => hasked

/-- A program that is started by its handle. -/
theorem start (h : s.Followed cs) (inRuntime : Bool) (p : ProgramId) :
    (start (performWithin (depth + 2)) inRuntime p s).2.Followed cs := by
  unfold Session.start
  cases inRuntime with
  | false => exact (Apart.note s _).followed h
  | true =>
    rcases claim_cases p s with hclaim | ⟨r, hclaim⟩ | ⟨q, hq, hclaimable, hclaim⟩
    · rw [hclaim]
      exact h
    · rw [hclaim]
      exact (Apart.note s r).followed h
    · cases h.eq_zero hq
      simp only [Program.isClaimable, Bool.and_eq_true, beq_iff_eq] at hclaimable
      obtain ⟨t, ht, hfollowed⟩ := @announce _ _ depth hcs h _ hq hclaimable.2
      have hrunning : (s.setStatus 0 .running).isRunning 0 = true :=
        isRunning_iff.mpr (status?_setStatus_self (status?_of_program hq) .running)
      have hspawned : Apart t (t.spawned 0) := ⟨rfl, rfl, rfl, rfl, rfl, rfl⟩
      rw [hclaim, if_pos rfl]
      dsimp only
      rw [startClaimed_eq, if_pos hrunning, ht, andThen_value, andThen_value]
      exact hspawned.followed hfollowed

/-- Starts and stops may be asked for. -/
theorem performWithin (h : s.Followed cs) {r : Request} (hr : r.IsControl) :
    (performWithin (depth + 3) r s).2.Followed cs := by
  cases r with
  | stop p => exact h.stop hcs p
  | start p =>
    refine andThen_keeps (P := fun t => t.Followed cs) (h.start hcs true p) fun k t ht => ?_
    exact (Apart.record t rfl).followed ht
  | stopCurrent =>
    show (stopCurrent (Session.performWithin (depth + 2)) s).2.Followed cs
    rw [h.stopCurrent_eq]
    exact h
  | panic => exact h
  | subscribe | play => exact hr.elim

theorem performAll (h : s.Followed cs) {requests : List Request}
    (hrequests : ∀ r ∈ requests, r.IsControl) :
    (performAll (Session.performWithin (depth + 3)) requests s).2.Followed cs := by
  induction requests generalizing s with
  | nil => exact h
  | cons r rest ih =>
    exact andThen_keeps (h.performWithin hcs (hrequests r List.mem_cons_self)) fun _ t ht =>
      ih ht fun r' hr' => hrequests r' (List.mem_cons_of_mem _ hr')

/-- What comes to pass while everybody waits leaves the program followed. -/
theorem paced : Paced (Session.performWithin (depth + 3))
    fun s t => s.Followed cs → t.Followed cs where
  refl _ h := h
  trans h h' hs := h' (h hs)
  skipped s _ _ := (Apart.note s _).followed
  stoppedAfter s _ _ := (Apart.note s _).followed
  act {s p q} index {a} hq ha h := by
    cases a with
    | command d =>
      rw [act_command]
      exact (h.step d).followed h
    | script name requests =>
      cases h.eq_zero hq
      obtain ⟨q', hq', -, hcontrol, -⟩ := h.program
      cases hq.symm.trans hq'
      have hrecorded := (Apart.record s (e := .action 0 index name) rfl).followed h
      exact hrecorded.performAll hcs (hcontrol _ ha)
  finish s p h := h.finishProgram hcs p
  task s k state := Apart.followed ⟨rfl, rfl, rfl, rfl, rfl, rfl⟩
  clock s time := Apart.followed ⟨rfl, rfl, rfl, rfl, rfl, rfl⟩
  joined s k := Apart.followed ⟨rfl, rfl, rfl, rfl, rfl, rfl⟩
  receivers s rs := Apart.followed ⟨rfl, rfl, rfl, rfl, rfl, rfl⟩

/-- Along every history of starts, stops and turns the program is followed. -/
theorem after (h : s.Followed cs) {hs : List Happening}
    (hall : ∀ h ∈ hs, h.Allowed Call.IsControl) :
    (after (Session.performWithin (depth + 3)) hs s).Followed cs := by
  induction hs generalizing s with
  | nil => exact h
  | cons what hs ih =>
    rw [after_cons]
    refine ih ?_ fun h' hh' => hall h' (List.mem_cons_of_mem _ hh')
    have hallowed := hall what List.mem_cons_self
    cases what with
    | turn k due => exact (paced hcs).turn k due s h
    | call c =>
      show (call (Session.performWithin (depth + 3)) c s).2.Followed cs
      obtain hwait | ⟨inRuntime, p, rfl⟩ | ⟨p, rfl⟩ := hallowed
      · exact (paced hcs).wait hwait s h
      · rw [snd_call_start]
        exact h.start hcs inRuntime p
      · rw [snd_call_stop]
        exact h.stop hcs p

end Followed

/-- A session begins with a program that nobody has been told about. -/
theorem followed_ofProgram {q : Program} (hstopped : q.status = .stopped)
    (hactions : ∀ a ∈ q.actions, a.AsksOnly Request.IsControl) :
    (ofProgram q).Followed q.observers where
  slot := rfl
  watchers c hc := by simp [ofProgram, Scene.ofLevel] at hc
  bumps := rfl
  completions := rfl
  size := rfl
  program := by
    refine ⟨q, rfl, rfl, hactions, ?_⟩
    rw [hstopped]
    exact .stopped

/-! ## What each observer hears -/

section Hearing

variable {cs : List (Callback StatusNotice)} {c : Callback StatusNotice}

theorem hearing_append (tag : String) (ts ts' : List Telling) :
    hearing tag (ts ++ ts') = hearing tag ts ++ hearing tag ts' := by
  simp [hearing]

theorem hearing_told_others (hc : c.tag ∉ cs.map Callback.tag) (new old : Status) :
    hearing c.tag (told cs new old) = [] := by
  simp only [hearing, told, List.filter_map, List.map_eq_nil_iff, List.filter_eq_nil_iff,
    Function.comp_apply, beq_iff_eq]
  exact fun c' hc' hsame => hc (hsame ▸ List.mem_map_of_mem hc')

/-- An observer hears once of a change that it is told about, if the others have other tags. -/
theorem hearing_told (htags : (cs.map Callback.tag).Nodup) (hc : c ∈ cs) (new old : Status) :
    hearing c.tag (told cs new old) = [(new, old)] := by
  obtain ⟨before, after, rfl⟩ := List.append_of_mem hc
  rw [List.map_append, List.map_cons, List.nodup_append, List.nodup_cons] at htags
  obtain ⟨-, ⟨hafter, -⟩, hbefore⟩ := htags
  have hself : hearing c.tag (told [c] new old) = [(new, old)] := by simp [hearing, told]
  have hothers : c.tag ∉ before.map Callback.tag := fun hmem =>
    hbefore c.tag hmem c.tag List.mem_cons_self rfl
  have hsplit : told (before ++ c :: after) new old =
      told before new old ++ (told [c] new old ++ told after new old) := by
    simp [told]
  rw [hsplit, hearing_append, hearing_append, hearing_told_others hothers, hself,
    hearing_told_others hafter]
  rfl

/-- The observers who have been told about a course fall into those who have heard its changes in
their order and those who have been overtaken by a stop. -/
theorem Course.hearings {p : ProgramId} {status : Status} {ts : List Telling}
    (h : Course p cs status ts) (htags : (cs.map Callback.tag).Nodup) :
    ∃ early late, cs = early ++ late ∧
      (∀ c ∈ early, Linked .stopped (hearing c.tag ts) status) ∧
      (∀ c ∈ late, hearing c.tag ts = [(.aborted, .running), (.running, .stopped)]) ∧
      (late ≠ [] → status = .aborted ∧ EndsInStop p early) := by
  have inOrder (hlinked : ∀ c ∈ cs, Linked .stopped (hearing c.tag ts) status) :
      ∃ early late, cs = early ++ late ∧
        (∀ c ∈ early, Linked .stopped (hearing c.tag ts) status) ∧
        (∀ c ∈ late, hearing c.tag ts = [(.aborted, .running), (.running, .stopped)]) ∧
        (late ≠ [] → status = .aborted ∧ EndsInStop p early) :=
    ⟨cs, [], (List.append_nil cs).symm, hlinked, by simp, fun hne => absurd rfl hne⟩
  cases h with
  | stopped => exact inOrder fun c hc => rfl
  | running => exact inOrder fun c hc => by simp [hearing_told htags hc, Linked]
  | finished => exact inOrder fun c hc => by simp [hearing_append, hearing_told htags hc, Linked]
  | unstarted => exact inOrder fun c hc => by simp [hearing_told htags hc, Linked]
  | aborted early late split asked =>
    subst split
    have htags' := htags
    rw [List.map_append, List.nodup_append] at htags'
    obtain ⟨hearly, hlate, hdisjoint⟩ := htags'
    refine ⟨early, late, rfl, fun c hc => ?_, fun c hc => ?_, fun hne => ⟨rfl, asked hne⟩⟩
    · have hothers : c.tag ∉ late.map Callback.tag := fun hmem =>
        hdisjoint c.tag (List.mem_map_of_mem hc) c.tag hmem rfl
      have hall := hearing_told htags (List.mem_append_left late hc) .aborted .running
      simp [hearing_append, hearing_told hearly hc, hall, hearing_told_others hothers, Linked]
    · have hothers : c.tag ∉ early.map Callback.tag := fun hmem =>
        hdisjoint c.tag hmem c.tag (List.mem_map_of_mem hc) rfl
      have hall := hearing_told htags (List.mem_append_right early hc) .aborted .running
      simp [hearing_append, hearing_told hlate hc, hall, hearing_told_others hothers]

end Hearing

/-- Early observers of a program are told about changes that follow each other; those behind one
that asks for a stop are told about the stop first. -/
theorem observers_are_told_in_order_unless_overtaken {depth : Nat} {q : Program}
    (hstopped : q.status = .stopped) (hcs : ∀ c ∈ q.observers, c.StopsOnly)
    (htags : (q.observers.map Callback.tag).Nodup)
    (hactions : ∀ a ∈ q.actions, a.AsksOnly Request.IsControl) {hs : List Happening}
    (hall : ∀ h ∈ hs, h.Allowed Call.IsControl) :
    let t := after (performWithin (depth + 3)) hs (ofProgram q)
    ∃ status early late, t.status? 0 = some status ∧ q.observers = early ++ late ∧
      (∀ c ∈ early, Linked .stopped (t.heard c.tag) status) ∧
      (∀ c ∈ late, t.heard c.tag = [(.aborted, .running), (.running, .stopped)]) ∧
      (late ≠ [] → status = .aborted ∧ EndsInStop 0 early) := by
  intro t
  have hfollowed : t.Followed q.observers :=
    (followed_ofProgram hstopped hactions).after hcs hall
  obtain ⟨q', hq', -, -, hcourse⟩ := hfollowed.program
  have hst := status?_of_program hq'
  obtain ⟨early, late, hsplit, hearly, hlate, hstop⟩ := hcourse.hearings htags
  exact ⟨q'.status, early, late, hst, hsplit, hearly, hlate, hstop⟩

/-- An observer that asks for the stop of a program as soon as it is told that the program runs. -/
def hasty : Callback StatusNotice where
  tag := "hasty"
  requests n := if n.new = .running then [.stop n.program] else []

/-- A program of one action, with a hasty observer between two others. -/
def hastilyStopped : Program where
  source := ""
  actions := #[.script "tick" []]
  delay := .ofMillis 100
  observers := [.recorder "first", hasty, .recorder "last"]

/-- The observer before a hasty one hears of the changes in their order. -/
theorem first_observer_is_told_in_order :
    let t := after (performWithin 3) [.call (.start true 0), .turn 0 0] (ofProgram hastilyStopped)
    t.status? 0 = some .aborted ∧ Linked .stopped (t.heard "first") .aborted := by
  intro t
  have hst : t.status? 0 = some .aborted := by decide +kernel
  have hcs : ∀ c ∈ hastilyStopped.observers, c.StopsOnly := by
    intro c hc n r hr
    simp only [hastilyStopped, List.mem_cons, List.not_mem_nil, or_false] at hc
    obtain rfl | rfl | rfl := hc
    · cases hr
    · simp only [hasty] at hr
      split at hr
      · exact List.mem_singleton.mp hr
      · cases hr
    · cases hr
  obtain ⟨status, early, late, hstatus, hsplit, hearly, -, hstop⟩ :=
    @observers_are_told_in_order_unless_overtaken 0 hastilyStopped rfl hcs (by decide) (by
      simp [hastilyStopped, Action.AsksOnly]) [.call (.start true 0), .turn 0 0] (by
      simp [Happening.Allowed, Call.IsControl])
  cases hst.symm.trans hstatus
  refine ⟨hst, ?_⟩
  cases early with
  | nil =>
    -- there is no last one of no observers
    obtain ⟨-, c, n, hlast, -⟩ := hstop (by
      rw [← List.nil_append late, ← hsplit]
      exact List.cons_ne_nil _ _)
    cases hlast
  | cons c rest =>
    cases (List.cons.inj hsplit).1
    exact hearly _ List.mem_cons_self

/-- The observer after it is told about the stop first, and then that the program runs. -/
theorem last_observer_is_overtaken :
    let t := after (performWithin 3) [.call (.start true 0)] (ofProgram hastilyStopped)
    t.status? 0 = some .aborted ∧
      t.heard "last" = [(.aborted, .running), (.running, .stopped)] ∧
      ¬Linked .stopped (t.heard "last") .aborted := by
  intro t
  have hheard : t.heard "last" = [(.aborted, .running), (.running, .stopped)] := by decide +kernel
  refine ⟨by decide +kernel, hheard, ?_⟩
  rw [hheard]
  simp [Linked]

end Session

end GridPuzzle
