import GridPuzzle.Session.Call
import Mathlib.Logic.Relation

/-!
# Primitive changes of a session

Callbacks may ask for anything and requests nest, yet all that they bring about is a sequence of a
few primitive changes. Each of them carries the guard under which the library makes it, so an
invariant is proved once for each change. The robot's own position is not among them, since a
callback sees the robot only as a snapshot: no request moves it, except back to its start when a
new program is accepted.
-/

namespace GridPuzzle

/-- A program as a scene accepts it: at once running, unless there is nothing to play. -/
def Program.claimed (q : Program) : Program := if q.isEmpty then q else q.become .running

/-- Whether a guard admits a robot on a cell, as far as the cell alone decides. -/
def Guard.Admits : Guard → Position → Prop
  | .bounds b, p => b.contains p = true
  | .wall w, p => p ≠ w.position
  | .policy _, _ => True

/-- Where the callback that has written an event down saw the robot, if it looked. -/
def Event.place? : Event → Option Position
  | .status _ n => some n.position
  | .moved _ _ p => some p
  | _ => none

namespace Session

/-- Whether every guard of the scene admits the robot on a cell. -/
def Admits (s : Session) (p : Position) : Prop := ∀ g ∈ s.scene.guards, g.Admits p

/-- A scene has accepted the program of a text: the program takes the slot, a new attempt begins and
the robot is back on its start. -/
def accepted (source : String) (s : Session) : Session :=
  { s with
    programs :=
      s.programs.push (Program.ofSource source s.scene.delay s.scene.statusObservers).claimed
    scene := { s.scene with
      slot := some s.programs.size, complete := false, position := s.scene.start } }

/-- A program that somebody has started or stopped. -/
def Claimed (s : Session) (p : ProgramId) : Prop :=
  ∃ status, s.status? p = some status ∧ status ≠ .stopped

/-- One primitive change, with the guard under which the library makes it. -/
inductive Change : Session → Session → Prop
  | note (s : Session) (r : Remark) : Change s (note r s)
  | record (s : Session) {e : Event} (he : e.place? = none) : Change s (s.record e)
  | tell (s : Session) (tag : String) {n : StatusNotice} (hn : n.position = s.scene.position) :
      Change s (s.record (.status tag n))
  | witness {s : Session} (tag : String) {m : Move} (h : s.Admits m.target) :
      Change s (s.record (.moved tag m m.target))
  | abort {s : Session} {p : ProgramId} {old : Status} (h : s.status? p = some old)
      (hold : old.isTerminal = false) : Change s (s.setStatus p .aborted)
  | finish {s : Session} {p : ProgramId} (h : s.isRunning p = true) :
      Change s (s.setStatus p .finished)
  | claim {s : Session} {p : ProgramId} {q : Program} (h : s.programs[p]? = some q)
      (hq : q.isClaimable = true) : Change s (s.setStatus p .running)
  | accept {s : Session} (source : String) (h : s.isPlaying = false) :
      Change s (s.accepted source)
  | follow (s : Session) (p : ProgramId) (tag : String) :
      Change s (s.subscribe p (.recorder tag))
  | spawn {s : Session} {p : ProgramId} (h : s.Claimed p) :
      Change s { s with tasks := s.tasks.push ⟨p, .ready s.now, false⟩ }
  | complete (s : Session) : Change s { s with scene.complete := true }

/-- A session that some sequence of primitive changes leads to. -/
abbrev Changes : Session → Session → Prop := Relation.ReflTransGen Change

/-- What every primitive change keeps, any sequence of them keeps. -/
theorem Changes.keeps {P : Session → Prop} (hP : ∀ {s t}, Change s t → P s → P t) {s t : Session}
    (h : Changes s t) (hs : P s) : P t := by
  induction h with
  | refl => exact hs
  | tail _ hc ih => exact hP hc ih

/-- The status of a program just accepted. -/
theorem status?_accepted (s : Session) (source : String) (p : ProgramId) :
    (s.accepted source).status? p =
      if p = s.programs.size then
        some (Program.ofSource source s.scene.delay s.scene.statusObservers).claimed.status
      else s.status? p := by
  simp only [accepted, status?, Array.getElem?_push]
  split <;> rfl

theorem status?_of_program {s : Session} {p : ProgramId} {q : Program}
    (hq : s.programs[p]? = some q) : s.status? p = some q.status := by
  rw [status?, hq]
  rfl

/-- A program that is given a status has it then. -/
theorem getElem?_setStatus {s : Session} {p : ProgramId} {q : Program}
    (hq : s.programs[p]? = some q) (status : Status) :
    (s.setStatus p status).programs[p]? = some (q.become status) := by
  simp only [setStatus, Array.getElem?_modify, if_pos, hq]
  rfl

theorem status?_setStatus_self {s : Session} {p : ProgramId} {old : Status}
    (hst : s.status? p = some old) (status : Status) :
    (s.setStatus p status).status? p = some status := by
  rw [status?_setStatus, if_pos rfl, hst]
  rfl

/-- A program that has left its first status never returns to it. -/
theorem Change.claimed {s t : Session} (h : Change s t) {p : ProgramId} (hp : s.Claimed p) :
    t.Claimed p := by
  obtain ⟨status, hst, hne⟩ := hp
  have key : ∀ (p' : ProgramId) (new : Status), new ≠ .stopped →
      (s.setStatus p' new).Claimed p := by
    intro p' new hnew
    by_cases hpp : p' = p
    · exact ⟨new, hpp ▸ status?_setStatus_self (hpp ▸ hst) new, hnew⟩
    · exact ⟨status, by rw [status?_setStatus, if_neg hpp, hst], hne⟩
  cases h with
  | abort _ _ => exact key _ _ (by decide)
  | finish _ => exact key _ _ (by decide)
  | claim _ _ => exact key _ _ (by decide)
  | accept source hidle =>
    refine ⟨status, ?_, hne⟩
    rw [status?_accepted, if_neg, hst]
    rintro rfl
    simp [status?] at hst
  | follow p' tag => exact ⟨status, by rw [status?_subscribe, hst], hne⟩
  | note | record | tell | witness | spawn | complete => exact ⟨status, hst, hne⟩

/-- A final status is kept for good. -/
theorem Change.final {s t : Session} (h : Change s t) {p : ProgramId} {status : Status}
    (hst : s.status? p = some status) (hfinal : status.isTerminal = true) :
    t.status? p = some status := by
  have other : ∀ {p' : ProgramId} {old : Status} (new : Status), s.status? p' = some old →
      old.isTerminal = false → (s.setStatus p' new).status? p = some status := by
    intro p' old new hold hopen
    have hne : p' ≠ p := by
      rintro rfl
      rw [hst] at hold
      cases hold
      rw [hfinal] at hopen
      cases hopen
    rw [status?_setStatus, if_neg hne, hst]
  cases h with
  | abort hold hopen => exact other _ hold hopen
  | finish hrun => exact other _ (isRunning_iff.mp hrun) rfl
  | @claim p' q hq hclaim =>
    refine other _ (status?_of_program hq) ?_
    simp only [Program.isClaimable, Bool.and_eq_true, beq_iff_eq] at hclaim
    rw [hclaim.2]
    rfl
  | accept source hidle =>
    rw [status?_accepted, if_neg, hst]
    rintro rfl
    simp [status?] at hst
  | follow p' tag => rw [status?_subscribe, hst]
  | note | record | tell | witness | spawn | complete => exact hst

/-- A program that was made like this one: status and observers may be others. -/
def Has (s : Session) (p : ProgramId) (q : Program) : Prop :=
  ∃ q', s.programs[p]? = some q' ∧ q'.source = q.source ∧ q'.actions = q.actions ∧
    q'.delay = q.delay

/-- A program stays what it was made as. -/
theorem Change.has {s t : Session} (h : Change s t) {p : ProgramId} {q : Program}
    (hq : s.Has p q) : t.Has p q := by
  obtain ⟨q', hq', hsource, hactions, hdelay⟩ := hq
  have modified (p' : ProgramId) (f : Program → Program) (hf : (f q').source = q'.source ∧
      (f q').actions = q'.actions ∧ (f q').delay = q'.delay) :
      ∃ q'', (s.programs.modify p' f)[p]? = some q'' ∧ q''.source = q.source ∧
        q''.actions = q.actions ∧ q''.delay = q.delay := by
    rw [Array.getElem?_modify, hq']
    split
    · exact ⟨_, rfl, hf.1.trans hsource, hf.2.1.trans hactions, hf.2.2.trans hdelay⟩
    · exact ⟨q', rfl, hsource, hactions, hdelay⟩
  cases h with
  | abort | finish | claim | follow => exact modified _ _ ⟨rfl, rfl, rfl⟩
  | accept source hidle =>
    refine ⟨q', ?_, hsource, hactions, hdelay⟩
    have hlt : p < s.programs.size := (Array.getElem?_eq_some_iff.mp hq').1
    simp only [accepted, Array.getElem?_push, if_neg (Nat.ne_of_lt hlt), hq']
  | note | record | tell | witness | spawn | complete =>
    exact ⟨q', hq', hsource, hactions, hdelay⟩

/-- What no primitive change touches: what a level fixes, whom clients have subscribed, and the
timer. -/
structure SameFrame (s t : Session) : Prop where
  start : t.scene.start = s.scene.start
  guards : t.scene.guards = s.scene.guards
  watchers : t.scene.watchers = s.scene.watchers
  delay : t.scene.delay = s.scene.delay
  present : t.scene.present = s.scene.present
  statusObservers : t.scene.statusObservers = s.scene.statusObservers
  completionObservers : t.scene.completionObservers = s.scene.completionObservers
  wallObservers : t.scene.wallObservers = s.scene.wallObservers
  timer : t.timer = s.timer

theorem SameFrame.refl (s : Session) : SameFrame s s :=
  ⟨rfl, rfl, rfl, rfl, rfl, rfl, rfl, rfl, rfl⟩

theorem SameFrame.trans {s t u : Session} (h : SameFrame s t) (h' : SameFrame t u) :
    SameFrame s u :=
  ⟨h'.start.trans h.start, h'.guards.trans h.guards, h'.watchers.trans h.watchers,
    h'.delay.trans h.delay, h'.present.trans h.present,
    h'.statusObservers.trans h.statusObservers,
    h'.completionObservers.trans h.completionObservers,
    h'.wallObservers.trans h.wallObservers, h'.timer.trans h.timer⟩

theorem Change.sameFrame {s t : Session} (h : Change s t) : SameFrame s t := by
  cases h <;> exact ⟨rfl, rfl, rfl, rfl, rfl, rfl, rfl, rfl, rfl⟩

theorem Changes.sameFrame {s t : Session} (h : Changes s t) : SameFrame s t := by
  induction h with
  | refl => exact .refl s
  | tail _ hc ih => exact ih.trans hc.sameFrame

theorem Changes.claimed {s t : Session} (h : Changes s t) {p : ProgramId} (hp : s.Claimed p) :
    t.Claimed p := h.keeps (fun hc => hc.claimed) hp

/-- Whom the guards admit does not change. -/
theorem Changes.admits {s t : Session} (h : Changes s t) {p : Position} (hp : s.Admits p) :
    t.Admits p := by
  unfold Admits
  rw [h.sameFrame.guards]
  exact hp

/-- A task has been started for a program, and it is ready at once. -/
def spawned (p : ProgramId) (s : Session) : Session :=
  { s with tasks := s.tasks.push ⟨p, .ready s.now, false⟩ }

/-- A primitive change that starts no task, finishes no program, and aborts a program only where
asking for that is allowed. -/
structure Tame (allowed : Request → Prop) (s t : Session) : Prop where
  change : Change s t
  tasks : t.tasks = s.tasks
  unfinished : ∀ p, t.status? p = some .finished → s.status? p = some .finished
  unstopped : ∀ p, ¬allowed (.stop p) → t.status? p = some .aborted → s.status? p = some .aborted

/-- A tame change after which nobody runs that has not run before. -/
structure Calm (allowed : Request → Prop) (s t : Session) : Prop extends Tame allowed s t where
  running : ∀ p, t.isRunning p = true → s.isRunning p = true

/-- A tame change that claims a program, which runs from then on; nobody else begins to run. -/
structure Begins (allowed : Request → Prop) (p : ProgramId) (s t : Session) : Prop
    extends Tame allowed s t where
  unclaimed : ¬s.Claimed p
  claimed : t.Claimed p
  others : ∀ p', p' ≠ p → t.isRunning p' = true → s.isRunning p' = true

/-- A program that can be claimed has not been claimed. -/
theorem not_claimed_of_isClaimable {s : Session} {p : ProgramId} {q : Program}
    (hq : s.programs[p]? = some q) (hclaimable : q.isClaimable = true) : ¬s.Claimed p := by
  rintro ⟨status, hstatus, hne⟩
  simp only [Program.isClaimable, Bool.and_eq_true, beq_iff_eq] at hclaimable
  simp only [status?, hq, Option.map_some, Option.some.injEq] at hstatus
  exact hne (hstatus.symm.trans hclaimable.2)

/-- A program that exists is claimed once it has another status than its first. -/
theorem claimed_setStatus {s : Session} {p : ProgramId} {q : Program} {status : Status}
    (hq : s.programs[p]? = some q) (hstatus : status ≠ .stopped) :
    (s.setStatus p status).Claimed p :=
  ⟨status, status?_setStatus_self (status?_of_program hq) status, hstatus⟩

/-- A program just accepted is claimed, unless there is nothing to play. -/
theorem claimed_accepted {source : String} {s : Session}
    (hplays : (Program.ofSource source s.scene.delay s.scene.statusObservers).isEmpty = false) :
    (accepted source s).Claimed s.programs.size := by
  refine ⟨.running, ?_, by decide⟩
  rw [status?_accepted]
  simp [Program.claimed, hplays, Program.become]

/-- A change of one status leaves the other programs running as they do. -/
theorem isRunning_setStatus_of_ne {s : Session} {p p' : ProgramId} (hne : p' ≠ p)
    (status : Status) : (s.setStatus p status).isRunning p' = s.isRunning p' := by
  unfold isRunning
  rw [status?_setStatus, if_neg (Ne.symm hne)]

/-- A program that is given another status than running does not begin to run. -/
theorem isRunning_of_setStatus {s : Session} {p p' : ProgramId} {status : Status}
    (hstatus : status ≠ .running) (h : (s.setStatus p status).isRunning p' = true) :
    s.isRunning p' = true := by
  by_cases hne : p' = p
  · subst hne
    rw [isRunning_iff, status?_setStatus, if_pos rfl] at h
    obtain ⟨_, _, hrunning⟩ := Option.map_eq_some_iff.mp h
    exact absurd hrunning hstatus
  · rwa [isRunning_setStatus_of_ne hne] at h

/-- The acceptance of a text leaves the other programs running as they do. -/
theorem isRunning_accepted_of_ne {s : Session} (source : String) {p : ProgramId}
    (hne : p ≠ s.programs.size) : (accepted source s).isRunning p = s.isRunning p := by
  unfold isRunning
  rw [status?_accepted, if_neg hne]

namespace Tame

variable {allowed : Request → Prop}

/-- A change that leaves tasks and programs as they are is tame. -/
private theorem of_programs {s t : Session} (hc : Change s t) (htasks : t.tasks = s.tasks)
    (hprograms : t.programs = s.programs) : Tame allowed s t :=
  ⟨hc, htasks, fun p hp => (status?_congr hprograms p).symm.trans hp,
    fun p _ hp => (status?_congr hprograms p).symm.trans hp⟩

/-- A change of one status to another one than finished is tame, if a program that it aborts may be
stopped. -/
private theorem of_setStatus {s : Session} {p : ProgramId} {status : Status}
    (hc : Change s (s.setStatus p status)) (hstatus : status ≠ .finished)
    (hallowed : status = .aborted → allowed (.stop p)) : Tame allowed s (s.setStatus p status) := by
  refine ⟨hc, rfl, fun p' hp' => ?_, fun p' hforbidden hp' => ?_⟩
  · rw [status?_setStatus] at hp'
    split at hp'
    · obtain ⟨_, _, hfinished⟩ := Option.map_eq_some_iff.mp hp'
      exact absurd hfinished hstatus
    · exact hp'
  · rw [status?_setStatus] at hp'
    split at hp'
    · rename_i hpp
      obtain ⟨_, _, haborted⟩ := Option.map_eq_some_iff.mp hp'
      exact absurd (hpp ▸ hallowed haborted) hforbidden
    · exact hp'

theorem accept {s : Session} (source : String) (h : s.isPlaying = false) :
    Tame allowed s (s.accepted source) := by
  have key {status : Status} (hnew : status ≠ .stopped ∧ status ≠ .running) {p : ProgramId}
      (hp : (s.accepted source).status? p = some status) : s.status? p = some status := by
    rw [status?_accepted] at hp
    split at hp
    · unfold Program.claimed at hp
      split at hp
      · exact absurd (Option.some.inj hp).symm hnew.1
      · exact absurd (Option.some.inj hp).symm hnew.2
    · exact hp
  exact ⟨.accept source h, rfl, fun _ => key (by decide), fun _ _ => key (by decide)⟩

end Tame

namespace Calm

variable {allowed : Request → Prop}

/-- A change that leaves tasks and programs as they are is calm. -/
private theorem of_programs {s t : Session} (hc : Change s t) (htasks : t.tasks = s.tasks)
    (hprograms : t.programs = s.programs) : Calm allowed s t :=
  ⟨Tame.of_programs hc htasks hprograms, fun p hp => (isRunning_congr hprograms p).symm.trans hp⟩

theorem note (s : Session) (r : Remark) : Calm allowed s (note r s) :=
  of_programs (.note s r) rfl rfl

theorem record (s : Session) {e : Event} (he : e.place? = none) : Calm allowed s (s.record e) :=
  of_programs (.record s he) rfl rfl

theorem tell (s : Session) (tag : String) {n : StatusNotice}
    (hn : n.position = s.scene.position) : Calm allowed s (s.record (.status tag n)) :=
  of_programs (.tell s tag hn) rfl rfl

theorem witness {s : Session} (tag : String) {m : Move} (h : s.Admits m.target) :
    Calm allowed s (s.record (.moved tag m m.target)) :=
  of_programs (.witness tag h) rfl rfl

theorem complete (s : Session) : Calm allowed s { s with scene.complete := true } :=
  of_programs (.complete s) rfl rfl

theorem abort {s : Session} {p : ProgramId} {old : Status} (hallowed : allowed (.stop p))
    (h : s.status? p = some old) (hold : old.isTerminal = false) :
    Calm allowed s (s.setStatus p .aborted) :=
  ⟨Tame.of_setStatus (.abort h hold) (by decide) fun _ => hallowed,
    fun _ => isRunning_of_setStatus (by decide)⟩

/-- A scene may accept a text in which there is nothing to play. -/
theorem accept {s : Session} {source : String} (h : s.isPlaying = false)
    (hempty : (Program.ofSource source s.scene.delay s.scene.statusObservers).isEmpty = true) :
    Calm allowed s (s.accepted source) := by
  refine ⟨Tame.accept source h, fun p hp => ?_⟩
  by_cases hne : p = s.programs.size
  · rw [isRunning_iff, status?_accepted, if_pos hne, Program.claimed, if_pos hempty] at hp
    cases hp
  · rwa [isRunning_accepted_of_ne source hne] at hp

theorem follow (s : Session) (p : ProgramId) (tag : String) :
    Calm allowed s (s.subscribe p (.recorder tag)) := by
  have hsame (p' : ProgramId) : (s.subscribe p (.recorder tag)).status? p' = s.status? p' :=
    status?_subscribe s p p' _
  refine ⟨⟨.follow s p tag, rfl, fun p' hp' => ?_, fun p' _ hp' => ?_⟩, fun p' hp' => ?_⟩
  · rwa [hsame] at hp'
  · rwa [hsame] at hp'
  · rwa [isRunning, hsame] at hp'

end Calm

namespace Begins

variable {allowed : Request → Prop}

theorem claim {s : Session} {p : ProgramId} {q : Program} (h : s.programs[p]? = some q)
    (hq : q.isClaimable = true) : Begins allowed p s (s.setStatus p .running) where
  toTame := Tame.of_setStatus (.claim h hq) (by decide) nofun
  unclaimed := not_claimed_of_isClaimable h hq
  claimed := claimed_setStatus h (by decide)
  others p' hne hp' := by rwa [isRunning_setStatus_of_ne hne] at hp'

/-- A scene accepts a text in which there is something to play. -/
theorem accept {s : Session} {source : String} (h : s.isPlaying = false)
    (hplays : (Program.ofSource source s.scene.delay s.scene.statusObservers).isEmpty = false) :
    Begins allowed s.programs.size s (s.accepted source) where
  toTame := Tame.accept source h
  unclaimed := by
    rintro ⟨status, hstatus, -⟩
    simp [status?] at hstatus
  claimed := claimed_accepted hplays
  others p' hne hp' := by rwa [isRunning_accepted_of_ne source hne] at hp'

end Begins

end Session

end GridPuzzle
