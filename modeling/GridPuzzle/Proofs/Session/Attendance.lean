import GridPuzzle.Proofs.Session.Refusal
import GridPuzzle.Proofs.Session.Usage
import Mathlib.Data.List.Induction

/-!
# Who plays a running program

A program that runs has a task that plays it, as long as nothing is cut short. The claim of a
program, the announcement, the start of the task and the last change of status are separate steps,
and nobody cleans up when one of them is missing: a panic in a task leaves its program as it is, so
does whoever calls a task off through its handle, and a panic between the claim and the start leaves
a program without any task. There is no other way to a running program that nobody plays.

Once the task of a program has returned, the status of the program is final, and if the program is
in the slot of the scene, the scene accepts the next text.
-/

namespace GridPuzzle

/-- One thing that happens to a session, or to one of its tasks from outside. -/
inductive Incident
  /-- A client does something other than wait, which is a matter of turns. -/
  | call (c : Call) (acts : ¬c.IsWait)
  /-- A task gets a turn, while the clock has reached a time. -/
  | turn (k : TaskId) (due : Nat)
  /-- A client calls a task off through its handle. -/
  | callOff (k : TaskId)

namespace Session

/-- A task has been started for a program. -/
def Manned (s : Session) (p : ProgramId) : Prop :=
  ∃ (k : TaskId) (task : Task), s.tasks[k]? = some task ∧ task.program = p

/-- Everybody who begins to run has been given a task. -/
def Attended (s t : Session) : Prop :=
  ∀ p, t.isRunning p = true → s.isRunning p = true ∨ t.Manned p

section Manned

variable {s t u : Session} {p : ProgramId}

theorem Recruits.manned (h : Recruits s t) (hp : s.Manned p) : t.Manned p := by
  obtain ⟨k, task, htask, hprogram⟩ := hp
  exact ⟨k, task, h.getElem? htask, hprogram⟩

/-- The state of a task does not matter to whom it plays for. -/
theorem Manned.setTask (h : s.Manned p) (k : TaskId) (state : TaskState) :
    (s.setTask k state).Manned p := by
  obtain ⟨j, task, htask, hprogram⟩ := h
  refine ⟨j, if k = j then { task with state } else task, ?_, ?_⟩
  · simp only [Session.setTask, Array.getElem?_modify, htask]
    split <;> rfl
  · split <;> exact hprogram

theorem manned_spawned (s : Session) (p : ProgramId) : (s.spawned p).Manned p :=
  ⟨s.tasks.size, _, Array.getElem?_push_size, rfl⟩

theorem Manned.spawned (h : s.Manned p) (p' : ProgramId) : (s.spawned p').Manned p := by
  obtain ⟨k, task, htask, hprogram⟩ := h
  have hlt : k < s.tasks.size := (Array.getElem?_eq_some_iff.mp htask).1
  refine ⟨k, task, ?_, hprogram⟩
  rw [Session.spawned, Array.getElem?_push, if_neg (Nat.ne_of_lt hlt), htask]

/-- Only the programs of tasks decide who is manned. -/
theorem Aside.manned (ha : Aside s t) (h : s.Manned p) : t.Manned p := by
  obtain ⟨k, task, htask, hprogram⟩ := h
  have hsame : (t.tasks.map Task.program)[k]? = some p := by
    rw [ha.tasks, Array.getElem?_map, htask, ← hprogram]
    rfl
  rw [Array.getElem?_map] at hsame
  obtain ⟨task', htask', hprogram'⟩ := Option.map_eq_some_iff.mp hsame
  exact ⟨k, task', htask', hprogram'⟩

theorem Change.manned (hc : Change s t) (h : s.Manned p) : t.Manned p := by
  cases hc with
  | spawn => exact h.spawned _
  | note | record | tell | witness | abort | finish | claim | accept | follow | complete => exact h

/-- Whoever has a task keeps it. -/
theorem Deed.manned {perform : Perform} (hperform : perform.Orderly) {allowed : Call → Prop}
    (hd : Deed perform allowed s t) (h : s.Manned p) : t.Manned p := by
  refine hd.keeps (P := fun u => u.Manned p) hperform Change.manned Aside.manned
    (fun _ h => h) (fun {u c} hc _ h => ?_) h
  rcases arrange_cases hc u with ⟨p', c', hcall⟩ | ⟨scene, -, hcall⟩ <;> rw [hcall] <;> exact h

end Manned

namespace Attended

variable {s t u : Session}

theorem refl (s : Session) : Attended s s := fun _ hp => .inl hp

theorem of_programs (h : t.programs = s.programs) : Attended s t := fun p hp =>
  .inl ((isRunning_congr h p).symm.trans hp)

theorem trans (h : Attended s t) (h' : Attended t u) (hrecruits : Recruits t u) :
    Attended s u := by
  intro p hp
  obtain hbefore | hmanned := h' p hp
  · exact (h p hbefore).imp_right hrecruits.manned
  · exact .inr hmanned

/-- A program that has begun to run is given a task in the end. -/
theorem spawned {allowed : Request → Prop} {p : ProgramId} (h : Begins allowed p s t)
    (hafter : Attended t u) : Attended s (u.spawned p) := by
  intro p' hp'
  by_cases hne : p' = p
  · exact .inr (hne ▸ manned_spawned u p)
  · obtain hbefore | hmanned := hafter p' hp'
    · exact .inl (h.others p' hne hbefore)
    · exact .inr (hmanned.spawned p)

/-- Whoever begins to run within a call has a task when the call comes to its end. -/
theorem steady : Steady (fun _ => True) fun whole s t =>
    (Changes s t ∧ Proceeds s t) ∧ (whole = true → Attended s t) where
  refl whole s := ⟨Proceeds.steady.refl whole s, fun _ => refl s⟩
  trans h h' := ⟨⟨h.1.1.trans h'.1.1, h.1.2.trans h'.1.2⟩, fun hwhole =>
    (h.2 rfl).trans (h'.2 hwhole) h'.1.2.recruits⟩
  given {_ s _} h := h (.anything s)
  changes _ h := h.1.1
  calm h := ⟨Proceeds.steady.calm h, fun _ p hp => .inl (h.running p hp)⟩
  spawned h hafter := ⟨Proceeds.steady.spawned h hafter.1, fun _ => .spawned h (hafter.2 rfl)⟩
  cutShort h hafter := ⟨Proceeds.steady.cutShort h hafter.1, nofun⟩

end Attended

section Calls

/-- A way to carry out requests that leaves nobody running without a task when it comes to its
end. -/
abbrev Perform.Attentive (perform : Perform) : Prop :=
  perform.Within (fun _ => True) fun whole s t =>
    (Changes s t ∧ Proceeds s t) ∧ (whole = true → Attended s t)

theorem performWithin_attentive (depth : Nat) : (performWithin depth).Attentive :=
  Attended.steady.performWithin depth

variable {perform : Perform} (hperform : perform.Attentive) {s : Session}

include hperform

theorem Perform.Attentive.disciplined : perform.Disciplined := fun r s h => (hperform r s h).1

theorem step_attended (d : Direction) (h : (step perform d s).1.isWhole = true) :
    Attended s (step perform d s).2 := by
  obtain ⟨t, ht, hstep | ⟨m, -, -, hstep⟩⟩ := Attended.steady.step_cases hperform d s
  · rw [hstep]
    exact ht.2 h
  · rw [hstep]
    exact ht.2 h

theorem act_attended (p : ProgramId) (index : Nat) (a : Action)
    (h : (act perform p index a s).1.isWhole = true) :
    Attended s (act perform p index a s).2 := by
  cases a with
  | command d =>
    rw [act_command]
    refine step_attended hperform d ?_
    unfold act at h
    revert h
    dsimp only
    rcases step perform d s with ⟨_ | _, t⟩ <;> exact id
  | script name requests =>
    exact (Attended.steady.script hperform p index name (fun _ _ => trivial) s).2 h

theorem finishProgram_attended (p : ProgramId)
    (h : (finishProgram perform p s).1.isWhole = true) :
    Attended s (finishProgram perform p s).2 := by
  unfold finishProgram at h ⊢
  split at h
  · rename_i hrun
    rw [if_pos hrun]
    have hannounce := Attended.steady.announce hperform p .finished .running
      (s.setStatus p .finished)
    have hfinished : Attended s (s.setStatus p .finished) := fun p' hp' =>
      .inl (isRunning_of_setStatus (by decide) hp')
    exact hfinished.trans (hannounce.2 h) hannounce.1.2.recruits
  · rename_i hidle
    rw [if_neg hidle]
    exact .refl s

omit hperform in
/-- A call that did not panic came to its end. -/
theorem isWhole_of_answered {α : Type} {f : α → CallAnswer} {call : Outcome α × Session}
    (h : (answered f call).1 ≠ .panicked) : call.1.isWhole = true := by
  rcases call with ⟨_ | _, t⟩
  · rfl
  · exact absurd rfl h

/-- A call that comes to its end leaves nobody running without a task. -/
theorem call_attended {c : Call} (hc : ¬c.IsWait) (h : (call perform c s).1 ≠ .panicked) :
    Attended s (call perform c s).2 := by
  have ordered (horder : c.IsOrder) : Attended s (call perform c s).2 := by
    obtain ⟨_, ⟨-, hattended⟩, hwhole⟩ :=
      Attended.steady.order hperform horder (fun _ _ => trivial) s
    exact hattended (hwhole h)
  have arranged (harrange : c.isArrangement = true) : Attended s (call perform c s).2 := by
    rcases arrange_cases harrange s with ⟨p, c', hcall⟩ | ⟨scene, -, hcall⟩
    · rw [hcall]
      exact fun p' hp' => .inl (by rwa [isRunning, status?_subscribe] at hp')
    · rw [hcall]
      exact .of_programs rfl
  cases c with
  | start | stop | play | stopCurrent | finishReached => exact ordered trivial
  | step d =>
    rw [snd_call_step]
    exact step_attended hperform d (isWhole_of_answered h)
  | reset => exact .of_programs rfl
  | subscribe | onMove | onStatus | onComplete | onWall | guard | dropScene => exact arranged rfl
  | advance | join | waitFinal | waitCurrent | watch | pollWatch | look => exact absurd trivial hc

omit hperform in
/-- A task that ends without a panic ends after a call that came to its end. -/
theorem isWhole_of_endStretch {p : ProgramId} {call : Outcome Unit × Session}
    (h : (endStretch p call).state ≠ .ended .panicked) : call.1.isWhole = true := by
  rcases call with ⟨_ | _, t⟩
  · rfl
  · exact absurd rfl h

omit hperform in
theorem session_endStretch (p : ProgramId) (call : Outcome Unit × Session) :
    (endStretch p call).session = call.2 := by
  rcases call with ⟨_ | _, t⟩ <;> rfl

/-- A stretch in which nothing panics leaves nobody running without a task. -/
theorem stretches_attended {p : ProgramId} {q : Program} {left : Nat} {r : Stretch}
    (hstretch : Stretches perform p q left s r) (h : r.state ≠ .ended .panicked) :
    Attended s r.session := by
  cases hstretch with
  | complete s =>
    rw [session_endStretch]
    exact finishProgram_attended hperform p (isWhole_of_endStretch h)
  | halted | missing => exact .of_programs rfl
  | panicked => exact absurd rfl h
  | @paused left _ _ a hrun ha hact =>
    have hattended := act_attended hperform (s := s) p (q.length - (left + 1)) a
    rw [hact] at hattended
    exact hattended rfl

/-- The stretch of a task leaves nobody running without a task, unless it panics. -/
theorem stretchOf?_attended {k : TaskId} {r : Stretch}
    (hr : stretchOf? perform k s = some r) (h : r.state ≠ .ended .panicked) :
    Attended s r.session := by
  obtain ⟨_, _, _, -, -, -, hstretch⟩ := stretchOf?_stretches hr
  exact stretches_attended hperform hstretch h

omit hperform in
theorem ending?_setTask {k : TaskId} {task : Task} (htask : s.tasks[k]? = some task)
    (how : Ending) : ending? k (s.setTask k (.ended how)) = some how := by
  unfold ending?
  rw [Session.setTask, Array.getElem?_modify, if_pos rfl, htask]
  rfl

/-- A turn that does not end its task with a panic leaves nobody running without a task. -/
theorem turn_attended (hsound : Sound s) {k : TaskId} {due : Nat}
    (h : ending? k (turn perform k due s) ≠ some .panicked) :
    Attended s (turn perform k due s) := by
  have hnow : Sound { s with now := max s.now due } := hsound.anytime _
  unfold turn at h ⊢
  rw [resume_eq] at h ⊢
  cases hr : stretchOf? perform k { s with now := max s.now due } with
  | none => exact .of_programs rfl
  | some r =>
    rw [hr] at h
    dsimp only at h ⊢
    obtain ⟨task, q, left, htask, -, -, -, hplays⟩ := hnow.stretch hperform.disciplined hr
    have hstate : r.state ≠ .ended .panicked := by
      intro hpanicked
      rw [hpanicked] at h
      exact h (ending?_setTask (hplays.recruits.getElem? htask) _)
    intro p hp
    obtain hbefore | hmanned := stretchOf?_attended hperform hr hstate p hp
    · exact .inl hbefore
    · exact .inr (hmanned.setTask k r.state)

end Calls

/-- A session, and the tasks that clients have called off. -/
structure Attendance where
  session : Session
  calledOff : List TaskId

namespace Attendance

variable (perform : Perform)

/-- Let something happen. A task that has been called off gets no turn any more. -/
def incur : Incident → Attendance → Attendance
  | .call c _, a => { a with session := (call perform c a.session).2 }
  | .turn k due, a =>
    if k ∈ a.calledOff then a else { a with session := turn perform k due a.session }
  | .callOff k, a => { a with calledOff := k :: a.calledOff }

/-- Let several things happen. -/
def incurAll (is : List Incident) (a : Attendance) : Attendance :=
  is.foldl (fun a i => incur perform i a) a

/-- Something is cut short by a panic: a call, or the turn of a task. -/
def CutShort : Incident → Attendance → Prop
  | .call c _, a => (call perform c a.session).1 = .panicked
  | .turn k due, a =>
    k ∉ a.calledOff ∧ ending? k (turn perform k due a.session) = some .panicked
  | .callOff _, _ => False

/-- A task plays a program: it has neither ended nor been called off. -/
def Played (a : Attendance) (p : ProgramId) : Prop :=
  ∃ (k : TaskId) (task : Task), a.session.tasks[k]? = some task ∧ task.program = p ∧
    (∀ how, task.state ≠ .ended how) ∧ k ∉ a.calledOff

theorem played_iff {a : Attendance} {p : ProgramId} :
    a.Played p ↔ ∃ k ∈ List.range a.session.tasks.size, ∃ task ∈ a.session.tasks[k]?,
      task.program = p ∧ task.state.due?.isSome = true ∧ k ∉ a.calledOff := by
  have hends (state : TaskState) : state.due?.isSome = true ↔ ∀ how, state ≠ .ended how := by
    cases state <;> simp [TaskState.due?]
  simp only [hends, List.mem_range, Option.mem_def]
  constructor
  · rintro ⟨k, task, htask, h⟩
    exact ⟨k, (Array.getElem?_eq_some_iff.mp htask).1, task, htask, h⟩
  · rintro ⟨k, -, task, htask, h⟩
    exact ⟨k, task, htask, h⟩

instance (a : Attendance) (p : ProgramId) : Decidable (a.Played p) :=
  decidable_of_iff _ played_iff.symm

/-- The task of a program has been ended by a panic, or it has been called off. -/
def Deserted (a : Attendance) (p : ProgramId) : Prop :=
  ∃ (k : TaskId) (task : Task), a.session.tasks[k]? = some task ∧ task.program = p ∧
    (task.state = .ended .panicked ∨ k ∈ a.calledOff)

/-- A program was claimed while something happened that a panic cut short, and no task has been
started for it. -/
def Stranded (is : List Incident) (a : Attendance) (p : ProgramId) : Prop :=
  ¬(incurAll perform is a).session.Manned p ∧
  ∃ before i after, is = before ++ i :: after ∧ CutShort perform i (incurAll perform before a) ∧
    ¬(incurAll perform before a).session.Claimed p ∧
    (incurAll perform (before ++ [i]) a).session.Claimed p

variable {perform} (hperform : perform.Attentive) {a : Attendance}

theorem incur_turn (k : TaskId) (due : Nat) (a : Attendance) :
    incur perform (.turn k due) a =
      if k ∈ a.calledOff then a else { a with session := turn perform k due a.session } := rfl

theorem incurAll_snoc (is : List Incident) (i : Incident) (a : Attendance) :
    incurAll perform (is ++ [i]) a = incur perform i (incurAll perform is a) :=
  List.foldl_append

include hperform

theorem incur_sound (i : Incident) (h : Sound a.session) :
    Sound (incur perform i a).session := by
  cases i with
  | call c acts => exact use_sound hperform.disciplined (.call c acts) h
  | turn k due =>
    rw [incur_turn]
    split
    · exact h
    · exact turn_sound hperform.disciplined k due h
  | callOff k => exact h

omit hperform in
/-- What happens to a session is a sequence of deeds. -/
theorem incur_deeds (i : Incident) :
    Deeds perform (fun _ => True) a.session (incur perform i a).session := by
  cases i with
  | call c acts => exact call_deeds trivial a.session
  | turn k due =>
    rw [incur_turn]
    split
    · exact .refl
    · exact turn_deeds k due a.session
  | callOff k => exact .refl

/-- What is not cut short leaves nobody running without a task. -/
theorem incur_attended (hsound : Sound a.session) {i : Incident} (h : ¬CutShort perform i a) :
    Attended a.session (incur perform i a).session := by
  cases i with
  | call c acts => exact call_attended hperform acts h
  | turn k due =>
    rw [incur_turn]
    split
    · exact .refl _
    · rename_i hon
      exact turn_attended hperform hsound fun hpanicked => h ⟨hon, hpanicked⟩
  | callOff k => exact .refl _

/-- A program that runs after something has happened ran before, or it has a task, or it was claimed
while that was cut short. -/
theorem incur_running (hsound : Sound a.session) {i : Incident} {p : ProgramId}
    (h : (incur perform i a).session.isRunning p = true) :
    a.session.isRunning p = true ∨ (incur perform i a).session.Manned p ∨
      CutShort perform i a ∧ ¬a.session.Claimed p ∧ (incur perform i a).session.Claimed p := by
  by_cases hcut : CutShort perform i a
  · by_cases hclaimed : a.session.Claimed p
    · have hlater : Later a.session (incur perform i a).session :=
        (incur_deeds i).keeps (P := Later a.session)
          (fun hd hs => hs.trans (hd.later hperform.disciplined.orderly)) (.refl _)
      by_cases hbefore : a.session.isRunning p = true
      · exact .inl hbefore
      · rw [hlater.halted hclaimed (by simpa using hbefore)] at h
        cases h
    · exact .inr (.inr ⟨hcut, hclaimed, .running, isRunning_iff.mp h, by decide⟩)
  · exact (incur_attended hperform hsound hcut p h).imp_right .inl

/-- Whatever has happened, a program that runs has a task, or it is stranded. -/
theorem incurAll_running (is : List Incident) (hsound : Sound a.session)
    (hidle : ∀ p, a.session.isRunning p = false) :
    Sound (incurAll perform is a).session ∧ ∀ p,
      (incurAll perform is a).session.isRunning p = true →
        (incurAll perform is a).session.Manned p ∨ Stranded perform is a p := by
  induction is using List.reverseRecOn with
  | nil => exact ⟨hsound, fun p hp => absurd ((hidle p).symm.trans hp) Bool.false_ne_true⟩
  | append_singleton is i ih =>
    obtain ⟨hbefore, ih⟩ := ih
    rw [incurAll_snoc]
    refine ⟨incur_sound hperform i hbefore, fun p hp => ?_⟩
    by_cases hmanned : (incur perform i (incurAll perform is a)).session.Manned p
    · exact .inl hmanned
    refine .inr ⟨by rwa [incurAll_snoc], ?_⟩
    obtain hran | hmanned' | ⟨hcut, hunclaimed, hclaimed⟩ := incur_running hperform hbefore hp
    · obtain hmanned' | ⟨-, before, i', after, rfl, hstranded⟩ := ih p hran
      · -- a task that there was is still there
        exact absurd ((incur_deeds i).keeps (P := fun u => u.Manned p)
          (fun hd hs => hd.manned hperform.disciplined.orderly hs) hmanned') hmanned
      · exact ⟨before, i', after ++ [i], by simp, hstranded⟩
    · exact absurd hmanned' hmanned
    · refine ⟨is, i, [], rfl, hcut, hunclaimed, ?_⟩
      rw [incurAll_snoc]
      exact hclaimed

omit hperform in
/-- Somebody plays a program that runs and has a task, unless that task has been ended by a panic or
called off: a task that has returned leaves a final status behind. -/
theorem played_or_deserted (hsound : Sound a.session) {p : ProgramId}
    (hmanned : a.session.Manned p) (hrunning : a.session.isRunning p = true) :
    a.Played p ∨ a.Deserted p := by
  obtain ⟨k, task, htask, rfl⟩ := hmanned
  by_cases hoff : k ∈ a.calledOff
  · exact .inr ⟨k, task, htask, rfl, .inr hoff⟩
  · cases hstate : task.state with
    | ready since => exact .inl ⟨k, task, htask, rfl, by simp [hstate], hoff⟩
    | asleep left wake => exact .inl ⟨k, task, htask, rfl, by simp [hstate], hoff⟩
    | ended how =>
      cases how with
      | panicked => exact .inr ⟨k, task, htask, rfl, .inl hstate⟩
      | returned status =>
        obtain ⟨hst, hfinal⟩ := (hsound.task htask).returned status hstate
        cases hst.symm.trans (isRunning_iff.mp hrunning)
        cases hfinal

end Attendance

/-- Nothing runs where nothing has been started yet. -/
theorem Fresh.isRunning {s : Session} (h : s.Fresh) (p : ProgramId) : s.isRunning p = false := by
  rw [← Bool.not_eq_true, isRunning_iff]
  intro hrunning
  obtain ⟨q, hq, hstatus⟩ := Option.map_eq_some_iff.mp hrunning
  cases (h.programs p q hq).1.symm.trans hstatus

open Attendance

/-- A running program has a task that plays it, unless a panic or a call to its handle has cut
something short; a returned task leaves the scene free. -/
theorem running_programs_are_played {depth : Nat} {s : Session} (fresh : s.Fresh)
    (is : List Incident) :
    let t := incurAll (performWithin depth) is ⟨s, []⟩
    (∀ p, t.session.isRunning p = true →
      t.Played p ∨ t.Deserted p ∨ Stranded (performWithin depth) is ⟨s, []⟩ p) ∧
    ∀ (k : TaskId) (task : Task) (status : Status), t.session.tasks[k]? = some task →
      task.state = .ended (.returned status) →
        status.isTerminal = true ∧ t.session.status? task.program = some status ∧
        (t.session.scene.slot = some task.program → ∀ source why,
          (play (performWithin depth) true source t.session).1 ≠ .value (.refused why)) := by
  have hperform := performWithin_attentive depth
  intro t
  have hidle (p : ProgramId) : s.isRunning p = false := fresh.isRunning p
  obtain ⟨hsound, hrunning⟩ := incurAll_running hperform (a := ⟨s, []⟩) is fresh.sound hidle
  refine ⟨fun p hp => ?_, fun k task status htask hstate => ?_⟩
  · obtain hmanned | hstranded := hrunning p hp
    · exact (played_or_deserted hsound hmanned hp).imp_right .inl
    · exact .inr (.inr hstranded)
  · obtain ⟨hst, hfinal⟩ := (hsound.task htask).returned status hstate
    have hidle : t.session.scene.slot = some task.program → ¬t.session.Busy := by
      rintro hslot ⟨p, hp, hrunning⟩
      cases hslot.symm.trans hp
      cases hst.symm.trans hrunning
      cases hfinal
    refine ⟨hfinal, hst, fun hslot source why hrefused => ?_⟩
    have hlaw := play_law hperform.disciplined.orderly true source t.session
    cases why with
    | programRunning => exact hidle hslot (hlaw.busy.mp hrefused).2
    | noRuntime => cases hlaw.outside.mp hrefused

/-- An observer that panics as soon as the robot moves to a cell. -/
def jumper (p : Position) : Callback Move where
  tag := "jumper"
  requests m := if m.target = p then [.panic] else []

/-- An observer that panics when a program begins to run. -/
def stutterer : Callback StatusNotice where
  tag := "stutterer"
  requests n := if n.new = .running then [.panic] else []

/-- A program plays one step and comes to its end. -/
def finishedIncidents : List Incident :=
  [.call (.play true "up(1)") id, .turn 0 0, .turn 0 500]

/-- Once its only task has returned, the scene accepts every text. -/
theorem returned_task_frees_the_scene : ∃ s, ofLevel .standard [jumper ⟨3, 4⟩] = .ok s ∧
    let t := incurAll (performWithin 1) finishedIncidents ⟨s, []⟩
    t.session.status? 0 = some .finished ∧
      ∀ source why, (play (performWithin 1) true source t.session).1 ≠ .value (.refused why) := by
  obtain ⟨s, hlevel, htask, hslot⟩ : ∃ s, ofLevel .standard [jumper ⟨3, 4⟩] = .ok s ∧
      (incurAll (performWithin 1) finishedIncidents ⟨s, []⟩).session.tasks[0]? =
        some ⟨0, .ended (.returned .finished), false⟩ ∧
      (incurAll (performWithin 1) finishedIncidents ⟨s, []⟩).session.scene.slot = some 0 :=
    ⟨_, rfl, by decide +kernel, by decide +kernel⟩
  obtain ⟨-, hreturned⟩ := @running_programs_are_played 1 _ (fresh_ofLevel hlevel) finishedIncidents
  obtain ⟨-, hfinished, haccepts⟩ := hreturned 0 _ .finished htask rfl
  exact ⟨s, hlevel, hfinished, haccepts hslot⟩

/-- Three ways to a program that runs although nobody plays it: an observer of moves panics within
the task, the task is called off, and a status observer panics before there is a task. -/
def desertions : List (List Incident) :=
  [[.call (.play true "left(1)") id, .turn 0 0],
    [.call (.play true "left(1)") id, .callOff 0],
    [.call (.onStatus stutterer) id, .call (.play true "left(1)") id]]

/-- After each of them the program runs, nobody plays it, and the scene refuses every text. -/
theorem deserted_program_blocks_the_scene : ∃ s, ofLevel .standard [jumper ⟨3, 4⟩] = .ok s ∧
    ∀ is ∈ desertions,
      let t := incurAll (performWithin 1) is ⟨s, []⟩
      t.session.isRunning 0 = true ∧ ¬t.Played 0 ∧
        (play (performWithin 1) true "left(1)" t.session).1 = .value (.refused .programRunning) :=
  ⟨_, rfl, by decide +kernel⟩

end Session

end GridPuzzle
