import GridPuzzle.Proofs.Session.Steady

/-!
# Histories of a session

A history is any finite sequence of calls of a client and turns of tasks, in any order: a turn may
come before its time, and tasks of stopped programs get their turns like others. Every history is a
sequence of deeds, one for each thing that the library does between two points where a task may be
suspended. What holds at first and is kept by every deed holds after every history.
-/

namespace GridPuzzle

/-- A call that changes who is subscribed, or lets go of the scene. -/
def Call.isArrangement : Call → Bool
  | .subscribe _ _ | .onMove _ | .onStatus _ | .onComplete _ | .onWall _ => true
  | .guard _ | .dropScene => true
  | _ => false

/-- A call that only waits or looks: it gives tasks their turns at most. -/
def Call.IsWait : Call → Prop
  | .advance _ | .join _ _ | .waitFinal _ _ | .waitCurrent _ => True
  | .watch _ | .pollWatch | .look => True
  | _ => False

/-- A call in which a client asks for what the callbacks of the library may bring about as well. -/
def Call.IsOrder : Call → Prop
  | .start _ _ | .stop _ | .play _ _ | .stopCurrent | .finishReached _ => True
  | _ => False

/-- One thing that happens in a session. -/
inductive Happening
  /-- A client does something. -/
  | call (c : Call)
  /-- A task gets a turn, while the clock has reached a time. -/
  | turn (k : TaskId) (due : Nat)

/-- Whether a happening is a turn, or a call of a given kind. -/
def Happening.Allowed (allowed : Call → Prop) : Happening → Prop
  | .call c => allowed c
  | .turn _ _ => True

/-- Whether a happening is a turn of a given task. -/
def Happening.isTurnOf (k : TaskId) : Happening → Bool
  | .call _ => false
  | .turn j _ => j == k

namespace Session

variable (perform : Perform)

/-- Let one thing happen. -/
def happen : Happening → Session → Session
  | .call c, s => (call perform c s).2
  | .turn k due, s => turn perform k due s

/-- The answer to one thing that happens, and the session after it; a turn has no answer. -/
def respond : Happening → Session → CallAnswer × Session
  | .call c, s => call perform c s
  | .turn k due, s => (.none, turn perform k due s)

theorem respond_call (c : Call) (s : Session) : respond perform (.call c) s = call perform c s :=
  rfl

/-- What happens does not depend on whether somebody looks at the answer. -/
theorem happen_eq_respond (h : Happening) (s : Session) :
    happen perform h s = (respond perform h s).2 := by
  cases h <;> rfl

/-- The session after a history. -/
def after (hs : List Happening) (s : Session) : Session :=
  hs.foldl (fun s h => happen perform h s) s

@[simp] theorem after_nil (s : Session) : after perform [] s = s := rfl

@[simp] theorem after_cons (h : Happening) (hs : List Happening) (s : Session) :
    after perform (h :: hs) s = after perform hs (happen perform h s) := rfl

/-- The sessions that histories of some calls lead to, from the session of a playable level on. -/
def Reached (allowed : Call → Prop) (l : Level) (observers : List (Callback Move))
    (t : Session) : Prop :=
  ∃ s hs, ofLevel l observers = .ok s ∧ (∀ h ∈ hs, h.Allowed allowed) ∧ after perform hs s = t

/-- One thing that the library does on its own or for a client. -/
inductive Deed (allowed : Call → Prop) : Session → Session → Prop
  | note (s : Session) (r : Remark) : Deed allowed s (note r s)
  | clock (s : Session) (time : Nat) : Deed allowed s { s with now := time }
  | task (s : Session) (k : TaskId) (state : TaskState) : Deed allowed s (s.setTask k state)
  | joined (s : Session) (k : TaskId) :
      Deed allowed s { s with tasks := s.tasks.modify k fun t => { t with joined := true } }
  | receivers (s : Session) (rs : Array Receiver) : Deed allowed s { s with receivers := rs }
  | reset (s : Session) : Deed allowed s (reset s)
  | step (s : Session) (d : Direction) : Deed allowed s (step perform d s).2
  | start (s : Session) (inRuntime : Bool) (p : ProgramId) :
      Deed allowed s (start perform inRuntime p s).2
  | stop (s : Session) (p : ProgramId) : Deed allowed s (stop perform p s).2
  | play (s : Session) (inRuntime : Bool) (source : String) :
      Deed allowed s (play perform inRuntime source s).2
  | finishReached (s : Session) (p : Position) : Deed allowed s (finishReached perform p s).2
  | finish (s : Session) (p : ProgramId) : Deed allowed s (finishProgram perform p s).2
  | script {s : Session} {p : ProgramId} {q : Program} (index : Nat) {name : String}
      {requests : List Request} (hq : s.programs[p]? = some q)
      (ha : Action.script name requests ∈ q.actions) :
      Deed allowed s (performAll perform requests (s.record (.action p index name))).2
  | arrange (s : Session) {c : Call} (hc : c.isArrangement = true) (ha : allowed c) :
      Deed allowed s (call perform c s).2

/-- One thing that comes to pass while everybody waits. -/
inductive Beat : Session → Session → Prop
  | turn (s : Session) (k : TaskId) (due : Nat) : Beat s (turn perform k due s)
  | clock (s : Session) (time : Nat) : Beat s { s with now := time }
  | joined (s : Session) (k : TaskId) :
      Beat s { s with tasks := s.tasks.modify k fun t => { t with joined := true } }
  | receivers (s : Session) (rs : Array Receiver) : Beat s { s with receivers := rs }

/-- A session that waiting leads to. -/
abbrev Beats : Session → Session → Prop := Relation.ReflTransGen (Beat perform)

/-- A session that some sequence of deeds leads to. -/
abbrev Deeds (allowed : Call → Prop) : Session → Session → Prop :=
  Relation.ReflTransGen (Deed perform allowed)

/-- A relation between sessions that bears whatever happens while everybody waits: the pieces of a
turn, each from one point where the task looks at its program to the next, and the clock. -/
structure Paced (R : Session → Session → Prop) : Prop where
  refl : ∀ s, R s s
  trans : ∀ {s t u}, R s t → R t u → R s u
  skipped : ∀ s step total, R s (note (.skipped step total) s)
  stoppedAfter : ∀ s step total, R s (note (.stoppedAfter step total) s)
  act : ∀ {s : Session} {p : ProgramId} {q : Program} (index : Nat) {a : Action},
    s.programs[p]? = some q → a ∈ q.actions → R s (act perform p index a s).2
  finish : ∀ s p, R s (finishProgram perform p s).2
  task : ∀ (s : Session) k state, R s (s.setTask k state)
  clock : ∀ (s : Session) time, R s { s with now := time }
  joined : ∀ (s : Session) (k : TaskId),
    R s { s with tasks := s.tasks.modify k fun t => { t with joined := true } }
  receivers : ∀ (s : Session) rs, R s { s with receivers := rs }

variable {perform} {allowed : Call → Prop}

/-- What every deed keeps, any sequence of them keeps. -/
theorem Deeds.keeps {P : Session → Prop}
    (hP : ∀ {s t}, Deed perform allowed s t → P s → P t) {s t : Session}
    (h : Deeds perform allowed s t) (hs : P s) : P t := by
  induction h with
  | refl => exact hs
  | tail _ hd ih => exact hP hd ih

/-- Only remarks, the clock, the progress of tasks and the followers of a status differ. -/
structure Aside (s t : Session) : Prop where
  scene : t.scene = s.scene
  programs : t.programs = s.programs
  events : t.events = s.events
  tasks : t.tasks.map Task.program = s.tasks.map Task.program
  timer : t.timer = s.timer

/-- A change of one task that keeps its program is made aside. -/
theorem aside_modify (s : Session) (k : TaskId) {f : Task → Task}
    (hf : ∀ task, (f task).program = task.program) :
    Aside s { s with tasks := s.tasks.modify k f } := by
  refine ⟨rfl, rfl, rfl, ?_, rfl⟩
  apply Array.ext_getElem?
  intro j
  rw [Array.getElem?_map, Array.getElem?_map, Array.getElem?_modify]
  split
  · cases s.tasks[j]? with
    | none => rfl
    | some task => exact congrArg some (hf task)
  · rfl

section Waiting

theorem settle_beats (limit turns : Nat) (s : Session) :
    Beats perform s (settle perform limit turns s) := by
  induction turns generalizing s with
  | zero => exact .refl
  | succ turns ih =>
    unfold settle
    split
    · split
      · exact .head (.turn s _ _) (ih _)
      · exact .refl
    · exact .refl

theorem passUntil_beats (time : Nat) (s : Session) :
    Beats perform s (passUntil perform time s) := by
  have hsettle : Beats perform s (settle perform time s.turnBudget s) :=
    settle_beats time s.turnBudget s
  unfold passUntil
  exact hsettle.tail (.clock _ _)

theorem waitFor_beats {α : Type} (done? : Session → Option α) (limit turns : Nat) (s : Session) :
    Beats perform s (waitFor perform done? limit turns s).2 := by
  induction turns generalizing s with
  | zero => exact .refl
  | succ turns ih =>
    unfold waitFor
    split
    · exact .refl
    · split
      · split
        · exact .head (.turn s _ _) (ih _)
        · exact .refl
      · exact .refl

theorem await_beats {α : Type} (done? : Session → Option α) (ms : Nat) (s : Session) :
    Beats perform s (await perform done? ms s).2 := by
  have hwait : Beats perform s (waitFor perform done? (s.now + ms) s.turnBudget s).2 :=
    waitFor_beats done? (s.now + ms) s.turnBudget s
  unfold await
  generalize waitFor perform done? (s.now + ms) s.turnBudget s = waited at hwait ⊢
  rcases waited with ⟨answer, t⟩
  cases answer with
  | some a => exact hwait.trans (passUntil_beats _ t)
  | none => exact hwait.trans (passUntil_beats _ t)

theorem waitFinal_beats (p : ProgramId) (ms : Nat) (s : Session) :
    Beats perform s (waitFinal perform p ms s).2 := by
  have hawait : Beats perform s (await perform (final? p) ms s).2 := await_beats (final? p) ms s
  unfold waitFinal
  generalize await perform (final? p) ms s = waited at hawait ⊢
  rcases waited with ⟨answer, t⟩
  cases answer <;> exact hawait

theorem join_beats (k : TaskId) (ms : Nat) (s : Session) :
    Beats perform s (join perform k ms s).2 := by
  have hawait : Beats perform s (await perform (ending? k) ms s).2 := await_beats (ending? k) ms s
  unfold join
  split
  · generalize await perform (ending? k) ms s = waited at hawait ⊢
    rcases waited with ⟨answer, t⟩
    cases answer with
    | some how => exact hawait.tail (.joined t k)
    | none => exact hawait
  · exact .refl

/-- A call that waits lets time pass and tasks have their turns, and does nothing else. -/
theorem call_beats {c : Call} (hc : c.IsWait) (s : Session) :
    Beats perform s (call perform c s).2 := by
  cases c with
  | advance ms => exact passUntil_beats _ s
  | join k ms => exact join_beats k ms s
  | waitFinal p ms => exact waitFinal_beats p ms s
  | waitCurrent ms =>
    change Beats perform s (waitCurrent perform ms s).2
    unfold waitCurrent
    split
    · exact waitFinal_beats _ ms s
    · exact .refl
  | watch p => exact .single (.receivers s _)
  | pollWatch => exact .single (.receivers s _)
  | look => exact .refl
  | _ => cases hc

end Waiting

/-- What an arrangement may change of a scene: guards are added, and others may be told. -/
structure Rearranged (old new : Scene) : Prop where
  position : new.position = old.position
  start : new.start = old.start
  slot : new.slot = old.slot
  complete : new.complete = old.complete
  guards : old.guards ⊆ new.guards

/-- An arrangement subscribes somebody to a program, or it changes the scene only. -/
theorem arrange_cases {c : Call} (hc : c.isArrangement = true) (s : Session) :
    (∃ p c', (call perform c s).2 = s.subscribe p c') ∨
      ∃ scene, Rearranged s.scene scene ∧ (call perform c s).2 = { s with scene := scene } := by
  have hscene (h : Rearranged s.scene (call perform c s).2.scene)
      (hrest : (call perform c s).2 = { s with scene := (call perform c s).2.scene }) :
      ∃ scene, Rearranged s.scene scene ∧ (call perform c s).2 = { s with scene := scene } :=
    ⟨_, h, hrest⟩
  cases c with
  | subscribe p c => exact .inl ⟨p, c, rfl⟩
  | guard verdict =>
    exact .inr (hscene ⟨rfl, rfl, rfl, rfl, List.subset_append_left _ _⟩ rfl)
  | onMove | onStatus | onComplete | onWall | dropScene =>
    exact .inr (hscene ⟨rfl, rfl, rfl, rfl, List.Subset.refl _⟩ rfl)
  | _ => cases hc

/-- An answer leaves the session as the call has left it. -/
theorem snd_answered {α : Type} (f : α → CallAnswer) (call : Outcome α × Session) :
    (answered f call).2 = call.2 := by
  rcases call with ⟨_ | _, t⟩ <;> rfl

/-! A call leaves what the function behind it leaves, whether that comes to its end or panics. -/

section Left

variable (perform : Perform)

theorem snd_call_start (inRuntime : Bool) (p : ProgramId) (s : Session) :
    (call perform (.start inRuntime p) s).2 = (start perform inRuntime p s).2 :=
  snd_answered _ _

theorem snd_call_stop (p : ProgramId) (s : Session) :
    (call perform (.stop p) s).2 = (stop perform p s).2 :=
  snd_answered _ _

theorem call_play (inRuntime : Bool) (source : String) (s : Session) :
    call perform (.play inRuntime source) s = answered .played (play perform inRuntime source s) :=
  rfl

theorem snd_call_play (inRuntime : Bool) (source : String) (s : Session) :
    (call perform (.play inRuntime source) s).2 = (play perform inRuntime source s).2 :=
  snd_answered _ _

theorem snd_call_stopCurrent (s : Session) :
    (call perform .stopCurrent s).2 = (stopCurrent perform s).2 :=
  snd_answered _ _

theorem snd_call_step (d : Direction) (s : Session) :
    (call perform (.step d) s).2 = (step perform d s).2 :=
  snd_answered _ _

theorem snd_call_finishReached (p : Position) (s : Session) :
    (call perform (.finishReached p) s).2 = (finishReached perform p s).2 :=
  snd_answered _ _

/-- An order stays within a steady relation, and nothing but a panic cuts it short. -/
theorem Steady.order {perform : Perform} {allowed : Request → Prop}
    {R : Bool → Session → Session → Prop} (hR : Steady allowed R)
    (hperform : perform.Within allowed R) {c : Call} (hc : c.IsOrder)
    (hstop : ∀ p, c = .stop p → allowed (.stop p)) (s : Session) :
    ∃ whole, R whole s (call perform c s).2 ∧
      ((call perform c s).1 ≠ .panicked → whole = true) := by
  have of_answered {α : Type} {f : α → CallAnswer} {call : Outcome α × Session}
      (h : R call.1.isWhole s call.2) : ∃ whole, R whole s (answered f call).2 ∧
        ((answered f call).1 ≠ .panicked → whole = true) := by
    rcases call with ⟨_ | _, t⟩
    · exact ⟨true, h, fun _ => rfl⟩
    · exact ⟨false, h, fun hpanicked => absurd rfl hpanicked⟩
  cases c with
  | start inRuntime p => exact of_answered (hR.start hperform inRuntime p s)
  | stop p => exact of_answered (hR.stop hperform (hstop p rfl) s)
  | play inRuntime source => exact of_answered (hR.play hperform inRuntime source s)
  | stopCurrent => exact of_answered (hR.stopCurrent hperform s)
  | finishReached p => exact of_answered (hR.finishReached hperform p s)
  | _ => cases hc

end Left

section Cases

variable (hperform : perform.Orderly)

include hperform

theorem finishProgram_changes (p : ProgramId) (s : Session) :
    Changes s (finishProgram perform p s).2 := by
  unfold finishProgram
  split
  · rename_i hrun
    exact .head (.finish hrun) (Changes.steady.announce hperform _ _ _ _)
  · exact .refl

/-- What a deed can be: a sequence of primitive changes, something aside, a reset, a step of the
robot, or an arrangement. -/
theorem deed_cases {s t : Session} (h : Deed perform allowed s t) :
    Changes s t ∨ Aside s t ∨ t = reset s ∨ (∃ d, t = (step perform d s).2) ∨
      ∃ c, c.isArrangement = true ∧ allowed c ∧ t = (call perform c s).2 := by
  cases h with
  | note r => exact .inl (.single (.note s r))
  | clock | receivers => exact .inr (.inl ⟨rfl, rfl, rfl, rfl, rfl⟩)
  | task k state => exact .inr (.inl (aside_modify s k fun _ => rfl))
  | joined k => exact .inr (.inl (aside_modify s k fun _ => rfl))
  | reset => exact .inr (.inr (.inl rfl))
  | step d => exact .inr (.inr (.inr (.inl ⟨d, rfl⟩)))
  | start inRuntime p => exact .inl (Changes.steady.start hperform inRuntime p s)
  | stop p => exact .inl (Changes.steady.stop hperform trivial s)
  | play inRuntime source => exact .inl (Changes.steady.play hperform inRuntime source s)
  | finishReached p => exact .inl (Changes.steady.finishReached hperform p s)
  | finish p => exact .inl (finishProgram_changes hperform p s)
  | script index hq ha =>
    exact .inl (Changes.steady.script hperform _ index _ (fun _ _ => trivial) s)
  | arrange hc ha => exact .inr (.inr (.inr (.inr ⟨_, hc, ha, rfl⟩)))

/-- What primitive changes keep, and what is made aside, new places of the robot and arrangements,
every deed keeps. -/
theorem Deed.keeps {P : Session → Prop} (hchange : ∀ {s t}, Change s t → P s → P t)
    (haside : ∀ {s t}, Aside s t → P s → P t)
    (hmove : ∀ {s : Session} (p : Position), P s → P { s with scene.position := p })
    (harrange : ∀ {s c}, c.isArrangement = true → allowed c → P s → P (call perform c s).2)
    {s t : Session} (h : Deed perform allowed s t) (hs : P s) : P t := by
  rcases deed_cases hperform h with hc | ha | rfl | ⟨d, rfl⟩ | ⟨c, hc, hallowed, rfl⟩
  · exact hc.keeps hchange hs
  · exact haside ha hs
  · exact hmove _ hs
  · exact step_keeps hperform hchange hmove d hs
  · exact harrange hc hallowed hs

end Cases

section Sequences

/-- A command changes a session as the step of the robot does. -/
theorem act_command (p : ProgramId) (index : Nat) (d : Direction) (s : Session) :
    (act perform p index (.command d) s).2 = (step perform d s).2 := by
  unfold act
  dsimp only
  rcases step perform d s with ⟨answer, t⟩
  cases answer <;> rfl

/-- What every change keeps, and every move of the robot, is kept while an action is played. -/
theorem act_keeps (hperform : perform.Orderly) {P : Session → Prop}
    (hchange : ∀ {s t}, Change s t → P s → P t)
    (hmove : ∀ {s : Session} (p : Position), P s → P { s with scene.position := p })
    (p : ProgramId) (index : Nat) (a : Action) {s : Session} (hs : P s) :
    P (act perform p index a s).2 := by
  cases a with
  | command d =>
    rw [act_command]
    exact step_keeps hperform hchange hmove d hs
  | script name requests =>
    have hchanges : Changes s (act perform p index (.script name requests) s).2 :=
      Changes.steady.script hperform p index name (fun _ _ => trivial) s
    exact hchanges.keeps hchange hs

/-- What happens while everybody waits is a sequence of deeds. -/
theorem paced_deeds : Paced perform (Deeds perform allowed) where
  refl _ := .refl
  trans := Relation.ReflTransGen.trans
  skipped s _ _ := .single (.note s _)
  stoppedAfter s _ _ := .single (.note s _)
  act {s p q} index {a} hq ha := by
    cases a with
    | command d =>
      rw [act_command]
      exact .single (.step s d)
    | script name requests => exact .single (.script index hq ha)
  finish s p := .single (.finish s p)
  task s k state := .single (.task s k state)
  clock s time := .single (.clock s time)
  joined s k := .single (.joined s k)
  receivers s rs := .single (.receivers s rs)

namespace Paced

variable {R : Session → Session → Prop} (hR : Paced perform R)

include hR

theorem endTask (k : TaskId) (p : ProgramId) {s : Session} {call : Outcome Unit × Session}
    (h : R s call.2) : R s (endTask k p call) := by
  rcases call with ⟨answer, t⟩
  cases answer <;> exact hR.trans h (hR.task t k _)

/-- A turn that goes on with a program. -/
theorem playOn (k : TaskId) {p : ProgramId} {q : Program} (left : Nat) {s : Session}
    (hq : s.Has p q) : R s (playOn perform (Session.act perform) k p q left s) := by
  cases left with
  | zero => exact hR.endTask k p (hR.finish s p)
  | succ left =>
    unfold Session.playOn
    dsimp only
    split
    · split
      · exact hR.endTask k p (hR.refl s)
      · rename_i a ha
        -- the turn goes on with the actions that it has read at its begin
        obtain ⟨q', hq', -, hactions, -⟩ := hq
        have hmem : a ∈ q'.actions := by
          rw [hactions]
          exact Array.mem_of_getElem? ha
        have hact : R s (Session.act perform p (q.length - (left + 1)) a s).2 :=
          hR.act _ hq' hmem
        split
        · rename_i t ht
          rw [ht] at hact
          exact hR.endTask k p hact
        · rename_i t ht
          rw [ht] at hact
          exact hR.trans hact (hR.task t k _)
    · exact hR.endTask k p (hR.skipped s _ _)

theorem resume (k : TaskId) (s : Session) : R s (resume perform k s) := by
  unfold Session.resume resumeBy
  split
  · exact hR.refl s
  · split
    · exact hR.refl s
    · rename_i q hq
      split
      · exact hR.playOn k q.length ⟨q, hq, rfl, rfl, rfl⟩
      · split
        · exact hR.playOn k _ ⟨q, hq, rfl, rfl, rfl⟩
        · exact hR.endTask k _ (hR.stoppedAfter s _ _)
      · exact hR.refl s

theorem turn (k : TaskId) (due : Nat) (s : Session) : R s (turn perform k due s) :=
  hR.trans (hR.clock s _) (hR.resume k _)

/-- Whatever comes to pass in time. -/
theorem beats {s t : Session} (h : Beats perform s t) : R s t := by
  induction h with
  | refl => exact hR.refl s
  | tail _ hb ih =>
    cases hb with
    | turn k due => exact hR.trans ih (hR.turn k due _)
    | clock time => exact hR.trans ih (hR.clock _ time)
    | joined k => exact hR.trans ih (hR.joined _ k)
    | receivers rs => exact hR.trans ih (hR.receivers _ rs)

/-- A call that waits. -/
theorem wait {c : Call} (hc : c.IsWait) (s : Session) : R s (call perform c s).2 :=
  hR.beats (call_beats hc s)

end Paced

theorem turn_deeds (k : TaskId) (due : Nat) (s : Session) :
    Deeds perform allowed s (turn perform k due s) := paced_deeds.turn k due s

theorem answered_deeds {α : Type} (f : α → CallAnswer) {s : Session}
    {call : Outcome α × Session} (h : Deeds perform allowed s call.2) :
    Deeds perform allowed s (answered f call).2 := by
  rw [snd_answered]
  exact h

/-- Every call is a sequence of deeds. -/
theorem call_deeds {c : Call} (hc : allowed c) (s : Session) :
    Deeds perform allowed s (call perform c s).2 := by
  cases c with
  | advance | join | waitFinal | waitCurrent | watch | pollWatch | look =>
    exact paced_deeds.wait (by trivial) s
  | start inRuntime p => exact answered_deeds _ (.single (.start s inRuntime p))
  | stop p => exact answered_deeds _ (.single (.stop s p))
  | play inRuntime source => exact answered_deeds _ (.single (.play s inRuntime source))
  | stopCurrent =>
    refine answered_deeds _ ?_
    unfold stopCurrent
    split
    · exact .single (.stop s _)
    · exact .refl
  | step d => exact answered_deeds _ (.single (.step s d))
  | reset => exact .single (.reset s)
  | finishReached p => exact answered_deeds _ (.single (.finishReached s p))
  | subscribe | onMove | onStatus | onComplete | onWall | guard | dropScene =>
    exact .single (.arrange s rfl hc)

/-- Every history is a sequence of deeds. -/
theorem after_deeds {hs : List Happening} (hall : ∀ h ∈ hs, h.Allowed allowed) (s : Session) :
    Deeds perform allowed s (after perform hs s) := by
  induction hs generalizing s with
  | nil => exact .refl
  | cons h rest ih =>
    have hhappen : Deeds perform allowed s (happen perform h s) := by
      have hallowed := hall h List.mem_cons_self
      cases h with
      | call c => exact call_deeds hallowed s
      | turn k due => exact turn_deeds k due s
    rw [after_cons]
    exact hhappen.trans (ih (fun h' hmem => hall h' (List.mem_cons_of_mem _ hmem)) _)

/-- What the session of a level has and every deed keeps, every session reached has. -/
theorem Reached.keeps {P : Session → Prop} (hP : ∀ {s t}, Deed perform allowed s t → P s → P t)
    {l : Level} {observers : List (Callback Move)}
    (hstart : ∀ s, ofLevel l observers = .ok s → P s) {t : Session}
    (h : Reached perform allowed l observers t) : P t := by
  obtain ⟨s, hs, hlevel, hall, rfl⟩ := h
  exact (after_deeds hall s).keeps hP (hstart s hlevel)

end Sequences

end Session

end GridPuzzle
