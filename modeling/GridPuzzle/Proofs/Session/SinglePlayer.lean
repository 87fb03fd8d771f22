import GridPuzzle.Proofs.Session.History

/-!
# One program at a time

Of all programs that a scene has accepted at most one runs, and it is the one in the slot. The
claim of a program, its announcement and the start of its task are separate steps between which
callbacks may ask for anything, so the invariant is kept by every primitive change: a program is
pushed already claimed, and only where nothing plays. Since no accepted program can be claimed a
second time, a client that starts one gets no task, and a task whose program has been stopped finds
it so at every turn.
-/

namespace GridPuzzle

/-- A program is accepted claimed or empty, so it can never be claimed again. -/
theorem Program.isClaimable_claimed (q : Program) : q.claimed.isClaimable = false := by
  unfold Program.claimed
  split
  · rename_i hempty
    simp [Program.isClaimable, hempty]
  · simp [Program.isClaimable, Program.become]

namespace Session

/-- At most one program runs, which is the one in the slot, and no program can be started by its
handle. -/
structure OnePlayer (s : Session) : Prop where
  slot : ∀ p, s.isRunning p = true → s.scene.slot = some p
  started : ∀ (p : ProgramId) (q : Program), s.programs[p]? = some q → q.isClaimable = false

/-- Only programs and slot decide who plays. -/
theorem OnePlayer.congr {s t : Session} (h : OnePlayer s) (hprograms : t.programs = s.programs)
    (hslot : t.scene.slot = s.scene.slot) : OnePlayer t := by
  refine ⟨fun p hp => ?_, fun p q hq => ?_⟩
  · rw [isRunning_congr hprograms] at hp
    exact hslot.trans (h.slot p hp)
  · rw [hprograms] at hq
    exact h.started p q hq

/-- A session of a level begins without any program. -/
theorem onePlayer_ofLevel {l : Level} {observers : List (Callback Move)} {s : Session}
    (h : ofLevel l observers = .ok s) : OnePlayer s := by
  unfold ofLevel at h
  split at h
  · cases h
  · cases h
    exact ⟨nofun, nofun⟩

/-- A program that moves on to a final status leaves the others as they are. -/
theorem OnePlayer.setStatus {s : Session} (h : OnePlayer s) (p : ProgramId) {status : Status}
    (hfinal : status.isTerminal = true) : OnePlayer (s.setStatus p status) := by
  refine ⟨fun p' hp' => ?_, fun p' q hq => ?_⟩
  · rw [isRunning_iff, status?_setStatus] at hp'
    split at hp'
    · obtain ⟨_, _, rfl⟩ := Option.map_eq_some_iff.mp hp'
      cases hfinal
    · exact h.slot p' (isRunning_iff.mpr hp')
  · simp only [Session.setStatus, Array.getElem?_modify] at hq
    split at hq
    · obtain ⟨q', _, rfl⟩ := Option.map_eq_some_iff.mp hq
      have hne : status ≠ .stopped := by
        rintro rfl
        cases hfinal
      simp [Program.isClaimable, Program.become, hne]
    · exact h.started p' q hq

/-- A subscription changes neither who runs nor who can be started. -/
theorem OnePlayer.subscribe {s : Session} (h : OnePlayer s) (p : ProgramId)
    (c : Callback StatusNotice) : OnePlayer (s.subscribe p c) := by
  refine ⟨fun p' hp' => ?_, fun p' q hq => ?_⟩
  · rw [isRunning_iff, status?_subscribe] at hp'
    exact h.slot p' (isRunning_iff.mpr hp')
  · simp only [Session.subscribe, Array.getElem?_modify] at hq
    split at hq
    · obtain ⟨q', hq', rfl⟩ := Option.map_eq_some_iff.mp hq
      exact h.started p' q' hq'
    · exact h.started p' q hq

/-- A scene that plays nothing may accept a program: it is the only one that runs, if it does. -/
theorem OnePlayer.accepted {s : Session} (h : OnePlayer s) (source : String)
    (hidle : s.isPlaying = false) : OnePlayer (s.accepted source) := by
  refine ⟨fun p hp => ?_, fun p q hq => ?_⟩
  · rw [isRunning_iff, status?_accepted] at hp
    split at hp
    · rename_i hnew
      rw [hnew]
      rfl
    · -- another running program would be in the slot, and the scene would be playing
      have hrunning := isRunning_iff.mpr hp
      have hplaying : s.isPlaying = true := isPlaying_iff.mpr ⟨p, h.slot p hrunning, hrunning⟩
      rw [hidle] at hplaying
      cases hplaying
  · simp only [Session.accepted, Array.getElem?_push] at hq
    split at hq
    · cases hq
      exact Program.isClaimable_claimed _
    · exact h.started p q hq

/-- Every primitive change keeps the invariant. -/
theorem Change.onePlayer {s t : Session} (hc : Change s t) (h : OnePlayer s) : OnePlayer t := by
  cases hc with
  | abort hold hopen => exact h.setStatus _ rfl
  | finish hrun => exact h.setStatus _ rfl
  | claim hq hclaim =>
    rw [h.started _ _ hq] at hclaim
    cases hclaim
  | accept source hidle => exact h.accepted source hidle
  | follow p tag => exact h.subscribe p _
  | note | record | tell | witness | spawn | complete => exact h.congr rfl rfl

/-- A final status is a status, and a final one. -/
theorem final?_eq_some {s : Session} {p : ProgramId} {status : Status} :
    final? p s = some status ↔ s.status? p = some status ∧ status.isTerminal = true := by
  unfold final?
  cases s.status? p with
  | none => simp
  | some old =>
    simp only [Option.bind_some, Option.some.injEq]
    split
    · rename_i hold
      constructor
      · intro h
        cases h
        exact ⟨rfl, hold⟩
      · rintro ⟨rfl, -⟩
        rfl
    · rename_i hold
      constructor
      · exact nofun
      · rintro ⟨rfl, hfinal⟩
        exact absurd hfinal hold

/-- A program with a final status does not run. -/
theorem isRunning_of_final? {s : Session} {p : ProgramId} {status : Status}
    (h : final? p s = some status) : s.isRunning p = false := by
  obtain ⟨hst, hfinal⟩ := final?_eq_some.mp h
  cases hrun : s.isRunning p with
  | false => rfl
  | true =>
    rw [isRunning_iff, hst] at hrun
    cases hrun
    cases hfinal

/-- To set the state that a task has changes nothing. -/
theorem setTask_self {s : Session} {k : TaskId} {task : Task} (htask : s.tasks[k]? = some task) :
    s.setTask k task.state = s := by
  have htasks : s.tasks.modify k (fun t => { t with state := task.state }) = s.tasks := by
    apply Array.ext_getElem?
    intro j
    rw [Array.getElem?_modify]
    split
    · rename_i hj
      rw [← hj, htask]
      rfl
    · rfl
  unfold setTask
  rw [htasks]

section Play

variable {perform : Perform} (hperform : perform.Orderly)

include hperform

/-- Every deed keeps the invariant. -/
theorem Deed.onePlayer {allowed : Call → Prop} {s t : Session} (hd : Deed perform allowed s t)
    (h : OnePlayer s) : OnePlayer t := by
  refine hd.keeps hperform Change.onePlayer ?_ (fun _ h => h.congr rfl rfl) ?_ h
  · intro s t ha h
    exact h.congr ha.programs (by rw [ha.scene])
  · intro s c hc _ h
    rcases arrange_cases hc s with ⟨p, c', hcall⟩ | ⟨scene, hscene, hcall⟩
    · rw [hcall]
      exact h.subscribe p c'
    · rw [hcall]
      exact h.congr rfl hscene.slot

/-- A final status is kept by every deed. -/
theorem Deed.final {allowed : Call → Prop} {s t : Session} (hd : Deed perform allowed s t)
    {p : ProgramId} {status : Status} (h : final? p s = some status) :
    final? p t = some status := by
  obtain ⟨hst, hfinal⟩ := final?_eq_some.mp h
  refine final?_eq_some.mpr ⟨?_, hfinal⟩
  refine hd.keeps (P := fun s => s.status? p = some status) hperform
    (fun hc hst => hc.final hst hfinal) ?_ (fun _ hst => hst) ?_ hst
  · intro s t ha hst
    exact (status?_congr ha.programs p).trans hst
  · intro s c hc _ hst
    rcases arrange_cases hc s with ⟨p', c', hcall⟩ | ⟨scene, -, hcall⟩
    · rw [hcall]
      exact (status?_subscribe s p' p c').trans hst
    · rw [hcall]
      exact hst

omit hperform in
/-- A client that starts a program gets no task, and changes nothing. -/
theorem OnePlayer.start_eq {s : Session} (h : OnePlayer s) (inRuntime : Bool) (p : ProgramId) :
    ∃ remarks, start perform inRuntime p s = (.value none, { s with remarks := remarks }) := by
  unfold start
  cases inRuntime with
  | false => exact ⟨_, rfl⟩
  | true =>
    rcases claim_cases p s with hclaim | ⟨r, hclaim⟩ | ⟨q, hq, hclaimable, hclaim⟩
    · rw [hclaim]
      exact ⟨_, rfl⟩
    · rw [hclaim]
      exact ⟨_, rfl⟩
    · rw [h.started p q hq] at hclaimable
      cases hclaimable

omit hperform in
/-- A turn invokes an action only while its program runs and is in the slot: two ways to play
actions that agree there make the same turn. -/
theorem playOn_agree {other : Invoke}
    (hother : ∀ p index a u, u.isRunning p = true → u.scene.slot = some p →
      other p index a u = act perform p index a u)
    (k : TaskId) (p : ProgramId) (q : Program) (left : Nat) {s : Session} (h : OnePlayer s) :
    playOn perform other k p q left s = playOn perform (act perform) k p q left s := by
  cases left with
  | zero => rfl
  | succ left =>
    unfold playOn
    dsimp only
    split
    · rename_i hrun
      split
      · rfl
      · rename_i a ha
        rw [hother p _ a s hrun (h.slot p hrun)]
    · rfl

omit hperform in
theorem resumeBy_agree {other : Invoke}
    (hother : ∀ p index a u, u.isRunning p = true → u.scene.slot = some p →
      other p index a u = act perform p index a u)
    (k : TaskId) {s : Session} (h : OnePlayer s) :
    resumeBy perform other k s = resume perform k s := by
  unfold resume resumeBy
  split
  · rfl
  · split
    · rfl
    · split
      · exact playOn_agree hother k _ _ _ h
      · rw [playOn_agree hother k _ _ _ h]
      · rfl

omit hperform in
/-- The turn of a task whose program does not run ends the task, with a remark at most. -/
theorem resume_idle {s : Session} {k : TaskId} {task : Task} (htask : s.tasks[k]? = some task)
    (hidle : s.isRunning task.program = false) :
    ∃ state remarks, resume perform k s = { s.setTask k state with remarks := remarks } := by
  have hself : s = { s.setTask k task.state with remarks := s.remarks } := by
    rw [setTask_self htask]
  unfold resume resumeBy
  rw [htask]
  dsimp only
  split
  · exact ⟨task.state, s.remarks, hself⟩
  · rename_i q hq
    split
    · cases q.length with
      | zero =>
        rw [playOn, finishProgram, hidle]
        exact ⟨_, _, rfl⟩
      | succ left =>
        rw [playOn, hidle]
        exact ⟨_, _, rfl⟩
    · rw [hidle]
      exact ⟨_, _, rfl⟩
    · exact ⟨task.state, s.remarks, hself⟩

end Play

/-- At most one program runs and it is the one in the slot, no client starts it, and a task invokes
actions of no other program. -/
theorem one_program_plays_at_a_time {depth : Nat} {l : Level} {observers : List (Callback Move)}
    {t : Session} (h : Reached (performWithin depth) (fun _ => True) l observers t) :
    (∀ p, t.isRunning p = true → t.scene.slot = some p) ∧
    (∀ inRuntime p, ∃ remarks, start (performWithin depth) inRuntime p t =
      (.value none, { t with remarks := remarks })) ∧
    -- how actions would be invoked elsewhere makes no difference to any turn
    (∀ other : Invoke, (∀ p index a u, u.isRunning p = true → u.scene.slot = some p →
        other p index a u = act (performWithin depth) p index a u) →
      ∀ k due, resumeBy (performWithin depth) other k { t with now := max t.now due } =
        turn (performWithin depth) k due t) ∧
    -- a program that has ended stays so, and its tasks do not touch the robot
    ∀ p status, final? p t = some status → ∀ hs u, after (performWithin depth) hs t = u →
      final? p u = some status ∧
      ∀ k task due, u.tasks[k]? = some task → task.program = p → ∃ tasks remarks,
        turn (performWithin depth) k due u =
          { u with now := max u.now due, tasks := tasks, remarks := remarks } := by
  have horderly := performWithin_orderly depth
  have hplayer : OnePlayer t :=
    h.keeps (Deed.onePlayer horderly) fun _ hlevel => onePlayer_ofLevel hlevel
  refine ⟨hplayer.slot, hplayer.start_eq, fun other hother k due => ?_, ?_⟩
  · exact resumeBy_agree hother k (hplayer.congr rfl rfl)
  · rintro p status hst hs u rfl
    have hdeeds : Deeds (performWithin depth) (fun _ => True) t
        (after (performWithin depth) hs t) :=
      after_deeds (fun h' _ => by cases h' <;> trivial) t
    have hkept : final? p (after (performWithin depth) hs t) = some status :=
      hdeeds.keeps (fun hd hs => hd.final horderly hs) hst
    refine ⟨hkept, ?_⟩
    rintro k task due htask rfl
    have hidle : ({ after (performWithin depth) hs t with
        now := max (after (performWithin depth) hs t).now due } : Session).isRunning
          task.program = false := isRunning_of_final? hkept
    obtain ⟨state, remarks, hresume⟩ : ∃ state remarks, turn (performWithin depth) k due _ = _ :=
      resume_idle htask hidle
    exact ⟨_, remarks, hresume⟩

/-- A program is stopped while its task sleeps, and another one is started. -/
def overtakenHistory : List Happening :=
  [.call (.play true "left(2)"), .turn 0 0, .call .stopCurrent, .call (.play true "up(1)")]

/-- The overtaken program stays aborted, and the later one has the slot for itself. -/
theorem overtaken_program_stays_aborted :
    ∃ s, ofLevel .standard [] = .ok s ∧
      (after (performWithin 1) overtakenHistory s).isRunning 1 = true ∧
      (after (performWithin 1) overtakenHistory s).scene.slot = some 1 ∧
      ∀ hs, final? 0 (after (performWithin 1) hs (after (performWithin 1) overtakenHistory s)) =
        some .aborted := by
  have hall : ∀ h ∈ overtakenHistory, h.Allowed (fun _ => True) := by
    simp [overtakenHistory, Happening.Allowed]
  obtain ⟨s, hlevel, hrunning, haborted⟩ : ∃ s, ofLevel .standard [] = .ok s ∧
      (after (performWithin 1) overtakenHistory s).isRunning 1 = true ∧
      final? 0 (after (performWithin 1) overtakenHistory s) = some .aborted :=
    ⟨_, rfl, by decide +kernel, by decide +kernel⟩
  obtain ⟨hslot, -, -, hfinal⟩ := one_program_plays_at_a_time
    ⟨s, overtakenHistory, hlevel, hall, rfl⟩
  exact ⟨s, hlevel, hrunning, hslot 1 hrunning, fun hs => (hfinal 0 .aborted haborted hs _ rfl).1⟩

end Session

end GridPuzzle
