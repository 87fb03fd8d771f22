import GridPuzzle.Proofs.Session.Stretch

/-!
# The statuses of a program

Clients run, claim, start, stop and watch programs, and tasks get their turns, in any order. A
program goes from stopped to running to finished or aborted, or from stopped to aborted at once; a
final status is never left. It is claimed at most once, which is what a run does first, and only
while it has actions and nobody has started or stopped it. Whatever a task returns is the final
status that its program has and will always have.
-/

namespace GridPuzzle

/-- One thing that is done with the programs of a session. -/
inductive Usage
  /-- A client does something other than wait, which is a matter of turns. -/
  | call (c : Call) (acts : ¬c.IsWait)
  /-- A program is claimed, to be started later. -/
  | claim (p : ProgramId)
  /-- A claimed program is started. -/
  | startClaimed (p : ProgramId)
  /-- A task gets a turn, while the clock has reached a time. -/
  | turn (k : TaskId) (due : Nat)

/-- Whether a program has been started, and its task with it. -/
def CallAnswer.isStarted : CallAnswer → Bool
  | .started (some _) => true
  | _ => false

namespace Session

/-- Nothing has been started or stopped yet. -/
structure Fresh (s : Session) : Prop where
  tasks : s.tasks = #[]
  programs : ∀ (p : ProgramId) (q : Program), s.programs[p]? = some q →
    q.status = .stopped ∧ q.past = []

/-- Whether a program has left its first status. -/
def isClaimed (s : Session) (p : ProgramId) : Bool :=
  match s.status? p with
  | some status => status != .stopped
  | none => false

theorem isClaimed_iff {s : Session} {p : ProgramId} : s.isClaimed p = true ↔ s.Claimed p := by
  unfold isClaimed Claimed
  cases s.status? p <;> simp

variable (perform : Perform)

/-- Use a session once. The start after a claim is for programs that have been claimed. -/
def use : Usage → Session → Session
  | .call c _, s => (call perform c s).2
  | .claim p, s => (claim p s).2
  | .startClaimed p, s => if s.isClaimed p then (startClaimed perform p s).2 else s
  | .turn k due, s => turn perform k due s

/-- The session after several usages. -/
def uses (us : List Usage) (s : Session) : Session := us.foldl (fun s u => use perform u s) s

/-- Whether a usage is a run or a claim of a program, and succeeds. -/
def succeeds (p : ProgramId) (s : Session) : Usage → Bool
  | .call (.start inRuntime p') _ =>
    p' == p && (call perform (.start inRuntime p') s).1.isStarted
  | .claim p' => p' == p && (claim p' s).1
  | _ => false

/-- How many runs and claims of a program succeed. -/
def successes (p : ProgramId) : List Usage → Session → Nat
  | [], _ => 0
  | u :: us, s => (succeeds perform p s u).toNat + successes p us (use perform u s)

@[simp] theorem uses_nil (s : Session) : uses perform [] s = s := rfl

@[simp] theorem uses_cons (u : Usage) (us : List Usage) (s : Session) :
    uses perform (u :: us) s = uses perform us (use perform u s) := rfl

/-- A task fits the session in which it plays. -/
structure SoundTask (s : Session) (task : Task) : Prop where
  claimed : s.Claimed task.program
  asleep : ∀ left wake q, task.state = .asleep left wake →
    s.programs[task.program]? = some q → left ≤ q.length
  returned : ∀ status, task.state = .ended (.returned status) →
    s.status? task.program = some status ∧ status.isTerminal = true

/-- Every past is lawful, and every task fits. -/
structure Sound (s : Session) : Prop where
  lawful : s.Lawful
  task : ∀ {k : TaskId} {task : Task}, s.tasks[k]? = some task → SoundTask s task

variable {perform}

/-- A claimed program that does not run has a final status. -/
theorem isTerminal_of_claimed {s : Session} {p : ProgramId} {status : Status}
    (hclaimed : s.Claimed p) (hidle : s.isRunning p = false) (hst : s.status? p = some status) :
    status.isTerminal = true := by
  obtain ⟨status', hst', hne⟩ := hclaimed
  cases hst.symm.trans hst'
  cases status with
  | stopped => exact absurd rfl hne
  | running =>
    rw [isRunning_iff.mpr hst] at hidle
    cases hidle
  | finished | aborted => rfl

/-- A claimed program exists, and later on it has as many actions as now. -/
theorem Later.length_eq {s t : Session} (h : Later s t) {p : ProgramId} (hclaimed : s.Claimed p)
    {q : Program} (hq : t.programs[p]? = some q) :
    ∃ q', s.programs[p]? = some q' ∧ q'.actions = q.actions := by
  obtain ⟨status, hst, -⟩ := hclaimed
  obtain ⟨q', hq', -⟩ := Option.map_eq_some_iff.mp hst
  obtain ⟨q'', hq'', -, hactions, -⟩ := h.has ⟨q', hq', rfl, rfl, rfl⟩
  cases hq.symm.trans hq''
  exact ⟨q', hq', hactions.symm⟩

theorem SoundTask.later {s t : Session} (h : Later s t) {task : Task} (htask : SoundTask s task) :
    SoundTask t task where
  claimed := h.claimed htask.claimed
  asleep left wake q hstate hq := by
    obtain ⟨q', hq', hactions⟩ := h.length_eq htask.claimed hq
    have hleft := htask.asleep left wake q' hstate hq'
    unfold Program.length at hleft ⊢
    rwa [← hactions]
  returned status hstate := by
    obtain ⟨hst, hfinal⟩ := htask.returned status hstate
    exact ⟨h.final hst hfinal, hfinal⟩

/-- A task that fits has no more actions left than its program has. -/
theorem SoundTask.left_le {s : Session} {task : Task} (h : SoundTask s task) {q : Program}
    (hq : s.programs[task.program]? = some q) {left : Nat}
    (hturns : task.state.turns q.length = left + 1) : left ≤ q.length := by
  cases hstate : task.state with
  | ready since =>
    rw [hstate] at hturns
    exact Nat.le_of_eq (Nat.succ.inj hturns).symm
  | asleep left' wake =>
    rw [hstate] at hturns
    rw [← Nat.succ.inj hturns]
    exact h.asleep left' wake q hstate hq
  | ended how =>
    rw [hstate] at hturns
    cases hturns

/-- The stretch of a task that fits covers what its state leaves to be played. -/
theorem Sound.stretch {s : Session} (h : Sound s) (hperform : perform.Disciplined) {k : TaskId}
    {r : Stretch} (hr : stretchOf? perform k s = some r) :
    ∃ task q left, s.tasks[k]? = some task ∧ s.programs[task.program]? = some q ∧
      task.state.turns q.length = left + 1 ∧ left ≤ q.length ∧
      PlaysTurn perform task.program q left s r := by
  obtain ⟨task, q, left, htask, hq, hturns, hstretch⟩ := stretchOf?_stretches hr
  have hleft := (h.task htask).left_le hq hturns
  exact ⟨task, q, left, htask, hq, hturns, hleft,
    hstretch.playsTurn hperform (h.task htask).claimed hleft⟩

/-- New tasks fit at once, and the others still do. -/
theorem Sound.recruits {s t : Session} (h : Sound s) (hlater : Later s t)
    (hrecruits : Recruits s t) (hlawful : t.Lawful) : Sound t := by
  refine ⟨hlawful, fun {k task} htask => ?_⟩
  obtain hold | ⟨⟨since, hready⟩, -, hclaimed⟩ := hrecruits.cases htask
  · exact (h.task hold).later hlater
  · refine ⟨hclaimed, fun left wake q hstate => ?_, fun status hstate => ?_⟩
    · rw [hready] at hstate
      cases hstate
    · rw [hready] at hstate
      cases hstate

/-- The tasks fit at any time. -/
theorem Sound.anytime {s : Session} (h : Sound s) (time : Nat) : Sound { s with now := time } :=
  h.recruits (.of_programs rfl rfl) (.of_tasks rfl) h.lawful

/-- A task just started fits. -/
theorem Sound.spawned {s : Session} (h : Sound s) {p : ProgramId} (hclaimed : s.Claimed p) :
    Sound (s.spawned p) := by
  have hlater : Later s (s.spawned p) := .of_programs rfl rfl
  refine ⟨h.lawful, fun {k task} htask => ?_⟩
  rw [Session.spawned, Array.getElem?_push] at htask
  split at htask
  · cases htask
    refine ⟨hlater.claimed hclaimed, ?_, ?_⟩
    · intro left wake q hstate
      cases hstate
    · intro status hstate
      cases hstate
  · exact (h.task htask).later hlater

theorem tasks_claim (p : ProgramId) (s : Session) : (claim p s).2.tasks = s.tasks := by
  rcases claim_cases p s with hclaim | ⟨r, hclaim⟩ | ⟨q, -, -, hclaim⟩ <;> rw [hclaim] <;> rfl

section Use

variable (hperform : perform.Disciplined)

include hperform

/-- A usage is a sequence of deeds or of primitive changes. -/
theorem use_cases (u : Usage) (s : Session) :
    Deeds perform (fun _ => True) s (use perform u s) ∨ Changes s (use perform u s) := by
  cases u with
  | call c acts => exact .inl (call_deeds trivial s)
  | turn k due => exact .inl (turn_deeds k due s)
  | claim p =>
    right
    show Changes s (claim p s).2
    rcases claim_cases p s with hclaim | ⟨r, hclaim⟩ | ⟨q, hq, hclaimable, hclaim⟩
    · rw [hclaim]
    · rw [hclaim]
      exact .single (.note s r)
    · rw [hclaim]
      exact .single (.claim hq hclaimable)
  | startClaimed p =>
    right
    show Changes s (if s.isClaimed p then (startClaimed perform p s).2 else s)
    split
    · rename_i hclaimed
      obtain ⟨t, ht, hstart | hstart⟩ :=
        Changes.steady.startClaimed_cases hperform.orderly p s
      · rw [hstart]
        exact ht
      · rw [hstart]
        exact ht.tail (.spawn (ht.claimed (isClaimed_iff.mp hclaimed)))
    · exact .refl

theorem use_later (u : Usage) (s : Session) : Later s (use perform u s) := by
  obtain h | h := use_cases hperform u s
  · exact h.keeps (fun hd hs => hs.trans (hd.later hperform.orderly)) (.refl s)
  · exact h.later

theorem uses_later (us : List Usage) (s : Session) : Later s (uses perform us s) := by
  induction us generalizing s with
  | nil => exact .refl s
  | cons u us ih => exact (use_later hperform u s).trans (ih _)

theorem use_lawful (u : Usage) {s : Session} (h : s.Lawful) : (use perform u s).Lawful := by
  obtain hu | hu := use_cases hperform u s
  · exact hu.keeps (fun hd hs => hd.lawful hperform.orderly hs) h
  · exact hu.keeps Change.lawful h

/-- The turn of a task leaves it asleep with less to play, or ended as its program is. -/
theorem turn_sound (k : TaskId) (due : Nat) {s : Session} (h : Sound s) :
    Sound (turn perform k due s) := by
  have hlawful : (turn perform k due s).Lawful := use_lawful hperform (.turn k due) h.lawful
  refine ⟨hlawful, ?_⟩
  have hnow : Sound { s with now := max s.now due } := h.anytime _
  unfold turn
  unfold turn at hlawful
  rw [resume_eq] at hlawful ⊢
  revert hnow hlawful
  generalize ({ s with now := max s.now due } : Session) = s'
  intro hlawful h
  cases hr : stretchOf? perform k s' with
  | none => exact fun {_ _} htask => h.task htask
  | some r =>
    obtain ⟨task, q, left, htask, hq, -, hleft, hplays⟩ := h.stretch hperform hr
    have hsound := h.task htask
    rw [hr] at hlawful
    have hafter : Sound r.session := h.recruits hplays.later hplays.recruits hlawful
    have hset : Later r.session (r.session.setTask k r.state) := .of_programs rfl rfl
    intro j task' htask'
    refine SoundTask.later hset ?_
    simp only [setTask, Array.getElem?_modify] at htask'
    split at htask'
    · rename_i hkj
      rw [← hkj, hplays.recruits.getElem? htask] at htask'
      cases htask'
      refine ⟨hplays.later.claimed hsound.claimed, fun left' wake q' hstate hq' => ?_,
        fun status hstate => ?_⟩
      · have hlength := hplays.asleep left' wake hstate
        obtain ⟨q'', hq'', hactions⟩ := hplays.later.length_eq hsound.claimed hq'
        cases hq.symm.trans hq''
        unfold Program.length at hleft ⊢
        rw [← hactions]
        omega
      · obtain ⟨hidle, hst⟩ := hplays.returned status hstate
        have hclaimed := hplays.later.claimed hsound.claimed
        exact ⟨hst, isTerminal_of_claimed hclaimed hidle hst⟩
    · exact hafter.task htask'

/-- Every usage keeps every past lawful and every task fitting. -/
theorem use_sound (u : Usage) {s : Session} (h : Sound s) : Sound (use perform u s) := by
  have hlater := use_later hperform u s
  have hlawful := use_lawful hperform u h.lawful
  cases u with
  | call c acts => exact h.recruits hlater (call_proceeds hperform acts s).recruits hlawful
  | turn k due => exact turn_sound hperform k due h
  | claim p => exact h.recruits hlater (.of_tasks (tasks_claim p s)) hlawful
  | startClaimed p =>
    show Sound (if s.isClaimed p then (startClaimed perform p s).2 else s)
    split
    · rename_i hclaimed
      obtain ⟨t, ⟨hchanges, ht⟩, hstart⟩ := Proceeds.steady.startClaimed_cases hperform p s
      have hsound : Sound t :=
        h.recruits ht.later ht.recruits (hchanges.keeps Change.lawful h.lawful)
      obtain hstart | hstart := hstart
      · rw [hstart]
        exact hsound
      · rw [hstart]
        exact hsound.spawned (ht.later.claimed (isClaimed_iff.mp hclaimed))
    · exact h

theorem uses_sound (us : List Usage) {s : Session} (h : Sound s) :
    Sound (uses perform us s) := by
  induction us generalizing s with
  | nil => exact h
  | cons u us ih => exact ih (use_sound hperform u h)

end Use

/-- Where nothing has been started yet, everything fits. -/
theorem Fresh.sound {s : Session} (h : s.Fresh) : Sound s := by
  refine ⟨fun p q hq => ?_, ?_⟩
  · obtain ⟨hstatus, hpast⟩ := h.programs p q hq
    unfold Program.Lawful
    rw [hstatus]
    exact hpast
  · rw [h.tasks]
    simp

/-- The only program of a session that begins with one. -/
theorem eq_of_ofProgram {q q' : Program} {p : ProgramId}
    (h : (ofProgram q).programs[p]? = some q') : q' = q := by
  have hmem := Array.mem_of_getElem? h
  simpa [ofProgram] using hmem

/-- A session begins fresh with one program that a client has made. -/
theorem fresh_ofProgram {q : Program} (hstatus : q.status = .stopped) (hpast : q.past = []) :
    (ofProgram q).Fresh := by
  refine ⟨rfl, fun p q' hq' => ?_⟩
  rw [eq_of_ofProgram hq']
  exact ⟨hstatus, hpast⟩

/-- A session of a level begins without any program. -/
theorem fresh_ofLevel {l : Level} {observers : List (Callback Move)} {s : Session}
    (h : ofLevel l observers = .ok s) : s.Fresh := by
  unfold ofLevel at h
  split at h
  · cases h
  · cases h
    exact ⟨rfl, fun p q hq => by simp at hq⟩

/-! ## Runs and claims -/

/-- A claim succeeds for a program with actions that nobody has started or stopped. -/
theorem claim_eq_true {p : ProgramId} {s : Session} (h : (claim p s).1 = true) :
    ∃ q, s.programs[p]? = some q ∧ q.isClaimable = true ∧
      claim p s = (true, s.setStatus p .running) := by
  rcases claim_cases p s with hclaim | ⟨r, hclaim⟩ | hclaim
  · rw [hclaim] at h
    cases h
  · rw [hclaim] at h
    cases h
  · exact hclaim

/-- A run succeeds when its claim does. -/
theorem claim_of_start {inRuntime : Bool} {p : ProgramId} {s : Session}
    (h : (call perform (.start inRuntime p) s).1.isStarted = true) : (claim p s).1 = true := by
  have hstart : (answered CallAnswer.started (start perform inRuntime p s)).1.isStarted = true := h
  unfold start at hstart
  cases inRuntime with
  | false => cases hstart
  | true =>
    rw [if_pos rfl] at hstart
    cases hclaim : claim p s with
    | mk claimed t =>
      rw [hclaim] at hstart
      cases claimed with
      | false => cases hstart
      | true => rfl

/-- A program is claimed where it has been neither started nor stopped. -/
theorem claimable_of_succeeds {p : ProgramId} {s : Session} {u : Usage}
    (h : succeeds perform p s u = true) :
    ∃ q, s.programs[p]? = some q ∧ q.isClaimable = true := by
  have hclaim : (claim p s).1 = true := by
    unfold succeeds at h
    split at h
    · simp only [Bool.and_eq_true, beq_iff_eq] at h
      obtain ⟨rfl, hstart⟩ := h
      exact claim_of_start hstart
    · simp only [Bool.and_eq_true, beq_iff_eq] at h
      obtain ⟨rfl, hclaim⟩ := h
      exact hclaim
    · cases h
  obtain ⟨q, hq, hclaimable, -⟩ := claim_eq_true hclaim
  exact ⟨q, hq, hclaimable⟩

/-- No run and no claim of a claimed program succeeds. -/
theorem succeeds_of_claimed {p : ProgramId} {s : Session} (h : s.Claimed p) (u : Usage) :
    succeeds perform p s u = false := by
  rw [← Bool.not_eq_true]
  intro hsuccess
  obtain ⟨q, hq, hclaimable⟩ := claimable_of_succeeds hsuccess
  exact not_claimed_of_isClaimable hq hclaimable h

/-- Whoever succeeds has claimed the program. -/
theorem claimed_of_succeeds (hperform : perform.Disciplined) {p : ProgramId} {s : Session}
    {u : Usage} (h : succeeds perform p s u = true) : (use perform u s).Claimed p := by
  unfold succeeds at h
  split at h
  · rename_i inRuntime p' acts
    simp only [Bool.and_eq_true, beq_iff_eq] at h
    obtain ⟨rfl, hstarted⟩ := h
    obtain ⟨q, hq, -, hclaim⟩ := claim_eq_true (claim_of_start hstarted)
    have hclaimed : (s.setStatus p' .running).Claimed p' := claimed_setStatus hq (by decide)
    cases inRuntime with
    | false => cases hstarted
    | true =>
      show (answered CallAnswer.started (start perform true p' s)).2.Claimed p'
      unfold start
      rw [if_pos rfl, hclaim]
      obtain ⟨t, ⟨-, ht⟩, hstart | hstart⟩ :=
        Proceeds.steady.startClaimed_cases hperform p' (s.setStatus p' .running)
      · dsimp only
        rw [hstart]
        exact ht.later.claimed hclaimed
      · dsimp only
        rw [hstart]
        exact ht.later.claimed hclaimed
  · simp only [Bool.and_eq_true, beq_iff_eq] at h
    obtain ⟨rfl, hsuccess⟩ := h
    obtain ⟨q, hq, -, hclaim⟩ := claim_eq_true hsuccess
    show (claim _ s).2.Claimed _
    rw [hclaim]
    exact claimed_setStatus hq (by decide)
  · cases h

/-- Once a program has been claimed, nobody succeeds any more. -/
theorem successes_of_claimed (hperform : perform.Disciplined) {p : ProgramId} (us : List Usage)
    {s : Session} (h : s.Claimed p) : successes perform p us s = 0 := by
  induction us generalizing s with
  | nil => rfl
  | cons u us ih =>
    rw [successes, succeeds_of_claimed h, ih ((use_later hperform u s).claimed h)]
    rfl

/-- At most one run or claim of a program succeeds. -/
theorem successes_le_one (hperform : perform.Disciplined) (p : ProgramId) (us : List Usage)
    (s : Session) : successes perform p us s ≤ 1 := by
  induction us generalizing s with
  | nil => exact Nat.zero_le 1
  | cons u us ih =>
    rw [successes]
    cases h : succeeds perform p s u with
    | false =>
      rw [Bool.toNat_false, Nat.zero_add]
      exact ih _
    | true =>
      rw [successes_of_claimed hperform us (claimed_of_succeeds hperform h)]
      exact Nat.le_refl 1

/-- A stop aborts a program, unless its status is final. -/
theorem status?_stop (hperform : perform.Disciplined) {p : ProgramId} {status : Status}
    {s : Session} (hst : s.status? p = some status) :
    (stop perform p s).2.status? p = some (if status.isTerminal then status else .aborted) := by
  unfold stop
  rw [hst]
  dsimp only
  split
  · exact hst
  · have haborted : (s.setStatus p .aborted).status? p = some .aborted :=
      status?_setStatus_self hst .aborted
    have hannounce := (Proceeds.steady.announce hperform p .aborted status
      (s.setStatus p .aborted)).2
    exact hannounce.later.final haborted rfl

/-- A program that exists has a final status once it has been told to stop. -/
theorem final?_stop (hperform : perform.Disciplined) {p : ProgramId} {q : Program} {s : Session}
    (hq : s.programs[p]? = some q) :
    ∃ status, final? p (stop perform p s).2 = some status := by
  refine ⟨_, final?_eq_some.mpr ⟨status?_stop hperform (status?_of_program hq), ?_⟩⟩
  split
  · assumption
  · rfl

/-- A program with a final status has been claimed or stopped. -/
theorem claimed_of_final? {p : ProgramId} {s : Session} {status : Status}
    (h : final? p s = some status) : s.Claimed p := by
  obtain ⟨hst, hfinal⟩ := final?_eq_some.mp h
  refine ⟨status, hst, ?_⟩
  rintro rfl
  cases hfinal

/-- The history of a program is the beginning of one of three and only grows, at most one claim of
it succeeds, and what its task returns is final. -/
theorem statuses_take_one_course {depth : Nat} {s : Session} (fresh : s.Fresh) (us : List Usage) :
    let t := uses (performWithin depth) us s
    (∀ (p : ProgramId) (q : Program), t.programs[p]? = some q →
      (q.history <+: [.stopped, .running, .finished] ∨
        q.history <+: [.stopped, .running, .aborted] ∨ q.history <+: [.stopped, .aborted]) ∧
      ∀ us', ∃ q', (uses (performWithin depth) us' t).programs[p]? = some q' ∧
        q.history <+: q'.history ∧ (q.status.isTerminal = true → q'.history = q.history)) ∧
    (∀ p, successes (performWithin depth) p us s ≤ 1) ∧
    (∀ p u, succeeds (performWithin depth) p t u = true → ∃ q, t.programs[p]? = some q ∧
      q.isEmpty = false ∧ q.history = [.stopped]) ∧
    (∀ (p : ProgramId) (q : Program), t.programs[p]? = some q → ∀ us' u,
      succeeds (performWithin depth) p
        (uses (performWithin depth) us' (stop (performWithin depth) p t).2) u = false) ∧
    ∀ (k : TaskId) (task : Task) (status : Status), t.tasks[k]? = some task →
      task.state = .ended (.returned status) → status.isTerminal = true ∧
        ∀ us', (uses (performWithin depth) us' t).status? task.program = some status := by
  have hperform := performWithin_disciplined depth
  intro t
  have hsound : Sound t := uses_sound hperform us fresh.sound
  refine ⟨fun p q hq => ⟨(hsound.lawful p q hq).history, fun us' => ?_⟩,
    fun p => successes_le_one hperform p us s, fun p u h => ?_, fun p q hq us' u => ?_,
    fun k task status htask hstate => ?_⟩
  · have hlater := uses_later hperform us' t
    obtain ⟨q', hq', hgrown⟩ := hlater.history hq
    refine ⟨q', hq', hgrown, fun hfinal => ?_⟩
    have hsame : some q'.status = some q.status := by
      rw [← hlater.final (show t.status? p = some q.status by simp [status?, hq]) hfinal]
      simp [status?, hq']
    exact (hsound.lawful p q hq).history_final
      ((uses_sound hperform us' hsound).lawful p q' hq') hfinal (Option.some.inj hsame) hgrown
  · obtain ⟨q, hq, hclaimable⟩ := claimable_of_succeeds h
    exact ⟨q, hq, (hsound.lawful p q hq).history_claimable hclaimable⟩
  · obtain ⟨status, hstatus⟩ := final?_stop hperform hq
    exact succeeds_of_claimed ((uses_later hperform us' _).claimed (claimed_of_final? hstatus)) u
  · obtain ⟨hst, hfinal⟩ := (hsound.task htask).returned status hstate
    exact ⟨hfinal, fun us' => (uses_later hperform us' t).final hst hfinal⟩

/-- A program whose second action stops it. -/
def shortProgram : Program where
  source := ""
  actions := #[.script "on" [], .script "off" [.stop 0], .script "never" []]
  delay := .ofMillis 100

/-- The program is claimed, stopped before it is started, and then run once more. -/
def stoppedUsages : List Usage :=
  [.claim 0, .call (.stop 0) id, .startClaimed 0, .turn 0 0, .call (.start true 0) id]

/-- A stop between the claim and the start is for good: the task returns it. -/
theorem stop_after_claim_is_returned :
    let t := uses (performWithin 1) stoppedUsages (ofProgram shortProgram)
    (∃ task, t.tasks[0]? = some task ∧ task.state = .ended (.returned .aborted)) ∧
    (∀ us', (uses (performWithin 1) us' t).status? 0 = some .aborted) ∧
    successes (performWithin 1) 0 stoppedUsages (ofProgram shortProgram) = 1 := by
  intro t
  have fresh : (ofProgram shortProgram).Fresh := fresh_ofProgram rfl rfl
  obtain ⟨-, -, -, -, hreturned⟩ := statuses_take_one_course fresh stoppedUsages
  have htask : t.tasks[0]? = some ⟨0, .ended (.returned .aborted), false⟩ := by decide +kernel
  exact ⟨⟨_, htask, rfl⟩, (hreturned 0 _ .aborted htask rfl).2, by decide +kernel⟩

end Session

end GridPuzzle
