import GridPuzzle.Proofs.Session.Usage

/-!
# The life of a session

The life of a session keeps a log of the actions that its tasks have invoked, and the claims whose
start is still due. A program has one task at most, since a task needs a claim and a claim succeeds
once, so its share of the log is the beginning of its actions, and it is complete when the program
has finished. Where the task stands in its playback agrees with the log.
-/

namespace GridPuzzle

namespace Session

/-- The actions that a turn invokes. -/
def invoked (perform : Perform) (k : TaskId) (due : Nat) (s : Session) : List Invocation :=
  match stretchOf? perform k { s with now := max s.now due } with
  | none => []
  | some r => r.invocations

/-- A session with what has been claimed and invoked in it. -/
structure Life where
  session : Session
  /-- The programs that have been claimed and are still to be started. -/
  claims : List ProgramId := []
  /-- The actions invoked so far, in order. -/
  log : List Invocation := []

/-- The invocations among some that belong to a program. -/
def invocationsOf (p : ProgramId) (log : List Invocation) : List Invocation :=
  log.filter (·.program == p)

namespace Life

variable (perform : Perform)

/-- The share of a program in the log. -/
def invocations (l : Life) (p : ProgramId) : List Invocation := invocationsOf p l.log

/-- Use a session once. Every claim is followed by one start at most. -/
def use (u : Usage) (l : Life) : Life :=
  match u with
  | .call _ _ => { l with session := Session.use perform u l.session }
  | .claim p =>
    { l with
      session := Session.use perform u l.session
      claims := if (claim p l.session).1 then p :: l.claims else l.claims }
  | .startClaimed p =>
    if p ∈ l.claims then
      { l with session := Session.use perform u l.session, claims := l.claims.erase p }
    else
      l
  | .turn k due =>
    { l with
      session := Session.use perform u l.session
      log := l.log ++ invoked perform k due l.session }

/-- A start needs a claim, and uses it up. -/
theorem use_startClaimed (p : ProgramId) (l : Life) :
    use perform (.startClaimed p) l =
      if p ∈ l.claims then { l with
        session := Session.use perform (.startClaimed p) l.session, claims := l.claims.erase p }
      else l := rfl

/-- The life after several usages. -/
def after (us : List Usage) (l : Life) : Life := us.foldl (fun l u => use perform u l) l

@[simp] theorem after_nil (l : Life) : after perform [] l = l := rfl

@[simp] theorem after_cons (u : Usage) (us : List Usage) (l : Life) :
    after perform (u :: us) l = after perform us (use perform u l) := rfl

end Life

/-- Some invocations are those of a program's first actions, each once and in order. -/
structure Script (perform : Perform) (p : ProgramId) (q : Program) (es : List Invocation) :
    Prop where
  bounded : es.length ≤ q.length
  entry : ∀ (i : Nat) (e : Invocation), es[i]? = some e →
    ∃ a u, q.actions[i]? = some a ∧ u.isRunning p = true ∧ e = invocation perform p i a u

/-- What the invocations of a program tell about it. -/
structure Account (perform : Perform) (s : Session) (p : ProgramId) (es : List Invocation) :
    Prop where
  claimed : es ≠ [] → s.Claimed p
  script : ∀ q, s.programs[p]? = some q → Script perform p q es
  /-- Nothing is invoked after an action that has stopped the program. -/
  last : ∀ es₁ e es₂, es = es₁ ++ e :: es₂ → e.running = false →
    es₂ = [] ∧ s.isRunning p = false
  finished : ∀ q, s.programs[p]? = some q → q.status = .finished → es.length = q.length

/-- What the invocations of a program tell about its task. -/
structure Standing (s : Session) (task : Task) (es : List Invocation) : Prop where
  ready : ∀ since, task.state = .ready since → es = []
  asleep : ∀ left wake q, task.state = .asleep left wake →
    s.programs[task.program]? = some q → es.length + left = q.length
  panicked : task.state = .ended .panicked →
    (∃ e ∈ es, e.completed = false) ∨ s.status? task.program = some .finished

/-- The log and the claims of a life fit its session. -/
structure Life.Sound (perform : Perform) (l : Life) : Prop where
  session : l.session.Sound
  /-- No program has two tasks, or a task and a claim. -/
  players : (l.claims ++ l.session.tasks.toList.map Task.program).Nodup
  claimed : ∀ p ∈ l.claims, l.session.Claimed p
  staffed : ∀ e ∈ l.log, e.program ∈ l.session.tasks.toList.map Task.program
  accounts : ∀ p, Account perform l.session p (l.invocations p)
  standings : ∀ (k : TaskId) (task : Task), l.session.tasks[k]? = some task →
    Standing l.session task (l.invocations task.program)

variable {perform : Perform}

/-- Only the actions of a program matter. -/
theorem Script.congr {p : ProgramId} {q q' : Program} {es : List Invocation}
    (h : Script perform p q es) (hactions : q'.actions = q.actions) : Script perform p q' es := by
  refine ⟨?_, ?_⟩
  · have hbounded := h.bounded
    unfold Program.length at hbounded ⊢
    rwa [hactions]
  · intro i e he
    obtain ⟨a, u, ha, hrest⟩ := h.entry i e he
    exact ⟨a, u, by rw [hactions]; exact ha, hrest⟩

/-- The numbers of the actions played are the first ones, in order. -/
theorem Script.indices {p : ProgramId} {q : Program} {es : List Invocation}
    (h : Script perform p q es) : es.map Invocation.index = List.range es.length := by
  apply List.ext_getElem?
  intro i
  rw [List.getElem?_map]
  by_cases hi : i < es.length
  · obtain ⟨a, u, -, -, he⟩ := h.entry i es[i] (List.getElem?_eq_getElem hi)
    rw [List.getElem?_eq_getElem hi, List.getElem?_range hi, he]
    rfl
  · rw [List.getElem?_eq_none (by omega), List.getElem?_eq_none (by simpa using hi)]
    rfl

/-- The actions played are the first ones of the program, in order. -/
theorem Script.actions {p : ProgramId} {q : Program} {es : List Invocation}
    (h : Script perform p q es) :
    es.map Invocation.action = q.actions.toList.take es.length := by
  apply List.ext_getElem?
  intro i
  rw [List.getElem?_map]
  by_cases hi : i < es.length
  · obtain ⟨a, u, ha, -, he⟩ := h.entry i es[i] (List.getElem?_eq_getElem hi)
    rw [List.getElem?_eq_getElem hi, List.getElem?_take_of_lt hi, Array.getElem?_toList, ha, he]
    rfl
  · have hlength : (q.actions.toList.take es.length).length ≤ i := by
      rw [List.length_take]
      omega
    rw [List.getElem?_eq_none (by omega), List.getElem?_eq_none hlength]
    rfl

/-- Further actions go on with the script. -/
theorem Script.append {p : ProgramId} {q : Program} {left : Nat} {s : Session} {r : Stretch}
    {es : List Invocation} (h : Script perform p q es) (hleft : es.length + left = q.length)
    (hplays : Plays perform p q left s r) : Script perform p q (es ++ r.invocations) := by
  refine ⟨?_, ?_⟩
  · have hbounded := hplays.bounded
    rw [List.length_append]
    omega
  · intro i e he
    by_cases hi : i < es.length
    · rw [List.getElem?_append_left hi] at he
      exact h.entry i e he
    · rw [List.getElem?_append_right (by omega)] at he
      have hindex : q.length - left + (i - es.length) = i := by omega
      have hentry := hplays.script (i - es.length) e he
      rwa [hindex] at hentry

/-- What is told about a program stays true while nothing is invoked and its task does not finish
it. -/
theorem Account.later {s t : Session} {p : ProgramId} {es : List Invocation}
    (h : Account perform s p es) (hlater : Later s t)
    (hunfinished : t.status? p = some .finished → s.status? p = some .finished) :
    Account perform t p es where
  claimed hne := hlater.claimed (h.claimed hne)
  script q hq := by
    by_cases hne : es = []
    · rw [hne]
      exact ⟨Nat.zero_le _, fun i e he => by simp at he⟩
    · obtain ⟨q', hq', hactions⟩ := hlater.length_eq (h.claimed hne) hq
      exact (h.script q' hq').congr hactions.symm
  last es₁ e es₂ hsplit hstopped := by
    obtain ⟨hlast, hidle⟩ := h.last es₁ e es₂ hsplit hstopped
    have hne : es ≠ [] := by
      rw [hsplit]
      simp
    exact ⟨hlast, hlater.halted (h.claimed hne) hidle⟩
  finished q hq hstatus := by
    have hbefore := hunfinished (by simp [status?, hq, hstatus])
    obtain ⟨q', hq', hactions⟩ := hlater.length_eq ⟨_, hbefore, by decide⟩ hq
    have hlength := h.finished q' hq' (by simpa [status?, hq'] using hbefore)
    unfold Program.length at hlength ⊢
    rwa [← hactions]

/-- A stretch is added to what is told about its program. -/
theorem Account.play {s : Session} {p : ProgramId} {q : Program} {left : Nat} {r : Stretch}
    {es : List Invocation} (h : Account perform s p es) (hq : s.programs[p]? = some q)
    (hclaimed : s.Claimed p) (hleft : es.length + left = q.length)
    (hplays : Plays perform p q left s r) :
    Account perform r.session p (es ++ r.invocations) where
  claimed _ := hplays.later.claimed hclaimed
  script q' hq' := by
    obtain ⟨q'', hq'', hactions⟩ := hplays.later.length_eq hclaimed hq'
    cases hq.symm.trans hq''
    exact ((h.script q hq).append hleft hplays).congr hactions.symm
  last es₁ e es₂ hsplit hstopped := by
    obtain ⟨more, hbefore, hrest⟩ | ⟨more, hbefore, hrest⟩ := List.append_eq_append_iff.mp hsplit
    · exact hplays.last more e es₂ hrest hstopped
    · cases more with
      | nil => exact hplays.last [] e es₂ hrest.symm hstopped
      | cons e' more =>
        -- the program was stopped before this stretch, which therefore invokes nothing
        obtain ⟨rfl, hafter⟩ := List.cons.inj hrest
        obtain ⟨hmore, hidle⟩ := h.last es₁ e more hbefore hstopped
        rw [hmore, hplays.idle hidle] at hafter
        exact ⟨hafter, hplays.later.halted hclaimed hidle⟩
  finished q' hq' hstatus := by
    obtain ⟨q'', hq'', hactions⟩ := hplays.later.length_eq hclaimed hq'
    cases hq.symm.trans hq''
    have hlength : q'.length = q.length := by
      unfold Program.length
      rw [hactions]
    rw [List.length_append, hlength]
    obtain hbefore | hall := hplays.finished (by simp [status?, hq', hstatus])
    · have hidle := isRunning_of_final? (final?_eq_some.mpr ⟨hbefore, rfl⟩)
      rw [hplays.idle hidle]
      exact h.finished q hq (by simpa [status?, hq] using hbefore)
    · rw [hall]
      exact hleft

theorem Standing.later {s t : Session} {task : Task} {es : List Invocation}
    (h : Standing s task es) (hclaimed : s.Claimed task.program) (hlater : Later s t) :
    Standing t task es where
  ready := h.ready
  asleep left wake q hstate hq := by
    obtain ⟨q', hq', hactions⟩ := hlater.length_eq hclaimed hq
    have hlength := h.asleep left wake q' hstate hq'
    unfold Program.length at hlength ⊢
    rwa [← hactions]
  panicked hstate := by
    obtain hpanicked | hfinished := h.panicked hstate
    · exact .inl hpanicked
    · exact .inr (hlater.final hfinished rfl)

/-- A task stands where its stretch ends. -/
theorem Standing.play {s : Session} {task : Task} {q : Program} {left : Nat} {r : Stretch}
    {es : List Invocation} (hclaimed : s.Claimed task.program)
    (hq : s.programs[task.program]? = some q) (hleft : es.length + left = q.length)
    (hplays : PlaysTurn perform task.program q left s r) :
    Standing r.session { task with state := r.state } (es ++ r.invocations) where
  ready since hstate := absurd hstate (hplays.started since)
  asleep left' wake q' hstate hq' := by
    obtain ⟨q'', hq'', hactions⟩ := hplays.later.length_eq hclaimed hq'
    cases hq.symm.trans hq''
    have hrest := hplays.asleep left' wake hstate
    unfold Program.length at hleft ⊢
    rw [List.length_append, ← hactions]
    omega
  panicked hstate := by
    obtain ⟨e, hmem, he⟩ | hfinished := hplays.panicked hstate
    · exact .inl ⟨e, List.mem_append_right _ hmem, he⟩
    · exact .inr hfinished

/-- A stretch invokes actions of its own program only. -/
theorem Plays.program_eq {s : Session} {p : ProgramId} {q : Program} {left : Nat} {r : Stretch}
    (h : Plays perform p q left s r) {e : Invocation} (he : e ∈ r.invocations) :
    e.program = p := by
  obtain ⟨i, hi⟩ := List.mem_iff_getElem?.mp he
  obtain ⟨a, u, -, -, rfl⟩ := h.script i e hi
  rfl

/-- The stretch of a task counts for its program. -/
theorem Plays.invocationsOf_append {s : Session} {p : ProgramId} {q : Program} {left : Nat}
    {r : Stretch} (h : Plays perform p q left s r) (log : List Invocation) :
    invocationsOf p (log ++ r.invocations) = invocationsOf p log ++ r.invocations := by
  rw [invocationsOf, List.filter_append, invocationsOf]
  congr 1
  exact List.filter_eq_self.mpr fun e he => by simpa using h.program_eq he

/-- The stretch of a task counts for no other program. -/
theorem Plays.invocationsOf_append_of_ne {s : Session} {p : ProgramId} {q : Program} {left : Nat}
    {r : Stretch} (h : Plays perform p q left s r) (log : List Invocation) {p' : ProgramId}
    (hne : p' ≠ p) : invocationsOf p' (log ++ r.invocations) = invocationsOf p' log := by
  rw [invocationsOf, List.filter_append, invocationsOf]
  have hnone : r.invocations.filter (·.program == p') = [] := by
    refine List.filter_eq_nil_iff.mpr fun e he => ?_
    rw [h.program_eq he]
    simpa using Ne.symm hne
  rw [hnone, List.append_nil]

/-- What a task has left to play completes what it has played. -/
theorem Standing.length_add_left {s : Session} {task : Task} {q : Program} {left : Nat}
    {es : List Invocation} (h : Standing s task es) (hq : s.programs[task.program]? = some q)
    (hturns : task.state.turns q.length = left + 1) : es.length + left = q.length := by
  cases hstate : task.state with
  | ready since =>
    rw [hstate] at hturns
    rw [h.ready since hstate, List.length_nil, Nat.zero_add]
    exact (Nat.succ.inj hturns).symm
  | asleep left' wake =>
    rw [hstate] at hturns
    rw [← Nat.succ.inj hturns]
    exact h.asleep left' wake q hstate hq
  | ended how =>
    rw [hstate] at hturns
    cases hturns

namespace Life.Sound

variable {l : Life} (h : l.Sound perform)

include h

/-- A program without a task has no invocations. -/
theorem invocations_eq_nil {p : ProgramId} (hp : p ∉ l.session.tasks.toList.map Task.program) :
    l.invocations p = [] := by
  rw [Life.invocations, invocationsOf, List.filter_eq_nil_iff]
  intro e hmem he
  rw [beq_iff_eq] at he
  rw [← he] at hp
  exact hp (h.staffed e hmem)

/-- Whoever has a claim or a task has been claimed. -/
theorem claimed_of_mem {p : ProgramId}
    (hp : p ∈ l.claims ++ l.session.tasks.toList.map Task.program) : l.session.Claimed p := by
  obtain hp | hp := List.mem_append.mp hp
  · exact h.claimed p hp
  · obtain ⟨task, hmem, rfl⟩ := List.mem_map.mp hp
    obtain ⟨k, htask⟩ := List.mem_iff_getElem?.mp hmem
    rw [Array.getElem?_toList] at htask
    exact (h.session.task htask).claimed

/-- A new task of a program that nobody had claimed stands at its begin. -/
theorem standing_recruit (t : Session) {task : Task} {since : Nat}
    (hready : task.state = .ready since) (hunclaimed : ¬l.session.Claimed task.program) :
    Standing t task (l.invocations task.program) := by
  have hnil : l.invocations task.program = [] := h.invocations_eq_nil fun hp =>
    hunclaimed (h.claimed_of_mem (List.mem_append_right _ hp))
  refine ⟨fun _ _ => hnil, fun left wake q hstate => ?_, fun hstate => ?_⟩
  · rw [hready] at hstate
    cases hstate
  · rw [hready] at hstate
    cases hstate

/-- New tasks are for programs that have neither a claim nor a task. -/
theorem players_of_recruits {t : Session} (hrecruits : Recruits l.session t) :
    (l.claims ++ t.tasks.toList.map Task.program).Nodup := by
  obtain ⟨new, htasks, hnodup, hnew⟩ := hrecruits
  rw [htasks, List.map_append, ← List.append_assoc, List.nodup_append]
  refine ⟨h.players, hnodup, ?_⟩
  rintro p hp p' hp' rfl
  obtain ⟨task, hmem, rfl⟩ := List.mem_map.mp hp'
  exact (hnew task hmem).2.1 (h.claimed_of_mem hp)

/-- What proceeds without a turn keeps the log and the claims fitting. -/
theorem proceeds {t : Session} (ht : Proceeds l.session t) (hlawful : t.Lawful) :
    Life.Sound perform { l with session := t } where
  session := h.session.recruits ht.later ht.recruits hlawful
  players := h.players_of_recruits ht.recruits
  claimed p hp := ht.later.claimed (h.claimed p hp)
  staffed e he := by
    obtain ⟨new, htasks, -⟩ := ht.recruits
    rw [htasks, List.map_append]
    exact List.mem_append_left _ (h.staffed e he)
  accounts p := (h.accounts p).later ht.later (ht.unfinished p)
  standings k task htask := by
    obtain hold | ⟨⟨since, hready⟩, hunclaimed, -⟩ := ht.recruits.cases htask
    · exact (h.standings k task hold).later (h.session.task hold).claimed ht.later
    · exact h.standing_recruit t hready hunclaimed

/-- A program that has just been claimed is new among the claims. -/
theorem claim {p : ProgramId} {q : Program} (hq : l.session.programs[p]? = some q)
    (hclaimable : q.isClaimable = true) :
    Life.Sound perform
      { l with session := l.session.setStatus p .running, claims := p :: l.claims } := by
  have hclaim : Change l.session (l.session.setStatus p .running) := .claim hq hclaimable
  have hbegins : Begins (fun _ => True) p l.session _ := .claim hq hclaimable
  have hafter := h.proceeds (.of_tame hbegins.toTame)
    (hclaim.lawful h.session.lawful)
  have hnew : p ∉ l.claims ++ l.session.tasks.toList.map Task.program := fun hp =>
    not_claimed_of_isClaimable hq hclaimable (h.claimed_of_mem hp)
  exact
    { session := hafter.session
      players := List.nodup_cons.mpr ⟨hnew, h.players⟩
      claimed := fun p' hp' => by
        obtain rfl | hp' := List.mem_cons.mp hp'
        · exact claimed_setStatus hq (by decide)
        · exact hafter.claimed p' hp'
      staffed := hafter.staffed, accounts := hafter.accounts, standings := hafter.standings }

/-- A claim may be given up. -/
theorem drop (p : ProgramId) : Life.Sound perform { l with claims := l.claims.erase p } where
  session := h.session
  players := h.players.sublist (List.Sublist.append_right List.erase_sublist _)
  claimed p' hp' := h.claimed p' (List.mem_of_mem_erase hp')
  staffed := h.staffed
  accounts := h.accounts
  standings := h.standings

/-- A claim becomes a task. -/
theorem spawned {p : ProgramId} (hp : p ∈ l.claims) :
    Life.Sound perform
      { l with session := l.session.spawned p, claims := l.claims.erase p } := by
  have hclaimed := h.claimed p hp
  have hlater : Later l.session (l.session.spawned p) := .of_programs rfl rfl
  have htasks : (l.session.spawned p).tasks.toList =
      l.session.tasks.toList ++ [⟨p, .ready l.session.now, false⟩] := Array.toList_push
  refine
    { session := h.session.spawned hclaimed
      players := ?_
      claimed := fun p' hp' => hlater.claimed (h.claimed p' (List.mem_of_mem_erase hp'))
      staffed := fun e he => ?_
      accounts := fun p' => (h.accounts p').later hlater id
      standings := fun k task htask => ?_ }
  · show (l.claims.erase p ++ (l.session.spawned p).tasks.toList.map Task.program).Nodup
    rw [htasks, List.map_append, ← List.append_assoc]
    have hperm : (p :: (l.claims.erase p ++ l.session.tasks.toList.map Task.program)).Perm
        (l.claims ++ l.session.tasks.toList.map Task.program) :=
      (List.perm_cons_erase hp).symm.append_right _
    exact ((List.perm_append_singleton p _).trans hperm).nodup_iff.mpr h.players
  · show e.program ∈ (l.session.spawned p).tasks.toList.map Task.program
    rw [htasks, List.map_append]
    exact List.mem_append_left _ (h.staffed e he)
  · have htask' : (l.session.tasks.push ⟨p, .ready l.session.now, false⟩)[k]? = some task := htask
    rw [Array.getElem?_push] at htask'
    split at htask'
    · cases htask'
      have hnil : l.invocations p = [] := h.invocations_eq_nil fun htask =>
        (List.nodup_append.mp h.players).2.2 p hp p htask rfl
      exact ⟨fun _ _ => hnil, nofun, nofun⟩
    · exact (h.standings k task htask').later (h.session.task htask').claimed hlater

/-- Two tasks of one program are the same task. -/
theorem task_unique {j k : TaskId} {task task' : Task} (hj : l.session.tasks[j]? = some task)
    (hk : l.session.tasks[k]? = some task') (hsame : task.program = task'.program) : j = k := by
  have hnodup := (List.nodup_append.mp h.players).2.1
  rw [← Array.getElem?_toList] at hj hk
  have hj' : (l.session.tasks.toList.map Task.program)[j]? = some task.program := by
    rw [List.getElem?_map, hj]
    rfl
  have hk' : (l.session.tasks.toList.map Task.program)[k]? = some task.program := by
    rw [List.getElem?_map, hk, hsame]
    rfl
  exact (List.getElem?_inj (List.getElem?_eq_some_iff.mp hj').1 hnodup).mp (hj'.trans hk'.symm)

/-- After a stretch its task stands where the stretch has ended, and every other one where it
was. -/
private theorem standing_stretch {k : TaskId} {r : Stretch} {task : Task} {q : Program} {left : Nat}
    (htask : l.session.tasks[k]? = some task) (hq : l.session.programs[task.program]? = some q)
    (hleft : (l.invocations task.program).length + left = q.length)
    (hplays : PlaysTurn perform task.program q left l.session r) {j : TaskId} {task' : Task}
    (htask' : (r.session.setTask k r.state).tasks[j]? = some task') :
    Standing (r.session.setTask k r.state) task'
      (invocationsOf task'.program (l.log ++ r.invocations)) := by
  have hclaimed := (h.session.task htask).claimed
  have hset : Later r.session (r.session.setTask k r.state) := .of_programs rfl rfl
  simp only [setTask, Array.getElem?_modify] at htask'
  split at htask'
  · rename_i hkj
    rw [← hkj, hplays.recruits.getElem? htask] at htask'
    cases htask'
    refine Standing.later ?_ (hplays.later.claimed hclaimed) hset
    rw [hplays.invocationsOf_append]
    exact .play hclaimed hq hleft hplays
  · rename_i hkj
    obtain hold | ⟨⟨since, hready⟩, hunclaimed, -⟩ := hplays.recruits.cases htask'
    · have hne : task'.program ≠ task.program := fun hsame =>
        hkj (h.task_unique hold htask hsame).symm
      rw [hplays.invocationsOf_append_of_ne _ hne]
      exact (h.standings j task' hold).later (h.session.task hold).claimed
        (hplays.later.trans hset)
    · have hne : task'.program ≠ task.program := by
        intro hsame
        rw [hsame] at hunclaimed
        exact hunclaimed hclaimed
      rw [hplays.invocationsOf_append_of_ne _ hne]
      exact h.standing_recruit _ hready hunclaimed

/-- The turn of a task keeps the log and the claims fitting. -/
theorem resume (hperform : perform.Disciplined) (k : TaskId) {r : Stretch}
    (hr : stretchOf? perform k l.session = some r)
    (hsound : (r.session.setTask k r.state).Sound) :
    Life.Sound perform
      { l with session := r.session.setTask k r.state, log := l.log ++ r.invocations } := by
  obtain ⟨task, q, left, htask, hq, hturns, -, hplays⟩ := h.session.stretch hperform hr
  have hclaimed := (h.session.task htask).claimed
  have hleft := (h.standings k task htask).length_add_left hq hturns
  have hset : Later r.session (r.session.setTask k r.state) := .of_programs rfl rfl
  have hprograms : (r.session.setTask k r.state).tasks.toList.map Task.program =
      r.session.tasks.toList.map Task.program := by
    have haside := (aside_modify r.session k (f := fun t => { t with state := r.state })
      fun _ => rfl).tasks
    have hlists := congrArg Array.toList haside
    rw [Array.toList_map, Array.toList_map] at hlists
    exact hlists
  refine
    { session := hsound
      players := ?_
      claimed := fun p hp => hset.claimed (hplays.later.claimed (h.claimed p hp))
      staffed := fun e he => ?_
      accounts := fun p => ?_
      standings := fun j task' => h.standing_stretch htask hq hleft hplays }
  · show (l.claims ++ (r.session.setTask k r.state).tasks.toList.map Task.program).Nodup
    rw [hprograms]
    exact h.players_of_recruits hplays.recruits
  · show e.program ∈ (r.session.setTask k r.state).tasks.toList.map Task.program
    rw [hprograms]
    obtain ⟨new, htasks, -⟩ := hplays.recruits
    rw [htasks, List.map_append]
    apply List.mem_append_left
    obtain he | he := List.mem_append.mp he
    · exact h.staffed e he
    · rw [hplays.program_eq he]
      exact List.mem_map_of_mem (Array.mem_toList_iff.mpr (Array.mem_of_getElem? htask))
  · show Account perform (r.session.setTask k r.state) p (invocationsOf p (l.log ++ r.invocations))
    refine Account.later (s := r.session) ?_ hset id
    by_cases hp : p = task.program
    · rw [hp, hplays.invocationsOf_append]
      exact (h.accounts task.program).play hq hclaimed hleft hplays.toPlays
    · rw [hplays.invocationsOf_append_of_ne _ hp]
      exact (h.accounts p).later hplays.later (hplays.others p hp)

/-- A client that starts the task of a program which it has claimed keeps them fitting too. -/
theorem useStartClaimed (hperform : perform.Disciplined) (p : ProgramId) :
    Life.Sound perform (Life.use perform (.startClaimed p) l) := by
  rw [Life.use_startClaimed]
  split
  · rename_i hp
    have hsession : Session.use perform (.startClaimed p) l.session =
        (startClaimed perform p l.session).2 := if_pos (isClaimed_iff.mpr (h.claimed p hp))
    rw [hsession]
    obtain ⟨t, ⟨hchanges, ht⟩, hstart⟩ := Proceeds.steady.startClaimed_cases hperform p l.session
    have hannounced := h.proceeds ht (hchanges.keeps Change.lawful h.session.lawful)
    obtain hstart | hstart := hstart
    · rw [hstart]
      exact hannounced.drop p
    · rw [hstart]
      exact hannounced.spawned hp
  · exact h

/-- A turn keeps them fitting whatever time the clock has reached. -/
theorem useTurn (hperform : perform.Disciplined) (k : TaskId) (due : Nat) :
    Life.Sound perform (Life.use perform (.turn k due) l) := by
  have hclock := h.proceeds (.of_same (t := { l.session with now := max l.session.now due })
    rfl rfl rfl) h.session.lawful
  have hsound := turn_sound hperform k due h.session
  show Life.Sound perform { l with
    session := turn perform k due l.session, log := l.log ++ invoked perform k due l.session }
  unfold turn at hsound ⊢
  unfold invoked
  rw [resume_eq] at hsound ⊢
  cases hr : stretchOf? perform k { l.session with now := max l.session.now due } with
  | none =>
    dsimp only
    rw [List.append_nil]
    exact hclock
  | some r =>
    rw [hr] at hsound
    exact hclock.resume hperform k hr hsound

/-- Every usage keeps the log and the claims fitting. -/
theorem use (hperform : perform.Disciplined) (u : Usage) :
    Life.Sound perform (Life.use perform u l) := by
  cases u with
  | call c acts =>
    exact h.proceeds (call_proceeds hperform acts l.session)
      (use_lawful hperform (.call c acts) h.session.lawful)
  | claim p =>
    show Life.Sound perform
      { l with
        session := (Session.claim p l.session).2
        claims := if (Session.claim p l.session).1 then p :: l.claims else l.claims }
    rcases claim_cases p l.session with hclaim | ⟨r, hclaim⟩ | ⟨q, hq, hclaimable, hclaim⟩
    · rw [hclaim]
      exact h
    · rw [hclaim]
      exact h.proceeds (.of_same rfl rfl rfl) h.session.lawful
    · rw [hclaim]
      exact h.claim hq hclaimable
  | startClaimed p => exact h.useStartClaimed hperform p
  | turn k due => exact h.useTurn hperform k due

/-- Whatever is done, the log and the claims go on fitting. -/
theorem after (hperform : perform.Disciplined) (us : List Usage) :
    Life.Sound perform (Life.after perform us l) := by
  induction us generalizing l with
  | nil => exact h
  | cons u us ih => exact ih (h.use hperform u)

end Life.Sound

end Session

end GridPuzzle
