import GridPuzzle.Proofs.Session.History

/-!
# Sessions that are taken for each other

The library writes remarks and never looks at them, and it looks at the guards of a scene only when
its robot steps; the walls of a scene are for show. Two sessions are alike when they differ in
nothing but remarks, guards and walls, and in guards and walls only as a relation `G` allows. The
relation is impartial when guards that it relates judge every move alike. Everything that can happen
in a session then answers alike in alike sessions and leaves them alike, which is shown along the
chain of callbacks as the library calls them.
-/

namespace GridPuzzle

/-- What surrounds the robot of a scene: the guards that are asked about its moves, and the walls
that are shown. -/
structure Fence where
  guards : List Guard
  walls : List Wall

/-- The same fence with one more policy. -/
def Fence.extend (f : Fence) (verdict : Move → Snapshot → Bool) : Fence :=
  { f with guards := f.guards ++ [.policy verdict] }

namespace Session

/-- The fence of a session's scene. -/
def fence (s : Session) : Fence := ⟨s.scene.guards, s.scene.walls⟩

/-- The same session with another fence and other remarks. -/
def behind (f : Fence) (rs : Array Remark) (s : Session) : Session :=
  { s with remarks := rs, scene := { s.scene with guards := f.guards, walls := f.walls } }

/-- Two sessions that differ in remarks and fences at most, and in fences as `G` allows. -/
def Alike (G : Fence → Fence → Prop) (s t : Session) : Prop :=
  ∃ f rs, G s.fence f ∧ t = s.behind f rs

/-- Alike sessions stay alike. -/
def KeepsAlike (G : Fence → Fence → Prop) (f : Session → Session) : Prop :=
  ∀ s t, Alike G s t → Alike G (f s) (f t)

/-- Alike sessions get the same answer, and stay alike. -/
def AnswersAlike {α : Type} (G : Fence → Fence → Prop) (f : Session → α × Session) : Prop :=
  ∀ s t, Alike G s t → ∃ u, f t = ((f s).1, u) ∧ Alike G (f s).2 u

/-- A way to carry out requests that takes alike sessions for each other. -/
def Perform.AnswersAlike (perform : Perform) (G : Fence → Fence → Prop) : Prop :=
  ∀ r, Session.AnswersAlike G (perform r)

/-- A policy that tells related fences not apart: with it, they are related still. -/
def Receives (G : Fence → Fence → Prop) (verdict : Move → Snapshot → Bool) : Prop :=
  ∀ f g, G f g → G (f.extend verdict) (g.extend verdict)

/-- Related guards judge every move alike. -/
def Impartial (G : Fence → Fence → Prop) : Prop :=
  ∀ perform : Perform, perform.AnswersAlike G → ∀ m, AnswersAlike G (ask perform m)

variable {G : Fence → Fence → Prop}

section Fields

variable (f : Fence) (rs : Array Remark) (s : Session)

@[simp] theorem now_behind : (s.behind f rs).now = s.now := rfl

@[simp] theorem programs_behind : (s.behind f rs).programs = s.programs := rfl

@[simp] theorem tasks_behind : (s.behind f rs).tasks = s.tasks := rfl

@[simp] theorem status?_behind (p : ProgramId) : (s.behind f rs).status? p = s.status? p := rfl

@[simp] theorem isRunning_behind (p : ProgramId) :
    (s.behind f rs).isRunning p = s.isRunning p := rfl

@[simp] theorem isPlaying_behind : (s.behind f rs).isPlaying = s.isPlaying := rfl

@[simp] theorem nextDue?_behind : (s.behind f rs).nextDue? = s.nextDue? := rfl

@[simp] theorem turnBudget_behind : (s.behind f rs).turnBudget = s.turnBudget := rfl

end Fields

namespace AnswersAlike

/-- A call that has an answer and leaves the session. -/
theorem value {α : Type} (a : α) : AnswersAlike G fun s => (a, s) :=
  fun _ _ h => ⟨_, rfl, h⟩

/-- A call may go on with its value. -/
theorem andThen {α β : Type} {f : Session → Outcome α × Session} (hf : AnswersAlike G f)
    {next : α → Session → Outcome β × Session} (hnext : ∀ a, AnswersAlike G (next a)) :
    AnswersAlike G fun s => GridPuzzle.andThen (f s) next := by
  intro s t h
  obtain ⟨u, hu, halike⟩ := hf s t h
  dsimp only
  rw [hu]
  revert halike
  rcases f s with ⟨_ | _, v⟩
  · exact fun halike => hnext _ _ _ halike
  · exact fun halike => ⟨u, rfl, halike⟩

/-- A call may turn its value into another one. -/
theorem map {α β : Type} {f : Session → Outcome α × Session} (hf : AnswersAlike G f)
    (g : α → β) : AnswersAlike G fun s => GridPuzzle.andThen (f s) fun a t => (.value (g a), t) :=
  hf.andThen fun a => value (Outcome.value (g a))

/-- Of two calls one is made, as something other than remarks and fences decides. -/
theorem ite {α : Type} (c : Session → Bool) (hc : ∀ s f rs, c (s.behind f rs) = c s)
    {f g : Session → α × Session} (hf : AnswersAlike G f) (hg : AnswersAlike G g) :
    AnswersAlike G fun s => if c s then f s else g s := by
  rintro s t h
  have hsame : c t = c s := by
    obtain ⟨f, rs, -, rfl⟩ := h
    exact hc s f rs
  dsimp only
  rw [hsame]
  split
  · exact hf s t h
  · exact hg s t h

end AnswersAlike

section Callbacks

variable {perform : Perform} (hperform : perform.AnswersAlike G)

include hperform

theorem alike_performAll (requests : List Request) :
    AnswersAlike G (performAll perform requests) := by
  induction requests with
  | nil => exact .value _
  | cons r rest ih => exact (hperform r).andThen fun _ => ih

theorem alike_tellStatus (p : ProgramId) (new old : Status) (cs : List (Callback StatusNotice)) :
    AnswersAlike G (tellStatus perform p new old cs) := by
  induction cs with
  | nil => exact .value _
  | cons c rest ih =>
    rintro s _ ⟨f, rs, hG, rfl⟩
    have hcall : AnswersAlike G fun t =>
        andThen (performAll perform (c.requests (s.notice p new old)) t) fun _ u =>
          tellStatus perform p new old rest u :=
      (alike_performAll hperform _).andThen fun _ => ih
    exact hcall (s.record (.status c.tag (s.notice p new old))) _ ⟨f, rs, hG, rfl⟩

theorem alike_announce (p : ProgramId) (new old : Status) :
    AnswersAlike G (announce perform p new old) := by
  rintro s _ ⟨f, rs, hG, rfl⟩
  unfold announce
  dsimp only [behind]
  split
  · exact alike_tellStatus hperform p new old _ (note (.statusChanged old new) s) _
      ⟨f, rs.push _, hG, rfl⟩
  · exact ⟨_, rfl, f, rs, hG, rfl⟩

theorem alike_stop (p : ProgramId) : AnswersAlike G (stop perform p) := by
  rintro s _ ⟨f, rs, hG, rfl⟩
  unfold stop
  rw [status?_behind]
  split
  · exact ⟨_, rfl, f, rs, hG, rfl⟩
  · split
    · exact ⟨_, rfl, f, rs, hG, rfl⟩
    · exact alike_announce hperform p .aborted _ (s.setStatus p .aborted) _ ⟨f, rs, hG, rfl⟩

theorem alike_stopCurrent : AnswersAlike G (stopCurrent perform) := by
  rintro s _ ⟨f, rs, hG, rfl⟩
  unfold stopCurrent
  dsimp only [behind]
  split
  · exact alike_stop hperform _ s _ ⟨f, rs, hG, rfl⟩
  · exact ⟨_, rfl, f, rs, hG, rfl⟩

omit hperform in
theorem alike_claim (p : ProgramId) : AnswersAlike G (claim p) := by
  rintro s _ ⟨f, rs, hG, rfl⟩
  unfold claim
  dsimp only [behind]
  split
  · exact ⟨_, rfl, f, rs, hG, rfl⟩
  · split
    · exact ⟨_, rfl, f, _, hG, rfl⟩
    · split
      · exact ⟨_, rfl, f, rs, hG, rfl⟩
      · exact ⟨_, rfl, f, _, hG, rfl⟩

theorem alike_startClaimed (p : ProgramId) : AnswersAlike G (startClaimed perform p) := by
  have hannounce := AnswersAlike.ite (G := G) (isRunning · p) (fun _ _ _ => rfl)
    (alike_announce hperform p .running .stopped) (.value (.value ()))
  refine hannounce.andThen fun _ => ?_
  rintro s _ ⟨f, rs, hG, rfl⟩
  exact ⟨_, rfl, f, rs, hG, rfl⟩

theorem alike_start (inRuntime : Bool) (p : ProgramId) :
    AnswersAlike G (start perform inRuntime p) := by
  intro s t h
  cases inRuntime with
  | false =>
    obtain ⟨f, rs, hG, rfl⟩ := h
    exact ⟨_, rfl, f, _, hG, rfl⟩
  | true =>
    obtain ⟨u, hclaim, halike⟩ := alike_claim p s t h
    simp only [start, if_true]
    rw [hclaim]
    revert halike
    rcases claim p s with ⟨_ | _, v⟩
    · exact fun halike => ⟨u, rfl, halike⟩
    · exact fun halike => (alike_startClaimed hperform p).map some _ _ halike

theorem alike_tellCallbacks {ν : Type} (event : String → Event) (x : ν) (cs : List (Callback ν)) :
    AnswersAlike G (tellCallbacks perform event x cs) := by
  induction cs with
  | nil => exact .value _
  | cons c rest ih =>
    rintro s _ ⟨f, rs, hG, rfl⟩
    have hcall : AnswersAlike G fun t =>
        andThen (performAll perform (c.requests x) t) fun _ u =>
          tellCallbacks perform event x rest u :=
      (alike_performAll hperform _).andThen fun _ => ih
    exact hcall (s.record (event c.tag)) _ ⟨f, rs, hG, rfl⟩

/-- A scene answers alike when it is asked to play a text. -/
theorem alike_play (inRuntime : Bool) (source : String) :
    AnswersAlike G (play perform inRuntime source) := by
  intro s t h
  cases inRuntime with
  | false => exact ⟨t, rfl, h⟩
  | true =>
    obtain ⟨f, rs, hG, rfl⟩ := h
    cases hplaying : s.isPlaying with
    | true =>
      rw [play_busy source hplaying, play_busy source ((isPlaying_behind f rs s).trans hplaying)]
      exact ⟨_, rfl, f, _, hG, rfl⟩
    | false =>
      rw [play_idle source hplaying,
        play_idle source ((isPlaying_behind f rs s).trans hplaying), noteAll_eq,
        noteAll_eq _ s]
      dsimp only [behind]
      split
      · exact ⟨_, rfl, f, _, hG, rfl⟩
      · exact (alike_startClaimed hperform s.programs.size).map PlayAnswer.started
          (note (.playing _) (accepted source
            { s with remarks := (noteAll (compileRemarks source) s).remarks })) _
          ⟨f, Array.push _ _, hG, rfl⟩

theorem alike_wallHit (m : Move) : AnswersAlike G (wallHit perform m) := by
  refine AnswersAlike.ite (·.scene.present) (fun _ _ _ => rfl) ?_ (.value (Outcome.value ()))
  rintro s _ ⟨f, rs, hG, rfl⟩
  exact alike_tellCallbacks hperform _ m _ (note (.bumped m.target) s) _
    ⟨f, rs.push _, hG, rfl⟩

theorem alike_finishReached (p : Position) : AnswersAlike G (finishReached perform p) := by
  refine (alike_stopCurrent hperform).andThen fun _ => ?_
  refine AnswersAlike.ite (·.scene.complete) (fun _ _ _ => rfl) (.value (Outcome.value ())) ?_
  rintro s _ ⟨f, rs, hG, rfl⟩
  exact alike_tellCallbacks hperform _ p _
    (note (.levelComplete p) { s with scene.complete := true }) _ ⟨f, rs.push _, hG, rfl⟩

/-- One guard answers alike when it is asked in alike sessions. -/
theorem alike_guardAcceptor (g : Guard) (m : Move) (view : Snapshot) :
    AnswersAlike G (guardAcceptor perform g m view) := by
  cases g with
  | bounds b => exact .value _
  | wall w =>
    intro s t h
    unfold guardAcceptor Wall.acceptor Wall.block
    dsimp only
    split
    · exact (alike_wallHit hperform m).map (fun _ => false) s t h
    · exact ⟨t, rfl, h⟩
  | policy verdict => exact .value _

theorem alike_consult (m : Move) (view : Snapshot) (guards : List Guard) :
    AnswersAlike G (consult m view (guards.map (guardAcceptor perform))) := by
  induction guards with
  | nil => exact .value _
  | cons g rest ih =>
    refine (alike_guardAcceptor hperform g m view).andThen fun approved => ?_
    cases approved with
    | true => exact ih
    | false => exact .value _

theorem alike_watcherObserver (w : Watcher) (m : Move) (view : Snapshot) :
    AnswersAlike G (watcherObserver perform w m view) := by
  cases w with
  | finish f =>
    have harrive : AnswersAlike G (f.arrive (host perform) m) := ?_
    exact harrive.map fun _ => ()
    unfold Finish.arrive
    split
    · refine AnswersAlike.ite (·.scene.present) (fun _ _ _ => rfl)
        ((alike_finishReached hperform f.position).map fun _ => true) ?_
      rintro s _ ⟨f, rs, hG, rfl⟩
      exact ⟨_, rfl, f, _, hG, rfl⟩
    · exact .value _
  | client c =>
    rintro s _ ⟨f, rs, hG, rfl⟩
    exact alike_performAll hperform (c.requests m)
      (s.record (.moved c.tag m view.position)) _ ⟨f, rs, hG, rfl⟩

omit hperform in
/-- Of what watchers see of the robot, only its cell matters. -/
theorem tell_congr (m : Move) {view view' : Snapshot} (h : view'.position = view.position)
    (watchers : List Watcher) :
    tell m view' (watchers.map (watcherObserver perform)) =
      tell m view (watchers.map (watcherObserver perform)) := by
  have hwatcher (w : Watcher) :
      watcherObserver perform w m view' = watcherObserver perform w m view := by
    cases w with
    | finish f => rfl
    | client c =>
      unfold watcherObserver
      dsimp only
      rw [h]
  funext s
  induction watchers generalizing s with
  | nil => rfl
  | cons w rest ih =>
    simp only [List.map_cons, tell, hwatcher]
    exact congrArg _ (funext fun _ => funext ih)

/-- Watchers do alike when they are told about a move, whatever they see besides the cell. -/
theorem alike_tell (m : Move) (watchers : List Watcher) (view view' : Snapshot)
    (h : view'.position = view.position) {s t : Session} (halike : Alike G s t) :
    ∃ u, tell m view' (watchers.map (watcherObserver perform)) t =
        ((tell m view (watchers.map (watcherObserver perform)) s).1, u) ∧
      Alike G (tell m view (watchers.map (watcherObserver perform)) s).2 u := by
  have hsame : AnswersAlike G (tell m view (watchers.map (watcherObserver perform))) := by
    induction watchers with
    | nil => exact .value _
    | cons w rest ih => exact (alike_watcherObserver hperform w m view).andThen fun _ => ih
  rw [tell_congr m h]
  exact hsame s t halike

/-- The robot steps alike where related guards judge its moves alike. -/
theorem alike_step (hG : Impartial G) (d : Direction) : AnswersAlike G (step perform d) := by
  have moved {u v : Session} (p : Position) (h : Alike G u v) :
      Alike G { u with scene.position := p } { v with scene.position := p } := by
    obtain ⟨f, rs, hf, rfl⟩ := h
    exact ⟨f, rs, hf, rfl⟩
  have noted {u v : Session} (r : Remark) (h : Alike G u v) : Alike G (note r u) (note r v) := by
    obtain ⟨f, rs, hf, rfl⟩ := h
    exact ⟨f, rs.push r, hf, rfl⟩
  intro s t h
  have hask (m : Move) := hG perform hperform m s t h
  obtain ⟨f, rs, hf, rfl⟩ := h
  have h : Alike G s (s.behind f rs) := ⟨f, rs, hf, rfl⟩
  cases hm : Move.towards? s.scene.position d with
  | none =>
    rw [step_outOfRange hm, step_outOfRange (s := s.behind f rs) hm]
    exact ⟨_, rfl, noted _ h⟩
  | some m =>
    obtain ⟨u, hsame, halike⟩ := hask m
    rcases hasked : ask perform m s with ⟨approved | _, v⟩
    · rw [hasked] at hsame halike
      cases approved with
      | false =>
        rw [step_vetoed hm hasked, step_vetoed (s := s.behind f rs) hm hsame]
        exact ⟨_, rfl, moved _ (noted _ halike)⟩
      | true =>
        -- the robots may show different counts of acceptors, which no watcher looks at
        obtain ⟨w, htells, htold⟩ := alike_tell hperform m s.scene.watchers
          { (s.robot perform).snapshot with position := m.target }
          { ((s.behind f rs).robot perform).snapshot with position := m.target } rfl
          (noted (.committed m) halike)
        rcases htell : tell m { (s.robot perform).snapshot with position := m.target }
          (s.scene.watchers.map (watcherObserver perform)) (note (.committed m) v) with ⟨answer, z⟩
        rw [htell] at htells htold
        rw [step_made hm hasked htell, step_made (s := s.behind f rs) hm hsame htells]
        exact ⟨_, rfl, moved _ htold⟩
    · rw [hasked] at hsame halike
      rw [step_cutShort hm hasked, step_cutShort (s := s.behind f rs) hm hsame]
      exact ⟨_, rfl, moved _ halike⟩

variable (hG : Impartial G)

include hG

theorem alike_act (p : ProgramId) (index : Nat) (a : Action) :
    AnswersAlike G (act perform p index a) := by
  cases a with
  | command d => exact (alike_step hperform hG d).map fun _ => ()
  | script name requests =>
    rintro s _ ⟨f, rs, hf, rfl⟩
    exact alike_performAll hperform requests (s.record (.action p index name)) _ ⟨f, rs, hf, rfl⟩

omit hperform hG in
/-- A task ends alike after calls that answer alike. -/
theorem alike_endTask (k : TaskId) (p : ProgramId) {f : Session → Outcome Unit × Session}
    (hf : AnswersAlike G f) : KeepsAlike G fun s => endTask k p (f s) := by
  intro s t h
  obtain ⟨u, hu, g, rs, hg, rfl⟩ := hf s t h
  dsimp only
  rw [hu]
  refine ⟨g, rs, ?_, ?_⟩
  all_goals revert hg; rcases f s with ⟨_ | _, v⟩
  all_goals first | exact fun hg => hg | exact fun _ => rfl

omit hG in
theorem alike_finishProgram (p : ProgramId) : AnswersAlike G (finishProgram perform p) := by
  refine AnswersAlike.ite (isRunning · p) (fun _ _ _ => rfl) ?_ (.value (Outcome.value ()))
  rintro s _ ⟨f, rs, hf, rfl⟩
  exact alike_announce hperform p .finished .running (s.setStatus p .finished) _ ⟨f, rs, hf, rfl⟩

/-- A task takes its turn alike, whichever actions it plays. -/
theorem alike_playOn (k : TaskId) (p : ProgramId) (q : Program) (left : Nat) :
    KeepsAlike G (playOn perform (act perform) k p q left) := by
  cases left with
  | zero => exact alike_endTask k p (alike_finishProgram hperform p)
  | succ left =>
    have hact (a : Action) := alike_act hperform hG p (q.length - (left + 1)) a
    have hend (r : Remark) : KeepsAlike G fun s => endTask k p (.value (), note r s) := by
      rintro s _ ⟨f, rs, hf, rfl⟩
      exact ⟨f, rs.push r, hf, rfl⟩
    rintro s _ ⟨f, rs, hf, rfl⟩
    have h : Alike G s (s.behind f rs) := ⟨f, rs, hf, rfl⟩
    unfold playOn
    dsimp only
    rw [isRunning_behind]
    split
    · split
      · exact alike_endTask k p (.value (.value ())) s _ h
      · rename_i a ha
        obtain ⟨t, hanswer, halike⟩ := hact a s _ h
        rw [hanswer]
        revert halike
        rcases act perform p (q.length - (left + 1)) a s with ⟨_ | _, u⟩
        · rintro ⟨g, rs', hg, rfl⟩
          exact ⟨g, rs', hg, rfl⟩
        · rintro ⟨g, rs', hg, rfl⟩
          exact ⟨g, rs', hg, rfl⟩
    · exact hend _ s _ h

theorem alike_turn (k : TaskId) (due : Nat) : KeepsAlike G (turn perform k due) := by
  rintro s _ ⟨f, rs, hf, rfl⟩
  have h : Alike G { s with now := max s.now due }
    (behind f rs { s with now := max s.now due }) := ⟨f, rs, hf, rfl⟩
  unfold turn resume resumeBy
  dsimp only [tasks_behind, now_behind, programs_behind]
  split
  · exact h
  · rename_i task htask
    split
    · exact h
    · rename_i q hq
      split
      · exact alike_playOn hperform hG k task.program q q.length _ _ h
      · rename_i left wake hasleep
        change Alike G _ (if Session.isRunning { s with now := max s.now due } task.program then
          _ else _)
        split
        · exact alike_playOn hperform hG k task.program q left _ _ h
        · exact ⟨f, rs.push _, hf, rfl⟩
      · exact h

theorem alike_settle (limit turns : Nat) : KeepsAlike G (settle perform limit turns) := by
  induction turns with
  | zero => exact fun _ _ h => h
  | succ turns ih =>
    rintro s _ ⟨f, rs, hf, rfl⟩
    have h : Alike G s (s.behind f rs) := ⟨f, rs, hf, rfl⟩
    unfold settle
    rw [nextDue?_behind]
    split
    · rename_i k due hdue
      split
      · exact ih _ _ (alike_turn hperform hG k due s _ h)
      · exact h
    · exact h

theorem alike_passUntil (time : Nat) : KeepsAlike G (passUntil perform time) := by
  rintro s _ ⟨f, rs, hf, rfl⟩
  obtain ⟨g, rs', hg, hsettle⟩ :=
    alike_settle hperform hG time s.turnBudget s _ ⟨f, rs, hf, rfl⟩
  refine ⟨g, rs', hg, ?_⟩
  unfold passUntil
  rw [turnBudget_behind, hsettle]
  rfl

/-- Waiting for something that alike sessions have alike. -/
theorem alike_waitFor {α : Type} {done? : Session → Option α}
    (hdone : ∀ s f rs, done? (s.behind f rs) = done? s) (limit turns : Nat) :
    AnswersAlike G (waitFor perform done? limit turns) := by
  induction turns with
  | zero =>
    rintro s _ ⟨f, rs, hf, rfl⟩
    exact ⟨_, congrArg (·, s.behind f rs) (hdone s f rs), f, rs, hf, rfl⟩
  | succ turns ih =>
    rintro s _ ⟨f, rs, hf, rfl⟩
    have h : Alike G s (s.behind f rs) := ⟨f, rs, hf, rfl⟩
    unfold waitFor
    rw [hdone, nextDue?_behind]
    split
    · exact ⟨_, rfl, h⟩
    · split
      · rename_i k due hdue
        split
        · exact ih _ _ (alike_turn hperform hG k due s _ h)
        · exact ⟨_, rfl, h⟩
      · exact ⟨_, rfl, h⟩

theorem alike_await {α : Type} {done? : Session → Option α}
    (hdone : ∀ s f rs, done? (s.behind f rs) = done? s) (ms : Nat) :
    AnswersAlike G (await perform done? ms) := by
  rintro s _ ⟨f, rs, hf, rfl⟩
  obtain ⟨t, hwait, halike⟩ := alike_waitFor hperform hG hdone (s.now + ms) s.turnBudget s _
    ⟨f, rs, hf, rfl⟩
  unfold await
  rw [turnBudget_behind, now_behind, hwait]
  revert halike
  rcases waitFor perform done? (s.now + ms) s.turnBudget s with ⟨_ | a, u⟩
  · exact fun halike => ⟨_, rfl, alike_passUntil hperform hG (s.now + ms) u t halike⟩
  · rintro ⟨g, rs', hg, rfl⟩
    exact ⟨_, rfl, alike_passUntil hperform hG u.now u _ ⟨g, rs', hg, rfl⟩⟩

theorem alike_waitFinal (p : ProgramId) (ms : Nat) : AnswersAlike G (waitFinal perform p ms) := by
  have hfinal : ∀ s f rs, final? p (s.behind f rs) = final? p s := fun _ _ _ => rfl
  intro s t h
  obtain ⟨u, hawait, halike⟩ := alike_await hperform hG hfinal ms s t h
  unfold waitFinal
  rw [hawait]
  revert halike
  rcases await perform (final? p) ms s with ⟨_ | _, v⟩
  · exact fun halike => ⟨u, rfl, halike⟩
  · exact fun halike => ⟨u, rfl, halike⟩

theorem alike_waitCurrent (ms : Nat) : AnswersAlike G (waitCurrent perform ms) := by
  rintro s _ ⟨f, rs, hf, rfl⟩
  unfold waitCurrent
  dsimp only [behind]
  split
  · exact alike_waitFinal hperform hG _ ms s _ ⟨f, rs, hf, rfl⟩
  · exact ⟨_, rfl, f, rs, hf, rfl⟩

theorem alike_join (k : TaskId) (ms : Nat) : AnswersAlike G (join perform k ms) := by
  rintro s _ ⟨f, rs, hf, rfl⟩
  have h : Alike G s (s.behind f rs) := ⟨f, rs, hf, rfl⟩
  unfold join
  rw [tasks_behind]
  split
  · have hending : ∀ s f rs, ending? k (s.behind f rs) = ending? k s := fun _ _ _ => rfl
    obtain ⟨u, hawait, halike⟩ := alike_await hperform hG hending ms s _ h
    rw [hawait]
    revert halike
    rcases await perform (ending? k) ms s with ⟨_ | _, v⟩
    · exact fun halike => ⟨u, rfl, halike⟩
    · rintro ⟨g, rs', hg, rfl⟩
      exact ⟨_, rfl, g, rs', hg, rfl⟩
  · exact ⟨_, rfl, h⟩

omit hperform hG in
theorem alike_answered {α : Type} (g : α → CallAnswer) {f : Session → Outcome α × Session}
    (hf : AnswersAlike G f) : AnswersAlike G fun s => answered g (f s) := by
  intro s t h
  obtain ⟨u, hu, halike⟩ := hf s t h
  dsimp only
  rw [hu]
  revert halike
  rcases f s with ⟨_ | _, v⟩
  · exact fun halike => ⟨u, rfl, halike⟩
  · exact fun halike => ⟨u, rfl, halike⟩

/-- What a client does has alike answers in alike sessions, if it subscribes no policy that tells
related fences apart. -/
theorem alike_call (c : Call) (hc : ∀ verdict, c = .guard verdict → Receives G verdict) :
    AnswersAlike G (call perform c) := by
  have waited {α : Type} (g : α → CallAnswer) {f : Session → α × Session}
      (hf : AnswersAlike G f) : AnswersAlike G fun s => (g (f s).1, (f s).2) := by
    intro s t h
    obtain ⟨u, hu, halike⟩ := hf s t h
    exact ⟨u, by dsimp only; rw [hu], halike⟩
  cases c with
  | advance ms =>
    rintro s _ ⟨f, rs, hf, rfl⟩
    exact ⟨_, rfl, alike_passUntil hperform hG (s.now + ms) s _ ⟨f, rs, hf, rfl⟩⟩
  | join k ms => exact waited .joined (alike_join hperform hG k ms)
  | waitFinal p ms => exact waited .waited (alike_waitFinal hperform hG p ms)
  | waitCurrent ms => exact waited .waited (alike_waitCurrent hperform hG ms)
  | start inRuntime p => exact alike_answered _ (alike_start hperform inRuntime p)
  | stop p => exact alike_answered _ (alike_stop hperform p)
  | play inRuntime source => exact alike_answered _ (alike_play hperform inRuntime source)
  | stopCurrent => exact alike_answered _ (alike_stopCurrent hperform)
  | step d => exact alike_answered _ (alike_step hperform hG d)
  | finishReached p => exact alike_answered _ (alike_finishReached hperform p)
  | guard verdict =>
    rintro s _ ⟨f, rs, hf, rfl⟩
    exact ⟨_, rfl, f.extend verdict, rs, hc verdict rfl s.fence f hf, rfl⟩
  | subscribe | watch | pollWatch | reset | look | onMove | onStatus | onComplete | onWall
  | dropScene =>
    rintro s _ ⟨f, rs, hf, rfl⟩
    exact ⟨_, rfl, f, rs, hf, rfl⟩

/-- What comes to pass has alike answers in alike sessions. -/
theorem alike_respond (h : Happening)
    (hh : ∀ verdict, h = .call (.guard verdict) → Receives G verdict) :
    AnswersAlike G (respond perform h) := by
  cases h with
  | call c => exact alike_call hperform hG c fun verdict hc => hh verdict (congrArg _ hc)
  | turn k due => exact fun s t halike => ⟨_, rfl, alike_turn hperform hG k due s t halike⟩

/-- A history leaves alike sessions alike, if it subscribes no policy that tells related fences
apart. -/
theorem alike_after {hs : List Happening}
    (hhs : ∀ verdict, .call (.guard verdict) ∈ hs → Receives G verdict) :
    KeepsAlike G (after perform hs) := by
  induction hs with
  | nil => exact fun _ _ h => h
  | cons h rest ih =>
    intro s t halike
    have hhappen : AnswersAlike G (respond perform h) :=
      alike_respond hperform hG h fun verdict hh => hhs verdict (hh ▸ List.mem_cons_self)
    obtain ⟨u, hsame, hthen⟩ := hhappen s t halike
    rw [after_cons, after_cons, happen_eq_respond, happen_eq_respond, hsame]
    exact ih (fun verdict hmem => hhs verdict (List.mem_cons_of_mem _ hmem)) _ _ hthen

end Callbacks

/-- However deep requests are nested, they are carried out alike in alike sessions. -/
theorem performWithin_answersAlike (G : Fence → Fence → Prop) (depth : Nat) :
    (performWithin depth).AnswersAlike G := by
  have recorded {α : Type} (event : α → Event) (a : α) :
      AnswersAlike G fun s => (Outcome.value (), s.record (event a)) := by
    rintro s _ ⟨f, rs, hf, rfl⟩
    exact ⟨_, rfl, f, rs, hf, rfl⟩
  induction depth with
  | zero => exact fun _ => .value _
  | succ depth ih =>
    intro r
    cases r with
    | stop p => exact alike_stop ih p
    | start p =>
      exact (alike_start ih true p).andThen
        (recorded fun k : Option TaskId => .started p k.isSome)
    | subscribe p tag =>
      rintro s _ ⟨f, rs, hf, rfl⟩
      exact ⟨_, rfl, f, rs, hf, rfl⟩
    | stopCurrent => exact alike_stopCurrent ih
    | play source => exact (alike_play ih true source).andThen (recorded .played)
    | panic => exact .value _

end Session

end GridPuzzle
