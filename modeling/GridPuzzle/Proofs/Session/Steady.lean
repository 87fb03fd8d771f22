import GridPuzzle.Proofs.Robot.Step
import GridPuzzle.Proofs.Session.Asking

/-!
# What requests bring about

Callbacks ask for whatever they are allowed to, and requests nest. A relation between sessions is
told whether the call between them came to its end or was cut short by a panic. It is steady when it
bears every calm change, one after the other, and a program that is claimed on the way: either its
task is started, or a panic cuts the call short. Whatever is asked for, and however deep requests
are nested, the session before and the one after stand in every steady relation. Sequences of
primitive changes are one of them, and nothing is forbidden there.
-/

namespace GridPuzzle

/-- Whether a call came to its end, and was not cut short by a panic. -/
def Outcome.isWhole {α : Type} : Outcome α → Bool
  | .value _ => true
  | .panicked => false

@[simp] theorem Outcome.isWhole_value {α : Type} (a : α) : (Outcome.value a).isWhole = true := rfl

@[simp] theorem Outcome.isWhole_panicked {α : Type} :
    (Outcome.panicked : Outcome α).isWhole = false := rfl

namespace Session

/-- A relation between sessions that bears whatever allowed requests bring about: calm changes, and
the claim of a program whose task is started in the end, unless a panic cuts the call short. -/
structure Steady (allowed : Request → Prop) (R : Bool → Session → Session → Prop) : Prop where
  refl : ∀ whole s, R whole s s
  trans : ∀ {whole s t u}, R true s t → R whole t u → R whole s u
  /-- Sessions in which something else may be asked for do not matter. -/
  given : ∀ {whole} {s t : Session}, (s.AsksOnly allowed → R whole s t) → R whole s t
  changes : ∀ {whole} {s t : Session}, s.AsksOnly allowed → R whole s t → Changes s t
  calm : ∀ {s t}, Calm allowed s t → R true s t
  spawned : ∀ {s t u : Session} {p : ProgramId}, Begins allowed p s t → R true t u →
    R true s (u.spawned p)
  cutShort : ∀ {s t u : Session} {p : ProgramId}, Begins allowed p s t → R false t u → R false s u

/-- A sequence of primitive changes is what requests bring about. -/
theorem Changes.steady : Steady (fun _ => True) fun _ => Changes where
  refl _ _ := .refl
  trans := Relation.ReflTransGen.trans
  given {_ s _} h := h (.anything s)
  changes _ h := h
  calm h := .single h.change
  spawned h hafter :=
    (Relation.ReflTransGen.head h.change hafter).tail (.spawn (hafter.claimed h.claimed))
  cutShort h hafter := .head h.change hafter

/-- A way to carry out allowed requests that stays within a relation. -/
def Perform.Within (perform : Perform) (allowed : Request → Prop)
    (R : Bool → Session → Session → Prop) : Prop :=
  ∀ r s, allowed r → R (perform r s).1.isWhole s (perform r s).2

/-- A way to carry out requests that only makes primitive changes. -/
def Perform.Orderly (perform : Perform) : Prop := perform.Within (fun _ => True) fun _ => Changes

/-- Going on after a call keeps what both parts keep. -/
theorem andThen_keeps {P : Session → Prop} {α β : Type} {call : Outcome α × Session}
    {next : α → Session → Outcome β × Session} (h : P call.2)
    (hnext : ∀ a t, P t → P (next a t).2) : P (andThen call next).2 := by
  obtain ⟨answer, t⟩ := call
  cases answer with
  | value a => exact hnext a t h
  | panicked => exact h

/-- Status observers find the robot where it stands. -/
theorem notice_position (s : Session) (p : ProgramId) (new old : Status) :
    (s.notice p new old).position = s.scene.position := by
  unfold notice
  split <;> rfl

/-- A claim fails and leaves a remark at most, or it sets a program running that could be
started. -/
theorem claim_cases (p : ProgramId) (s : Session) :
    claim p s = (false, s) ∨ (∃ r, claim p s = (false, note r s)) ∨
      ∃ q, s.programs[p]? = some q ∧ q.isClaimable = true ∧
        claim p s = (true, s.setStatus p .running) := by
  unfold claim
  split
  · exact .inl rfl
  · rename_i q hq
    split
    · exact .inr (.inl ⟨_, rfl⟩)
    · rename_i hempty
      split
      · rename_i hstopped
        exact .inr (.inr ⟨q, hq, by simp [Program.isClaimable, hempty, hstopped], rfl⟩)
      · exact .inr (.inl ⟨_, rfl⟩)

private theorem modify_push {α : Type} (xs : Array α) (a : α) (f : α → α) :
    (xs.push a).modify xs.size f = xs.push (f a) := by
  apply Array.ext_getElem?
  intro i
  rw [Array.getElem?_modify, Array.getElem?_push, Array.getElem?_push]
  split
  · rename_i h
    subst h
    simp
  · rename_i h
    rw [if_neg (Ne.symm h), if_neg (Ne.symm h)]

/-- Remarks are kept apart from everything else. -/
theorem noteAll_eq (remarks : List Remark) (s : Session) :
    noteAll remarks s = { s with remarks := (noteAll remarks s).remarks } := by
  induction remarks generalizing s with
  | nil => rfl
  | cons r rest ih => exact ih (note r s)

/-- A program just made is claimed where it is made, unless there is nothing to play. -/
private theorem claim_push (s : Session) {q : Program} (hq : q.status = .stopped) :
    claim s.programs.size { s with programs := s.programs.push q } =
      (!q.isEmpty, (if q.isEmpty then note .emptyProgram else id)
        { s with programs := s.programs.push q.claimed }) := by
  simp only [claim, Array.getElem?_push_size, hq, Program.claimed, if_true, setStatus]
  by_cases hempty : q.isEmpty = true
  · simp [hempty]
  · simp [hempty, modify_push]

section Play

variable {perform : Perform}

/-- What a scene does with a text while it plays nothing. -/
theorem play_idle (source : String) {s : Session} (h : s.isPlaying = false) :
    play perform true source s =
      let q := Program.ofSource source s.scene.delay s.scene.statusObservers
      let t := accepted source (noteAll (compileRemarks source) s)
      if q.isEmpty then (.value .idle, note .emptyProgram t)
      else
        andThen (startClaimed perform s.programs.size (note (.playing q.length) t)) fun k s =>
          (.value (.started k), s) := by
  have hclaim := claim_push { s with remarks := (noteAll (compileRemarks source) s).remarks }
    (q := Program.ofSource source s.scene.delay s.scene.statusObservers) rfl
  unfold play
  rw [noteAll_eq]
  simp only [h, Bool.not_true, Bool.false_eq_true, if_false] at hclaim ⊢
  rw [hclaim]
  by_cases hempty :
      (Program.ofSource source s.scene.delay s.scene.statusObservers).isEmpty = true
  · simp only [hempty, reset, accepted, if_true, Bool.not_true, Bool.false_eq_true, if_false]
    rfl
  · simp [hempty, reset, accepted]

/-- What a scene does with a text while it plays another one. -/
theorem play_busy (source : String) {s : Session} (h : s.isPlaying = true) :
    play perform true source s = (.value (.refused .programRunning), note .rejected s) := by
  unfold play
  simp only [h, Bool.not_true, Bool.false_eq_true, if_false, if_true]

/-- The start of a claimed program announces it, and then starts its task unless an observer has
panicked. -/
theorem startClaimed_eq (p : ProgramId) (s : Session) :
    startClaimed perform p s =
      andThen (if s.isRunning p then announce perform p .running .stopped s else (.value (), s))
        fun _ s => (.value s.tasks.size, s.spawned p) := rfl

/-- The first wall on the target of a move refuses it and tells about it, so that is done once
however often the cell is listed. -/
theorem consult_wallGuards (m : Move) (view : Snapshot) (walls : List Wall) (s : Session) :
    consult m view ((walls.map Guard.wall).map (guardAcceptor perform)) s =
      if m.target ∈ walls.map Wall.position then
        andThen (wallHit perform m s) fun _ t => (.value false, t)
      else
        (.value true, s) := by
  induction walls with
  | nil => rfl
  | cons w rest ih =>
    have hblock : guardAcceptor perform (.wall w) m view s =
        w.block (wallHit perform) m s := rfl
    simp only [List.map_cons, consult, hblock, Wall.block]
    by_cases hw : m.target = w.position
    · rw [if_pos hw, if_pos (hw ▸ List.mem_cons_self)]
      rcases wallHit perform m s with ⟨_ | _, t⟩ <;> rfl
    · simp only [hw, if_false, andThen_value, if_true, ih, List.mem_cons, false_or]

/-- The guards of the scene are asked about a move. -/
def ask (perform : Perform) (m : Move) (s : Session) : Outcome Bool × Session :=
  consult m (s.robot perform).snapshot (s.robot perform).acceptors s

section Ways

variable {perform : Perform} {d : Direction} {m : Move} {s t u : Session}

theorem step_outOfRange (hm : Move.towards? s.scene.position d = none) :
    step perform d s = (.value false, note (.outOfRange d s.scene.position) s) := by
  unfold step
  rw [Robot.step_outOfRange (r := s.robot perform) hm]
  rfl

theorem step_cutShort (hm : Move.towards? s.scene.position d = some m)
    (hasked : ask perform m s = (.panicked, t)) :
    step perform d s = (.panicked, { t with scene.position := s.scene.position }) := by
  unfold step
  rw [Robot.step_cutShort (r := s.robot perform) hm hasked]
  rfl

theorem step_vetoed (hm : Move.towards? s.scene.position d = some m)
    (hasked : ask perform m s = (.value false, t)) :
    step perform d s =
      (.value false, { note (.vetoed m) t with scene.position := s.scene.position }) := by
  unfold step
  rw [Robot.step_vetoed (r := s.robot perform) hm hasked]
  rfl

theorem step_made {answer : Outcome Unit} (hm : Move.towards? s.scene.position d = some m)
    (hasked : ask perform m s = (.value true, t))
    (htold : tell m { (s.robot perform).snapshot with position := m.target }
      (s.scene.watchers.map (watcherObserver perform)) (note (.committed m) t) = (answer, u)) :
    step perform d s = (Robot.made answer, { u with scene.position := m.target }) := by
  unfold step
  rw [Robot.step_made (r := s.robot perform) hm hasked htold]
  rfl

end Ways

/-- How a step of the robot ends: out of range, at a guard that panics or refuses, or with watchers
told, up to one that panics. -/
inductive StepEnds (perform : Perform) (d : Direction) (s : Session) :
    Outcome Bool × Session → Prop
  | outOfRange (h : Move.towards? s.scene.position d = none) :
      StepEnds perform d s (.value false, note (.outOfRange d s.scene.position) s)
  | cutShort {m : Move} {t : Session} (h : Move.towards? s.scene.position d = some m)
      (hconsult : consult m (s.robot perform).snapshot
        (s.scene.guards.map (guardAcceptor perform)) s = (.panicked, t)) :
      StepEnds perform d s (.panicked, { t with scene.position := s.scene.position })
  | vetoed {m : Move} {t : Session} (h : Move.towards? s.scene.position d = some m)
      (hconsult : consult m (s.robot perform).snapshot
        (s.scene.guards.map (guardAcceptor perform)) s = (.value false, t)) :
      StepEnds perform d s
        (.value false, { note (.vetoed m) t with scene.position := s.scene.position })
  | toldInPart {m : Move} {t u : Session} (h : Move.towards? s.scene.position d = some m)
      (hconsult : consult m (s.robot perform).snapshot
        (s.scene.guards.map (guardAcceptor perform)) s = (.value true, t))
      (htell : tell m { (s.robot perform).snapshot with position := m.target }
        (s.scene.watchers.map (watcherObserver perform)) (note (.committed m) t) = (.panicked, u)) :
      StepEnds perform d s (.panicked, { u with scene.position := m.target })
  | told {m : Move} {t u : Session} (h : Move.towards? s.scene.position d = some m)
      (hconsult : consult m (s.robot perform).snapshot
        (s.scene.guards.map (guardAcceptor perform)) s = (.value true, t))
      (htell : tell m { (s.robot perform).snapshot with position := m.target }
        (s.scene.watchers.map (watcherObserver perform)) (note (.committed m) t) =
          (.value (), u)) :
      StepEnds perform d s (.value true, { u with scene.position := m.target })

theorem step_ends (d : Direction) (s : Session) : StepEnds perform d s (step perform d s) := by
  cases hm : Move.towards? s.scene.position d with
  | none =>
    rw [step_outOfRange hm]
    exact .outOfRange hm
  | some m =>
    rcases hasked : ask perform m s with ⟨approved | _, t⟩
    · cases approved with
      | false =>
        rw [step_vetoed hm hasked]
        exact .vetoed hm hasked
      | true =>
        rcases htold : tell m { (s.robot perform).snapshot with position := m.target }
          (s.scene.watchers.map (watcherObserver perform)) (note (.committed m) t) with ⟨_ | _, u⟩
        · rw [step_made hm hasked htold]
          exact .told hm hasked htold
        · rw [step_made hm hasked htold]
          exact .toldInPart hm hasked htold
    · rw [step_cutShort hm hasked]
      exact .cutShort hm hasked

end Play

namespace Steady

variable {allowed : Request → Prop} {R : Bool → Session → Session → Prop} (hR : Steady allowed R)

include hR

theorem head {whole : Bool} {s t u : Session} (h : Calm allowed s t) (h' : R whole t u) :
    R whole s u := hR.trans (hR.calm h) h'

theorem tail {s t u : Session} (h : R true s t) (h' : Calm allowed t u) : R true s u :=
  hR.trans h (hR.calm h')

/-- Going on after a call, unless it was cut short. -/
theorem andThen {α β : Type} {s : Session} {call : Outcome α × Session}
    {next : α → Session → Outcome β × Session} (h : R call.1.isWhole s call.2)
    (hnext : ∀ a t, R true s t → R (next a t).1.isWhole t (next a t).2) :
    R (andThen call next).1.isWhole s (andThen call next).2 := by
  obtain ⟨answer, t⟩ := call
  cases answer with
  | value a => exact hR.trans h (hnext a t h)
  | panicked => exact h

/-- A call may answer something else, and leave what it leaves. -/
theorem answering {α β : Type} {s : Session} {call : Outcome α × Session} {f : α → β}
    (h : R call.1.isWhole s call.2) :
    R (GridPuzzle.andThen call fun a t => (.value (f a), t)).1.isWhole s
      (GridPuzzle.andThen call fun a t => (.value (f a), t)).2 :=
  hR.andThen h fun _ t _ => hR.refl true t

/-- Several remarks in a row. -/
theorem noteAll (remarks : List Remark) (s : Session) : R true s (noteAll remarks s) := by
  induction remarks generalizing s with
  | nil => exact hR.refl true s
  | cons r rest ih => exact hR.head (.note s r) (ih _)

variable {perform : Perform} (hperform : perform.Within allowed R)

include hperform

theorem performAll {requests : List Request} (hrequests : ∀ r ∈ requests, allowed r)
    (s : Session) :
    R (performAll perform requests s).1.isWhole s (performAll perform requests s).2 := by
  induction requests generalizing s with
  | nil => exact hR.refl true s
  | cons r rest ih =>
    have hrest := ih fun r' hr' => hrequests r' (List.mem_cons_of_mem _ hr')
    exact hR.andThen (hperform r s (hrequests r List.mem_cons_self)) fun _ t _ => hrest t

/-- An action of a client writes its name down and then asks for something. -/
theorem script (p : ProgramId) (index : Nat) (name : String) {requests : List Request}
    (hrequests : ∀ r ∈ requests, allowed r) (s : Session) :
    R (Session.performAll perform requests (s.record (.action p index name))).1.isWhole s
      (Session.performAll perform requests (s.record (.action p index name))).2 :=
  hR.head (.record s rfl) (hR.performAll hperform hrequests _)

theorem tellStatus (p : ProgramId) (new old : Status) {cs : List (Callback StatusNotice)}
    (hcs : ∀ c ∈ cs, c.AsksOnly allowed) (s : Session) :
    R (tellStatus perform p new old cs s).1.isWhole s (tellStatus perform p new old cs s).2 := by
  induction cs generalizing s with
  | nil => exact hR.refl true s
  | cons c rest ih =>
    have hcall := hR.performAll hperform (hcs c List.mem_cons_self (s.notice p new old))
      (s.record (.status c.tag (s.notice p new old)))
    have hrest := ih fun c' hc' => hcs c' (List.mem_cons_of_mem _ hc')
    exact hR.andThen (hR.head (.tell s c.tag (notice_position s p new old)) hcall)
      fun _ t _ => hrest t

theorem announce (p : ProgramId) (new old : Status) (s : Session) :
    R (announce perform p new old s).1.isWhole s (announce perform p new old s).2 := by
  unfold Session.announce
  split
  · rename_i q hq
    exact hR.given fun hasks =>
      hR.head (.note s _) (hR.tellStatus hperform p new old (hasks.observers p q hq) _)
  · exact hR.refl true s

theorem stop {p : ProgramId} (hp : allowed (.stop p)) (s : Session) :
    R (stop perform p s).1.isWhole s (stop perform p s).2 := by
  unfold Session.stop
  split
  · exact hR.refl true s
  · rename_i old hold
    split
    · exact hR.refl true s
    · rename_i hopen
      exact hR.head (.abort hp hold (by simpa using hopen)) (hR.announce hperform _ _ _ _)

theorem stopCurrent (s : Session) :
    R (stopCurrent perform s).1.isWhole s (stopCurrent perform s).2 := by
  unfold Session.stopCurrent
  split
  · rename_i p hslot
    exact hR.given fun hasks => hR.stop hperform (hasks.slot p hslot) s
  · exact hR.refl true s

/-- The start of a claimed program brings about what its announcement does, and then a task unless
an observer has panicked. -/
theorem startClaimed_cases (p : ProgramId) (s : Session) :
    ∃ t, R (startClaimed perform p s).1.isWhole s t ∧
      (startClaimed perform p s = (.panicked, t) ∨
        startClaimed perform p s = (.value t.tasks.size, t.spawned p)) := by
  rw [startClaimed_eq]
  split
  · have hannounce := hR.announce hperform p .running .stopped s
    revert hannounce
    rcases Session.announce perform p .running .stopped s with ⟨_ | _, t⟩
    · exact fun ht => ⟨t, ht, .inr rfl⟩
    · exact fun ht => ⟨t, ht, .inl rfl⟩
  · exact ⟨s, hR.refl true s, .inr rfl⟩

/-- The start of a program that was claimed on the way. -/
theorem startClaimed {s t u : Session} {p : ProgramId} (h : Begins allowed p s t)
    (h' : R true t u) :
    R (startClaimed perform p u).1.isWhole s (startClaimed perform p u).2 := by
  obtain ⟨v, hv, hstart | hstart⟩ := hR.startClaimed_cases hperform p u
  · rw [hstart] at hv ⊢
    exact hR.cutShort h (hR.trans h' hv)
  · rw [hstart] at hv ⊢
    exact hR.spawned h (hR.trans h' hv)

theorem start (inRuntime : Bool) (p : ProgramId) (s : Session) :
    R (start perform inRuntime p s).1.isWhole s (start perform inRuntime p s).2 := by
  unfold Session.start
  cases inRuntime with
  | false => exact hR.calm (.note s _)
  | true =>
    rcases claim_cases p s with hclaim | ⟨r, hclaim⟩ | ⟨q, hq, hclaimable, hclaim⟩
    · rw [hclaim]
      exact hR.refl true s
    · rw [hclaim]
      exact hR.calm (.note s r)
    · rw [hclaim]
      exact hR.answering (hR.startClaimed hperform (.claim hq hclaimable) (hR.refl true _))

theorem tellCallbacks {ν : Type} {event : String → Event}
    (hevent : ∀ tag, (event tag).place? = none) (x : ν) {cs : List (Callback ν)}
    (hcs : ∀ c ∈ cs, c.AsksOnly allowed) (s : Session) :
    R (tellCallbacks perform event x cs s).1.isWhole s
      (tellCallbacks perform event x cs s).2 := by
  induction cs generalizing s with
  | nil => exact hR.refl true s
  | cons c rest ih =>
    have hcall := hR.performAll hperform (hcs c List.mem_cons_self x) (s.record (event c.tag))
    have hrest := ih fun c' hc' => hcs c' (List.mem_cons_of_mem _ hc')
    exact hR.andThen (hR.head (.record s (hevent c.tag)) hcall) fun _ t _ => hrest t

theorem play (inRuntime : Bool) (source : String) (s : Session) :
    R (play perform inRuntime source s).1.isWhole s (play perform inRuntime source s).2 := by
  cases inRuntime with
  | false => exact hR.refl true s
  | true =>
    cases h : s.isPlaying with
    | true =>
      rw [play_busy source h]
      exact hR.calm (.note s _)
    | false =>
      have hnoted := hR.noteAll (compileRemarks source) s
      rw [play_idle source h]
      rw [noteAll_eq] at hnoted ⊢
      dsimp only
      split
      · rename_i hempty
        exact hR.tail (hR.tail hnoted (.accept h hempty)) (.note _ _)
      · rename_i hplays
        have haccept : Begins allowed _ _ _ := .accept
          (s := { s with remarks := (GridPuzzle.noteAll (compileRemarks source) s).remarks })
          h (by simpa using hplays)
        exact hR.answering (hR.trans hnoted (hR.startClaimed hperform haccept
          (hR.calm (.note _ (.playing _)))))

theorem wallHit (m : Move) (s : Session) :
    R (wallHit perform m s).1.isWhole s (wallHit perform m s).2 := by
  unfold Session.wallHit
  split
  · exact hR.given fun hasks =>
      hR.head (.note s _) (hR.tellCallbacks hperform (fun _ => rfl) _ hasks.bumps _)
  · exact hR.refl true s

theorem finishReached (p : Position) (s : Session) :
    R (finishReached perform p s).1.isWhole s (finishReached perform p s).2 := by
  unfold Session.finishReached
  refine hR.andThen (hR.stopCurrent hperform s) fun _ t _ => ?_
  split
  · exact hR.refl true t
  · refine hR.given fun hasks => ?_
    refine hR.head (.complete t) (hR.head (.note _ (.levelComplete p)) ?_)
    exact hR.tellCallbacks hperform (fun _ => rfl) _ hasks.completions _

theorem guardAcceptor (g : Guard) (m : Move) (view : Snapshot) (s : Session) :
    R (guardAcceptor perform g m view s).1.isWhole s (guardAcceptor perform g m view s).2 := by
  cases g with
  | bounds b => exact hR.refl true s
  | wall w =>
    change R (w.block (Session.wallHit perform) m s).1.isWhole s
      (w.block (Session.wallHit perform) m s).2
    unfold Wall.block
    split
    · exact hR.answering (hR.wallHit hperform m s)
    · exact hR.refl true s
  | policy verdict => exact hR.refl true s

theorem consult (m : Move) (view : Snapshot) (guards : List Guard) (s : Session) :
    R (consult m view (guards.map (Session.guardAcceptor perform)) s).1.isWhole s
      (consult m view (guards.map (Session.guardAcceptor perform)) s).2 := by
  induction guards generalizing s with
  | nil => exact hR.refl true s
  | cons g rest ih =>
    refine hR.andThen (hR.guardAcceptor hperform g m view s) fun approved t _ => ?_
    split
    · exact ih t
    · exact hR.refl true t

omit hR hperform in
/-- A guard that lets a move pass admits its target. -/
theorem guardAcceptor_admits {g : Guard} {m : Move} {view : Snapshot} {s t : Session}
    (h : Session.guardAcceptor perform g m view s = (.value true, t)) : g.Admits m.target := by
  cases g with
  | bounds b => exact Outcome.value.inj (congrArg Prod.fst h)
  | wall w =>
    change w.block (Session.wallHit perform) m s = (.value true, t) at h
    unfold Wall.block at h
    split at h
    · revert h
      rcases Session.wallHit perform m s with ⟨answer, u⟩
      cases answer <;> exact nofun
    · rename_i hne
      exact hne
  | policy verdict => trivial

omit hR hperform in
/-- When nobody refuses a move, every guard admits its target. -/
theorem consult_admits {m : Move} {view : Snapshot} {guards : List Guard} {s t : Session}
    (h : GridPuzzle.consult m view (guards.map (Session.guardAcceptor perform)) s =
      (.value true, t)) : ∀ g ∈ guards, g.Admits m.target := by
  induction guards generalizing s with
  | nil => simp
  | cons g rest ih =>
    rw [List.map_cons, GridPuzzle.consult] at h
    cases hg : Session.guardAcceptor perform g m view s with
    | mk answer u =>
      rw [hg] at h
      cases answer with
      | panicked => cases h
      | value approved =>
        cases approved with
        | false => cases h
        | true =>
          intro g' hg'
          rcases List.mem_cons.mp hg' with rfl | hrest
          · exact guardAcceptor_admits hg
          · exact ih h g' hrest

theorem watcherObserver {w : Watcher} (hw : ∀ c, w = .client c → c.AsksOnly allowed) {m : Move}
    {view : Snapshot} {s : Session} (hview : view.position = m.target)
    (hm : s.Admits m.target) :
    R (watcherObserver perform w m view s).1.isWhole s (watcherObserver perform w m view s).2 := by
  cases w with
  | finish f =>
    have harrive : R (f.arrive (host perform) m s).1.isWhole s (f.arrive (host perform) m s).2 := ?_
    exact hR.answering harrive
    unfold Finish.arrive
    split
    · split
      · exact hR.answering (hR.finishReached hperform f.position s)
      · exact hR.calm (.note s _)
    · exact hR.refl true s
  | client c =>
    change R (Session.performAll perform (c.requests m)
      (s.record (.moved c.tag m view.position))).1.isWhole s (Session.performAll perform
        (c.requests m) (s.record (.moved c.tag m view.position))).2
    rw [hview]
    exact hR.head (.witness c.tag hm) (hR.performAll hperform (hw c rfl m) _)

theorem tell {watchers : List Watcher}
    (hwatchers : ∀ c, Watcher.client c ∈ watchers → c.AsksOnly allowed) {m : Move}
    {view : Snapshot} {s : Session} (hview : view.position = m.target)
    (hm : s.Admits m.target) :
    R (tell m view (watchers.map (Session.watcherObserver perform)) s).1.isWhole s
      (tell m view (watchers.map (Session.watcherObserver perform)) s).2 := by
  induction watchers generalizing s with
  | nil => exact hR.refl true s
  | cons w rest ih =>
    have hw : ∀ c, w = .client c → c.AsksOnly allowed := fun c hc =>
      hwatchers c (hc ▸ List.mem_cons_self)
    have hrest := fun c hc => hwatchers c (List.mem_cons_of_mem w hc)
    refine hR.given fun hasks => ?_
    exact hR.andThen (hR.watcherObserver hperform hw hview hm) fun _ t ht =>
      ih hrest ((hR.changes hasks ht).admits hm)

/-- A step brings something about and then puts the robot where it was, or on the target of a move
that every guard admits. -/
theorem step_cases (d : Direction) (s : Session) :
    ∃ t, R (step perform d s).1.isWhole s t ∧
      ((step perform d s).2 = { t with scene.position := s.scene.position } ∨
        ∃ m, Move.towards? s.scene.position d = some m ∧ s.Admits m.target ∧
          (step perform d s).2 = { t with scene.position := m.target }) := by
  have hends : StepEnds perform d s (Session.step perform d s) := step_ends d s
  have consulted {m : Move} {call : Outcome Bool × Session}
      (hcall : GridPuzzle.consult m (s.robot perform).snapshot
        (s.scene.guards.map (Session.guardAcceptor perform)) s = call) :
      R call.1.isWhole s call.2 := by
    rw [← hcall]
    exact hR.consult hperform m _ s.scene.guards s
  have committed {m : Move} {t : Session} {call : Outcome Unit × Session}
      (ht : GridPuzzle.consult m (s.robot perform).snapshot
        (s.scene.guards.map (Session.guardAcceptor perform)) s = (.value true, t))
      (hcall : GridPuzzle.tell m { (s.robot perform).snapshot with position := m.target }
        (s.scene.watchers.map (Session.watcherObserver perform)) (note (.committed m) t) = call) :
      R call.1.isWhole s call.2 ∧ s.Admits m.target := by
    have hadmits : s.Admits m.target := consult_admits ht
    -- observers may ask for anything, but no change takes a guard away
    have hnoted : R true s (note (.committed m) t) := hR.tail (consulted ht) (.note t _)
    rw [← hcall]
    refine ⟨hR.given fun hasks => hR.trans hnoted ?_, hadmits⟩
    exact hR.tell hperform hasks.watchers rfl ((hR.changes hasks hnoted).admits hadmits)
  generalize Session.step perform d s = call at hends ⊢
  cases hends with
  | outOfRange _ => exact ⟨_, hR.calm (.note s _), .inl rfl⟩
  | @cutShort m t _ ht => exact ⟨t, consulted ht, .inl rfl⟩
  | vetoed _ ht => exact ⟨note (.vetoed _) _, hR.tail (consulted ht) (.note _ _), .inl rfl⟩
  | @toldInPart m t u hm ht hu =>
    obtain ⟨htold, hadmits⟩ := committed ht hu
    exact ⟨u, htold, .inr ⟨m, hm, hadmits, rfl⟩⟩
  | @told m t u hm ht hu =>
    obtain ⟨htold, hadmits⟩ := committed ht hu
    exact ⟨u, htold, .inr ⟨m, hm, hadmits, rfl⟩⟩

omit hperform in
/-- However deep requests are nested, they stay within a steady relation. -/
theorem performWithin (depth : Nat) : (performWithin depth).Within allowed R := by
  induction depth with
  | zero => exact fun _ s _ => hR.refl false s
  | succ depth ih =>
    intro r s hr
    cases r with
    | stop p => exact hR.stop ih hr s
    | start p =>
      exact hR.andThen (hR.start ih true p s) fun _ t _ => hR.calm (.record t rfl)
    | subscribe p tag => exact hR.calm (.follow s p tag)
    | stopCurrent => exact hR.stopCurrent ih s
    | play source =>
      exact hR.andThen (hR.play ih true source s) fun _ t _ => hR.calm (.record t rfl)
    | panic => exact hR.refl false s

end Steady

/-- However deep requests are nested, they only make primitive changes. -/
theorem performWithin_orderly (depth : Nat) : (performWithin depth).Orderly :=
  Changes.steady.performWithin depth

variable {perform : Perform} (hperform : perform.Orderly)

include hperform

/-- What every primitive change keeps, wherever the robot stands, a step keeps. -/
theorem step_keeps {P : Session → Prop} (hchange : ∀ {s t}, Change s t → P s → P t)
    (hmove : ∀ {s : Session} (p : Position), P s → P { s with scene.position := p })
    (d : Direction) {s : Session} (hs : P s) : P (step perform d s).2 := by
  obtain ⟨t, ht, hstep | ⟨m, -, -, hstep⟩⟩ := Changes.steady.step_cases hperform d s
  · rw [hstep]
    exact hmove _ (ht.keeps hchange hs)
  · rw [hstep]
    exact hmove _ (ht.keeps hchange hs)

/-- A step touches nothing that a level fixes, no subscription, and not the timer. -/
theorem step_sameFrame (d : Direction) (s : Session) : SameFrame s (step perform d s).2 :=
  step_keeps hperform (fun hc hs => hs.trans hc.sameFrame)
    (fun _ hs => hs.trans ⟨rfl, rfl, rfl, rfl, rfl, rfl, rfl, rfl, rfl⟩) d (.refl s)

end Session

end GridPuzzle
