import GridPuzzle.Proofs.Session.Usage

/-!
# Programs that nobody stops

A program is stopped by its handle, or by the scene if it is the program in the slot. Where neither
clients nor callbacks nor actions ask for a program to be stopped, and another one is in the slot,
the program is never aborted.
-/

namespace GridPuzzle

/-- Whether a call is allowed as a request would be, and brings in nobody who asks for more. -/
def Call.AsksOnly (allowed : Request → Prop) : Call → Prop
  | .stop p => allowed (.stop p)
  | .subscribe _ c | .onStatus c => c.AsksOnly allowed
  | .onMove c | .onWall c => c.AsksOnly allowed
  | .onComplete c => c.AsksOnly allowed
  | _ => True

/-- Whether all that a usage asks for is allowed. -/
def Usage.AsksOnly (allowed : Request → Prop) : Usage → Prop
  | .call c _ => c.AsksOnly allowed
  | _ => True

namespace Session

/-- Everything that is asked for is allowed, and what may not be stopped has not been. -/
structure Spared (allowed : Request → Prop) (s : Session) : Prop extends s.AsksOnly allowed where
  unstopped : ∀ p, ¬allowed (.stop p) → s.status? p ≠ some .aborted

/-- Sequences of changes that abort only what may be stopped. -/
def Spares (allowed : Request → Prop) (s t : Session) : Prop :=
  Changes s t ∧
    ∀ p, ¬allowed (.stop p) → t.status? p = some .aborted → s.status? p = some .aborted

/-- Allowed requests abort only what may be stopped. -/
theorem Spares.steady (allowed : Request → Prop) :
    Steady allowed fun _ s t => s.AsksOnly allowed → Spares allowed s t where
  refl _ _ _ := ⟨.refl, fun _ _ hp => hp⟩
  trans h h' hs := by
    obtain ⟨hchanges, haborted⟩ := h hs
    obtain ⟨hchanges', haborted'⟩ := h' (hchanges.keeps Change.asksOnly hs)
    exact ⟨hchanges.trans hchanges',
      fun p hp hstatus => haborted p hp (haborted' p hp hstatus)⟩
  given h hs := h hs hs
  changes hs h := (h hs).1
  calm h _ := ⟨.single h.change, h.unstopped⟩
  spawned h hafter hs := by
    obtain ⟨hchanges, haborted⟩ := hafter (h.change.asksOnly hs)
    exact ⟨(Relation.ReflTransGen.head h.change hchanges).tail
        (.spawn (hchanges.claimed h.claimed)),
      fun p hp hstatus => h.unstopped p hp (haborted p hp hstatus)⟩
  cutShort h hafter hs := by
    obtain ⟨hchanges, haborted⟩ := hafter (h.change.asksOnly hs)
    exact ⟨.head h.change hchanges, fun p hp hstatus => h.unstopped p hp (haborted p hp hstatus)⟩

namespace Spared

variable {allowed : Request → Prop} {s : Session}

/-- What aborts only what may be stopped leaves the rest spared. -/
theorem spares {t : Session} (h : s.Spared allowed)
    (hst : s.AsksOnly allowed → Spares allowed s t) : t.Spared allowed := by
  obtain ⟨hchanges, haborted⟩ := hst h.toAsksOnly
  exact ⟨hchanges.keeps Change.asksOnly h.toAsksOnly,
    fun p hp hstatus => h.unstopped p hp (haborted p hp hstatus)⟩

/-- Only programs and scene decide what is spared. -/
theorem congr {t : Session} (h : s.Spared allowed) (hprograms : t.programs = s.programs)
    (hscene : t.scene = s.scene) : t.Spared allowed :=
  ⟨h.toAsksOnly.congr hprograms hscene, fun p hp => by
    rw [status?_congr hprograms]
    exact h.unstopped p hp⟩

/-- Where the robot stands is no matter of being stopped. -/
theorem moved (h : s.Spared allowed) (p : Position) :
    Spared allowed { s with scene.position := p } where
  observers := h.observers
  actions := h.actions
  watchers := h.watchers
  statuses := h.statuses
  completions := h.completions
  bumps := h.bumps
  slot := h.slot
  fresh := h.fresh
  unstopped := h.unstopped

/-- One more element that asks for nothing else. -/
private theorem forall_mem_concat {α : Type} {P : α → Prop} {xs : List α} (h : ∀ x ∈ xs, P x)
    {y : α} (hy : P y) : ∀ x ∈ xs ++ [y], P x := by
  intro x hx
  obtain hx | hx := List.mem_append.mp hx
  · exact h x hx
  · exact List.mem_singleton.mp hx ▸ hy

/-- Arrangements stop nothing. -/
theorem arrange {perform : Perform} (h : s.Spared allowed) {c : Call}
    (hc : c.isArrangement = true) (hasks : c.AsksOnly allowed) :
    (call perform c s).2.Spared allowed := by
  cases c with
  | subscribe p c =>
    refine ⟨h.toAsksOnly.subscribe p hasks, fun p' hp' => ?_⟩
    show (s.subscribe p c).status? p' ≠ some .aborted
    rw [status?_subscribe]
    exact h.unstopped p' hp'
  | onMove c =>
    refine { h with watchers := fun c' hc' => ?_ }
    obtain hc' | hc' := List.mem_append.mp hc'
    · exact h.watchers c' hc'
    · cases List.mem_singleton.mp hc'
      exact hasks
  | onStatus c => exact { h with statuses := forall_mem_concat h.statuses hasks }
  | onComplete c => exact { h with completions := forall_mem_concat h.completions hasks }
  | onWall c => exact { h with bumps := forall_mem_concat h.bumps hasks }
  | guard | dropScene => exact { h with }
  | _ => cases hc

variable {perform : Perform}
  (hperform : perform.Within allowed fun _ s t => s.AsksOnly allowed → Spares allowed s t)

include hperform

theorem step (h : s.Spared allowed) (d : Direction) :
    (step perform d s).2.Spared allowed := by
  obtain ⟨t, ht, hstep | ⟨m, -, -, hstep⟩⟩ := (Spares.steady allowed).step_cases hperform d s
  · rw [hstep]
    exact (h.spares ht).moved _
  · rw [hstep]
    exact (h.spares ht).moved _

/-- Playing an action stops nothing that it does not ask for. -/
theorem act (h : s.Spared allowed) (p : ProgramId) (index : Nat) {a : Action}
    (ha : a.AsksOnly allowed) : (act perform p index a s).2.Spared allowed := by
  cases a with
  | command d =>
    rw [act_command]
    exact h.step hperform d
  | script name requests =>
    exact h.spares ((Spares.steady allowed).script hperform p index name ha s)

theorem finishProgram (h : s.Spared allowed) (p : ProgramId) :
    (finishProgram perform p s).2.Spared allowed := by
  unfold Session.finishProgram
  split
  · have hfinished : (s.setStatus p .finished).Spared allowed := by
      refine ⟨h.toAsksOnly.setStatus p .finished, fun p' hp' => ?_⟩
      rw [status?_setStatus]
      split
      · cases s.status? p' <;> simp
      · exact h.unstopped p' hp'
    exact hfinished.spares ((Spares.steady allowed).announce hperform p .finished .running _)
  · exact h

omit hperform in
theorem endStretch {p : ProgramId} {call : Outcome Unit × Session}
    (h : call.2.Spared allowed) : (endStretch p call).session.Spared allowed := by
  rcases call with ⟨_ | _, t⟩ <;> exact h

/-- A stretch stops nothing that its actions do not ask for. -/
theorem stretches {p : ProgramId} {q : Program} {left : Nat} {r : Stretch}
    (hstretch : Stretches perform p q left s r) (hq : ∀ a ∈ q.actions, a.AsksOnly allowed)
    (h : s.Spared allowed) : r.session.Spared allowed := by
  have hacted {index : Nat} {a : Action} {t : Session} {answer : Outcome Unit}
      (ha : q.actions[index]? = some a)
      (hact : Session.act perform p index a s = (answer, t)) : t.Spared allowed := by
    have hafter := h.act hperform p index (hq a (Array.mem_of_getElem? ha))
    rwa [hact] at hafter
  cases hstretch with
  | complete s => exact (h.finishProgram hperform p).endStretch
  | halted => exact h.congr rfl rfl
  | missing => exact h
  | panicked hrun ha hact => exact hacted ha hact
  | paused hrun ha hact => exact hacted ha hact

/-- A turn stops nothing that the actions of its program do not ask for. -/
theorem turn (h : s.Spared allowed) (k : TaskId) (due : Nat) :
    (turn perform k due s).Spared allowed := by
  have hclock : Spared allowed { s with now := max s.now due } := h.congr rfl rfl
  unfold Session.turn
  rw [resume_eq]
  revert hclock
  generalize ({ s with now := max s.now due } : Session) = s'
  intro h
  cases hr : stretchOf? perform k s' with
  | none => exact h
  | some r =>
    obtain ⟨task, q, left, -, hq, -, hstretch⟩ := stretchOf?_stretches hr
    have hafter := h.stretches hperform hstretch (h.actions _ q hq)
    exact hafter.congr rfl rfl

/-- A call that does not wait stops nothing that it does not ask for. -/
theorem call (h : s.Spared allowed) {c : Call} (acts : ¬c.IsWait)
    (hu : (Usage.call c acts).AsksOnly allowed) : (call perform c s).2.Spared allowed := by
  have ordered (horder : c.IsOrder) : (Session.call perform c s).2.Spared allowed := by
    have hstop : ∀ p, c = .stop p → allowed (.stop p) := by
      rintro p rfl
      exact hu
    obtain ⟨_, hspares, -⟩ := (Spares.steady allowed).order hperform horder hstop s
    exact h.spares hspares
  cases c with
  | start | stop | play | stopCurrent | finishReached => exact ordered trivial
  | step d =>
    rw [snd_call_step]
    exact h.step hperform d
  | reset => exact h.moved s.scene.start
  | subscribe | onMove | onStatus | onComplete | onWall | guard | dropScene =>
    exact h.arrange rfl hu
  | advance | join | waitFinal | waitCurrent | watch | pollWatch | look =>
    exact absurd trivial acts

/-- A usage stops nothing that it does not ask for. -/
theorem use (h : s.Spared allowed) {u : Usage} (hu : u.AsksOnly allowed) :
    (use perform u s).Spared allowed := by
  cases u with
  | call c acts => exact h.call hperform acts hu
  | turn k due => exact h.turn hperform k due
  | claim p =>
    show (claim p s).2.Spared allowed
    rcases claim_cases p s with hclaim | ⟨r, hclaim⟩ | ⟨q, hq, hclaimable, hclaim⟩
    · rw [hclaim]
      exact h
    · rw [hclaim]
      exact h.congr rfl rfl
    · rw [hclaim]
      have hbegins : Begins allowed p s (s.setStatus p .running) := .claim hq hclaimable
      exact h.spares fun _ => ⟨.single hbegins.change, hbegins.unstopped⟩
  | startClaimed p =>
    show (if s.isClaimed p then (startClaimed perform p s).2 else s).Spared allowed
    split
    · obtain ⟨t, ht, hstart | hstart⟩ :=
        (Spares.steady allowed).startClaimed_cases hperform p s
      · rw [hstart]
        exact h.spares ht
      · rw [hstart]
        exact (h.spares ht).congr rfl rfl
    · exact h

/-- Usages stop nothing that they do not ask for. -/
theorem uses (h : s.Spared allowed) {us : List Usage} (hus : ∀ u ∈ us, u.AsksOnly allowed) :
    (uses perform us s).Spared allowed := by
  induction us generalizing s with
  | nil => exact h
  | cons u us ih =>
    exact ih (h.use hperform (hus u List.mem_cons_self))
      fun u' hu' => hus u' (List.mem_cons_of_mem _ hu')

end Spared

end Session

end GridPuzzle
