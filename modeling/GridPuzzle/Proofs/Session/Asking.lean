import GridPuzzle.Proofs.Session.Change

/-!
# What may be asked for

Whatever callbacks and actions ask for, they ask for it by requests, and a session holds all of
them: a client may promise that certain requests are never among them. No primitive change breaks
such a promise, for a new program has the scene's observers and nothing but commands to play, and a
request to follow a program adds an observer that asks for nothing.
-/

namespace GridPuzzle

/-- Whether all that a callback ever asks for is allowed. -/
def Callback.AsksOnly {ν : Type} (allowed : Request → Prop) (c : Callback ν) : Prop :=
  ∀ x, ∀ r ∈ c.requests x, allowed r

/-- Whether all that an action asks for is allowed. -/
def Action.AsksOnly (allowed : Request → Prop) : Action → Prop
  | .command _ => True
  | .script _ requests => ∀ r ∈ requests, allowed r

theorem Callback.asksOnly_recorder {ν : Type} (allowed : Request → Prop) (tag : String) :
    (Callback.recorder tag : Callback ν).AsksOnly allowed := fun _ _ hr => by cases hr

namespace Session

/-- Whether all that callbacks and actions of a session ask for is allowed. Its scene may stop the
program in the slot by itself, which is the latest program that a text was played with. -/
structure AsksOnly (allowed : Request → Prop) (s : Session) : Prop where
  observers : ∀ (p : ProgramId) (q : Program), s.programs[p]? = some q →
    ∀ c ∈ q.observers, c.AsksOnly allowed
  actions : ∀ (p : ProgramId) (q : Program), s.programs[p]? = some q →
    ∀ a ∈ q.actions, a.AsksOnly allowed
  watchers : ∀ c, Watcher.client c ∈ s.scene.watchers → c.AsksOnly allowed
  statuses : ∀ c ∈ s.scene.statusObservers, c.AsksOnly allowed
  completions : ∀ c ∈ s.scene.completionObservers, c.AsksOnly allowed
  bumps : ∀ c ∈ s.scene.wallObservers, c.AsksOnly allowed
  slot : ∀ p, s.scene.slot = some p → allowed (.stop p)
  fresh : ∀ p, s.programs.size ≤ p → allowed (.stop p)

namespace AsksOnly

variable {allowed : Request → Prop} {s : Session}

/-- Everything may be asked for where nothing is forbidden. -/
theorem anything (s : Session) : s.AsksOnly fun _ => True where
  observers _ _ _ _ _ _ _ _ := trivial
  actions _ _ _ a _ := by cases a <;> simp [Action.AsksOnly]
  watchers _ _ _ _ _ := trivial
  statuses _ _ _ _ _ := trivial
  completions _ _ _ _ _ := trivial
  bumps _ _ _ _ _ := trivial
  slot _ _ := trivial
  fresh _ _ := trivial

/-- Only programs and scene decide what is asked for. -/
theorem congr {t : Session} (h : s.AsksOnly allowed) (hprograms : t.programs = s.programs)
    (hscene : t.scene = s.scene) : t.AsksOnly allowed where
  observers := by rw [hprograms]; exact h.observers
  actions := by rw [hprograms]; exact h.actions
  watchers := by rw [hscene]; exact h.watchers
  statuses := by rw [hscene]; exact h.statuses
  completions := by rw [hscene]; exact h.completions
  bumps := by rw [hscene]; exact h.bumps
  slot := by rw [hscene]; exact h.slot
  fresh := by rw [hprograms]; exact h.fresh

/-- A program may change if it keeps its actions and gets no observers that ask for more. -/
theorem modify (h : s.AsksOnly allowed) (p : ProgramId) {f : Program → Program}
    (hactions : ∀ q, (f q).actions = q.actions)
    (hobservers : ∀ q, ∀ c ∈ (f q).observers, c ∈ q.observers ∨ c.AsksOnly allowed) :
    AsksOnly allowed { s with programs := s.programs.modify p f } := by
  have hmodified {p' : ProgramId} {q : Program} (hq : (s.programs.modify p f)[p']? = some q) :
      ∃ q', s.programs[p']? = some q' ∧ q.actions = q'.actions ∧
        ∀ c ∈ q.observers, c ∈ q'.observers ∨ c.AsksOnly allowed := by
    rw [Array.getElem?_modify] at hq
    split at hq
    · obtain ⟨q', hq', rfl⟩ := Option.map_eq_some_iff.mp hq
      exact ⟨q', hq', hactions q', hobservers q'⟩
    · exact ⟨q, hq, rfl, fun _ hc => .inl hc⟩
  refine ⟨fun p' q hq c hc => ?_, fun p' q hq => ?_, h.watchers, h.statuses, h.completions,
    h.bumps, h.slot, fun p' hp' => h.fresh p' (by simpa using hp')⟩
  · obtain ⟨q', hq', -, hold⟩ := hmodified hq
    obtain hc | hc := hold c hc
    · exact h.observers p' q' hq' c hc
    · exact hc
  · obtain ⟨q', hq', hsame, -⟩ := hmodified hq
    rw [hsame]
    exact h.actions p' q' hq'

theorem setStatus (h : s.AsksOnly allowed) (p : ProgramId) (status : Status) :
    (s.setStatus p status).AsksOnly allowed :=
  h.modify p (fun _ => rfl) fun _ _ hc => .inl hc

theorem subscribe (h : s.AsksOnly allowed) (p : ProgramId) {c : Callback StatusNotice}
    (hc : c.AsksOnly allowed) : (s.subscribe p c).AsksOnly allowed := by
  refine h.modify p (fun _ => rfl) fun q c' hc' => ?_
  obtain hc' | hc' := List.mem_append.mp hc'
  · exact .inl hc'
  · exact .inr (List.mem_singleton.mp hc' ▸ hc)

/-- A program that a scene accepts has the scene's observers and commands only. -/
theorem accepted (h : s.AsksOnly allowed) (source : String) :
    (s.accepted source).AsksOnly allowed := by
  have hclaimed (q : Program) :
      q.claimed.observers = q.observers ∧ q.claimed.actions = q.actions := by
    unfold Program.claimed
    split <;> exact ⟨rfl, rfl⟩
  refine ⟨fun p q hq => ?_, fun p q hq => ?_, h.watchers, h.statuses, h.completions, h.bumps,
    fun p hp => ?_, fun p hp => ?_⟩
  · simp only [Session.accepted, Array.getElem?_push] at hq
    split at hq
    · cases hq
      rw [(hclaimed _).1]
      exact h.statuses
    · exact h.observers p q hq
  · simp only [Session.accepted, Array.getElem?_push] at hq
    split at hq
    · cases hq
      rw [(hclaimed _).2]
      intro a ha
      obtain ⟨d, -, rfl⟩ := List.mem_map.mp (List.mem_toArray.mp ha)
      trivial
    · exact h.actions p q hq
  · cases hp
    exact h.fresh _ (Nat.le_refl _)
  · refine h.fresh p (Nat.le_trans ?_ hp)
    simp [Session.accepted]

end AsksOnly

/-- No primitive change brings anything that asks for more. -/
theorem Change.asksOnly {allowed : Request → Prop} {s t : Session} (hc : Change s t)
    (h : s.AsksOnly allowed) : t.AsksOnly allowed := by
  cases hc with
  | abort | finish | claim => exact h.setStatus _ _
  | accept source hidle => exact h.accepted source
  | follow p tag => exact h.subscribe p (Callback.asksOnly_recorder _ tag)
  | note | record | tell | witness | spawn => exact h.congr rfl rfl
  | complete =>
    exact ⟨h.observers, h.actions, h.watchers, h.statuses, h.completions, h.bumps, h.slot, h.fresh⟩

end Session

end GridPuzzle
