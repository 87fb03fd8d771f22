import GridPuzzle.Proofs.Level.Playable
import GridPuzzle.Proofs.Session.History

/-!
# Where the robot stands

The robot of a scene never leaves the bounds of its level and never stands on a wall, whatever
clients, callbacks and tasks do and in whatever order. A step puts the robot on a cell that every
guard admits, and a reset puts it on the start, which the check of the level has found free; the
guards that a level sets up are never taken away.
-/

namespace GridPuzzle

namespace Session

/-- The robot and its start are on free cells of a level, and the guards of the level are there. -/
structure Grounded (l : Level) (s : Session) : Prop where
  bounds : Guard.bounds l.bounds ∈ s.scene.guards
  walls : ∀ p ∈ l.walls, ∃ w : Wall, Guard.wall w ∈ s.scene.guards ∧ w.position = p
  start : l.Free s.scene.start
  position : l.Free s.scene.position
  /-- Whoever has looked at the robot has seen it on a free cell. -/
  seen : ∀ e ∈ s.events, ∀ p, e.place? = some p → l.Free p

/-- A session of a level begins grounded. -/
theorem grounded_ofLevel {l : Level} {observers : List (Callback Move)} {s : Session}
    (h : ofLevel l observers = .ok s) : Grounded l s := by
  obtain ⟨hl, r, rfl⟩ := ofLevel_eq_ok h
  refine ⟨List.mem_cons_self, ?_, hl.robot, hl.robot, fun e he => absurd he (Array.not_mem_empty e)⟩
  intro p hp
  refine ⟨⟨p, l.sprites.wall⟩, List.mem_cons_of_mem _ (List.mem_map_of_mem ?_), rfl⟩
  exact List.mem_map_of_mem hp

/-- A cell that every guard of a grounded session admits is free. -/
theorem Grounded.free {l : Level} {s : Session} (h : Grounded l s) {p : Position}
    (hp : s.Admits p) : l.Free p := by
  refine ⟨hp _ h.bounds, fun hwall => ?_⟩
  obtain ⟨w, hw, hpos⟩ := h.walls p hwall
  exact hp _ hw hpos.symm

/-- Only the cell of the robot decides whether a session stays grounded, as long as no guard is
taken away. -/
theorem Grounded.moved {l : Level} {s t : Session} (h : Grounded l s)
    (hguards : s.scene.guards ⊆ t.scene.guards) (hstart : t.scene.start = s.scene.start)
    (hevents : t.events = s.events) (hpos : l.Free t.scene.position) : Grounded l t := by
  refine ⟨hguards h.bounds, ?_, hstart ▸ h.start, hpos, hevents ▸ h.seen⟩
  intro p hp
  obtain ⟨w, hw, hwp⟩ := h.walls p hp
  exact ⟨w, hguards hw, hwp⟩

/-- A primitive change leaves the robot where it is or puts it on its start. -/
theorem Change.position {s t : Session} (h : Change s t) :
    t.scene.position = s.scene.position ∨ t.scene.position = s.scene.start := by
  cases h with
  | accept => exact .inr rfl
  | _ => exact .inl rfl

theorem Change.grounded {l : Level} {s t : Session} (h : Change s t) (hs : Grounded l s) :
    Grounded l t := by
  have hpos : l.Free t.scene.position := by
    rcases h.position with hp | hp
    · exact hp ▸ hs.position
    · exact hp ▸ hs.start
  have hrecorded {e : Event} (he : ∀ p, e.place? = some p → l.Free p) :
      Grounded l (s.record e) := by
    refine ⟨hs.bounds, hs.walls, hs.start, hs.position, fun e' hmem p hp => ?_⟩
    rcases Array.mem_push.mp hmem with hold | rfl
    · exact hs.seen e' hold p hp
    · exact he p hp
  cases h with
  | record he =>
    refine hrecorded fun p hp => ?_
    rw [he] at hp
    cases hp
  | tell tag hn =>
    refine hrecorded fun p hp => ?_
    cases hp
    exact hn ▸ hs.position
  | witness tag hm =>
    refine hrecorded fun p hp => ?_
    cases hp
    exact hs.free hm
  | _ => exact ⟨hs.bounds, hs.walls, hs.start, hpos, hs.seen⟩

section Steps

variable {perform : Perform}

variable (hperform : perform.Orderly)

include hperform

/-- A step of the robot keeps a session grounded, whether the move is made or not. -/
theorem step_grounded {l : Level} {s : Session} (d : Direction) (hs : Grounded l s) :
    Grounded l (step perform d s).2 := by
  obtain ⟨t, ht, hstep | ⟨m, -, hadmits, hstep⟩⟩ := Changes.steady.step_cases hperform d s
  · rw [hstep]
    exact (ht.keeps Change.grounded hs).moved (List.Subset.refl _) rfl rfl hs.position
  · rw [hstep]
    exact (ht.keeps Change.grounded hs).moved (List.Subset.refl _) rfl rfl (hs.free hadmits)

omit hperform in
theorem arrange_grounded {l : Level} {s : Session} {c : Call} (hc : c.isArrangement = true)
    (hs : Grounded l s) : Grounded l (call perform c s).2 := by
  rcases arrange_cases hc s with ⟨p, c', hcall⟩ | ⟨scene, hscene, hcall⟩
  · rw [hcall]
    exact hs.moved (List.Subset.refl _) rfl rfl hs.position
  · rw [hcall]
    exact hs.moved hscene.guards hscene.start rfl (hscene.position ▸ hs.position)

/-- Every deed keeps a session grounded. -/
theorem Deed.grounded {allowed : Call → Prop} {l : Level} {s t : Session}
    (h : Deed perform allowed s t) (hs : Grounded l s) : Grounded l t := by
  rcases deed_cases hperform h with hc | haside | rfl | ⟨d, rfl⟩ | ⟨c, hc, -, rfl⟩
  · exact hc.keeps Change.grounded hs
  · refine hs.moved ?_ ?_ haside.events ?_
    · rw [haside.scene]
      exact List.Subset.refl _
    · rw [haside.scene]
    · rw [haside.scene]
      exact hs.position
  · exact hs.moved (List.Subset.refl _) rfl rfl hs.start
  · exact step_grounded hperform d hs
  · exact arrange_grounded hc hs

end Steps

/-- Whatever happens in a session of a level, and in whatever order, the robot stands inside the
bounds and on no wall, and so it did wherever a callback has looked at it. -/
theorem robot_stays_on_free_cells {depth : Nat} {l : Level} {observers : List (Callback Move)}
    {t : Session} (h : Reached (performWithin depth) (fun _ => True) l observers t) :
    (l.bounds.contains t.scene.position = true ∧ t.scene.position ∉ l.walls) ∧
      ∀ e ∈ t.events, ∀ p, e.place? = some p → l.bounds.contains p = true ∧ p ∉ l.walls := by
  have horderly := performWithin_orderly depth
  have hgrounded : Grounded l t :=
    h.keeps (Deed.grounded horderly) fun _ hlevel => grounded_ofLevel hlevel
  exact ⟨hgrounded.position, hgrounded.seen⟩

/-- The standard level with a wall beside the start. -/
def walledLevel : Level := { Level.standard with walls := [⟨3, 4⟩] }

/-- A program drives the robot against the wall, and its scene is let go of between two turns. -/
def wallHistory : List Happening :=
  [.call (.play true "left(1)up(1)"), .turn 0 0, .call .dropScene, .turn 0 500]

/-- The robot of such a history stays on free cells. -/
theorem robot_beside_a_wall_stays_on_free_cells :
    ∃ s, ofLevel walledLevel [.recorder "moves"] = .ok s ∧
      (walledLevel.bounds.contains (after (performWithin 1) wallHistory s).scene.position = true ∧
        (after (performWithin 1) wallHistory s).scene.position ∉ walledLevel.walls) ∧
      ∀ e ∈ (after (performWithin 1) wallHistory s).events, ∀ p, e.place? = some p →
        walledLevel.bounds.contains p = true ∧ p ∉ walledLevel.walls := by
  have hall : ∀ h ∈ wallHistory, h.Allowed (fun _ => True) := by
    simp [wallHistory, Happening.Allowed]
  exact ⟨_, rfl, robot_stays_on_free_cells ⟨_, wallHistory, rfl, hall, rfl⟩⟩

end Session

end GridPuzzle
