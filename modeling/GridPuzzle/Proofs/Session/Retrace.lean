import GridPuzzle.Proofs.Grid.Path
import GridPuzzle.Proofs.Session.Footing
import GridPuzzle.Proofs.Session.WallHits
import GridPuzzle.Proofs.Session.Walls

/-!
# Walking back

The guards that a scene gives its robot judge a move by its target alone. In whatever session of a
playable level, direct steps that commit lead over free cells, so the opposite steps in reverse
order are approved one after the other: they lead over the same cells back to where the robot was,
and no wall is hit on the way. A policy of a client might look at where a move comes from, so none
is subscribed here; observers may do whatever they like, and may panic.
-/

namespace GridPuzzle

/-- A call that leaves the robot with the guards of its scene alone. -/
def Call.KeepsGuards : Call → Prop
  | .guard _ => False
  | _ => True

/-- A client steps the robot, once in each direction of a list. -/
def stepping (ds : List Direction) : List Happening := ds.map fun d => .call (.step d)

namespace Session

section Walking

variable (perform : Perform)

/-- A step is made: the robot lands on the next cell in its direction, and the answer does not say
otherwise. It is positive, or an observer has panicked once the robot was there. -/
structure Commits (d : Direction) (s : Session) : Prop where
  lands : ∃ m, Move.towards? s.scene.position d = some m ∧
    (step perform d s).2.scene.position = m.target
  answer : (step perform d s).1 ≠ .value false

/-- Every step of a list is made, each after the one before. -/
def CommitAll : List Direction → Session → Prop
  | [], _ => True
  | d :: ds, s => Commits perform d s ∧ CommitAll ds (step perform d s).2

/-- The cells on which the robot stands before, between and after the steps of a list. -/
def trail : List Direction → Session → List Position
  | [], s => [s.scene.position]
  | d :: ds, s => s.scene.position :: trail ds (step perform d s).2

end Walking

variable {perform : Perform} {l : Level} {d : Direction} {ds : List Direction} {s : Session}

/-- A step that is answered positively is made. -/
theorem commits_of_value (h : (step perform d s).1 = .value true) : Commits perform d s := by
  have hends : StepEnds perform d s (step perform d s) := step_ends d s
  refine ⟨?_, by rw [h]; exact nofun⟩
  generalize step perform d s = call at h hends ⊢
  cases hends with
  | told hm => exact ⟨_, hm, rfl⟩
  | outOfRange | cutShort | vetoed | toldInPart => cases h

theorem after_stepping_cons (d : Direction) (ds : List Direction) (s : Session) :
    after perform (stepping (d :: ds)) s = after perform (stepping ds) (step perform d s).2 := by
  have hstep : happen perform (.call (.step d)) s = (step perform d s).2 :=
    snd_call_step perform d s
  rw [← hstep]
  rfl

section Trail

variable (perform ds s)

/-- A trail begins where the robot stands. -/
theorem exists_trail_eq_cons : ∃ ps, trail perform ds s = s.scene.position :: ps := by
  cases ds <;> exact ⟨_, rfl⟩

/-- It ends where the steps lead. -/
theorem getLast?_trail :
    (trail perform ds s).getLast? = some (after perform (stepping ds) s).scene.position := by
  induction ds generalizing s with
  | nil => rfl
  | cons d ds ih =>
    obtain ⟨ps, hps⟩ := exists_trail_eq_cons perform ds (step perform d s).2
    rw [after_stepping_cons, ← ih, trail, hps, List.getLast?_cons_cons]

end Trail

/-- Steps that are made go along a path. -/
theorem CommitAll.path (h : CommitAll perform ds s) : Path ds (trail perform ds s) := by
  induction ds generalizing s with
  | nil => exact .here _
  | cons d ds ih =>
    obtain ⟨⟨⟨m, hm, hlands⟩, -⟩, hrest⟩ := h
    have hpath := ih hrest
    obtain ⟨ps, hps⟩ := exists_trail_eq_cons perform ds (step perform d s).2
    rw [hps, hlands] at hpath
    rw [trail, hps, hlands]
    exact .onward hm hpath

/-- The robot stands on a free cell of a level, and has the guards of that level alone. -/
structure Fenced (l : Level) (s : Session) : Prop extends Grounded l s where
  encloses : Encloses l [] s.fence

/-- The guards decide what a session is enclosed by. -/
theorem encloses_congr {t : Session} (h : Encloses l [] s.fence)
    (hguards : t.scene.guards = s.scene.guards) : Encloses l [] t.fence := by
  obtain ⟨walls, hwalls, hcells⟩ := h
  exact ⟨walls, hguards.trans hwalls, hcells⟩

section Fenced

variable (hperform : perform.Orderly)

include hperform

theorem step_fenced (d : Direction) (h : Fenced l s) : Fenced l (step perform d s).2 :=
  ⟨step_grounded hperform d h.toGrounded,
    encloses_congr h.encloses (step_sameFrame hperform d s).guards⟩

/-- Every session of a level that is reached without policies of clients is fenced. -/
theorem fenced_of_reached {observers : List (Callback Move)}
    (h : Reached perform Call.KeepsGuards l observers s) : Fenced l s := by
  refine h.keeps (fun hd hs => ⟨hd.grounded hperform hs.toGrounded, ?_⟩)
    fun t ht => ⟨grounded_ofLevel ht, encloses_ofLevel ht⟩
  refine hd.keeps hperform (P := fun t => Encloses l [] t.fence)
    (fun hc ht => encloses_congr ht hc.sameFrame.guards) (fun ha ht => ?_) (fun _ ht => ht)
    (fun {t c} harrange hkeeps ht => ?_) hs.encloses
  · exact encloses_congr ht (congrArg Scene.guards ha.scene)
  · refine encloses_congr ht ?_
    cases c with
    | guard => cases hkeeps
    | subscribe | onMove | onStatus | onComplete | onWall | dropScene => rfl
    | _ => cases harrange

/-- The robot stands on a free cell before, between and after steps. -/
theorem trail_free (ds : List Direction) (h : Fenced l s) :
    ∀ p ∈ trail perform ds s, l.Free p := by
  induction ds generalizing s with
  | nil =>
    intro p hp
    rw [List.mem_singleton.mp hp]
    exact h.position
  | cons d ds ih =>
    intro p hp
    rcases List.mem_cons.mp hp with rfl | hrest
    · exact h.position
    · exact ih (step_fenced hperform d h) p hrest

theorem after_stepping_fenced (ds : List Direction) (h : Fenced l s) :
    Fenced l (after perform (stepping ds) s) := by
  induction ds generalizing s with
  | nil => exact h
  | cons d ds ih =>
    rw [after_stepping_cons]
    exact ih (step_fenced hperform d h)

end Fenced

/-- A step onto a free cell is made, and no wall is hit. -/
theorem step_free (hharmless : perform.Harmless) (h : Fenced l s) {m : Move}
    (hm : Move.towards? s.scene.position d = some m) (hfree : l.Free m.target) :
    Commits perform d s ∧ (step perform d s).2.scene.position = m.target ∧
      (step perform d s).2.wallHits = s.wallHits := by
  have hask : ask perform m s = (.value true, s) := by
    rw [ask_eq h.encloses, if_pos hfree.1, if_neg hfree.2]
    rfl
  have hhits := wallHits_tell hharmless m { (s.robot perform).snapshot with position := m.target }
    s.scene.watchers (note (.committed m) s)
  rcases htold : tell m { (s.robot perform).snapshot with position := m.target }
    (s.scene.watchers.map (watcherObserver perform)) (note (.committed m) s) with ⟨answer, u⟩
  rw [htold] at hhits
  have hstep := step_made hm hask htold
  have hposition : (step perform d s).2.scene.position = m.target := by rw [hstep]
  refine ⟨⟨⟨m, hm, hposition⟩, ?_⟩, hposition, ?_⟩
  · rw [hstep]
    cases answer <;> exact nofun
  · rw [hstep]
    exact hhits.trans (wallHits_note rfl)

/-- A path over free cells is walked: every step of it is made, the robot goes over its cells, and
no wall is hit. -/
theorem walks_path (hperform : perform.Orderly) (hharmless : perform.Harmless) (h : Fenced l s)
    {ps : List Position} (hpath : Path ds (s.scene.position :: ps))
    (hfree : ∀ p ∈ ps, l.Free p) :
    CommitAll perform ds s ∧ trail perform ds s = s.scene.position :: ps ∧
      (after perform (stepping ds) s).wallHits = s.wallHits := by
  induction ds generalizing s ps with
  | nil =>
    cases hpath
    exact ⟨trivial, rfl, rfl⟩
  | cons d ds ih =>
    cases hpath with
    | onward hm hrest =>
      obtain ⟨hcommits, hlands, hhits⟩ :=
        step_free hharmless h hm (hfree _ List.mem_cons_self)
      rw [← hlands] at hrest
      obtain ⟨hall, htrail, hno⟩ := ih (step_fenced hperform d h) hrest
        fun p hp => hfree p (List.mem_cons_of_mem _ hp)
      refine ⟨⟨hcommits, hall⟩, ?_, ?_⟩
      · rw [trail, htrail, hlands]
      · rw [after_stepping_cons, hno, hhits]

/-- The opposites of steps that were all made are made in reverse order, over the same cells back to
where the robot was, and no wall is hit. -/
theorem committed_steps_are_walked_back {depth : Nat} {observers : List (Callback Move)}
    (h : Reached (performWithin depth) Call.KeepsGuards l observers s)
    (hds : CommitAll (performWithin depth) ds s) :
    let back := (ds.map Direction.opposite).reverse
    let t := after (performWithin depth) (stepping ds) s
    let u := after (performWithin depth) (stepping back) t
    CommitAll (performWithin depth) back t ∧
      trail (performWithin depth) back t = (trail (performWithin depth) ds s).reverse ∧
      u.scene.position = s.scene.position ∧ u.wallHits = t.wallHits := by
  intro back t u
  have horderly := performWithin_orderly depth
  have hfenced : Fenced l s := fenced_of_reached horderly h
  have hend := getLast?_trail (performWithin depth) ds s
  -- read backwards, the trail begins where the steps have led
  obtain ⟨qs, hqs⟩ : ∃ qs, (trail (performWithin depth) ds s).reverse = t.scene.position :: qs := by
    rw [← List.head?_reverse] at hend
    exact ⟨_, List.eq_cons_of_mem_head? hend⟩
  have hpath : Path back (t.scene.position :: qs) := hqs ▸ hds.path.reverse
  have hfree : ∀ p ∈ qs, l.Free p := by
    intro p hp
    refine trail_free horderly ds hfenced p (List.mem_reverse.mp ?_)
    rw [hqs]
    exact List.mem_cons_of_mem _ hp
  obtain ⟨hall, htrail, hhits⟩ := walks_path horderly (performWithin_harmless depth)
    (after_stepping_fenced horderly ds hfenced) hpath hfree
  rw [← hqs] at htrail
  refine ⟨hall, htrail, ?_, hhits⟩
  obtain ⟨ps, hps⟩ := exists_trail_eq_cons (performWithin depth) ds s
  have hback := getLast?_trail (performWithin depth) back t
  rw [htrail, List.getLast?_reverse, hps, List.head?_cons] at hback
  exact (Option.some.inj hback).symm

/-- A level in a corner of the coordinate range, with a wall beside the robot. -/
def cornerLevel : Level :=
  { Level.standard with
    bounds := .ofCorners 2147483645 (-2147483648) 2147483647 (-2147483646)
    robot := ⟨2147483647, -2147483648⟩
    finish := ⟨2147483646, -2147483647⟩
    walls := [⟨2147483646, -2147483648⟩] }

/-- The robot bumps into the wall, and tries to leave the coordinate range. -/
def cornerHistory : List Happening :=
  [.call (.onWall (.recorder "walls")), .call (.step .left), .call (.step .up)]

/-- A walk around the wall leads over the finish, and is walked back. -/
theorem walk_around_a_wall_is_walked_back :
    ∃ s, ofLevel cornerLevel [.recorder "moves"] = .ok s ∧
      let t := after (performWithin 1) cornerHistory s
      let u := after (performWithin 1) (stepping [.down, .left, .left, .up]) t
      let v := after (performWithin 1) (stepping [.down, .right, .right, .up]) u
      CommitAll (performWithin 1) [.down, .right, .right, .up] u ∧
        trail (performWithin 1) [.down, .right, .right, .up] u =
          [⟨2147483645, -2147483648⟩, ⟨2147483645, -2147483647⟩, ⟨2147483646, -2147483647⟩,
            ⟨2147483647, -2147483647⟩, ⟨2147483647, -2147483648⟩] ∧
        v.scene.position = ⟨2147483647, -2147483648⟩ ∧
        v.wallHits.1 = [.bumped "walls"
          ⟨⟨2147483647, -2147483648⟩, ⟨2147483646, -2147483648⟩⟩] := by
  have hall : ∀ h ∈ cornerHistory, h.Allowed Call.KeepsGuards := by
    simp [cornerHistory, Happening.Allowed, Call.KeepsGuards]
  obtain ⟨s, hs, hcommit, hplace, htrail, hhits⟩ :
      ∃ s, ofLevel cornerLevel [.recorder "moves"] = .ok s ∧
        CommitAll (performWithin 1) [.down, .left, .left, .up]
          (after (performWithin 1) cornerHistory s) ∧
        (after (performWithin 1) cornerHistory s).scene.position = ⟨2147483647, -2147483648⟩ ∧
        trail (performWithin 1) [.down, .left, .left, .up]
            (after (performWithin 1) cornerHistory s) =
          [⟨2147483647, -2147483648⟩, ⟨2147483647, -2147483647⟩, ⟨2147483646, -2147483647⟩,
            ⟨2147483645, -2147483647⟩, ⟨2147483645, -2147483648⟩] ∧
        (after (performWithin 1) (stepping [.down, .left, .left, .up])
            (after (performWithin 1) cornerHistory s)).wallHits.1 =
          [.bumped "walls" ⟨⟨2147483647, -2147483648⟩, ⟨2147483646, -2147483648⟩⟩] := by
    refine ⟨_, rfl, ⟨?_, ?_, ?_, ?_, trivial⟩, by decide +kernel, by decide +kernel,
      by decide +kernel⟩
    all_goals exact commits_of_value (by decide +kernel)
  obtain ⟨hback, hreversed, hposition, hkept⟩ :=
    committed_steps_are_walked_back ⟨s, cornerHistory, hs, hall, rfl⟩ hcommit
  have hopposite : ([.down, .left, .left, .up].map Direction.opposite).reverse =
      [.down, .right, .right, .up] := rfl
  rw [hopposite] at hback hreversed hposition hkept
  refine ⟨s, hs, hback, ?_, hposition.trans hplace, ?_⟩
  · exact hreversed.trans (congrArg List.reverse htrail)
  · exact (congrArg Prod.fst hkept).trans hhits

end Session

end GridPuzzle
