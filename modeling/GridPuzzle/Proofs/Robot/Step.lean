import GridPuzzle.Robot.Basic

/-!
# The ways of a step

A step leaves the coordinate range, or passes its move to the acceptors; they panic, refuse or
approve it, and a move that is approved is made and told to the observers. Each of these ways has
one equation. Where the acceptors and the observers of a robot are known the equations say what a
step does, and no proof about one goes through the pipeline again.
-/

namespace GridPuzzle

theorem consult_append {σ : Type} (m : Move) (view : Snapshot) (as as' : List (Acceptor σ))
    (w : σ) :
    consult m view (as ++ as') w = andThen (consult m view as w) fun approved w =>
      if approved then consult m view as' w else (.value false, w) := by
  induction as generalizing w with
  | nil => rfl
  | cons a rest ih =>
    simp only [List.cons_append, consult]
    rcases a m view w with ⟨approved | _, w'⟩
    · cases approved with
      | true => exact ih w'
      | false => rfl
    · rfl

theorem tell_append {σ : Type} (m : Move) (view : Snapshot) (os os' : List (Observer σ)) (w : σ) :
    tell m view (os ++ os') w = andThen (tell m view os w) fun _ w => tell m view os' w := by
  induction os generalizing w with
  | nil => rfl
  | cons o rest ih =>
    simp only [List.cons_append, tell]
    rcases o m view w with ⟨answer, w'⟩
    cases answer with
    | value a => exact ih w'
    | panicked => rfl

namespace Robot

variable {σ : Type}

/-- The same robot on another cell. -/
def movedTo (r : Robot σ) (p : Position) : Robot σ := { r with position := p }

/-- What a step answers once its move has been made and told. -/
def made : Outcome Unit → Outcome Bool
  | .value _ => .value true
  | .panicked => .panicked

variable [Journal σ] {r : Robot σ} {d : Direction} {m : Move} {w w' w'' : σ}

theorem step_outOfRange (hm : Move.towards? r.position d = none) :
    r.step d w = (.value false, r, note (.outOfRange d r.position) w) := by
  unfold step
  rw [hm]

theorem step_cutShort (hm : Move.towards? r.position d = some m)
    (hasked : consult m r.snapshot r.acceptors w = (.panicked, w')) :
    r.step d w = (.panicked, r, w') := by
  unfold step attempt
  rw [hm]
  dsimp only
  rw [hasked]

theorem step_vetoed (hm : Move.towards? r.position d = some m)
    (hasked : consult m r.snapshot r.acceptors w = (.value false, w')) :
    r.step d w = (.value false, r, note (.vetoed m) w') := by
  unfold step attempt
  rw [hm]
  dsimp only
  rw [hasked]

theorem step_made {answer : Outcome Unit} (hm : Move.towards? r.position d = some m)
    (hasked : consult m r.snapshot r.acceptors w = (.value true, w'))
    (htold : tell m (r.movedTo m.target).snapshot r.observers (note (.committed m) w') =
      (answer, w'')) :
    r.step d w = (made answer, r.movedTo m.target, w'') := by
  unfold step attempt
  rw [hm]
  dsimp only
  rw [hasked]
  dsimp only
  unfold movedTo at htold
  rw [htold]
  cases answer <;> rfl

/-- A step changes nothing of a robot but where it stands. -/
theorem step_robot (r : Robot σ) (d : Direction) (w : σ) :
    (r.step d w).2.1 = r.movedTo (r.step d w).2.1.position := by
  unfold step
  split
  · rfl
  · unfold attempt
    split
    · rfl
    · rfl
    · dsimp only
      split <;> rfl

end Robot

end GridPuzzle
