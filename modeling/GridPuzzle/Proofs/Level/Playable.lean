import GridPuzzle.Proofs.Level.Validity
import GridPuzzle.Session.Basic

/-!
# Playable levels

What the check of a level promises to whoever sets up a scene from it: the cells on which a robot
may stand, and a start that is one of them and not the finish.
-/

namespace GridPuzzle

namespace Level

/-- A cell on which a robot may stand: inside the bounds and on no wall. -/
def Free (l : Level) (p : Position) : Prop := l.bounds.contains p = true ∧ p ∉ l.walls

/-- What makes a level playable, as far as its robot and its finish go. -/
structure Playable (l : Level) : Prop where
  robot : l.Free l.robot
  finish : l.Free l.finish
  walls : ∀ w ∈ l.walls, l.bounds.contains w = true
  apart : l.robot ≠ l.finish

/-- A level without a problem is playable. -/
theorem playable_of_problem? {l : Level} (h : l.problem? = none) : l.Playable := by
  have hgood : l.WellPlaced := problem?_eq_none_iff.mp h
  have inside {p : Position} (hp : l.bounds.Holds p) : l.bounds.contains p = true :=
    Bounds.contains_iff.mpr hp
  exact ⟨⟨inside hgood.inside.robot, hgood.robot⟩, ⟨inside hgood.inside.finish, hgood.finish⟩,
    fun w hw => inside (hgood.inside.walls w hw), hgood.apart⟩

end Level

namespace Session

/-- A session is set up from a playable level only, and begins with its scene. -/
theorem ofLevel_eq_ok {l : Level} {observers : List (Callback Move)} {s : Session}
    (h : ofLevel l observers = .ok s) :
    l.Playable ∧ ∃ r, s = note r { scene := .ofLevel l observers } := by
  unfold ofLevel at h
  split at h
  · cases h
  · rename_i hnone
    cases h
    exact ⟨Level.playable_of_problem? hnone, _, rfl⟩

end Session

end GridPuzzle
