import GridPuzzle.Grid.Bounds
import GridPuzzle.Robot.Basic

/-!
# Obstacles of a robot: bounds and walls

Both look at the target of a move only. Bounds refuse in silence; a wall tells somebody about each
move that it refuses.
-/

namespace GridPuzzle

/-- The acceptor that keeps a robot inside a rectangle. -/
def Bounds.acceptor {σ : Type} (b : Bounds) : Acceptor σ := fun m _ w => (.value (b.accepts m), w)

/-- The image shown for a wall unless the level chooses another one. -/
def defaultWallSprite : String := "img/Wall.png"

/-- An impassable cell. -/
structure Wall where
  position : Position
  sprite : String
  deriving DecidableEq, Repr

namespace Wall

/-- A wall with the usual image. -/
def ofPosition (p : Position) : Wall := ⟨p, defaultWallSprite⟩

variable {σ : Type}

/-- Refuse a move that lands exactly on the wall, and tell `onHit` about it. -/
def block (wall : Wall) (onHit : Move → σ → Outcome Unit × σ) (m : Move) (w : σ) :
    Outcome Bool × σ :=
  if m.target = wall.position then
    andThen (onHit m w) fun _ w => (.value false, w)
  else
    (.value true, w)

/-- The acceptor of a wall. -/
def acceptor (wall : Wall) (onHit : Move → σ → Outcome Unit × σ) : Acceptor σ :=
  fun m _ w => wall.block onHit m w

/-- Remark on the refused move and do nothing else. -/
def warn [Journal σ] (wall : Wall) (_ : Move) (w : σ) : Outcome Unit × σ :=
  (.value (), note (.blocked wall.position) w)

/-- The written form of a wall, with the names of the fields. -/
def labelled (wall : Wall) (notified : Bool) : String :=
  "Wall \x7b pos: " ++ wall.position.labelled ++ ", sprite: " ++ Text.quoted wall.sprite
    ++ ", on_blocked: " ++ (if notified then "true" else "false") ++ " \x7d"

end Wall

end GridPuzzle
