import GridPuzzle.Robot.Basic

/-!
# The finish

The finish is a cell that observes the robot. It hands a move that lands on it over to the host of
its level, as long as that host is there.
-/

namespace GridPuzzle

/-- The image shown for a finish unless the level chooses another one. -/
def defaultFinishSprite : String := "img/Sports-Finish-Flag-icon.png"

/-- The goal cell of a level. -/
structure Finish where
  position : Position
  sprite : String
  deriving DecidableEq, Repr

/-- Whoever owns the level of a finish, seen from a world `σ`. -/
structure Host (σ : Type) where
  /-- Whether the host is still there. -/
  present : σ → Bool
  /-- Stop what is being played and announce the arrival. -/
  reached : Position → σ → Outcome Unit × σ

namespace Finish

/-- A finish with the usual image. -/
def ofPosition (p : Position) : Finish := ⟨p, defaultFinishSprite⟩

/-- A move reaches the finish when it lands on it. -/
def isReachedBy (f : Finish) (m : Move) : Bool := m.target == f.position

variable {σ : Type}

/-- Hand a move that lands on the finish over to the host; the answer says whether it landed. -/
def arrive [Journal σ] (f : Finish) (host : Host σ) (m : Move) (w : σ) : Outcome Bool × σ :=
  if f.isReachedBy m then
    if host.present w then
      andThen (host.reached f.position w) fun _ w => (.value true, w)
    else
      (.value true, note (.finishAlone f.position) w)
  else
    (.value false, w)

/-- The observer of a finish. -/
def observer [Journal σ] (f : Finish) (host : Host σ) : Observer σ :=
  fun m _ w => andThen (f.arrive host m w) fun _ w => (.value (), w)

/-- The written form of a finish, with the names of the fields. -/
def labelled (f : Finish) : String :=
  "Finish \x7b pos: " ++ f.position.labelled ++ ", sprite: " ++ Text.quoted f.sprite ++ " \x7d"

end Finish

end GridPuzzle
