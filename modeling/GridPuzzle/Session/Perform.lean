import GridPuzzle.Session.Stage

/-!
# Carrying out requests

Carrying out a request may call more callbacks, which ask for more. The nesting has a limit, as a
call stack has; a request beyond it panics.
-/

namespace GridPuzzle.Session

/-- Carry out a request, with requests nested at most so deep. -/
def performWithin : Nat → Perform
  | 0, _, s => (.panicked, s)
  | depth + 1, r, s =>
    match r with
    | .stop p => stop (performWithin depth) p s
    | .start p =>
      andThen (start (performWithin depth) true p s) fun k s =>
        (.value (), s.record (.started p k.isSome))
    | .subscribe p tag => (.value (), s.subscribe p (.recorder tag))
    | .stopCurrent => stopCurrent (performWithin depth) s
    | .play source =>
      andThen (play (performWithin depth) true source s) fun answer s =>
        (.value (), s.record (.played answer))
    | .panic => (.panicked, s)

/-- How deep requests may be nested. -/
def nestingLimit : Nat := 1000

/-- Carry out a request within the usual limit. -/
def perform : Perform := performWithin nestingLimit

end GridPuzzle.Session
