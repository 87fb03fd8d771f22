import GridPuzzle.Proofs.Session.Alike

/-!
# Remarks are never read

The library writes remarks and never looks at them. A call is heedless when other remarks before it
make a difference to the remarks after it at most: it answers the same, and it leaves the same
scene, programs, tasks, clock, followers and events. Sessions that differ in remarks alone are alike
behind the same fence, so everything that can happen in a session is heedless.
-/

namespace GridPuzzle

namespace Session

/-- The same session with other remarks. -/
def remarked (rs : Array Remark) (s : Session) : Session := { s with remarks := rs }

/-- What becomes of a session does not depend on its remarks, its own remarks apart. -/
def Heedless (f : Session → Session) : Prop :=
  ∀ s rs, ∃ rs', f (s.remarked rs) = (f s).remarked rs'

/-- Neither the answer of a call nor the session after it depends on remarks, its own remarks
apart. -/
def HeedlessCall {α : Type} (f : Session → α × Session) : Prop :=
  ∀ s rs, ∃ rs', f (s.remarked rs) = ((f s).1, (f s).2.remarked rs')

/-- A way to carry out requests to which remarks do not matter. -/
def Perform.Heedless (perform : Perform) : Prop := ∀ r, HeedlessCall (perform r)

/-- Sessions that are alike behind the same fence differ in remarks alone. -/
theorem alike_eq_iff {s t : Session} : Alike Eq s t ↔ ∃ rs, t = s.remarked rs := by
  constructor
  · rintro ⟨_, rs, rfl, rfl⟩
    exact ⟨rs, rfl⟩
  · rintro ⟨rs, rfl⟩
    exact ⟨s.fence, rs, rfl, rfl⟩

theorem KeepsAlike.heedless {f : Session → Session} (hf : KeepsAlike Eq f) : Heedless f :=
  fun s rs => alike_eq_iff.mp (hf s _ (alike_eq_iff.mpr ⟨rs, rfl⟩))

theorem heedlessCall_iff {α : Type} {f : Session → α × Session} :
    HeedlessCall f ↔ AnswersAlike Eq f := by
  constructor
  · intro hf s t h
    obtain ⟨rs, rfl⟩ := alike_eq_iff.mp h
    obtain ⟨rs', hsame⟩ := hf s rs
    exact ⟨_, hsame, alike_eq_iff.mpr ⟨rs', rfl⟩⟩
  · intro hf s rs
    obtain ⟨u, hsame, halike⟩ := hf s _ (alike_eq_iff.mpr ⟨rs, rfl⟩)
    obtain ⟨rs', rfl⟩ := alike_eq_iff.mp halike
    exact ⟨rs', hsame⟩

theorem Perform.heedless_iff {perform : Perform} :
    perform.Heedless ↔ perform.AnswersAlike Eq :=
  forall_congr' fun _ => heedlessCall_iff

/-- The same guards judge every move alike. -/
theorem impartial_eq : Impartial Eq := by
  rintro perform hperform m s _ ⟨_, rs, rfl, rfl⟩
  exact alike_consult hperform m (s.robot perform).snapshot s.scene.guards s _
    ⟨s.fence, rs, rfl, rfl⟩

variable {perform : Perform} (hperform : perform.Heedless)

include hperform

/-- Remarks do not matter to the turn of a task. -/
theorem heedless_turn (k : TaskId) (due : Nat) : Heedless (turn perform k due) :=
  (alike_turn (Perform.heedless_iff.mp hperform) impartial_eq k due).heedless

/-- Remarks do not matter to what a client does. -/
theorem heedless_call (c : Call) : HeedlessCall (call perform c) := by
  refine heedlessCall_iff.mpr (alike_call (Perform.heedless_iff.mp hperform) impartial_eq c ?_)
  rintro verdict - f _ rfl
  rfl

omit hperform in
/-- However deep requests are nested, remarks do not matter to them. -/
theorem performWithin_heedless (depth : Nat) : (performWithin depth).Heedless :=
  Perform.heedless_iff.mpr (performWithin_answersAlike Eq depth)

end Session

end GridPuzzle
