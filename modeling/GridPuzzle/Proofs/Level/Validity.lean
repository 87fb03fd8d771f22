import Mathlib.Logic.Basic
import GridPuzzle.Level.Basic

/-!
# What the check of a level finds

The check of a level goes through five kinds of faults, one after the other, and reports the first
one there is. Here the faults are told in plain comparisons of coordinates, each one together with
the absence of those before it, so that no level has two of them to report and every level that has
none is playable.
-/

namespace GridPuzzle

/-- A range whose ends are not inverted. -/
def AxisRange.Ordered (r : AxisRange) : Prop := r.min ≤ r.max

/-- A coordinate between the ends of a range, or at one of them. -/
def AxisRange.Holds (r : AxisRange) (c : Int32) : Prop := r.min ≤ c ∧ c ≤ r.max

/-- Bounds of which neither range is inverted. -/
def Bounds.Ordered (b : Bounds) : Prop := b.x.Ordered ∧ b.y.Ordered

/-- A position with both of its coordinates in their ranges. -/
def Bounds.Holds (b : Bounds) (p : Position) : Prop := b.x.Holds p.x ∧ b.y.Holds p.y

/-- A range holds no coordinate when its ends are inverted, and only then. -/
theorem AxisRange.isEmpty_iff {r : AxisRange} : r.isEmpty = true ↔ ¬ r.Ordered := by
  have hends : r.isEmpty = true ↔ ¬ r.min.toInt ≤ r.max.toInt := by
    unfold isEmpty
    rw [beq_iff_eq, length_eq]
    omega
  rw [hends, Ordered, Int32.le_iff_toInt_le]

theorem AxisRange.contains_iff {r : AxisRange} {c : Int32} : r.contains c = true ↔ r.Holds c := by
  unfold contains Holds
  rw [Bool.and_eq_true, decide_eq_true_iff, decide_eq_true_iff, Int32.le_iff_toInt_le,
    Int32.le_iff_toInt_le]

theorem Bounds.contains_iff {b : Bounds} {p : Position} : b.contains p = true ↔ b.Holds p := by
  unfold contains Holds
  rw [Bool.and_eq_true, AxisRange.contains_iff, AxisRange.contains_iff]

/-- The test for bounds without a cell. -/
theorem Bounds.isEmpty_iff {b : Bounds} : (b.x.isEmpty || b.y.isEmpty) = true ↔ ¬ b.Ordered := by
  unfold Ordered
  rw [Bool.or_eq_true, AxisRange.isEmpty_iff, AxisRange.isEmpty_iff, not_and_or]

namespace Level

/-- Robot, finish and walls lie inside the bounds. -/
structure Inside (l : Level) : Prop where
  robot : l.bounds.Holds l.robot
  finish : l.bounds.Holds l.finish
  walls : ∀ w ∈ l.walls, l.bounds.Holds w

/-- What lies outside the bounds, and nothing before it does: first the robot, then the finish, then
the walls in their order. -/
inductive OutsideFirst (l : Level) : Entity → Position → Prop
  | robot (hrobot : ¬ l.bounds.Holds l.robot) : OutsideFirst l .robot l.robot
  | finish (hrobot : l.bounds.Holds l.robot) (hfinish : ¬ l.bounds.Holds l.finish) :
      OutsideFirst l .finish l.finish
  | wall {before after : List Position} {w : Position} (hrobot : l.bounds.Holds l.robot)
      (hfinish : l.bounds.Holds l.finish) (hwalls : l.walls = before ++ w :: after)
      (hbefore : ∀ v ∈ before, l.bounds.Holds v) (hw : ¬ l.bounds.Holds w) :
      OutsideFirst l .wall w

/-- A level without a fault. -/
structure WellPlaced (l : Level) : Prop where
  ordered : l.bounds.Ordered
  inside : l.Inside
  robot : l.robot ∉ l.walls
  finish : l.finish ∉ l.walls
  apart : l.robot ≠ l.finish

/-- The fault to report for a level: none of those before it is there. -/
inductive Wrong (l : Level) : LevelProblem → Prop
  | emptyBounds (hempty : ¬ l.bounds.Ordered) : Wrong l (.emptyBounds l.bounds)
  | outsideBounds {e : Entity} {p : Position} (hordered : l.bounds.Ordered)
      (houtside : l.OutsideFirst e p) : Wrong l (.outsideBounds e p)
  | robotOnWall (hordered : l.bounds.Ordered) (hinside : l.Inside) (hrobot : l.robot ∈ l.walls) :
      Wrong l (.wallOverlap .robot l.robot)
  | finishOnWall (hordered : l.bounds.Ordered) (hinside : l.Inside) (hrobot : l.robot ∉ l.walls)
      (hfinish : l.finish ∈ l.walls) : Wrong l (.wallOverlap .finish l.finish)
  | startsOnFinish (hordered : l.bounds.Ordered) (hinside : l.Inside) (hrobot : l.robot ∉ l.walls)
      (hfinish : l.finish ∉ l.walls) (hsame : l.robot = l.finish) :
      Wrong l (.startsOnFinish l.finish)

/-- The test that goes through everything that is placed. -/
abbrev strays (l : Level) (e : Entity × Position) : Bool := !l.bounds.contains e.2

theorem strays_iff {l : Level} {e : Entity} {p : Position} :
    l.strays (e, p) = true ↔ ¬ l.bounds.Holds p := by
  rw [strays, Bool.not_eq_true', ← Bounds.contains_iff, Bool.not_eq_true]

/-- The search finds nothing when all is inside, and only then. -/
theorem find?_strays_eq_none_iff {l : Level} : l.placed.find? l.strays = none ↔ l.Inside := by
  simp only [placed, List.find?_eq_none, List.forall_mem_cons, List.forall_mem_map, strays_iff,
    not_not]
  exact ⟨fun ⟨hrobot, hfinish, hwalls⟩ => ⟨hrobot, hfinish, hwalls⟩,
    fun hinside => ⟨hinside.robot, hinside.finish, hinside.walls⟩⟩

/-- The search through the walls finds the first one outside. -/
theorem find?_strays_walls {l : Level} {e : Entity} {p : Position} :
    (l.walls.map (Entity.wall, ·)).find? l.strays = some (e, p) ↔
      e = .wall ∧ ∃ before after, l.walls = before ++ p :: after ∧
        (∀ v ∈ before, l.bounds.Holds v) ∧ ¬ l.bounds.Holds p := by
  have hheld (v : Position) : (!(l.strays ∘ (Entity.wall, ·)) v) = true ↔ l.bounds.Holds v := by
    rw [Function.comp_apply, Bool.not_eq_true', ← Bool.not_eq_true, strays_iff, not_not]
  rw [List.find?_map, Option.map_eq_some_iff]
  constructor
  · rintro ⟨w, hfound, hentry⟩
    obtain ⟨rfl, rfl⟩ := Prod.mk.inj hentry
    obtain ⟨hw, before, after, hsplit, hbefore⟩ := List.find?_eq_some_iff_append.mp hfound
    exact ⟨rfl, before, after, hsplit, fun v hv => (hheld v).mp (hbefore v hv), strays_iff.mp hw⟩
  · rintro ⟨rfl, before, after, hsplit, hbefore, hp⟩
    refine ⟨p, List.find?_eq_some_iff_append.mpr ?_, rfl⟩
    exact ⟨strays_iff.mpr hp, before, after, hsplit, fun v hv => (hheld v).mpr (hbefore v hv)⟩

/-- The search finds the first thing outside. -/
theorem find?_strays_eq_some_iff {l : Level} {e : Entity} {p : Position} :
    l.placed.find? l.strays = some (e, p) ↔ l.OutsideFirst e p := by
  -- which of the three places the search stops at
  by_cases hrobot : l.bounds.Holds l.robot
  · have hrobot' : ¬ l.strays (.robot, l.robot) = true := by rwa [strays_iff, not_not]
    rw [placed, List.find?_cons_of_neg hrobot']
    by_cases hfinish : l.bounds.Holds l.finish
    · have hfinish' : ¬ l.strays (.finish, l.finish) = true := by rwa [strays_iff, not_not]
      rw [List.find?_cons_of_neg hfinish', find?_strays_walls]
      constructor
      · rintro ⟨rfl, before, after, hsplit, hbefore, hp⟩
        exact .wall hrobot hfinish hsplit hbefore hp
      · intro houtside
        cases houtside with
        | robot hnot => exact absurd hrobot hnot
        | finish _ hnot => exact absurd hfinish hnot
        | wall _ _ hsplit hbefore hp => exact ⟨rfl, _, _, hsplit, hbefore, hp⟩
    · rw [List.find?_cons_of_pos (strays_iff.mpr hfinish)]
      constructor
      · rintro ⟨⟩
        exact .finish hrobot hfinish
      · intro houtside
        cases houtside with
        | robot hnot => exact absurd hrobot hnot
        | finish => rfl
        | wall _ hin => exact absurd hin hfinish
  · rw [placed, List.find?_cons_of_pos (strays_iff.mpr hrobot)]
    constructor
    · rintro ⟨⟩
      exact .robot hrobot
    · intro houtside
      cases houtside with
      | robot => rfl
      | finish hin => exact absurd hin hrobot
      | wall hin => exact absurd hin hrobot

/-- What the check reports is the fault to report. -/
theorem wrong_of_problem? {l : Level} {problem : LevelProblem}
    (hproblem : l.problem? = some problem) : l.Wrong problem := by
  unfold problem? at hproblem
  split at hproblem
  · rename_i hempty
    cases hproblem
    exact .emptyBounds (Bounds.isEmpty_iff.mp hempty)
  · rename_i hnonempty
    have hordered : l.bounds.Ordered := by
      rwa [Bounds.isEmpty_iff, not_not] at hnonempty
    split at hproblem
    · rename_i e p hfound
      cases hproblem
      exact .outsideBounds hordered (find?_strays_eq_some_iff.mp hfound)
    · rename_i hnone
      have hinside : l.Inside := find?_strays_eq_none_iff.mp hnone
      simp only [List.contains_iff_mem] at hproblem
      split at hproblem
      · rename_i hrobot
        cases hproblem
        exact .robotOnWall hordered hinside hrobot
      · rename_i hrobot
        split at hproblem
        · rename_i hfinish
          cases hproblem
          exact .finishOnWall hordered hinside hrobot hfinish
        · rename_i hfinish
          split at hproblem
          · rename_i hsame
            cases hproblem
            exact .startsOnFinish hordered hinside hrobot hfinish hsame
          · cases hproblem

/-- The fault to report is what the check reports. -/
theorem problem?_of_wrong {l : Level} {problem : LevelProblem} (hwrong : l.Wrong problem) :
    l.problem? = some problem := by
  have hnonempty (hordered : l.bounds.Ordered) :
      ¬ (l.bounds.x.isEmpty || l.bounds.y.isEmpty) = true := by
    rwa [Bounds.isEmpty_iff, not_not]
  unfold problem?
  cases hwrong with
  | emptyBounds hempty => rw [if_pos (Bounds.isEmpty_iff.mpr hempty)]
  | outsideBounds hordered houtside =>
    rw [if_neg (hnonempty hordered), find?_strays_eq_some_iff.mpr houtside]
  | robotOnWall hordered hinside hrobot =>
    rw [if_neg (hnonempty hordered), find?_strays_eq_none_iff.mpr hinside]
    simp [hrobot]
  | finishOnWall hordered hinside hrobot hfinish =>
    rw [if_neg (hnonempty hordered), find?_strays_eq_none_iff.mpr hinside]
    simp [hrobot, hfinish]
  | startsOnFinish hordered hinside hrobot hfinish hsame =>
    rw [if_neg (hnonempty hordered), find?_strays_eq_none_iff.mpr hinside]
    simp [hsame, hfinish]

/-- A level has a fault to report unless it has none at all. -/
theorem wellPlaced_iff_not_wrong {l : Level} : l.WellPlaced ↔ ∀ problem, ¬ l.Wrong problem := by
  constructor
  · rintro hgood problem hwrong
    cases hwrong with
    | emptyBounds hempty => exact hempty hgood.ordered
    | outsideBounds _ houtside =>
      cases houtside with
      | robot hrobot => exact hrobot hgood.inside.robot
      | finish _ hfinish => exact hfinish hgood.inside.finish
      | wall _ _ hwalls _ hw => exact hw (hgood.inside.walls _ (hwalls ▸ List.mem_append_cons_self))
    | robotOnWall _ _ hrobot => exact hgood.robot hrobot
    | finishOnWall _ _ _ hfinish => exact hgood.finish hfinish
    | startsOnFinish _ _ _ _ hsame => exact hgood.apart hsame
  · intro hnone
    have hordered : l.bounds.Ordered := by_contra fun hempty => hnone _ (.emptyBounds hempty)
    have hinside : l.Inside := by
      refine find?_strays_eq_none_iff.mp (Option.eq_none_iff_forall_ne_some.mpr ?_)
      rintro ⟨e, p⟩ hfound
      exact hnone _ (.outsideBounds hordered (find?_strays_eq_some_iff.mp hfound))
    have hrobot : l.robot ∉ l.walls := fun hmem => hnone _ (.robotOnWall hordered hinside hmem)
    have hfinish : l.finish ∉ l.walls := fun hmem =>
      hnone _ (.finishOnWall hordered hinside hrobot hmem)
    exact ⟨hordered, hinside, hrobot, hfinish, fun hsame =>
      hnone _ (.startsOnFinish hordered hinside hrobot hfinish hsame)⟩

/-- The check reports the fault to report, and nothing else. -/
theorem problem?_eq_some_iff {l : Level} {problem : LevelProblem} :
    l.problem? = some problem ↔ l.Wrong problem :=
  ⟨wrong_of_problem?, problem?_of_wrong⟩

/-- The check reports nothing when there is no fault, and only then. -/
theorem problem?_eq_none_iff {l : Level} : l.problem? = none ↔ l.WellPlaced := by
  rw [wellPlaced_iff_not_wrong, Option.eq_none_iff_forall_ne_some]
  exact forall_congr' fun problem => not_congr problem?_eq_some_iff

/-- The check accepts the levels without a fault and no others, and for every other level it reports
the first fault, with the thing and the place it is about. -/
theorem problem?_tells_first_fault (l : Level) :
    (l.problem? = none ↔ l.WellPlaced) ∧
      ∀ problem, l.problem? = some problem ↔ l.Wrong problem :=
  ⟨problem?_eq_none_iff, fun _ => problem?_eq_some_iff⟩

-- outside the bounds, on a wall and on the finish at once
example : problem? { standard with robot := ⟨5, 0⟩, walls := [⟨5, 0⟩, ⟨9, 9⟩], finish := ⟨5, 0⟩ } =
    some (.outsideBounds .robot ⟨5, 0⟩) := by
  decide

end Level

end GridPuzzle
