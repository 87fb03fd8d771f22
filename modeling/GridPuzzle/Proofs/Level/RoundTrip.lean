import GridPuzzle.Proofs.Level.Layouts

/-!
# Level texts round-trip

The pretty text of a level reads as that level, whatever its name, images, coordinates, walls and
pause are. So the text of a playable level gives the level back, the text of another one reports
its first problem, and writing a level that was read loses nothing.
-/

namespace GridPuzzle

open Json

/-- The pretty text of a level reads as the level, playable or not. -/
theorem Level.read_prettyText (l : Level) : Level.read l.prettyText = .ok l :=
  Level.read_laidOut l.writes_value l.value.laidOut

/-- A level that was read has been checked. -/
theorem Level.problem?_of_ofText {text : String} {l : Level} (h : Level.ofText text = .ok l) :
    l.problem? = none := by
  unfold Level.ofText at h
  cases read : Level.read text with
  | error f => simp [read] at h
  | ok l' =>
    cases problem : l'.problem? with
    | some p => simp [read, problem] at h
    | none =>
      simp only [read, problem, Except.ok.injEq] at h
      rwa [← h]

/-- The pretty text of a level gives the level or its first problem, never a fault of the text, and
so a level that was read survives being written and read again. -/
theorem Level.pretty_text_reads_back :
    (∀ l : Level, Level.ofText l.prettyText =
      match l.problem? with
      | none => .ok l
      | some p => .error (.unplayable p)) ∧
    (∀ (l : Level) (f : Fault), Level.ofText l.prettyText ≠ .error (.malformed f)) ∧
    ∀ (text : String) (l : Level), Level.ofText text = .ok l →
      Level.ofText l.prettyText = .ok l := by
  have written (l : Level) : Level.ofText l.prettyText =
      match l.problem? with
      | none => .ok l
      | some p => .error (.unplayable p) := by
    rw [Level.ofText, l.read_prettyText]
    cases problem : l.problem? <;> simp [problem]
  refine ⟨written, ?_, ?_⟩
  · intro l f malformed
    rw [written l] at malformed
    cases problem : l.problem? <;> simp [problem] at malformed
  · intro text l found
    rw [written l, Level.problem?_of_ofText found]

/-- A level with every kind of escape in its texts and with words at their limits. -/
def Level.extreme : Level where
  name := "\"\\/\n\t\x01\x1f\x7f"
  robot := ⟨Int32.minValue, 0⟩
  bounds := .ofCorners Int32.minValue Int32.minValue Int32.maxValue Int32.maxValue
  walls := [⟨Int32.maxValue, Int32.minValue⟩, ⟨-1, 1⟩]
  finish := ⟨0, Int32.maxValue⟩
  stepDelay := 18446744073709551615
  sprites := { wall := "" }

/-- The extreme level survives its text, and so does a level that was read from a list. -/
theorem Level.extreme_reads_back :
    Level.ofText Level.extreme.prettyText = .ok Level.extreme ∧
    Level.ofText "[\"\\u0001\",[4,4],[[0,4],[0,4]],[],[2,2]]" =
      .ok { Level.standard with name := "\x01" } ∧
    Level.ofText (Level.prettyText { Level.standard with name := "\x01" }) =
      .ok { Level.standard with name := "\x01" } := by
  have playable : Level.extreme.problem? = none := by decide
  have read : Level.ofText "[\"\\u0001\",[4,4],[[0,4],[0,4]],[],[2,2]]" =
      .ok { Level.standard with name := "\x01" } := by decide +kernel
  refine ⟨?_, read, Level.pretty_text_reads_back.2.2 _ _ read⟩
  rw [Level.pretty_text_reads_back.1, playable]

end GridPuzzle
