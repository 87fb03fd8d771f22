import Mathlib.Algebra.GroupWithZero.Nat
import GridPuzzle.CommandLine.Report
import GridPuzzle.Proofs.Level.RoundTrip
import GridPuzzle.Proofs.Session.Patience

/-!
# What the command line prints

A call either prints nothing and fails, or it prints a whole game. The lines of a game depend on the
level and the text alone: they are those of the walk in the steps of the text. The recorders of the
command line are told about it from different places, by the program, the robot, its guards and the
finish, and what they write down comes in the order of the walk.
-/

namespace GridPuzzle

/-- The cell onto which a sight takes the robot. -/
def Sight.landing? : Sight → Option Position
  | .moved m => some m.target
  | .bumped _ => none

/-- The line of a sight. -/
def Sight.line : Sight → String
  | .moved m => "  " ++ m.text
  | .bumped m => "Bump! There is a wall at " ++ m.target.text

/-- Where the last move among some sights has led to, or where they began. -/
def landing (p : Position) (sights : List Sight) : Position :=
  (sights.filterMap Sight.landing?).getLast?.getD p

theorem landing_moved (p : Position) (m : Move) (sights : List Sight) :
    landing p (.moved m :: sights) = landing m.target sights := by
  simp [landing, Sight.landing?, List.getLast?_cons]

/-- How many steps the tokens of a text count together. -/
def Token.total (source : String) : Nat := ((Token.tokenize source).map (·.count.toNat)).sum

namespace Level

/-- The lines that a game begins with. -/
def setupLines (l : Level) (source : String) : List String :=
  ("Level '" ++ l.name ++ "': " ++ Text.natural l.bounds.width ++ "x"
      ++ Text.natural l.bounds.height ++ " grid")
    :: ("  Robot at " ++ l.robot.text ++ " (" ++ l.sprites.robot ++ ")")
    :: ("  Finish at " ++ l.finish.text ++ " (" ++ l.sprites.finish ++ ")")
    :: l.walls.map (fun w => "  Wall at " ++ w.text ++ " (" ++ l.sprites.wall ++ ")")
    ++ ["Found " ++ Text.natural (Token.tokenize source).length ++ " instructions in the program"]

/-- The lines of a walk, to the end of its program. -/
def walkLines (l : Level) (w : Walk) : List String :=
  w.sights.map Sight.line ++
    if w.arrived then
      ["Program running -> abort", "Well done! The robot reached the finish at " ++ l.finish.text]
    else
      ["Program running -> finished"]

/-- The line that tells how a program has ended. -/
def Walk.endLine (w : Walk) : String :=
  if w.arrived then "Program ended: abort" else "Program ended: finished"

/-- The lines after the program. -/
def outcomeLines (l : Level) (w : Walk) : List String :=
  ("The robot is at " ++ (landing l.robot w.sights).text) ::
    if w.arrived then []
    else ["The finish at " ++ l.finish.text ++ " has not been reached yet"]

/-- The lines of a game. -/
def gameLines (l : Level) (source : String) : List String :=
  let w := l.walk l.robot (compile source)
  l.setupLines source ++
    (if Token.total source = 0 then
      ["Nothing to do: write commands like left(2) or up(1)"]
    else
      "Program stopped -> running" :: l.walkLines w ++ [w.endLine]) ++
    l.outcomeLines w

end Level

/-- A text without steps is one whose tokens count nothing together. -/
theorem compile_eq_nil_iff {source : String} : compile source = [] ↔ Token.total source = 0 := by
  have hlength : (compile source).length = Token.total source := by
    simp [compile, Token.total, Token.steps, List.length_flatMap]
  rw [← hlength, List.length_eq_zero_iff]

/-- The walk ends where the last move has led to. -/
theorem Level.walk_position (l : Level) (ds : List Direction) (p : Position) :
    (l.walk p ds).position = landing p (l.walk p ds).sights := by
  induction ds generalizing p with
  | nil => rfl
  | cons d ds ih =>
    cases hd : l.sight? p d with
    | none =>
      rw [Level.walk_cons_unseen ds hd]
      exact ih p
    | some seen =>
      cases seen with
      | bumped m =>
        rw [Level.walk_cons_bumped ds hd]
        exact ih p
      | moved m =>
        by_cases hm : m.target = l.finish
        · rw [Level.walk_cons_arrived ds hd hm]
          rfl
        · rw [Level.walk_cons_moved ds hd hm]
          exact (ih m.target).trans (landing_moved p m _).symm

/-- The scene of a level, with the recorders of the command line, one of each kind. -/
def Scene.seated (l : Level) : Scene :=
  { Scene.ofLevel l [.recorder "move"] with
    statusObservers := [.recorder "status"]
    wallObservers := [.recorder "wall"]
    completionObservers := [.recorder "finish"] }

section Lines

variable (l : Level) (p : ProgramId) (source : String)

/-- A bump is one line. -/
theorem lines_bumped (m : Move) :
    ((Scene.seated l).reports p source (.bumped m)).filterMap Transcript.eventLine? =
      [(Sight.bumped m).line] := rfl

/-- A move is one line, and two more follow if it reaches the finish. -/
theorem lines_moved (m : Move) :
    ((Scene.seated l).reports p source (.moved m)).filterMap Transcript.eventLine? =
      (Sight.moved m).line :: if m.target = l.finish then
        ["Program running -> abort", "Well done! The robot reached the finish at " ++ l.finish.text]
      else [] := by
  have hwatchers : (Scene.seated l).watchers =
      [Callback.recorder "move"].map .client ++ .finish l.finishEntity :: [].map .client := rfl
  rw [Scene.reports_moved _ p source hwatchers]
  split <;> rfl

/-- What is written down about a walk are the lines of the walk. -/
theorem lines_recounts (ds : List Direction) (cell : Position) :
    ((Scene.seated l).recounts p source (l.walk cell ds)).filterMap Transcript.eventLine? =
      l.walkLines (l.walk cell ds) := by
  induction ds generalizing cell with
  | nil => rfl
  | cons d ds ih =>
    cases hd : l.sight? cell d with
    | none =>
      rw [Level.walk_cons_unseen ds hd]
      exact ih cell
    | some seen =>
      cases seen with
      | bumped m =>
        rw [Level.walk_cons_bumped ds hd, Scene.recounts_cons, List.filterMap_append,
          lines_bumped, ih cell]
        rfl
      | moved m =>
        by_cases hm : m.target = l.finish
        · rw [Level.walk_cons_arrived ds hd hm, Scene.recounts_arrived, lines_moved, if_pos hm]
          rfl
        · rw [Level.walk_cons_moved ds hd hm, Scene.recounts_cons, List.filterMap_append,
            lines_moved, if_neg hm, ih m.target]
          rfl

end Lines

namespace Session

/-- A session that has just been seated is plain. -/
theorem plain_seated (l : Level) (r : Remark) : Plain l (note r { scene := .seated l }) := by
  refine ⟨⟨nofun, nofun, ?_, ?_, ?_, ?_⟩, rfl, ⟨[.recorder "move"], [], rfl⟩, rfl, rfl, rfl⟩
  all_goals simp [note, Scene.seated, Scene.ofLevel, Callback.isRecorder_recorder]

/-- The finish of a scene stays what it is while a text is played and everybody waits. -/
theorem finish_kept {perform : Perform} (hperform : perform.Orderly) {s t u : Session}
    {source : String} {answer : Outcome PlayAnswer}
    (hplay : play perform true source s = (answer, t)) (hwait : Beats perform t u) :
    u.scene.finish = s.scene.finish := by
  have hdeeds : Deeds perform (fun _ => False) s u := by
    have hfirst : Deeds perform (fun _ => False) s (play perform true source s).2 :=
      .single (.play s true source)
    rw [hplay] at hfirst
    exact hfirst.trans (paced_deeds.beats hwait)
  refine hdeeds.keeps (P := fun v => v.scene.finish = s.scene.finish) (fun hd hv => ?_) rfl
  refine hd.keeps (P := fun v => v.scene.finish = s.scene.finish) hperform
    (fun hc hv => ?_) (fun ha hv => ?_) (fun _ hv => hv) (fun _ hfalse => hfalse.elim) hv
  · cases hc <;> exact hv
  · rw [ha.scene]
    exact hv

end Session

namespace Transcript

/-- A level is seated with its recorders, and nothing has happened yet. -/
theorem seated_eq_ok {l : Level} {s : Session} (hs : seated l = .ok s) :
    ∃ r, s = note r { scene := .seated l } := by
  unfold seated Session.ofLevel at hs
  split at hs
  · cases hs
  · cases hs
    exact ⟨_, rfl⟩

/-- A game begins with the lines of its level. -/
theorem opening_eq (l : Level) (source : String) :
    opening l source (.seated l) = l.setupLines source := by
  unfold opening Level.setupLines
  have hwalls : (Scene.seated l).walls.map (fun w => entityLine .wall w.position w.sprite) =
      l.walls.map fun w => "  Wall at " ++ w.text ++ " (" ++ l.sprites.wall ++ ")" :=
    List.map_map
  rw [hwalls]
  rfl

/-- The lines after the program tell where the walk has ended. -/
theorem closing_eq {l : Level} {scene : Scene} {source : String}
    (hposition : scene.position = (l.walk l.robot (compile source)).position)
    (hcomplete : scene.complete = (l.walk l.robot (compile source)).arrived)
    (hfinish : scene.finish = l.finishEntity) :
    closing scene = l.outcomeLines (l.walk l.robot (compile source)) := by
  unfold closing Level.outcomeLines
  rw [hposition, hcomplete, hfinish, l.walk_position]
  rfl

/-- The line that a finished task leaves. -/
theorem endedLine_eq (w : Level.Walk) : endedLine w.status = w.endLine := by
  unfold Level.Walk.status Level.Walk.endLine
  split <;> rfl

/-- A text without steps leaves the robot where it stands. -/
theorem ofGame_idle {l : Level} {source : String} (hsource : compile source = []) (r : Remark) :
    ofGame l source (note r { scene := .seated l }) = { lines := l.gameLines source } := by
  obtain ⟨t, hplay, hscene⟩ : ∃ t, Session.play Session.perform true source
      (note r { scene := .seated l }) = (.value .idle, t) ∧
      t.scene = { Scene.seated l with slot := some 0 } := by
    have hidle : Session.play Session.perform true source (note r { scene := .seated l }) = _ :=
      (Session.plain_seated l r).toQuiet.play_idle_eq source rfl
    dsimp only at hidle
    rw [if_pos hsource, Session.noteAll_eq] at hidle
    exact ⟨_, hidle, rfl⟩
  have hclosing : closing t.scene = l.outcomeLines (l.walk l.robot (compile source)) := by
    rw [hscene]
    exact closing_eq (by rw [hsource]; rfl) (by rw [hsource]; rfl) rfl
  unfold ofGame Level.gameLines
  dsimp only
  rw [hplay, if_pos (compile_eq_nil_iff.mp hsource), ← opening_eq, ← hclosing, List.append_assoc]
  rfl

/-- A text with steps is played to its end. -/
theorem ofGame_played {l : Level} {source : String} (hsource : compile source ≠ []) (r : Remark) :
    ofGame l source (note r { scene := .seated l }) = { lines := l.gameLines source } := by
  have hperform : Session.perform.Orderly := Session.performWithin_orderly _
  obtain ⟨t, u, hplay, hjoin, hperformed⟩ :=
    (Session.plain_seated l r).join_performed hperform ⟨nofun, nofun⟩ rfl rfl hsource
  have hwait : Session.Beats Session.perform t u := by
    have hbeats :
        Session.Beats Session.perform t (Session.join Session.perform 0 (patience t 0) t).2 :=
      Session.join_beats 0 (patience t 0) t
    rw [hjoin] at hbeats
    exact hbeats
  have hfinish : u.scene.finish = l.finishEntity := Session.finish_kept hperform hplay hwait
  have hevents : eventLines u =
      "Program stopped -> running" :: l.walkLines (l.walk l.robot (compile source)) := by
    rw [eventLines, hperformed.events, List.filterMap_append, List.filterMap_append]
    exact congrArg (_ :: ·) (lines_recounts l 0 source (compile source) l.robot)
  unfold ofGame Level.gameLines
  dsimp only
  rw [hplay]
  dsimp only
  rw [hjoin]
  dsimp only
  rw [hevents, closing_eq hperformed.position hperformed.complete hfinish,
    if_neg (mt compile_eq_nil_iff.mpr hsource), ← opening_eq]
  simp [endedLine_eq]

/-- The transcript of a game is the whole game. -/
theorem ofGame_eq {l : Level} {s : Session} (hs : seated l = .ok s) (source : String) :
    ofGame l source s = { lines := l.gameLines source } := by
  obtain ⟨r, rfl⟩ := seated_eq_ok hs
  by_cases hsource : compile source = []
  · exact ofGame_idle hsource r
  · exact ofGame_played hsource r

end Transcript

namespace Report

/-- A level that is chosen has been checked. -/
theorem problem?_chosen {t : FileTree} {a : Arguments} {l : Level} (h : chosenLevel t a = .ok l) :
    l.problem? = none := by
  unfold chosenLevel at h
  split at h
  · rename_i path _
    unfold Level.load Level.ofStored at h
    split at h
    · cases h
    · split at h
      · cases h
      · rename_i hread
        cases h
        exact Level.problem?_of_ofText hread
  · cases h
    decide

/-- A report that prints nothing but a fault. -/
structure Fails (r : Report) (fault : String) : Prop where
  code : r.code = 1
  output : r.output = ""
  error : r.error? = some ("Error: " ++ fault)

/-- A report that prints a whole game. -/
structure Plays (r : Report) (l : Level) (source : String) : Prop where
  code : r.code = 0
  output : r.output = text (l.gameLines source)
  error : r.error? = none

/-- The command line prints nothing and fails where the level or else the program cannot be read,
and otherwise prints the whole game and succeeds. -/
theorem prints_nothing_or_the_whole_game (t : FileTree) (stdin : ByteArray)
    {arguments : List String} {a : Arguments} (h : Arguments.ofList arguments = some (.play a)) :
    (∀ f, chosenLevel t a = .error f → (ofCall t stdin arguments).Fails f.labelled) ∧
    ∀ l, chosenLevel t a = .ok l →
      (∀ f, chosenProgram t stdin a = .error f → (ofCall t stdin arguments).Fails f.labelled) ∧
      ∀ source, chosenProgram t stdin a = .ok source →
        (ofCall t stdin arguments).Plays l source := by
  have hcall : ofCall t stdin arguments =
      ofGame (chosenLevel t a) (chosenProgram t stdin a) := by
    unfold ofCall
    rw [h]
  refine ⟨fun f hlevel => ?_, fun l hlevel => ⟨fun f hprogram => ?_, fun source hprogram => ?_⟩⟩
  · rw [hcall, hlevel]
    exact ⟨rfl, rfl, rfl⟩
  · rw [hcall, hlevel, hprogram]
    exact ⟨rfl, rfl, rfl⟩
  · obtain ⟨s, hs⟩ : ∃ s, Transcript.seated l = .ok s := by
      unfold Transcript.seated Session.ofLevel
      rw [problem?_chosen hlevel]
      exact ⟨_, rfl⟩
    have hplayed : ofGame (.ok l) (.ok source) = played { lines := l.gameLines source } := by
      unfold ofGame prepare
      dsimp only
      rw [hs]
      exact congrArg played (Transcript.ofGame_eq hs source)
    rw [hcall, hlevel, hprogram, hplayed]
    exact ⟨rfl, rfl, rfl⟩

/-- The UTF-8 form of a text is read as that text. -/
theorem textOfBytes_toUTF8 (source : String) : textOfBytes source.toUTF8 = .ok source := by
  unfold textOfBytes String.fromUTF8?
  have hvalid : source.toUTF8.IsValidUTF8 := source.isValidUTF8
  rw [dif_pos hvalid]
  rfl

/-- On the standard level a step off the grid is not shown, and the steps to the finish are. -/
theorem standard_game_is_printed :
    Arguments.ofList [] = some (.play {}) ∧
      (ofCall ⟨[]⟩ "right(1) left(2) up(2)".toUTF8 []).code = 0 ∧
      (ofCall ⟨[]⟩ "right(1) left(2) up(2)".toUTF8 []).output =
        text (Level.standard.gameLines "right(1) left(2) up(2)") ∧
      Level.standard.gameLines "right(1) left(2) up(2)" = [
        "Level 'default': 5x5 grid",
        "  Robot at (4, 4) (img/Robot_37500.png)",
        "  Finish at (2, 2) (img/Sports-Finish-Flag-icon.png)",
        "Found 3 instructions in the program",
        "Program stopped -> running",
        "  (4, 4) -> (3, 4)",
        "  (3, 4) -> (2, 4)",
        "  (2, 4) -> (2, 3)",
        "  (2, 3) -> (2, 2)",
        "Program running -> abort",
        "Well done! The robot reached the finish at (2, 2)",
        "Program ended: abort",
        "The robot is at (2, 2)"] := by
  have hplay : Arguments.ofList [] = some (.play {}) := rfl
  have hsource : chosenProgram ⟨[]⟩ "right(1) left(2) up(2)".toUTF8 {} =
      .ok "right(1) left(2) up(2)" := textOfBytes_toUTF8 "right(1) left(2) up(2)"
  have hplays := ((prints_nothing_or_the_whole_game ⟨[]⟩ "right(1) left(2) up(2)".toUTF8
    hplay).2 .standard rfl).2 _ hsource
  exact ⟨hplay, hplays.code, hplays.output, by decide +kernel⟩

end Report

end GridPuzzle
