import GridPuzzle.Level.Written
import GridPuzzle.Proofs.Json.Documents

/-!
# Levels in any layout

A level is read from every text that writes it: with the members of each object in any order, with
usual values left out, with strangers among the members of the objects inside the level, and with
any white space and spelling; its pretty text is one of them. A stranger in the level itself, a key
that is repeated in any of these objects and a required member that is missing are faults of the
text.
-/

namespace GridPuzzle

open Json

/-! ## What writes a level -/

/-- A number without fraction and exponent. -/
def Json.Tree.WritesInteger (t : Tree) (n : Int) : Prop := t = .number (numberOf n)

/-- A string, in one of the ways in which it may be written. -/
def Json.Tree.WritesText (t : Tree) (s : String) : Prop := ∃ raw, t = .text raw ∧ raw.Writes s

/-- The members that write a position. -/
def Position.entries (p : Position) : List Entry := [
  ⟨"x", False, (·.WritesInteger p.x.toInt)⟩,
  ⟨"y", False, (·.WritesInteger p.y.toInt)⟩]

/-- The objects that write a position. -/
def Position.Writes (p : Position) : Tree → Prop := WritesObject p.entries true

/-- The members that write a range. -/
def AxisRange.entries (r : AxisRange) : List Entry := [
  ⟨"min", False, (·.WritesInteger r.min.toInt)⟩,
  ⟨"max", False, (·.WritesInteger r.max.toInt)⟩]

/-- The objects that write a range. -/
def AxisRange.Writes (r : AxisRange) : Tree → Prop := WritesObject r.entries true

/-- The members that write bounds. -/
def Bounds.entries (b : Bounds) : List Entry := [⟨"x", False, b.x.Writes⟩, ⟨"y", False, b.y.Writes⟩]

/-- The objects that write bounds. -/
def Bounds.Writes (b : Bounds) : Tree → Prop := WritesObject b.entries true

/-- The members that write images; usual ones may be left out. -/
def SpriteSet.entries (s : SpriteSet) : List Entry := [
  ⟨"robot", s.robot = defaultRobotSprite, (·.WritesText s.robot)⟩,
  ⟨"finish", s.finish = defaultFinishSprite, (·.WritesText s.finish)⟩,
  ⟨"wall", s.wall = defaultWallSprite, (·.WritesText s.wall)⟩]

/-- The objects that write images. -/
def SpriteSet.Writes (s : SpriteSet) : Tree → Prop := WritesObject s.entries true

/-- The lists that write walls. -/
def writesWalls (walls : List Position) (t : Tree) : Prop :=
  ∃ items, t = .list items .closed ∧ List.Forall₂ Position.Writes walls items

/-- The members that write a level; usual values may be left out. -/
def Level.entries (l : Level) : List Entry := [
  ⟨"name", l.name = "", (·.WritesText l.name)⟩,
  ⟨"robot", False, l.robot.Writes⟩,
  ⟨"bounds", False, l.bounds.Writes⟩,
  ⟨"walls", l.walls = [], writesWalls l.walls⟩,
  ⟨"finish", False, l.finish.Writes⟩,
  ⟨"step_delay_ms", l.stepDelay = defaultStepDelay, (·.WritesInteger l.stepDelay.toNat)⟩,
  ⟨"sprites", l.sprites = {}, l.sprites.Writes⟩]

/-- The objects that write a level; no stranger is admitted. -/
def Level.Writes (l : Level) : Tree → Prop := WritesObject l.entries false

/-! ## What writes no level -/

/-- The objects that are not fit to be positions. -/
def Position.Unfit : Tree → Prop := Json.Unfit ["x", "y"] ["x", "y"] true fun _ _ => False

/-- The objects that are not fit to be ranges. -/
def AxisRange.Unfit : Tree → Prop := Json.Unfit ["min", "max"] ["min", "max"] true fun _ _ => False

/-- The objects that are not fit to be bounds. -/
def Bounds.Unfit : Tree → Prop := Json.Unfit ["x", "y"] ["x", "y"] true fun _ => AxisRange.Unfit

/-- The objects that are not fit to be images. -/
def SpriteSet.Unfit : Tree → Prop :=
  Json.Unfit ["robot", "finish", "wall"] [] true fun _ _ => False

/-- The lists that are not fit to be walls. -/
def unfitWalls (t : Tree) : Prop := ∃ items, t = .list items .closed ∧ ∃ i ∈ items, Position.Unfit i

/-- The objects that are not fit to be levels. -/
def Level.Unfit : Tree → Prop :=
  Json.Unfit ["name", "robot", "bounds", "walls", "finish", "step_delay_ms", "sprites"]
    ["robot", "bounds", "finish"] false fun key t =>
      (key = "robot" ∨ key = "finish") ∧ Position.Unfit t ∨
      key = "bounds" ∧ Bounds.Unfit t ∨
      key = "walls" ∧ unfitWalls t ∨
      key = "sprites" ∧ SpriteSet.Unfit t

/-! ## The value of a level -/

theorem writesInteger_value (n : Int) : (Value.integer n).tree.WritesInteger n := rfl

theorem writesText_value (s : String) : (Value.text s).tree.WritesText s :=
  ⟨rawText s, rfl, rawText_writes s⟩

theorem Position.writes_value (p : Position) : p.Writes p.value.tree := by
  refine Value.writes_object ?_ (by simp) (by simp [entries])
  simp [entries, coordinateValue, writesInteger_value]

theorem AxisRange.writes_value (r : AxisRange) : r.Writes r.value.tree := by
  refine Value.writes_object ?_ (by simp) (by simp [entries])
  simp [entries, coordinateValue, writesInteger_value]

theorem Bounds.writes_value (b : Bounds) : b.Writes b.value.tree := by
  refine Value.writes_object ?_ (by simp) (by simp [entries])
  simp [entries, AxisRange.writes_value]

theorem SpriteSet.writes_value (s : SpriteSet) : s.Writes s.value.tree := by
  refine Value.writes_object ?_ (by simp) (by simp [entries])
  simp [entries, writesText_value]

theorem writesWalls_value (walls : List Position) :
    writesWalls walls (Value.list (walls.map Position.value)).tree := by
  refine ⟨_, rfl, ?_⟩
  rw [itemTrees_eq_map, List.map_map, List.forall₂_map_right_iff]
  exact List.forall₂_same.mpr fun p _ => p.writes_value

/-- The value of a level is one way to write it. -/
theorem Level.writes_value (l : Level) : l.Writes l.value.tree := by
  refine Value.writes_object ?_ (by simp) (by simp [entries])
  simp [entries, writesText_value, writesInteger_value, writesWalls_value, Position.writes_value,
    Bounds.writes_value, SpriteSet.writes_value]

/-! ## Reading what writes a level -/

theorem readText_writes {s : String} (t : Tree) (h : t.WritesText s) : t.readText = .ok s := by
  obtain ⟨raw, rfl, hraw⟩ := h
  exact hraw.read

theorem readInt32_writes {c : Int32} (t : Tree) (h : t.WritesInteger c.toInt) :
    t.readInt32 = .ok c := by
  cases h
  exact Tree.readInt32_integer c

theorem readUInt64_writes {w : UInt64} (t : Tree) (h : t.WritesInteger w.toNat) :
    t.readUInt64 = .ok w := by
  cases h
  exact Tree.readUInt64_integer w

theorem Position.read_writes (p : Position) (t : Tree) (h : p.Writes t) :
    positionRecord.read t = .ok p :=
  (pairRecord_takes (by decide) readInt32_writes readInt32_writes).read h

theorem AxisRange.read_writes (r : AxisRange) (t : Tree) (h : r.Writes t) :
    rangeRecord.read t = .ok r :=
  (pairRecord_takes (by decide) readInt32_writes readInt32_writes).read h

theorem Bounds.read_writes (b : Bounds) (t : Tree) (h : b.Writes t) : boundsRecord.read t = .ok b :=
  (pairRecord_takes (by decide) b.x.read_writes b.y.read_writes).read h

/-- The draft of some images that holds those whose keys have been seen. -/
def SpriteSet.draft (s : SpriteSet) (seen : String → Bool) : SpriteDraft where
  robot := given (seen "robot") s.robot
  finish := given (seen "finish") s.finish
  wall := given (seen "wall") s.wall

theorem SpriteSet.takes (s : SpriteSet) : spriteRecord.Takes s.entries s.draft s where
  keys := by simp [entries]
  fields := by
    refine .cons ⟨rfl, Field.takes_usual (fun _ => rfl) (fun seen => ?_) readText_writes⟩
      (.cons ⟨rfl, Field.takes_usual (fun _ => rfl) (fun seen => ?_) readText_writes⟩
      (.cons ⟨rfl, Field.takes_usual (fun _ => rfl) (fun seen => ?_) readText_writes⟩ .nil))
    all_goals simp [draft, given]
  empty := rfl
  complete seen hseen := by
    simp only [entries, List.forall_mem_cons] at hseen
    obtain ⟨hrobot, hfinish, hwall, -⟩ := hseen
    simp only [spriteRecord, draft, getD_given hrobot, getD_given hfinish, getD_given hwall]

theorem SpriteSet.read_writes (s : SpriteSet) (t : Tree) (h : s.Writes t) :
    spriteRecord.read t = .ok s :=
  s.takes.read h

/-- A list is read when each of its items is. -/
theorem readList_writes (walls : List Position) (t : Tree) (h : writesWalls walls t) :
    t.readList positionRecord.read = .ok walls := by
  obtain ⟨items, rfl, hitems⟩ := h
  have further (done : List Position) :
      Tree.readItems positionRecord.read .closed done items = .ok (done.reverse ++ walls) := by
    induction hitems generalizing done with
    | nil => simp [Tree.readItems, Tree.guarded, Tree.listFault?]
    | cons hp _ ih => simp [Tree.readItems, Position.read_writes _ _ hp, ih]
  exact further []

/-- The draft of a level that holds the members whose keys have been seen. -/
def Level.draft (l : Level) (seen : String → Bool) : LevelDraft where
  name := given (seen "name") l.name
  robot := given (seen "robot") l.robot
  bounds := given (seen "bounds") l.bounds
  walls := given (seen "walls") l.walls
  finish := given (seen "finish") l.finish
  stepDelay := given (seen "step_delay_ms") l.stepDelay
  sprites := given (seen "sprites") l.sprites

theorem Level.takes (l : Level) : levelRecord.Takes l.entries l.draft l where
  keys := by simp [entries]
  fields := by
    refine
      .cons ⟨rfl, Field.takes_usual (fun _ => rfl) (fun seen => ?_) readText_writes⟩
      (.cons ⟨rfl, Field.takes (fun _ => rfl) (fun seen => ?_) l.robot.read_writes⟩
      (.cons ⟨rfl, Field.takes (fun _ => rfl) (fun seen => ?_) l.bounds.read_writes⟩
      (.cons ⟨rfl, Field.takes_usual (fun _ => rfl) (fun seen => ?_) (readList_writes l.walls)⟩
      (.cons ⟨rfl, Field.takes (fun _ => rfl) (fun seen => ?_) l.finish.read_writes⟩
      (.cons ⟨rfl, Field.takes_usual (fun _ => rfl) (fun seen => ?_) readUInt64_writes⟩
      (.cons ⟨rfl, Field.takes_usual (fun _ => rfl) (fun seen => ?_) l.sprites.read_writes⟩
      .nil))))))
    all_goals simp [draft, given]
  empty := rfl
  complete seen hseen := by
    simp only [entries, List.forall_mem_cons] at hseen
    obtain ⟨hname, hrobot, hbounds, hwalls, hfinish, hdelay, hsprites, -⟩ := hseen
    simp only [levelRecord, LevelDraft.complete, draft, getD_given hname, getD_given hwalls,
      getD_given hdelay, getD_given hsprites, given_of (hrobot not_false),
      given_of (hbounds not_false), given_of (hfinish not_false), need, Except.bind]

theorem Level.read_writes {l : Level} {t : Tree} (h : l.Writes t) : levelRecord.read t = .ok l :=
  l.takes.read h

/-! ## Refusing what writes no level -/

theorem Position.read_unfit (t : Tree) (h : Position.Unfit t) (p : Position) :
    positionRecord.read t ≠ .ok p :=
  pairRecord_unfit (by decide) nofun nofun h p

theorem AxisRange.read_unfit (t : Tree) (h : AxisRange.Unfit t) (r : AxisRange) :
    rangeRecord.read t ≠ .ok r :=
  pairRecord_unfit (by decide) nofun nofun h r

theorem Bounds.read_unfit (t : Tree) (h : Bounds.Unfit t) (b : Bounds) :
    boundsRecord.read t ≠ .ok b :=
  pairRecord_unfit (by decide) AxisRange.read_unfit AxisRange.read_unfit h b

theorem spriteRecord_lawful : spriteRecord.Lawful where
  names := by simp [spriteRecord, Field.usual, Field.required]
  empty := by simp [spriteRecord, Field.usual, Field.required]
  read := by
    simp only [spriteRecord, List.forall_mem_cons, List.not_mem_nil, false_implies, implies_true,
      and_true]
    refine ⟨fun t d d' h => ?_, fun t d d' h => ?_, fun t d d' h => ?_⟩
    all_goals
      obtain ⟨_, -, rfl⟩ := Field.read_usual h
      simp [Field.usual, Field.required]
  required := by simp [spriteRecord, Field.usual]

theorem SpriteSet.read_unfit (t : Tree) (h : SpriteSet.Unfit t) (s : SpriteSet) :
    spriteRecord.read t ≠ .ok s := by
  refine spriteRecord_lawful.unfit ?_ ?_ h s
  · exact fun _ hkey => absurd hkey List.not_mem_nil
  · exact fun _ _ _ hinner => hinner.elim

/-- A list is not read when one of its items is not. -/
theorem readList_unfit (t : Tree) (h : unfitWalls t) (walls : List Position) :
    t.readList positionRecord.read ≠ .ok walls := by
  obtain ⟨items, rfl, item, hitem, hunfit⟩ := h
  have further (done : List Position) :
      Tree.readItems positionRecord.read .closed done items ≠ .ok walls := by
    induction items generalizing done with
    | nil => cases hitem
    | cons first items ih =>
      intro hread
      rw [Tree.readItems] at hread
      cases hfirst : positionRecord.read first with
      | error f => simp [hfirst] at hread
      | ok p =>
        simp only [hfirst] at hread
        rcases List.mem_cons.mp hitem with rfl | hrest
        · exact Position.read_unfit item hunfit p hfirst
        · exact ih hrest (p :: done) hread
  exact further []

theorem levelRecord_lawful : levelRecord.Lawful where
  names := by simp [levelRecord, Field.usual, Field.required]
  empty := by simp [levelRecord, Field.usual, Field.required]
  read := by
    simp only [levelRecord, List.forall_mem_cons, List.not_mem_nil, false_implies, implies_true,
      and_true]
    refine ⟨?name, ?robot, ?bounds, ?walls, ?finish, ?pause, ?sprites⟩
    case name | walls | pause | sprites =>
      intro t d d' h
      obtain ⟨_, -, rfl⟩ := Field.read_usual h
      simp [Field.usual, Field.required]
    case robot | bounds | finish =>
      intro t d d' h
      obtain ⟨_, -, rfl⟩ := Field.read_required h
      simp [Field.usual, Field.required]
  required d l h := by
    have hgiven : d.robot.isSome ∧ d.bounds.isSome ∧ d.finish.isSome := by
      obtain ⟨_, _ | _, _ | _, _, _ | _, _, _⟩ := d <;> cases h
      exact ⟨rfl, rfl, rfl⟩
    simp [levelRecord, Field.usual, Field.required, hgiven]

theorem Level.read_unfit {t : Tree} (h : Level.Unfit t) (l : Level) :
    levelRecord.read t ≠ .ok l := by
  refine levelRecord_lawful.unfit ?_ ?_ h l
  · simp [levelRecord, Field.usual, Field.required]
  · simp only [levelRecord, List.forall_mem_cons, List.not_mem_nil, false_implies, implies_true,
      and_true]
    refine ⟨fun t hinner d d' h => ?_, fun t hinner d d' h => ?_, fun t hinner d d' h => ?_,
      fun t hinner d d' h => ?_, fun t hinner d d' h => ?_, fun t hinner d d' h => ?_,
      fun t hinner d d' h => ?_⟩
    -- only the own part of what may be unfit remains for each key
    all_goals simp only [Field.usual, Field.required, String.reduceEq, true_and, false_and, or_true,
      or_false, false_or, or_self] at hinner
    · obtain ⟨p, hread, -⟩ := Field.read_required h
      exact Position.read_unfit t hinner p hread
    · obtain ⟨b, hread, -⟩ := Field.read_required h
      exact Bounds.read_unfit t hinner b hread
    · obtain ⟨walls, hread, -⟩ := Field.read_usual h
      exact readList_unfit t hinner walls hread
    · obtain ⟨p, hread, -⟩ := Field.read_required h
      exact Position.read_unfit t hinner p hread
    · obtain ⟨s, hread, -⟩ := Field.read_usual h
      exact SpriteSet.read_unfit t hinner s hread

/-! ## Reading a text -/

/-- A level is read from every text of a tree that writes it. -/
theorem Level.read_laidOut {l : Level} {t : Tree} {text : String} (hl : l.Writes t)
    (htext : t.LaidOut text) : Level.read text = .ok l := by
  rw [Level.read, readDocument, htext.document, Level.read_writes hl]
  rfl

/-- Every text that writes a level in some layout gives the level or its first problem, and the text
of an object unfit to be a level is malformed. -/
theorem Level.layout_does_not_matter :
    (∀ (l : Level) (t : Tree) (text : String), l.Writes t → t.LaidOut text →
      Level.ofText text =
        match l.problem? with
        | none => .ok l
        | some p => .error (.unplayable p)) ∧
    ∀ (t : Tree) (text : String), Level.Unfit t → t.LaidOut text →
      ∃ f, Level.ofText text = .error (.malformed f) := by
  refine ⟨fun l t text hl htext => ?_, fun t text ht htext => ?_⟩
  · rw [Level.ofText, Level.read_laidOut hl htext]
    cases problem : l.problem? <;> simp [problem]
  · cases hread : levelRecord.read t with
    | ok l => exact absurd hread (Level.read_unfit ht l)
    | error f =>
      refine ⟨f, ?_⟩
      rw [Level.ofText, Level.read, readDocument, htext.document, hread]
      rfl

/-- The members of the standard level in another order, with a stranger in its finish and without
walls, pause and images. -/
def Level.shuffledMembers : List (String × Value) := [
  ("finish", .object [("y", .integer 2), ("note", .list [.text "here", .object []]),
    ("x", .integer 2)]),
  ("bounds", .object [("y", AxisRange.value ⟨0, 4⟩), ("x", AxisRange.value ⟨0, 4⟩)]),
  ("name", .text "default"),
  ("robot", Position.value ⟨4, 4⟩)]

/-- The shuffled members are read as the standard level after a blank line, and with a stranger
among them they are malformed. -/
theorem Level.shuffled_text_reads :
    Level.ofText ("\r\n" ++ (Value.object Level.shuffledMembers).prettyText) =
      .ok Level.standard ∧
    ∃ f, Level.ofText (Value.object (("title", .text "") :: Level.shuffledMembers)).prettyText =
      .error (.malformed f) := by
  have hfinish : Level.standard.finish.Writes (Value.object [("y", .integer 2),
      ("note", .list [.text "here", .object []]), ("x", .integer 2)]).tree := by
    refine Value.writes_object ?_ (by simp) (by simp [Position.entries])
    simp [Position.entries, standard, Value.tree, Tree.WritesInteger]
  have hbounds : Level.standard.bounds.Writes
      (Value.object [("y", AxisRange.value ⟨0, 4⟩), ("x", AxisRange.value ⟨0, 4⟩)]).tree := by
    refine Value.writes_object ?_ (by simp) (by simp [Bounds.entries])
    simp [Bounds.entries, standard, Bounds.ofCorners, AxisRange.writes_value]
  have hname : (Value.text "default").tree.WritesText Level.standard.name :=
    writesText_value "default"
  have hrobot : Level.standard.robot.Writes (Position.value ⟨4, 4⟩).tree :=
    Position.writes_value ⟨4, 4⟩
  have hlevel : Level.standard.Writes (Value.object Level.shuffledMembers).tree := by
    refine Value.writes_object ?_ (by decide) ?_
    · simp [shuffledMembers, entries, hfinish, hbounds, hname, hrobot]
    · simp [shuffledMembers, entries, standard]
  have htext : (Value.object Level.shuffledMembers).tree.LaidOut
      ("\r\n" ++ (Value.object Level.shuffledMembers).prettyText) := by
    obtain ⟨hwhole, hlaid⟩ := (Value.object Level.shuffledMembers).laidOut
    have hblanks : "\r\n".toList = ['\r', '\n'] := rfl
    refine ⟨hwhole, ?_⟩
    rw [String.toList_append, hblanks, List.cons_append, List.cons_append, List.nil_append]
    exact .blank rfl (.blank rfl hlaid)
  have hunfit : Level.Unfit
      (Value.object (("title", .text "") :: Level.shuffledMembers)).tree :=
    .stranger rfl List.mem_cons_self (rawText_writes "title") (by decide)
  refine ⟨?_, Level.layout_does_not_matter.2 _ _ hunfit (Value.laidOut _)⟩
  have hplayable : Level.standard.problem? = none := by decide
  rw [Level.layout_does_not_matter.1 _ _ _ hlevel htext, hplayable]

end GridPuzzle
