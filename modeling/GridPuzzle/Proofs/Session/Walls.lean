import GridPuzzle.Proofs.Session.Alike
import GridPuzzle.Proofs.Session.Plain

/-!
# Walls as a set of cells

Every entry in the walls of a level becomes a guard of its own, which tells somebody about the moves
that it refuses. But the first guard that refuses keeps all later ones from being asked, and every
wall tells the same observers. So what the guards answer about a move and what they bring about
depends on the walled cells alone: neither the order of the walls nor how often one of them is
listed makes a difference to anything but the walls that are shown.

Compared are two valid levels that differ in the list of their walls only, set up with the same
observers, in which the same history comes to pass: any calls, turns and callbacks, but no policy of
a client that counts acceptors. The position, the statuses and the events are among what is the
same, and whatever is done next is answered the same.
-/

namespace GridPuzzle

/-- A policy that does not look at how many acceptors there are; each listed wall is one of them. -/
def CountBlind (verdict : Move → Snapshot → Bool) : Prop :=
  ∀ m view n, verdict m { view with acceptors := n } = verdict m view

/-- A fence for a level: the bounds, walls on the walled cells, and policies of clients. -/
def Encloses (l : Level) (policies : List (Move → Snapshot → Bool)) (f : Fence) : Prop :=
  ∃ walls : List Wall, f.guards = .bounds l.bounds :: walls.map .wall ++ policies.map .policy ∧
    ∀ p, p ∈ walls.map Wall.position ↔ p ∈ l.walls

/-- Two fences for a level, with the same policies. -/
def SameCells (l : Level) (f g : Fence) : Prop :=
  ∃ policies, (∀ verdict ∈ policies, CountBlind verdict) ∧ Encloses l policies f ∧
    Encloses l policies g

namespace Session

variable {perform : Perform} {l : Level} {policies : List (Move → Snapshot → Bool)} {s : Session}

/-- Policies of clients judge a move and do nothing else. -/
theorem consult_policies (m : Move) (view : Snapshot) (s : Session) :
    consult m view ((policies.map Guard.policy).map (guardAcceptor perform)) s =
      (.value (policies.all (· m view)), s) := by
  induction policies with
  | nil => rfl
  | cons verdict rest ih =>
    have hverdict : guardAcceptor perform (.policy verdict) m view s =
        (.value (verdict m view), s) := rfl
    simp only [List.map_cons, consult, hverdict, andThen_value, ih, List.all_cons]
    cases verdict m view <;> rfl

/-- What the guards of a level answer about a move, and whom they tell about it, depends on the
walled cells only. -/
theorem ask_eq (h : Encloses l policies s.fence) (m : Move) :
    ask perform m s =
      if l.bounds.contains m.target then
        if m.target ∈ l.walls then
          andThen (wallHit perform m s) fun _ t => (.value false, t)
        else
          (.value (policies.all (· m (s.robot perform).snapshot)), s)
      else
        (.value false, s) := by
  obtain ⟨walls, hguards, hcells⟩ := h
  have hacceptors : (s.robot perform).acceptors =
      guardAcceptor perform (.bounds l.bounds) ::
        (walls.map Guard.wall).map (guardAcceptor perform) ++
          (policies.map Guard.policy).map (guardAcceptor perform) := by
    change s.fence.guards.map (guardAcceptor perform) = _
    rw [hguards, List.map_append, List.map_cons]
  have hbounds (view : Snapshot) : guardAcceptor perform (.bounds l.bounds) m view s =
      (.value (l.bounds.contains m.target), s) := rfl
  unfold ask
  rw [hacceptors, List.cons_append, consult, hbounds, andThen_value]
  split
  · rw [consult_append, consult_wallGuards]
    simp only [hcells]
    split
    · rcases wallHit perform m s with ⟨_ | _, t⟩ <;> rfl
    · rw [andThen_value, if_pos rfl, consult_policies]
  · rfl

/-- Fences with walls on the same cells judge every move alike. -/
theorem impartial_sameCells (l : Level) : Impartial (SameCells l) := by
  rintro perform hperform m s _ ⟨f, rs, hcells, rfl⟩
  have h : Alike (SameCells l) s (s.behind f rs) := ⟨f, rs, hcells, rfl⟩
  obtain ⟨policies, hblind, hs, hf⟩ := hcells
  have hjudged : policies.all (· m ((s.behind f rs).robot perform).snapshot) =
      policies.all (· m (s.robot perform).snapshot) := by
    rw [Bool.eq_iff_iff, List.all_eq_true, List.all_eq_true]
    refine forall₂_congr fun verdict hverdict => ?_
    rw [← hblind verdict hverdict m (s.robot perform).snapshot (f.guards.map _).length]
    rfl
  rw [ask_eq hs, ask_eq (show Encloses l policies (s.behind f rs).fence from hf), hjudged]
  split
  · split
    · exact (alike_wallHit hperform m).map (fun _ => false) s _ h
    · exact ⟨_, rfl, h⟩
  · exact ⟨_, rfl, h⟩

/-- A fence keeps its cells when clients subscribe policies that do not count acceptors. -/
theorem receives_of_countBlind (l : Level) {verdict : Move → Snapshot → Bool}
    (h : CountBlind verdict) : Receives (SameCells l) verdict := by
  have extended {policies} {f : Fence} (hf : Encloses l policies f) :
      Encloses l (policies ++ [verdict]) (f.extend verdict) := by
    obtain ⟨walls, hguards, hcells⟩ := hf
    refine ⟨walls, ?_, hcells⟩
    change f.guards ++ [.policy verdict] = _
    rw [hguards, List.map_append, List.append_assoc]
    rfl
  rintro f g ⟨policies, hblind, hf, hg⟩
  refine ⟨policies ++ [verdict], ?_, extended hf, extended hg⟩
  intro other hother
  rcases List.mem_append.mp hother with hold | hnew
  · exact hblind other hold
  · exact List.mem_singleton.mp hnew ▸ h

/-- A level encloses its scene. -/
theorem encloses_ofLevel {observers : List (Callback Move)} (h : ofLevel l observers = .ok s) :
    Encloses l [] s.fence := by
  obtain ⟨-, r, rfl⟩ := ofLevel_eq_ok h
  refine ⟨l.wallEntities, (List.append_nil _).symm, fun p => ?_⟩
  simp [Level.wallEntities, Function.comp_def]

/-- Sessions of levels that differ in nothing but the list of their walls. -/
theorem alike_ofLevel {walls : List Position} {observers : List (Callback Move)} {t : Session}
    (hcells : ∀ p, p ∈ walls ↔ p ∈ l.walls) (hs : ofLevel l observers = .ok s)
    (ht : ofLevel { l with walls } observers = .ok t) : Alike (SameCells l) s t := by
  obtain ⟨listed, hguards, hlisted⟩ := encloses_ofLevel ht
  refine ⟨t.fence, t.remarks, ⟨[], nofun, encloses_ofLevel hs, listed, hguards, ?_⟩, ?_⟩
  · exact fun p => (hlisted p).trans (hcells p)
  · obtain ⟨-, r, rfl⟩ := ofLevel_eq_ok hs
    obtain ⟨-, r', rfl⟩ := ofLevel_eq_ok ht
    rfl

/-- A step is refused by a wall: the wall-hit observers are told in order, each once, and the robot
stays where it is. -/
def rebuffed (perform : Perform) (m : Move) (s : Session) : Outcome Bool × Session :=
  match tellCallbacks perform (.bumped · m) m s.scene.wallObservers
      (note (.bumped m.target) s) with
  | (.value _, t) => (.value false, { note (.vetoed m) t with scene.position := s.scene.position })
  | (.panicked, t) => (.panicked, { t with scene.position := s.scene.position })

/-- A step onto a walled cell is refused by a wall, and by one only. -/
theorem step_rebuffed (h : Encloses l policies s.fence)
    (hinside : ∀ p ∈ l.walls, l.bounds.contains p = true) (hpresent : s.scene.present = true)
    {d : Direction} {m : Move}
    (hm : Move.towards? s.scene.position d = some m) (hwall : m.target ∈ l.walls) :
    step perform d s = rebuffed perform m s := by
  have hask : ask perform m s = _ := ask_eq h m
  rw [if_pos (hinside _ hwall), if_pos hwall, wallHit, if_pos hpresent] at hask
  unfold rebuffed
  revert hask
  rcases tellCallbacks perform _ m s.scene.wallObservers _ with ⟨_ | _, t⟩
  · exact step_vetoed hm
  · exact step_cutShort hm

/-- A step that a wall refuses is told to recorders of wall hits once each. -/
theorem events_rebuffed (hrecorders : ∀ c ∈ s.scene.wallObservers, c.IsRecorder) (m : Move) :
    (rebuffed perform m s).2.events.toList =
      s.events.toList ++ s.scene.wallObservers.map fun c => .bumped c.tag m := by
  unfold rebuffed
  rw [tellCallbacks_quiet _ _ hrecorders]
  exact events_recordAll _ _

/-- Everything of a session but its remarks and the guards and walls of its scene. -/
def unfenced (s : Session) : Session := s.behind ⟨[], []⟩ #[]

/-- Two levels that wall the same cells come to the same in every history, but for the guards and
walls of their scenes and the remarks. -/
theorem wall_order_and_repetitions_do_not_matter {walls : List Position}
    (hcells : ∀ p, p ∈ walls ↔ p ∈ l.walls) {observers : List (Callback Move)} {t : Session}
    (hs : ofLevel l observers = .ok s) (ht : ofLevel { l with walls } observers = .ok t)
    (depth : Nat) {history : List Happening}
    (hblind : ∀ verdict, .call (.guard verdict) ∈ history → CountBlind verdict) :
    let u := after (performWithin depth) history s
    let v := after (performWithin depth) history t
    v.unfenced = u.unfenced ∧
      (∀ h, (respond (performWithin depth) h v).1 = (respond (performWithin depth) h u).1) ∧
      -- a step onto a walled cell tells the wall-hit observers once each
      ∀ d m, Move.towards? u.scene.position d = some m → m.target ∈ l.walls →
        u.scene.present = true →
          step (performWithin depth) d u = rebuffed (performWithin depth) m u ∧
          ((∀ c ∈ u.scene.wallObservers, c.IsRecorder) →
            (step (performWithin depth) d u).2.events.toList =
              u.events.toList ++ u.scene.wallObservers.map fun c => .bumped c.tag m) := by
  intro u v
  have hperform := performWithin_answersAlike (SameCells l) depth
  have hG := impartial_sameCells l
  have halike : Alike (SameCells l) u v :=
    alike_after hperform hG (fun verdict hmem => receives_of_countBlind l (hblind verdict hmem))
      s t (alike_ofLevel hcells hs ht)
  refine ⟨?_, fun h => ?_, fun d m hm hwall hpresent => ?_⟩
  · obtain ⟨f, rs, -, hv⟩ := halike
    rw [hv]
    rfl
  · by_cases hguard : ∃ verdict, h = .call (.guard verdict)
    · obtain ⟨verdict, rfl⟩ := hguard
      rfl
    · obtain ⟨w, hsame, -⟩ := alike_respond hperform hG h
        (fun verdict hh => absurd ⟨verdict, hh⟩ hguard) u v halike
      rw [hsame]
  · obtain ⟨f, rs, ⟨policies, -, hencloses, -⟩, -⟩ := halike
    obtain ⟨hplayable, -⟩ := ofLevel_eq_ok hs
    have hstep : step (performWithin depth) d u = rebuffed (performWithin depth) m u :=
      step_rebuffed hencloses hplayable.walls hpresent hm hwall
    refine ⟨hstep, fun hrecorders => ?_⟩
    rw [hstep]
    exact events_rebuffed hrecorders m

/-- The standard level with a wall above the start that is listed twice. -/
def patchedLevel : Level := { Level.standard with walls := [⟨4, 3⟩, ⟨0, 0⟩, ⟨4, 3⟩] }

/-- A program bumps into the wall above the start, and goes left. -/
def bumpingHistory : List Happening :=
  [.call (.onWall (.recorder "walls")), .call (.play true "up(1)left(1)"), .turn 0 0, .turn 0 500,
    .turn 0 1000, .call .reset]

/-- Such a history is the same where the wall is listed once. -/
theorem wall_listed_twice_is_told_about_once :
    ∃ s t, ofLevel patchedLevel [.recorder "moves"] = .ok s ∧
      ofLevel { patchedLevel with walls := [⟨0, 0⟩, ⟨4, 3⟩] } [.recorder "moves"] = .ok t ∧
      (after (performWithin 1) bumpingHistory t).unfenced =
        (after (performWithin 1) bumpingHistory s).unfenced ∧
      (step (performWithin 1) .up (after (performWithin 1) bumpingHistory s)).2.events.toList =
        [.bumped "walls" ⟨⟨4, 4⟩, ⟨4, 3⟩⟩, .moved "moves" ⟨⟨4, 4⟩, ⟨3, 4⟩⟩ ⟨3, 4⟩,
          .bumped "walls" ⟨⟨4, 4⟩, ⟨4, 3⟩⟩] := by
  have hcells : ∀ p : Position, p ∈ [(⟨0, 0⟩ : Position), ⟨4, 3⟩] ↔ p ∈ patchedLevel.walls := by
    intro p
    simp [patchedLevel, or_comm, or_left_comm]
  have hblind : ∀ verdict, .call (.guard verdict) ∈ bumpingHistory → CountBlind verdict := by
    intro verdict hmem
    simp [bumpingHistory] at hmem
  obtain ⟨s, t, hs, ht, hposition, hpresent, hbefore, hwatched⟩ :
      ∃ s t, ofLevel patchedLevel [.recorder "moves"] = .ok s ∧
        ofLevel { patchedLevel with walls := [⟨0, 0⟩, ⟨4, 3⟩] } [.recorder "moves"] = .ok t ∧
        (after (performWithin 1) bumpingHistory s).scene.position = ⟨4, 4⟩ ∧
        (after (performWithin 1) bumpingHistory s).scene.present = true ∧
        (after (performWithin 1) bumpingHistory s).events.toList =
          [.bumped "walls" ⟨⟨4, 4⟩, ⟨4, 3⟩⟩, .moved "moves" ⟨⟨4, 4⟩, ⟨3, 4⟩⟩ ⟨3, 4⟩] ∧
        ((after (performWithin 1) bumpingHistory s).scene.wallObservers.map fun c =>
          Event.bumped c.tag ⟨⟨4, 4⟩, ⟨4, 3⟩⟩) = [.bumped "walls" ⟨⟨4, 4⟩, ⟨4, 3⟩⟩] :=
    ⟨_, _, rfl, rfl, by decide +kernel, by decide +kernel, by decide +kernel, by decide +kernel⟩
  have hplain : Plain patchedLevel (after (performWithin 1) bumpingHistory s) := by
    have hperform := performWithin_orderly 1
    have hall : ∀ h ∈ bumpingHistory, h.Allowed Call.IsPlain := by
      simp [bumpingHistory, Happening.Allowed, Call.IsPlain, Callback.isRecorder_recorder]
    exact (after_deeds hall s).keeps (fun hd h => hd.plain hperform h)
      (plain_ofLevel (by simp [Callback.isRecorder_recorder]) hs)
  obtain ⟨hsame, -, hbump⟩ := wall_order_and_repetitions_do_not_matter hcells hs ht 1 hblind
  obtain ⟨-, hevents⟩ := hbump .up ⟨⟨4, 4⟩, ⟨4, 3⟩⟩ (by rw [hposition]; decide) (by decide)
    hpresent
  refine ⟨s, t, hs, ht, hsame, ?_⟩
  rw [hevents hplain.bumps, hbefore, hwatched]
  rfl

end Session

end GridPuzzle
