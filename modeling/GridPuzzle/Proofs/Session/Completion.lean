import GridPuzzle.Proofs.Session.Arrival
import GridPuzzle.Proofs.Session.Refusal

/-!
# Completion once in each attempt

An attempt begins with the session, and anew with every text that the scene accepts; resets, stops
and refused texts begin none. A level is complete from the first landing of an attempt on the finish
until the next attempt begins. The completion is announced directly after that landing and after no
other, to everybody who has subscribed before.

What happens in a history is told as a list of occurrences: the moves and the announcements are read
off the library's remarks, and the calls of the client tell the rest. The invariant compares the
session with that list, and every piece of a turn and every call carries it on.
-/

namespace GridPuzzle

/-- One thing that matters to the completion of a level. -/
inductive Occurrence
  /-- The scene has accepted a text, and a new attempt begins. -/
  | accepted
  /-- A move of the robot has been made. -/
  | moved (m : Move)
  /-- An observer of the completion has been subscribed. -/
  | registered (c : Callback Position)
  /-- The scene has announced that the level is complete. -/
  | announced

/-- What a remark says about moves and completion. -/
def Remark.occurrence? : Remark → Option Occurrence
  | .committed m => some (.moved m)
  | .levelComplete _ => some .announced
  | _ => none

/-- Whether a completion observer wrote an event down. -/
def Event.isCompletion : Event → Bool
  | .completed _ _ => true
  | _ => false

/-- A plain call, but not to tell the scene that its finish has been reached: that is left to the
finish. -/
def Call.IsOrdinary (c : Call) : Prop := c.IsPlain ∧ ∀ p, c ≠ .finishReached p

namespace Occurrence

/-- The observer that was subscribed. -/
def observer? : Occurrence → Option (Callback Position)
  | registered c => some c
  | _ => none

/-- All observers that were subscribed, in the order of their subscription. -/
def observers (os : List Occurrence) : List (Callback Position) := os.filterMap observer?

/-- A move has landed on a cell since the last attempt began. -/
def Landed (finish : Position) (os : List Occurrence) : Prop :=
  ∃ before m after, os = before ++ moved m :: after ∧ m.target = finish ∧ accepted ∉ after

/-- After some occurrences there is a move that lands on a cell for the first time in its
attempt. -/
def Arrives (finish : Position) (before : List Occurrence) (o : Occurrence) : Prop :=
  ∃ m, o = moved m ∧ m.target = finish ∧ ¬Landed finish before

/-- What completion observers write down in the course of some occurrences: at every announcement,
each observer subscribed before it writes down once that the finish was reached. -/
def calls (finish : Position) : List (Callback Position) → List Occurrence → List Event
  | _, [] => []
  | cs, registered c :: os => calls finish (cs ++ [c]) os
  | cs, announced :: os => cs.map (fun c => .completed c.tag finish) ++ calls finish cs os
  | cs, accepted :: os => calls finish cs os
  | cs, moved _ :: os => calls finish cs os

/-- Every first landing of an attempt is announced at once, and nothing else is. -/
inductive Regular (finish : Position) : List Occurrence → Prop
  | start : Regular finish []
  | other {os : List Occurrence} {o : Occurrence} (h : Regular finish os) (ho : o ≠ announced)
      (harrives : ¬Arrives finish os o) : Regular finish (os ++ [o])
  | arrival {os : List Occurrence} {m : Move} (h : Regular finish os) (hm : m.target = finish)
      (hopen : ¬Landed finish os) : Regular finish (os ++ [moved m, announced])

variable {finish : Position}

theorem not_landed_nil : ¬Landed finish [] := by
  rintro ⟨before, m, after, h, -, -⟩
  cases before <;> cases h

/-- An entry of a list that has been extended by one is the new one, or it was there before. -/
private theorem split_snoc {α : Type} {xs before after : List α} {x y : α}
    (h : xs ++ [x] = before ++ y :: after) :
    (after = [] ∧ xs = before ∧ x = y) ∨
      ∃ after', after = after' ++ [x] ∧ xs = before ++ y :: after' := by
  rcases List.eq_nil_or_concat after with rfl | ⟨after', z, rfl⟩
  · obtain ⟨hinit, hlast⟩ := List.append_inj' h rfl
    exact .inl ⟨rfl, hinit, List.cons.inj hlast |>.1⟩
  · rw [List.concat_eq_append, ← List.cons_append, ← List.append_assoc] at h
    obtain ⟨hinit, hlast⟩ := List.append_inj' h rfl
    cases hlast
    exact .inr ⟨after', List.concat_eq_append, hinit⟩

/-- One more occurrence. -/
theorem landed_snoc {os : List Occurrence} {o : Occurrence} :
    Landed finish (os ++ [o]) ↔
      (∃ m, o = moved m ∧ m.target = finish) ∨ o ≠ accepted ∧ Landed finish os := by
  constructor
  · rintro ⟨before, m, after, h, hm, hafter⟩
    rcases split_snoc h with ⟨-, -, rfl⟩ | ⟨after', rfl, rfl⟩
    · exact .inl ⟨m, rfl, hm⟩
    · simp only [List.mem_append, List.mem_singleton, not_or] at hafter
      exact .inr ⟨Ne.symm hafter.2, before, m, after', rfl, hm, hafter.1⟩
  · rintro (⟨m, rfl, hm⟩ | ⟨ho, before, m, after, rfl, hm, hafter⟩)
    · exact ⟨os, m, [], rfl, hm, List.not_mem_nil⟩
    · refine ⟨before, m, after ++ [o], by simp, hm, ?_⟩
      simp [hafter, Ne.symm ho]

theorem observers_append (os os' : List Occurrence) :
    observers (os ++ os') = observers os ++ observers os' := List.filterMap_append

/-- What is written down in the course of more occurrences. -/
theorem calls_append (cs : List (Callback Position)) (os os' : List Occurrence) :
    calls finish cs (os ++ os') =
      calls finish cs os ++ calls finish (cs ++ observers os) os' := by
  have hcons (o : Occurrence) (os : List Occurrence) :
      observers (o :: os) = observers [o] ++ observers os := observers_append [o] os
  induction os generalizing cs with
  | nil => simp [calls, observers]
  | cons o os ih =>
    rw [hcons, ← List.append_assoc]
    cases o with
    | registered c => exact ih _
    | announced =>
      simp only [List.cons_append, calls, ih, List.append_assoc]
      rfl
    | accepted | moved =>
      simp only [List.cons_append, calls, ih]
      rw [show observers [_] = [] from rfl, List.append_nil]

namespace Regular

/-- An announcement comes directly after the first landing of an attempt. -/
theorem arrives {os : List Occurrence} (h : Regular finish os) {before after : List Occurrence}
    (hos : os = before ++ announced :: after) :
    ∃ earlier o, before = earlier ++ [o] ∧ Arrives finish earlier o := by
  induction h generalizing before after with
  | start => cases before <;> cases hos
  | other h ho harrives ih =>
    rcases split_snoc hos with ⟨-, -, rfl⟩ | ⟨after', rfl, hbefore⟩
    · exact absurd rfl ho
    · exact ih hbefore
  | @arrival os m h hm hopen ih =>
    rw [List.append_cons] at hos
    rcases split_snoc hos with ⟨-, rfl, -⟩ | ⟨after', rfl, hbefore⟩
    · exact ⟨os, moved m, rfl, m, rfl, hm, hopen⟩
    · rcases split_snoc hbefore with ⟨-, -, hmove⟩ | ⟨after'', rfl, hold⟩
      · cases hmove
      · exact ih hold

/-- The first landing of an attempt is announced at once. -/
theorem announces {os : List Occurrence} (h : Regular finish os) {before after : List Occurrence}
    {o : Occurrence} (hos : os = before ++ o :: after) (harrives : Arrives finish before o) :
    after.head? = some announced := by
  induction h generalizing after with
  | start => cases before <;> cases hos
  | other h ho hother ih =>
    rcases split_snoc hos with ⟨-, rfl, rfl⟩ | ⟨after', rfl, hbefore⟩
    · exact absurd harrives hother
    · rw [List.head?_append, ih hbefore]
      rfl
  | arrival h hm hopen ih =>
    rw [List.append_cons] at hos
    rcases split_snoc hos with ⟨-, -, rfl⟩ | ⟨after', rfl, hbefore⟩
    · obtain ⟨m, hmove, -⟩ := harrives
      cases hmove
    · rcases split_snoc hbefore with ⟨rfl, -, -⟩ | ⟨after'', rfl, hold⟩
      · rfl
      · rw [List.append_assoc, List.head?_append, ih hold]
        rfl

end Regular

end Occurrence

namespace Session

open Occurrence

/-- What completion observers have written down. -/
def completions (s : Session) : List Event := s.events.toList.filter Event.isCompletion

/-- A session agrees with the occurrences that have led to it. -/
structure Tally (finish : Position) (os : List Occurrence) (s : Session) : Prop where
  complete : s.scene.complete = true ↔ Landed finish os
  observers : s.scene.completionObservers = Occurrence.observers os
  events : s.completions = calls finish [] os
  regular : Regular finish os

/-- Something has been done that does not matter to the completion. -/
structure Uneventful (s t : Session) : Prop where
  complete : t.scene.complete = s.scene.complete
  observers : t.scene.completionObservers = s.scene.completionObservers
  events : t.completions = s.completions
  remarks : ∃ rs, t.remarks.toList = s.remarks.toList ++ rs ∧
    rs.filterMap Remark.occurrence? = []

/-- What the library remarked between two sessions accounts for their difference. -/
def Accounted (finish : Position) (s t : Session) : Prop :=
  ∃ rs, t.remarks.toList = s.remarks.toList ++ rs ∧
    ∀ os, Tally finish os s → Tally finish (os ++ rs.filterMap Remark.occurrence?) t

variable {finish : Position} {s t u : Session}

namespace Uneventful

theorem refl (s : Session) : Uneventful s s := ⟨rfl, rfl, rfl, [], by simp, rfl⟩

theorem trans (h : Uneventful s t) (h' : Uneventful t u) : Uneventful s u := by
  obtain ⟨rs, hrs, hnone⟩ := h.remarks
  obtain ⟨rs', hrs', hnone'⟩ := h'.remarks
  refine ⟨h'.complete.trans h.complete, h'.observers.trans h.observers, h'.events.trans h.events,
    rs ++ rs', ?_, ?_⟩
  · rw [hrs', hrs, List.append_assoc]
  · rw [List.filterMap_append, hnone, hnone']
    rfl

/-- Where the marks of completion, its observers, events and remarks are the same. -/
theorem of_eq (hcomplete : t.scene.complete = s.scene.complete)
    (hobservers : t.scene.completionObservers = s.scene.completionObservers)
    (hevents : t.events = s.events) (hremarks : t.remarks = s.remarks) : Uneventful s t := by
  refine ⟨hcomplete, hobservers, ?_, [], ?_, rfl⟩
  · unfold completions
    rw [hevents]
  · rw [hremarks, List.append_nil]

/-- Remarks on something else. -/
theorem noteAll {rs : List Remark} (hrs : rs.filterMap Remark.occurrence? = []) (s : Session) :
    Uneventful s (noteAll rs s) := by
  induction rs generalizing s with
  | nil => exact refl s
  | cons r rs ih =>
    obtain ⟨hr, hrest⟩ : r.occurrence? = none ∧ rs.filterMap Remark.occurrence? = [] := by
      cases hr : r.occurrence? with
      | none => exact ⟨rfl, by simpa [hr] using hrs⟩
      | some o => simp [hr] at hrs
    have hfirst : Uneventful s (Journal.note r s) :=
      ⟨rfl, rfl, rfl, [r], Array.toList_push, by simp [hr]⟩
    exact hfirst.trans (ih hrest _)

theorem note {r : Remark} (hr : r.occurrence? = none) (s : Session) :
    Uneventful s (note r s) :=
  noteAll (by simp [hr] : [r].filterMap Remark.occurrence? = []) s

/-- Events of other observers. -/
theorem recordAll {es : List Event} (hes : ∀ e ∈ es, e.isCompletion = false) (s : Session) :
    Uneventful s (recordAll es s) := by
  have hnone : es.filter Event.isCompletion = [] := List.filter_eq_nil_iff.mpr fun e he => by
    rw [hes e he]
    exact Bool.false_ne_true
  refine ⟨rfl, rfl, ?_, [], by simp [Session.recordAll], rfl⟩
  unfold completions
  rw [events_recordAll, List.filter_append, hnone, List.append_nil]

theorem setStatus (p : ProgramId) (status : Status) (s : Session) :
    Uneventful s (s.setStatus p status) := of_eq rfl rfl rfl rfl

theorem announced (p : ProgramId) (new old : Status) (s : Session) :
    Uneventful s (announced p new old s) := by
  unfold Session.announced
  split
  · refine (note rfl s).trans (recordAll (fun e he => ?_) _)
    obtain ⟨c, -, rfl⟩ := List.mem_map.mp he
    rfl
  · exact refl s

theorem halted (p : ProgramId) (s : Session) : Uneventful s (halted p s) := by
  unfold Session.halted
  split
  · exact refl s
  · split
    · exact refl s
    · exact (setStatus p .aborted s).trans (announced _ _ _ _)

theorem haltedCurrent (s : Session) : Uneventful s s.haltedCurrent := by
  unfold Session.haltedCurrent
  split
  · exact halted _ s
  · exact refl s

theorem finished (p : ProgramId) (s : Session) : Uneventful s (finished p s) := by
  unfold Session.finished
  split
  · exact (setStatus p .finished s).trans (announced _ _ _ _)
  · exact refl s

theorem launched (p : ProgramId) (s : Session) : Uneventful s (launched p s) := by
  unfold Session.launched
  dsimp only
  split
  · exact (announced p _ _ s).trans (of_eq rfl rfl rfl rfl)
  · exact of_eq rfl rfl rfl rfl

/-- What does not matter leaves the session in agreement with its occurrences. -/
theorem tally (h : Uneventful s t) {os : List Occurrence} (hs : Tally finish os s) :
    Tally finish os t :=
  ⟨by rw [h.complete]; exact hs.complete, h.observers.trans hs.observers,
    h.events.trans hs.events, hs.regular⟩

theorem accounted (h : Uneventful s t) : Accounted finish s t := by
  obtain ⟨rs, hrs, hnone⟩ := h.remarks
  refine ⟨rs, hrs, fun os hs => ?_⟩
  rw [hnone, List.append_nil]
  exact h.tally hs

end Uneventful

theorem Accounted.trans (h : Accounted finish s t) (h' : Accounted finish t u) :
    Accounted finish s u := by
  obtain ⟨rs, hrs, htally⟩ := h
  obtain ⟨rs', hrs', htally'⟩ := h'
  refine ⟨rs ++ rs', by rw [hrs', hrs, List.append_assoc], fun os hs => ?_⟩
  rw [List.filterMap_append, ← List.append_assoc]
  exact htally' _ (htally os hs)

/-- A move that does not arrive anywhere is accounted for by the remark on it. -/
theorem Tally.moved {os : List Occurrence} (h : Tally finish os s) {m : Move}
    (hm : m.target = finish → Landed finish os) :
    Tally finish (os ++ [.moved m]) s where
  complete := by
    rw [h.complete, landed_snoc]
    constructor
    · exact fun hlanded => .inr ⟨nofun, hlanded⟩
    · rintro (⟨m', hmove, hm'⟩ | ⟨-, hlanded⟩)
      · cases hmove
        exact hm hm'
      · exact hlanded
  observers := by simp [h.observers, Occurrence.observers, List.filterMap_append, observer?]
  events := by
    rw [h.events, calls_append]
    simp [calls]
  regular := by
    refine h.regular.other (by simp) ?_
    rintro ⟨m', hmove, hm', hopen⟩
    cases hmove
    exact hopen (hm hm')

/-- A move that arrives completes the level, and everybody is told. -/
theorem Tally.arrived {os : List Occurrence} (h : Tally finish os s) {m : Move}
    (hm : m.target = finish) (hopen : s.scene.complete = false) :
    Tally finish (os ++ [.moved m, .announced])
      (recordAll (s.scene.completionObservers.map fun c => .completed c.tag finish)
        { s with scene.complete := true }) where
  complete := by
    rw [List.append_cons, landed_snoc, landed_snoc]
    simp [hm]
  observers := by
    rw [observers_append]
    simp [h.observers, Occurrence.observers, observer?]
  events := by
    have hall : (s.scene.completionObservers.map fun c => Event.completed c.tag finish).filter
        Event.isCompletion = s.scene.completionObservers.map fun c => .completed c.tag finish := by
      rw [List.filter_eq_self]
      intro e he
      obtain ⟨c, -, rfl⟩ := List.mem_map.mp he
      rfl
    have hevents : s.events.toList.filter Event.isCompletion = calls finish [] os := h.events
    unfold completions
    rw [events_recordAll, List.filter_append, hall, calls_append, h.observers]
    simp [calls, hevents]
  regular := by
    refine h.regular.arrival hm fun hlanded => ?_
    rw [← h.complete, hopen] at hlanded
    cases hlanded

/-- Remarks do not matter to the agreement. -/
theorem Tally.note {os : List Occurrence} (h : Tally finish os s) (r : Remark) :
    Tally finish os (note r s) := ⟨h.complete, h.observers, h.events, h.regular⟩

/-- A move is accounted for by the remark on it, unless it is the first to land. -/
theorem Accounted.committed {m : Move}
    (hm : ∀ os, Tally finish os s → m.target = finish → Landed finish os) :
    Accounted finish s (note (.committed m) s) :=
  ⟨[.committed m], Array.toList_push, fun os hs => (hs.moved (hm os hs)).note _⟩

/-- The first move of an attempt to land is accounted for by the remarks on it and on the
completion. -/
theorem Accounted.arrival {m : Move} (hm : m.target = finish) (hopen : s.scene.complete = false)
    (h : Uneventful (note (.committed m) s) t) :
    Accounted finish s (recordAll (s.scene.completionObservers.map fun c => .completed c.tag finish)
      (note (.levelComplete finish) { t with scene.complete := true })) := by
  have hobservers : t.scene.completionObservers = s.scene.completionObservers := h.observers
  obtain ⟨rs, hrs, hnone⟩ := h.remarks
  refine ⟨.committed m :: (rs ++ [.levelComplete finish]), ?_, fun os hs => ?_⟩
  · change (t.remarks.push (.levelComplete finish)).toList = _
    rw [Array.toList_push, hrs]
    change (s.remarks.push (.committed m)).toList ++ rs ++ _ = _
    simp
  · have hbetween : (Remark.committed m :: (rs ++ [.levelComplete finish])).filterMap
        Remark.occurrence? = [.moved m, .announced] := by
      simp [Remark.occurrence?, hnone]
    have htally := (h.tally (hs.note (.committed m))).arrived hm (h.complete.trans hopen)
    rw [hobservers] at htally
    rw [hbetween]
    exact ⟨htally.complete, htally.observers, htally.events, htally.regular⟩

section Level

variable {l : Level} {perform : Perform}

/-- A move that is told to its watchers is accounted for. -/
theorem accounted_passed (early late : List (Callback Move)) (m : Move) (s : Session) :
    Accounted l.finish s (passed l early late m s) := by
  have told (cs : List (Callback Move)) (u : Session) :
      Uneventful u (recordAll (cs.map fun c => .moved c.tag m m.target) u) := by
    refine .recordAll (fun e he => ?_) u
    obtain ⟨c, -, rfl⟩ := List.mem_map.mp he
    rfl
  have hearly := told early (note (.committed m) s)
  by_cases hm : m.target = l.finish
  · rw [passed_onto hm]
    refine Accounted.trans ?_ (told late _).accounted
    have hhalted := hearly.trans (.haltedCurrent _)
    unfold Session.arrived
    split
    · rename_i hcomplete
      have hlanded : s.scene.complete = true := hhalted.complete.symm.trans hcomplete
      exact Accounted.trans (.committed fun os hs _ => hs.complete.mp hlanded) hhalted.accounted
    · rename_i hopen
      have hfirst : s.scene.complete = false :=
        hhalted.complete.symm.trans (by simpa using hopen)
      exact .arrival hm hfirst hhalted
  · rw [passed_by hm]
    refine Accounted.trans ?_ (told late _).accounted
    exact Accounted.trans (.committed fun _ _ h => absurd h hm) hearly.accounted

/-- A step of the robot is accounted for. -/
theorem Plain.accounted_step (h : Plain l s) (d : Direction) :
    Accounted l.finish s (step perform d s).2 := by
  obtain ⟨early, late, hw⟩ := h.finish
  cases hd : l.sight? s.scene.position d with
  | none =>
    obtain ⟨r, hr, hstep⟩ : ∃ r, _ ∧ step perform d s = (.value false, note r s) :=
      h.step_unseen hd
    have hnone : r.occurrence? = none := by
      rcases hr with rfl | ⟨m, rfl⟩ <;> rfl
    rw [hstep]
    exact (Uneventful.note hnone s).accounted
  | some seen =>
    cases seen with
    | bumped m =>
      rw [h.step_bumped hd]
      refine Uneventful.accounted ?_
      refine (Uneventful.note rfl s).trans (.trans (.recordAll (fun e he => ?_) _) (.note rfl _))
      obtain ⟨c, -, rfl⟩ := List.mem_map.mp he
      rfl
    | moved m =>
      rw [h.step_moved hw hd]
      exact (accounted_passed early late m s).trans (Uneventful.accounted (.of_eq rfl rfl rfl rfl))

/-- A program may be started by its handle. -/
theorem Quiet.uneventful_start (h : Quiet s) (inRuntime : Bool) (p : ProgramId) :
    Uneventful s (start perform inRuntime p s).2 := by
  have hclaim : Uneventful s (claim p s).2 ∧ Quiet (claim p s).2 := by
    unfold claim
    split
    · exact ⟨.refl s, h⟩
    · split
      · exact ⟨.note rfl s, h.congr rfl rfl⟩
      · split
        · exact ⟨.setStatus p .running s, h.setStatus p .running⟩
        · exact ⟨.note rfl s, h.congr rfl rfl⟩
  cases inRuntime with
  | false => exact .note rfl s
  | true =>
    unfold start
    rw [if_pos rfl]
    revert hclaim
    rcases claim p s with ⟨_ | _, t⟩
    · exact fun hclaim => hclaim.1
    · rintro ⟨hclaim, hquiet⟩
      dsimp only
      rw [hquiet.startClaimed_eq]
      exact hclaim.trans (.launched p t)

/-- Whatever happens while everybody waits is accounted for in a plain session, which stays
plain. -/
theorem paced_accounted (hperform : perform.Orderly) :
    Paced perform fun s t => Plain l s → Plain l t ∧ Accounted l.finish s t where
  refl s h := ⟨h, (Uneventful.refl s).accounted⟩
  trans h h' hs := ⟨(h' (h hs).1).1, (h hs).2.trans (h' (h hs).1).2⟩
  skipped s _ _ h := ⟨h.congr rfl rfl, (Uneventful.note rfl s).accounted⟩
  stoppedAfter s _ _ h := ⟨h.congr rfl rfl, (Uneventful.note rfl s).accounted⟩
  act {s p q} index {a} hq ha h := by
    obtain ⟨d, rfl⟩ := h.commands p q hq a (by simpa using ha)
    rw [act_command]
    exact ⟨(Deed.step s d).plain hperform h, h.accounted_step d⟩
  finish s p h := by
    refine ⟨(Deed.finish s p).plain hperform h, ?_⟩
    rw [h.finishProgram_eq]
    exact (Uneventful.finished p s).accounted
  task s k state h := ⟨h.congr rfl rfl, Uneventful.accounted (.of_eq rfl rfl rfl rfl)⟩
  clock s time h := ⟨h.congr rfl rfl, Uneventful.accounted (.of_eq rfl rfl rfl rfl)⟩
  joined s k h := ⟨h.congr rfl rfl, Uneventful.accounted (.of_eq rfl rfl rfl rfl)⟩
  receivers s rs h := ⟨h.congr rfl rfl, Uneventful.accounted (.of_eq rfl rfl rfl rfl)⟩

end Level

variable (perform : Perform)

/-- What a client tells about one thing that happens: the scene has accepted a text, or somebody
has been subscribed. -/
def declared : Happening → CallAnswer → List Occurrence
  | .call (.play _ _), answer => if answer.isRefusal then [] else [.accepted]
  | .call (.onComplete c), _ => [.registered c]
  | _, _ => []

/-- What occurs while one thing happens. -/
def occurrences (h : Happening) (s : Session) : List Occurrence :=
  declared h (respond perform h s).1 ++
    ((respond perform h s).2.remarks.toList.drop s.remarks.size).filterMap Remark.occurrence?

/-- What occurs in the course of a history. -/
def chronicle : List Happening → Session → List Occurrence
  | [], _ => []
  | h :: hs, s => occurrences perform h s ++ chronicle hs (happen perform h s)

variable {perform}

/-- The remarks that something has left tell what occurred meanwhile. -/
theorem occurrences_eq {h : Happening} {rs : List Remark}
    (hrs : (respond perform h s).2.remarks.toList = s.remarks.toList ++ rs) :
    occurrences perform h s =
      declared h (respond perform h s).1 ++ rs.filterMap Remark.occurrence? := by
  unfold occurrences
  rw [hrs, ← Array.length_toList, List.drop_left]

/-- Something that a client does not tell about is accounted for by the remarks on it. -/
theorem Accounted.tally_respond {h : Happening}
    (hdeclared : declared h (respond perform h s).1 = [])
    (haccounted : Accounted finish s (respond perform h s).2) {os : List Occurrence}
    (hs : Tally finish os s) :
    Tally finish (os ++ occurrences perform h s) (respond perform h s).2 := by
  obtain ⟨rs, hrs, htally⟩ := haccounted
  rw [occurrences_eq hrs, hdeclared]
  exact htally os hs

/-- A new attempt begins with the level open. -/
theorem Tally.accepted {os : List Occurrence} (h : Tally finish os s) (source : String) :
    Tally finish (os ++ [.accepted]) (s.accepted source) where
  complete := by
    rw [landed_snoc]
    simp [Session.accepted]
  observers := by
    rw [observers_append]
    exact h.observers.trans (List.append_nil _).symm
  events := by
    rw [calls_append]
    exact h.events.trans (List.append_nil _).symm
  regular := by
    refine h.regular.other (by simp) ?_
    rintro ⟨m, hmove, -⟩
    cases hmove

/-- A new observer is told from now on. -/
theorem Tally.registered {os : List Occurrence} (h : Tally finish os s) (c : Callback Position) :
    Tally finish (os ++ [.registered c])
      { s with scene.completionObservers := s.scene.completionObservers ++ [c] } where
  complete := by
    rw [landed_snoc]
    simpa using h.complete
  observers := by
    rw [observers_append, ← h.observers]
    rfl
  events := by
    rw [calls_append]
    exact h.events.trans (List.append_nil _).symm
  regular := by
    refine h.regular.other (by simp) ?_
    rintro ⟨m, hmove, -⟩
    cases hmove

/-- Nothing but the begin of an attempt occurs where a scene accepts a text. -/
theorem tally_play (perform : Perform) {l : Level} (h : Plain l s) (hidle : s.isPlaying = false)
    (source : String) : ∃ rs,
      (play perform true source s).2.remarks.toList = s.remarks.toList ++ rs ∧
      rs.filterMap Remark.occurrence? = [] ∧
      ∀ os, Tally finish os s →
        Tally finish (os ++ [.accepted]) (play perform true source s).2 := by
  have hcompile : (compileRemarks source).filterMap Remark.occurrence? = [] := by
    simp [compileRemarks, scanRemarks, Remark.occurrence?]
  have hnoted := Uneventful.noteAll hcompile s
  have hrest : Uneventful ((noteAll (compileRemarks source) s).accepted source)
      (play perform true source s).2 := by
    rw [h.play_idle_eq source hidle]
    dsimp only
    split
    · exact .note rfl _
    · exact (Uneventful.note rfl _).trans (.launched _ _)
  obtain ⟨rs, hrs, hnone⟩ := hnoted.remarks
  obtain ⟨rs', hrs', hnone'⟩ := hrest.remarks
  refine ⟨rs ++ rs', ?_, by rw [List.filterMap_append, hnone, hnone']; rfl, fun os hs => ?_⟩
  · rw [hrs', ← List.append_assoc, ← hrs]
    rfl
  · exact hrest.tally ((hnoted.tally hs).accepted source)

/-- A scene that plays nothing refuses no text. -/
theorem Quiet.not_refused (h : Quiet s) (hidle : s.isPlaying = false) (source : String) :
    (call perform (.play true source) s).1.isRefusal = false := by
  rw [call_play, h.play_idle_eq source hidle]
  dsimp only
  split <;> rfl

/-- A scene that is asked to play a text begins an attempt, unless it refuses. -/
theorem tally_call_play {l : Level} (h : Plain l s) (inRuntime : Bool) (source : String)
    {os : List Occurrence} (hs : Tally l.finish os s) :
    Tally l.finish (os ++ occurrences perform (.call (.play inRuntime source)) s)
      (call perform (.play inRuntime source) s).2 := by
  cases inRuntime with
  | false => exact Accounted.tally_respond rfl (Uneventful.refl s).accounted hs
  | true =>
    cases hplaying : s.isPlaying with
    | true =>
      have hbusy : call perform (.play true source) s = _ := call_play_busy source hplaying
      refine Accounted.tally_respond ?_ ?_ hs
      · rw [respond_call, hbusy]
        rfl
      · rw [respond_call, hbusy]
        exact (Uneventful.note rfl s).accounted
    | false =>
      obtain ⟨rs, hrs, hnone, htally⟩ := tally_play perform h hplaying source
      rw [← snd_call_play, ← respond_call] at hrs
      have hdeclared : declared (.call (.play true source))
          (call perform (.play true source) s).1 = [.accepted] :=
        if_neg (by rw [h.not_refused hplaying source]; exact Bool.false_ne_true)
      rw [occurrences_eq hrs, respond_call, hdeclared, hnone, List.append_nil, snd_call_play]
      exact htally os hs

/-- Whatever happens, a plain session stays plain and in agreement with what has occurred. -/
theorem tally_happening {l : Level} (hperform : perform.Orderly) (h : Plain l s)
    {what : Happening} (hallowed : what.Allowed Call.IsOrdinary) {os : List Occurrence}
    (hs : Tally l.finish os s) :
    Tally l.finish (os ++ occurrences perform what s) (respond perform what s).2 := by
  cases what with
  | turn k due =>
    exact Accounted.tally_respond rfl ((paced_accounted hperform).turn k due s h).2 hs
  | call c =>
    obtain ⟨hplain, hordinary⟩ := hallowed
    have untold {c : Call} (hdeclared : declared (.call c) (call perform c s).1 = [])
        (hcall : Uneventful s (call perform c s).2) :
        Tally l.finish (os ++ occurrences perform (.call c) s) (call perform c s).2 :=
      Accounted.tally_respond hdeclared hcall.accounted hs
    have waited {c : Call} (hdeclared : declared (.call c) (call perform c s).1 = [])
        (hc : c.IsWait) :
        Tally l.finish (os ++ occurrences perform (.call c) s) (call perform c s).2 :=
      Accounted.tally_respond hdeclared ((paced_accounted hperform).wait hc s h).2 hs
    cases c with
    | advance | join | waitFinal | waitCurrent | watch | pollWatch | look =>
      exact waited rfl trivial
    | start inRuntime p =>
      refine untold rfl ?_
      rw [snd_call_start]
      exact h.uneventful_start inRuntime p
    | stop p =>
      refine untold rfl ?_
      rw [snd_call_stop, h.stop_eq]
      exact .halted p s
    | stopCurrent =>
      refine untold rfl ?_
      rw [snd_call_stopCurrent, h.stopCurrent_eq]
      exact .haltedCurrent s
    | step d =>
      refine Accounted.tally_respond rfl ?_ hs
      rw [respond_call, snd_call_step]
      exact h.accounted_step d
    | reset | subscribe | onMove | onStatus | onWall =>
      exact untold rfl (.of_eq rfl rfl rfl rfl)
    | onComplete c =>
      have hremarks : (call perform (.onComplete c) s).2.remarks.toList = s.remarks.toList ++ [] :=
        (List.append_nil _).symm
      rw [occurrences_eq (h := .call (.onComplete c)) hremarks]
      exact hs.registered c
    | play inRuntime source => exact tally_call_play h inRuntime source hs
    | finishReached p => exact absurd rfl (hordinary p)
    | guard | dropScene => exact hplain.elim

/-- A session of a level agrees with nothing having occurred. -/
theorem tally_ofLevel {l : Level} {observers : List (Callback Move)}
    (h : ofLevel l observers = .ok s) : Tally l.finish [] s := by
  obtain ⟨-, r, rfl⟩ := ofLevel_eq_ok h
  exact ⟨iff_of_false Bool.false_ne_true not_landed_nil, rfl, rfl, .start⟩

/-- Along every history the session agrees with what has occurred. -/
theorem tally_after {l : Level} (hperform : perform.Orderly) {hs : List Happening}
    (hall : ∀ h ∈ hs, h.Allowed Call.IsOrdinary) (h : Plain l s) {os : List Occurrence}
    (htally : Tally l.finish os s) :
    Tally l.finish (os ++ chronicle perform hs s) (after perform hs s) := by
  induction hs generalizing s os with
  | nil => simpa [chronicle] using htally
  | cons what hs ih =>
    have hallowed := hall what List.mem_cons_self
    have hplainly : ∀ h ∈ [what], h.Allowed Call.IsPlain := by
      rw [List.forall_mem_singleton]
      cases what with
      | call c => exact hallowed.1
      | turn k due => trivial
    have hplain : Plain l (happen perform what s) :=
      (after_deeds hplainly s).keeps (fun hd h => hd.plain hperform h) h
    have hnext := tally_happening hperform h hallowed htally
    rw [← happen_eq_respond] at hnext
    rw [chronicle, after_cons, ← List.append_assoc]
    exact ih (fun h' hh' => hall h' (List.mem_cons_of_mem _ hh')) hplain hnext

/-- The level is complete once a move of the attempt has landed on the finish, and exactly then
everybody subscribed before is told once and in order. -/
theorem completion_fires_once_in_each_attempt {depth : Nat} {l : Level}
    {observers : List (Callback Move)} (hobservers : ∀ c ∈ observers, c.IsRecorder)
    (hlevel : ofLevel l observers = .ok s) {hs : List Happening}
    (hall : ∀ h ∈ hs, h.Allowed Call.IsOrdinary) :
    let os := chronicle (performWithin depth) hs s
    let t := after (performWithin depth) hs s
    (t.scene.complete = true ↔ Landed l.finish os) ∧
    -- the completion is announced after the first landing of an attempt, and nowhere else
    (∀ before after, os = before ++ .announced :: after →
      ∃ earlier o, before = earlier ++ [o] ∧ Arrives l.finish earlier o) ∧
    (∀ before o after, os = before ++ o :: after → Arrives l.finish before o →
      after.head? = some .announced) ∧
    -- every announcement is told to everybody subscribed before it
    t.completions = calls l.finish [] os := by
  have htally := tally_after (performWithin_orderly depth) hall (plain_ofLevel hobservers hlevel)
    (tally_ofLevel hlevel)
  rw [List.nil_append] at htally
  exact ⟨htally.complete, fun _ _ hos => htally.regular.arrives hos,
    fun _ _ _ hos harrives => htally.regular.announces hos harrives, htally.events⟩

/-- A program reaches the finish, the robot goes back and reaches it again by hand, and then a
second program reaches it; one observer is subscribed at first and another one between the
programs. -/
def repeatedHistory : List Happening :=
  [.call (.onComplete (.recorder "first")), .call (.play true "left(1)"), .turn 0 0,
    .call .reset, .call (.step .left), .call (.onComplete (.recorder "second")),
    .call (.play true "left(1)"), .turn 1 0]

/-- In such a history the first observer is told twice and the second one once. -/
theorem repeated_landing_is_told_once : ∃ s, ofLevel shortLevel [] = .ok s ∧
    (after (performWithin 1) repeatedHistory s).completions =
      [.completed "first" shortLevel.finish, .completed "first" shortLevel.finish,
        .completed "second" shortLevel.finish] := by
  have hall : ∀ h ∈ repeatedHistory, h.Allowed Call.IsOrdinary := by
    simp [repeatedHistory, Happening.Allowed, Call.IsOrdinary, Call.IsPlain,
      Callback.isRecorder_recorder]
  obtain ⟨s, hlevel, hcalls⟩ : ∃ s, ofLevel shortLevel [] = .ok s ∧
      calls shortLevel.finish [] (chronicle (performWithin 1) repeatedHistory s) =
        [.completed "first" shortLevel.finish, .completed "first" shortLevel.finish,
          .completed "second" shortLevel.finish] := ⟨_, rfl, by decide +kernel⟩
  obtain ⟨-, -, -, hevents⟩ :=
    @completion_fires_once_in_each_attempt s 1 _ _ (by simp) hlevel _ hall
  exact ⟨s, hlevel, hevents.trans hcalls⟩

end Session

end GridPuzzle
