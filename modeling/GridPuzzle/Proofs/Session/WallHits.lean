import GridPuzzle.Proofs.Session.Steady

/-!
# Wall hits

A wall that refuses a move leaves a remark and tells the observers of wall hits, and nothing else in
a session does. Whatever requests bring about, however deep they are nested, and whatever watchers
do when they are told about a move, the wall hits of the session stay as they are: only the guards
of the robot can add to them.
-/

namespace GridPuzzle

/-- Whether an observer of wall hits wrote an event down. -/
def Event.isBump : Event → Bool
  | .bumped _ _ => true
  | _ => false

/-- Whether a remark is about a wall hit. -/
def Remark.isBump : Remark → Bool
  | .bumped _ => true
  | _ => false

namespace Session

/-- What a session says about wall hits: the events and the remarks about them, each in order. -/
def wallHits (s : Session) : List Event × List Remark :=
  (s.events.toList.filter Event.isBump, s.remarks.toList.filter Remark.isBump)

section Fields

variable {s : Session}

theorem wallHits_note {r : Remark} (hr : r.isBump = false) : (note r s).wallHits = s.wallHits := by
  simp [wallHits, note, hr]

theorem wallHits_record {e : Event} (he : e.isBump = false) :
    (s.record e).wallHits = s.wallHits := by
  simp [wallHits, record, he]

theorem wallHits_noteAll {remarks : List Remark} (h : ∀ r ∈ remarks, r.isBump = false) :
    (noteAll remarks s).wallHits = s.wallHits := by
  induction remarks generalizing s with
  | nil => rfl
  | cons r rest ih =>
    have hrest := ih (s := note r s) fun r' hr' => h r' (List.mem_cons_of_mem r hr')
    exact hrest.trans (wallHits_note (h r List.mem_cons_self))

/-- The compilation of a text has nothing to say about walls. -/
theorem wallHits_compiled (source : String) :
    (noteAll (compileRemarks source) s).wallHits = s.wallHits := by
  refine wallHits_noteAll fun r hr => ?_
  rcases List.mem_append.mp hr with hscan | hlast
  · obtain ⟨offset, -, rfl⟩ := List.mem_map.mp hscan
    rfl
  · rw [List.mem_singleton.mp hlast]
    rfl

theorem wallHits_claim (p : ProgramId) : (claim p s).2.wallHits = s.wallHits := by
  unfold claim
  split
  · rfl
  · split
    · exact wallHits_note rfl
    · split
      · rfl
      · exact wallHits_note rfl

/-- Going on after a call hits no wall if neither part does. -/
theorem wallHits_andThen {α β : Type} {call : Outcome α × Session}
    {next : α → Session → Outcome β × Session} (hcall : call.2.wallHits = s.wallHits)
    (hnext : ∀ a t, (next a t).2.wallHits = t.wallHits) :
    (andThen call next).2.wallHits = s.wallHits :=
  andThen_keeps (P := fun t => t.wallHits = s.wallHits) hcall fun a t ht => (hnext a t).trans ht

end Fields

/-- A way to carry out requests that hits no wall. -/
def Perform.Harmless (perform : Perform) : Prop := ∀ r s, (perform r s).2.wallHits = s.wallHits

section Requests

variable {perform : Perform} (hperform : perform.Harmless)

include hperform

theorem wallHits_performAll (requests : List Request) (s : Session) :
    (performAll perform requests s).2.wallHits = s.wallHits := by
  induction requests generalizing s with
  | nil => rfl
  | cons r rest ih => exact wallHits_andThen (hperform r s) fun _ t => ih t

theorem wallHits_tellStatus (p : ProgramId) (new old : Status) (cs : List (Callback StatusNotice))
    (s : Session) : (tellStatus perform p new old cs s).2.wallHits = s.wallHits := by
  induction cs generalizing s with
  | nil => rfl
  | cons c rest ih =>
    have hasked := wallHits_performAll hperform (c.requests (s.notice p new old))
      (s.record (.status c.tag (s.notice p new old)))
    exact wallHits_andThen (hasked.trans (wallHits_record rfl)) fun _ t => ih t

theorem wallHits_announce (p : ProgramId) (new old : Status) (s : Session) :
    (announce perform p new old s).2.wallHits = s.wallHits := by
  unfold announce
  split
  · exact (wallHits_tellStatus hperform p new old _ _).trans (wallHits_note rfl)
  · rfl

theorem wallHits_stop (p : ProgramId) (s : Session) :
    (stop perform p s).2.wallHits = s.wallHits := by
  unfold stop
  split
  · rfl
  · split
    · rfl
    · exact wallHits_announce hperform p .aborted _ (s.setStatus p .aborted)

theorem wallHits_stopCurrent (s : Session) : (stopCurrent perform s).2.wallHits = s.wallHits := by
  unfold stopCurrent
  split
  · exact wallHits_stop hperform _ s
  · rfl

theorem wallHits_startClaimed (p : ProgramId) (s : Session) :
    (startClaimed perform p s).2.wallHits = s.wallHits := by
  rw [startClaimed_eq]
  refine wallHits_andThen ?_ fun _ _ => rfl
  split
  · exact wallHits_announce hperform p .running .stopped s
  · rfl

theorem wallHits_start (inRuntime : Bool) (p : ProgramId) (s : Session) :
    (start perform inRuntime p s).2.wallHits = s.wallHits := by
  cases inRuntime with
  | false => exact wallHits_note rfl
  | true =>
    have hclaim : (claim p s).2.wallHits = s.wallHits := wallHits_claim p
    simp only [start, if_true]
    revert hclaim
    rcases claim p s with ⟨_ | _, t⟩
    · exact id
    · intro hclaim
      refine wallHits_andThen ?_ fun _ _ => rfl
      exact (wallHits_startClaimed hperform p t).trans hclaim

theorem wallHits_tellCallbacks {ν : Type} {event : String → Event}
    (hevent : ∀ tag, (event tag).isBump = false) (x : ν) (cs : List (Callback ν)) (s : Session) :
    (tellCallbacks perform event x cs s).2.wallHits = s.wallHits := by
  induction cs generalizing s with
  | nil => rfl
  | cons c rest ih =>
    have hasked := wallHits_performAll hperform (c.requests x) (s.record (event c.tag))
    exact wallHits_andThen (hasked.trans (wallHits_record (hevent c.tag))) fun _ t => ih t

theorem wallHits_play (inRuntime : Bool) (source : String) (s : Session) :
    (play perform inRuntime source s).2.wallHits = s.wallHits := by
  cases inRuntime with
  | false => rfl
  | true =>
    cases h : s.isPlaying with
    | true =>
      rw [play_busy source h]
      exact wallHits_note rfl
    | false =>
      have haccepted : (accepted source (noteAll (compileRemarks source) s)).wallHits =
          s.wallHits := wallHits_compiled source
      rw [play_idle source h]
      dsimp only
      split
      · exact (wallHits_note rfl).trans haccepted
      · refine wallHits_andThen ?_ fun _ _ => rfl
        exact (wallHits_startClaimed hperform _ _).trans ((wallHits_note rfl).trans haccepted)

theorem wallHits_finishReached (p : Position) (s : Session) :
    (finishReached perform p s).2.wallHits = s.wallHits := by
  refine wallHits_andThen (wallHits_stopCurrent hperform s) fun _ t => ?_
  split
  · rfl
  · exact (wallHits_tellCallbacks hperform (fun _ => rfl) p _ _).trans (wallHits_note rfl)

theorem wallHits_watcherObserver (w : Watcher) (m : Move) (view : Snapshot) (s : Session) :
    (watcherObserver perform w m view s).2.wallHits = s.wallHits := by
  cases w with
  | finish f =>
    have harrive : (f.arrive (host perform) m s).2.wallHits = s.wallHits := ?_
    exact wallHits_andThen harrive fun _ _ => rfl
    unfold Finish.arrive
    split
    · split
      · exact wallHits_andThen (wallHits_finishReached hperform f.position s) fun _ _ => rfl
      · exact wallHits_note rfl
    · rfl
  | client c =>
    exact (wallHits_performAll hperform (c.requests m) _).trans (wallHits_record rfl)

/-- Whatever watchers do when they are told about a move, they hit no wall. -/
theorem wallHits_tell (m : Move) (view : Snapshot) (watchers : List Watcher) (s : Session) :
    (tell m view (watchers.map (watcherObserver perform)) s).2.wallHits = s.wallHits := by
  induction watchers generalizing s with
  | nil => rfl
  | cons w rest ih =>
    exact wallHits_andThen (wallHits_watcherObserver hperform w m view s) fun _ t => ih t

end Requests

/-- However deep requests are nested, they hit no wall. -/
theorem performWithin_harmless (depth : Nat) : (performWithin depth).Harmless := by
  induction depth with
  | zero => exact fun _ _ => rfl
  | succ depth ih =>
    intro r s
    cases r with
    | stop p => exact wallHits_stop ih p s
    | start p => exact wallHits_andThen (wallHits_start ih true p s) fun _ _ => wallHits_record rfl
    | subscribe p tag => rfl
    | stopCurrent => exact wallHits_stopCurrent ih s
    | play source =>
      exact wallHits_andThen (wallHits_play ih true source s) fun _ _ => wallHits_record rfl
    | panic => rfl

end Session

end GridPuzzle
