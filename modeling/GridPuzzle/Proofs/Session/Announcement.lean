import GridPuzzle.Proofs.Session.Plain

/-!
# Stops within an announcement

The observers of a program are told about a change of its status one after the other, and what one
of them asks for is carried out before the next one is told. Where they ask at most for the stop of
their program, an announcement has one of two outcomes. Usually everybody is told, and nothing else
happens: once the status is final a stop is nothing. But the program may be stopped by the observer
that is just told that it runs. Then everybody is told about the stop first, and the others are told
afterwards that the program runs.
-/

namespace GridPuzzle

/-- A status observer that asks at most for the stop of the program it is told about. -/
def Callback.StopsOnly (c : Callback StatusNotice) : Prop :=
  ∀ n, ∀ r ∈ c.requests n, r = .stop n.program

/-- That somebody with a tag has been told about a change from an old status to a new one. -/
structure Telling where
  tag : String
  new : Status
  old : Status
  deriving DecidableEq, Repr

/-- What an event says about who has been told. -/
def Event.telling? : Event → Option Telling
  | .status tag n => some ⟨tag, n.new, n.old⟩
  | _ => none

namespace Session

/-- Everybody who has been told about a change of a status, in order. -/
def tellings (s : Session) : List Telling := s.events.toList.filterMap Event.telling?

/-- That observers are told about a change, one after the other. -/
def told (cs : List (Callback StatusNotice)) (new old : Status) : List Telling :=
  cs.map fun c => ⟨c.tag, new, old⟩

/-- The session after observers have been told about a change while nothing else happened. -/
def toldAll (p : ProgramId) (new old : Status) (cs : List (Callback StatusNotice)) (s : Session) :
    Session :=
  recordAll (cs.map fun c => .status c.tag (s.notice p new old)) s

/-- Whoever is told about a program asks at most for its stop. -/
def StopsOnly (s : Session) (p : ProgramId) : Prop :=
  ∀ q, s.programs[p]? = some q → ∀ c ∈ q.observers, c.StopsOnly

section Tellings

theorem notice_program (s : Session) (p : ProgramId) (new old : Status) :
    (s.notice p new old).program = p := by
  unfold notice
  split <;> rfl

theorem notice_new (s : Session) (p : ProgramId) (new old : Status) :
    (s.notice p new old).new = new := by
  unfold notice
  split <;> rfl

theorem notice_old (s : Session) (p : ProgramId) (new old : Status) :
    (s.notice p new old).old = old := by
  unfold notice
  split <;> rfl

theorem tellings_toldAll (p : ProgramId) (new old : Status) (cs : List (Callback StatusNotice))
    (s : Session) : (toldAll p new old cs s).tellings = s.tellings ++ told cs new old := by
  have htelling (c : Callback StatusNotice) :
      Event.telling? (.status c.tag (s.notice p new old)) = some ⟨c.tag, new, old⟩ := by
    rw [Event.telling?, notice_new, notice_old]
  simp only [tellings, toldAll, events_recordAll, List.filterMap_append, List.filterMap_map,
    Function.comp_def, htelling, List.filterMap_eq_map', told]

theorem announced_eq {s : Session} {p : ProgramId} {q : Program} (hq : s.programs[p]? = some q)
    (new old : Status) : announced p new old s =
      toldAll p new old q.observers (note (.statusChanged old new) s) := by
  unfold announced
  rw [hq]
  rfl

/-- The observers of a program are told about a change that is announced. -/
theorem tellings_announced {s : Session} {p : ProgramId} {q : Program}
    (hq : s.programs[p]? = some q) (new old : Status) :
    (announced p new old s).tellings = s.tellings ++ told q.observers new old := by
  rw [announced_eq hq, tellings_toldAll]
  rfl

end Tellings

/-- An observer that stops at most the program it is told about asks for nothing but its stop. -/
theorem requests_eq_stop {c : Callback StatusNotice} (h : c.StopsOnly) (s : Session)
    (p : ProgramId) (new old : Status) : ∀ r ∈ c.requests (s.notice p new old), r = .stop p := by
  intro r hr
  rw [h _ r hr, notice_program]

section Stops

variable {p : ProgramId} {depth : Nat}

/-- The stop of a program with a final status is nothing. -/
theorem stop_final {perform : Perform} {s : Session} {status : Status}
    (hst : s.status? p = some status) (hfinal : status.isTerminal = true) :
    stop perform p s = (.value (), s) := by
  simp only [stop, hst, hfinal, if_true]

/-- Requests for the stop of a program with a final status are nothing. -/
theorem performAll_final {requests : List Request} (hrequests : ∀ r ∈ requests, r = .stop p)
    {s : Session} {status : Status} (hst : s.status? p = some status)
    (hfinal : status.isTerminal = true) :
    performAll (performWithin (depth + 1)) requests s = (.value (), s) := by
  induction requests with
  | nil => rfl
  | cons r rest ih =>
    have hr : performWithin (depth + 1) r s = (.value (), s) := by
      rw [hrequests r List.mem_cons_self]
      exact stop_final hst hfinal
    rw [performAll, hr, andThen_value]
    exact ih fun r' hr' => hrequests r' (List.mem_cons_of_mem _ hr')

theorem toldAll_cons (new old : Status) (c : Callback StatusNotice)
    (cs : List (Callback StatusNotice)) (s : Session) :
    toldAll p new old cs (s.record (.status c.tag (s.notice p new old))) =
      toldAll p new old (c :: cs) s := by
  unfold toldAll
  rw [recordAll_record]
  rfl

/-- Whoever is told about a program with a final status brings nothing about. -/
theorem tellStatus_final (new old : Status) {cs : List (Callback StatusNotice)}
    (hcs : ∀ c ∈ cs, c.StopsOnly) {s : Session} {status : Status}
    (hst : s.status? p = some status) (hfinal : status.isTerminal = true) :
    tellStatus (performWithin (depth + 1)) p new old cs s =
      (.value (), toldAll p new old cs s) := by
  induction cs generalizing s with
  | nil => simp [tellStatus, toldAll]
  | cons c rest ih =>
    have hstops := requests_eq_stop (hcs c List.mem_cons_self) s p new old
    have hst' : (s.record (.status c.tag (s.notice p new old))).status? p = some status := hst
    have hrest := ih (fun c' hc' => hcs c' (List.mem_cons_of_mem _ hc')) hst'
    unfold tellStatus
    dsimp only
    rw [performAll_final hstops hst' hfinal, andThen_value, hrest, toldAll_cons]

theorem announce_final (new old : Status) {s : Session} (hcs : s.StopsOnly p) {status : Status}
    (hst : s.status? p = some status) (hfinal : status.isTerminal = true) :
    announce (performWithin (depth + 1)) p new old s = (.value (), announced p new old s) := by
  obtain ⟨q, hq, -⟩ := Option.map_eq_some_iff.mp hst
  rw [announced_eq hq]
  unfold announce
  rw [hq]
  exact tellStatus_final new old (hcs q hq) hst hfinal

/-- Whether everybody asks at most for a stop does not depend on the status. -/
theorem StopsOnly.setStatus {s : Session} (h : s.StopsOnly p) (status : Status) :
    (s.setStatus p status).StopsOnly p := by
  intro q hq
  simp only [Session.setStatus, Array.getElem?_modify, if_pos] at hq
  obtain ⟨q', hq', rfl⟩ := Option.map_eq_some_iff.mp hq
  exact h q' hq'

/-- A stop, where whoever is told asks at most for the same stop. -/
theorem stop_eq_halted {s : Session} (hcs : s.StopsOnly p) :
    stop (performWithin (depth + 1)) p s = (.value (), halted p s) := by
  unfold stop halted
  cases hst : s.status? p with
  | none => rfl
  | some old =>
    dsimp only
    split
    · rfl
    · exact announce_final _ _ (hcs.setStatus _) (status?_setStatus_self hst .aborted) rfl

/-- The end of a program, where whoever is told asks at most for its stop. -/
theorem finishProgram_eq_finished {s : Session} (hcs : s.StopsOnly p) :
    finishProgram (performWithin (depth + 1)) p s = (.value (), finished p s) := by
  unfold finishProgram finished
  split
  · rename_i hrun
    exact announce_final _ _ (hcs.setStatus _)
      (status?_setStatus_self (isRunning_iff.mp hrun) .finished) rfl
  · rfl

/-- The observers of a program are told about another status that the program has been given. -/
theorem tellings_become {s : Session} {q : Program} (hq : s.programs[p]? = some q)
    (new old : Status) : (announced p new old (s.setStatus p new)).tellings =
      s.tellings ++ told q.observers new old :=
  tellings_announced (getElem?_setStatus hq new) new old

/-- A program whose status is not final is stopped, and its observers are told so. -/
theorem halted_open {s : Session} {q : Program} (hq : s.programs[p]? = some q)
    (hopen : q.status.isTerminal = false) :
    (halted p s).programs = (s.setStatus p .aborted).programs ∧
      (halted p s).tellings = s.tellings ++ told q.observers .aborted q.status := by
  have hst := status?_of_program hq
  simp only [halted, hst, hopen, Bool.false_eq_true, if_false]
  exact ⟨programs_announced _ _ _ _, tellings_become hq .aborted q.status⟩

/-- A program whose status is final is not stopped any more. -/
theorem halted_final {s : Session} {status : Status} (hst : s.status? p = some status)
    (hfinal : status.isTerminal = true) : halted p s = s := by
  simp only [halted, hst, hfinal, if_true]

/-- The session after the observers of a running program have been told that it runs, the last of
the early ones has asked for a stop, and the late ones have been told afterwards. -/
def overtaken (p : ProgramId) (early late : List (Callback StatusNotice)) (s : Session) : Session :=
  toldAll p .running .stopped late (halted p (toldAll p .running .stopped early s))

/-- The last of some observers asks for the stop of a program when it is told that it runs. -/
def EndsInStop (p : ProgramId) (cs : List (Callback StatusNotice)) : Prop :=
  ∃ c n, cs.getLast? = some c ∧ n.new = .running ∧ n.old = .stopped ∧ .stop p ∈ c.requests n

/-- Everybody is told about the stop between the early observers and the late ones. -/
theorem overtaken_running {s : Session} {q : Program} (hq : s.programs[p]? = some q)
    (hrun : q.status = .running) (early late : List (Callback StatusNotice)) :
    (overtaken p early late s).programs = (s.setStatus p .aborted).programs ∧
      (overtaken p early late s).tellings = s.tellings ++ (told early .running .stopped ++
        told q.observers .aborted .running ++ told late .running .stopped) := by
  have hq' : (toldAll p .running .stopped early s).programs[p]? = some q := hq
  obtain ⟨hprograms, htellings⟩ := halted_open hq' (by rw [hrun]; rfl)
  refine ⟨hprograms, ?_⟩
  rw [overtaken, tellings_toldAll, htellings, tellings_toldAll, hrun]
  simp only [List.append_assoc]

/-- While observers are told that a program runs, nobody asks for a stop, or the first one that does
lets everybody be told about the stop before the others are told that the program runs. -/
theorem tellStatus_running {cs : List (Callback StatusNotice)} (hcs : ∀ c ∈ cs, c.StopsOnly)
    {s : Session} (hall : s.StopsOnly p) {q : Program} (hq : s.programs[p]? = some q)
    (hrun : q.status = .running) :
    tellStatus (performWithin (depth + 2)) p .running .stopped cs s =
        (.value (), toldAll p .running .stopped cs s) ∨
      ∃ early late, cs = early ++ late ∧ EndsInStop p early ∧
        tellStatus (performWithin (depth + 2)) p .running .stopped cs s =
          (.value (), overtaken p early late s) := by
  induction cs generalizing s with
  | nil => exact .inl (by simp [tellStatus, toldAll])
  | cons c rest ih =>
    have hrest : ∀ c' ∈ rest, c'.StopsOnly := fun c' hc' => hcs c' (List.mem_cons_of_mem _ hc')
    have hstops := requests_eq_stop (hcs c List.mem_cons_self) s p .running .stopped
    unfold tellStatus
    dsimp only
    cases hrequests : c.requests (s.notice p .running .stopped) with
    | nil =>
      rw [performAll, andThen_value]
      obtain hnobody | ⟨early, late, hsplit, ⟨c', n, hlast, hn⟩, hresult⟩ :=
        ih hrest (s := s.record (.status c.tag (s.notice p .running .stopped))) hall hq
      · left
        rw [hnobody, toldAll_cons]
      · refine .inr ⟨c :: early, late, by rw [hsplit, List.cons_append], ⟨c', n, ?_, hn⟩, ?_⟩
        · rw [List.getLast?_cons, hlast]
          rfl
        · rw [hresult, overtaken, overtaken, toldAll_cons]
    | cons r others =>
      rw [hrequests] at hstops
      -- the first request stops the program, and the others find it stopped
      have hfirst : performWithin (depth + 2) r
          (s.record (.status c.tag (s.notice p .running .stopped))) =
          (.value (), halted p (toldAll p .running .stopped [c] s)) := by
        rw [hstops r List.mem_cons_self, ← toldAll_cons, toldAll, List.map_nil, recordAll_nil]
        exact stop_eq_halted hall
      have hhalted : (halted p (toldAll p .running .stopped [c] s)).status? p = some .aborted := by
        have hq' : (toldAll p .running .stopped [c] s).programs[p]? = some q := hq
        rw [status?_congr (halted_open hq' (by rw [hrun]; rfl)).1]
        exact status?_setStatus_self (status?_of_program hq') .aborted
      refine .inr ⟨[c], rest, rfl, ⟨c, _, rfl, notice_new s p _ _, notice_old s p _ _, ?_⟩, ?_⟩
      · rw [hrequests, hstops r List.mem_cons_self]
        exact List.mem_cons_self
      · rw [performAll, hfirst, andThen_value,
          performAll_final (fun r' hr' => hstops r' (List.mem_cons_of_mem _ hr')) hhalted rfl,
          andThen_value]
        exact tellStatus_final _ _ hrest hhalted rfl

/-- The announcement that a program runs: everybody is told so, or the stop that the last of the
early observers asks for is announced before the late ones are told. -/
theorem announce_running {s : Session} {q : Program} (hq : s.programs[p]? = some q)
    (hrun : q.status = .running) (hcs : ∀ c ∈ q.observers, c.StopsOnly) :
    ∃ t, announce (performWithin (depth + 2)) p .running .stopped s = (.value (), t) ∧
      t.scene = s.scene ∧
      ((t.programs = s.programs ∧ t.tellings = s.tellings ++ told q.observers .running .stopped) ∨
        ∃ early late, q.observers = early ++ late ∧ EndsInStop p early ∧
          t.programs = (s.setStatus p .aborted).programs ∧
          t.tellings = s.tellings ++ (told early .running .stopped ++
            told q.observers .aborted .running ++ told late .running .stopped)) := by
  have hstops : StopsOnly (note (.statusChanged .stopped .running) s) p := by
    intro q' hq'
    cases hq.symm.trans hq'
    exact hcs
  have hannounce : announce (performWithin (depth + 2)) p .running .stopped s =
      tellStatus (performWithin (depth + 2)) p .running .stopped q.observers
        (note (.statusChanged .stopped .running) s) := by
    unfold announce
    rw [hq]
  rw [hannounce]
  obtain htold | ⟨early, late, hsplit, hasked, htold⟩ := @tellStatus_running p depth _ hcs
    (note (.statusChanged .stopped .running) s) hstops q hq hrun
  · exact ⟨_, htold, rfl, .inl ⟨rfl, tellings_toldAll _ _ _ _ _⟩⟩
  · obtain ⟨hprograms, htellings⟩ := overtaken_running
      (s := note (.statusChanged .stopped .running) s) hq hrun early late
    exact ⟨_, htold, scene_halted _ _, .inr ⟨early, late, hsplit, hasked, hprograms, htellings⟩⟩

end Stops

end Session

end GridPuzzle
