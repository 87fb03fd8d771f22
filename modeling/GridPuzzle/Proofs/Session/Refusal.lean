import GridPuzzle.Proofs.Session.Heedless

/-!
# Refused programs leave no trace

A scene refuses a text outside a runtime, and otherwise exactly while the program in its slot is
running; it accepts every other text, even one that holds no step. A refusal comes before anything
else is done, so it leaves a remark at most. As remarks are never read, every other answer and every
session of a history stays as it is when the refused calls are struck from the history, wherever in
the history they stand: the robot, the slot, the programs and their statuses, the completion, the
tasks and how they ended, and the events that callbacks wrote down.
-/

namespace GridPuzzle

/-- Whether a call was to let a scene play a text, and the scene refused. -/
def CallAnswer.isRefusal : CallAnswer → Bool
  | .played (.refused _) => true
  | _ => false

namespace Session

/-- The program in the slot of the scene is running. -/
def Busy (s : Session) : Prop := ∃ p, s.scene.slot = some p ∧ s.status? p = some .running

theorem isPlaying_iff_busy {s : Session} : s.isPlaying = true ↔ s.Busy := by
  simp only [isPlaying_iff, isRunning_iff, Busy]

theorem isPlaying_eq_false_iff {s : Session} : s.isPlaying = false ↔ ¬s.Busy := by
  rw [← isPlaying_iff_busy, Bool.not_eq_true]

/-- Everything of a session but what the library remarked. -/
def unremarked (s : Session) : Session := s.remarked #[]

variable (perform : Perform)

/-- What there is to see of a history: each answer, and everything but the remarks after it. -/
def trace : List Happening → Session → List (CallAnswer × Session)
  | [], _ => []
  | h :: hs, s =>
    ((respond perform h s).1, (respond perform h s).2.unremarked) ::
      trace hs (respond perform h s).2

/-- A history without the calls to play a text that were refused in it. -/
def unrefused : List Happening → Session → List Happening
  | [], _ => []
  | h :: hs, s =>
    let rest := unrefused hs (respond perform h s).2
    if (respond perform h s).1.isRefusal then rest else h :: rest

/-- What a scene answers when it is asked to play a text, and what it has done then. -/
structure PlayLaw (s : Session) (inRuntime : Bool) (source : String)
    (call : Outcome PlayAnswer × Session) : Prop where
  outside : call.1 = .value (.refused .noRuntime) ↔ inRuntime = false
  busy : call.1 = .value (.refused .programRunning) ↔ inRuntime = true ∧ s.Busy
  idle : call.1 = .value .idle ↔ inRuntime = true ∧ ¬s.Busy ∧ compile source = []
  /-- A text with a step gets a task, unless an observer of the scene panics when it is told. -/
  started : inRuntime = true → ¬s.Busy → compile source ≠ [] →
    (∃ k, call.1 = .value (.started k) ∧
      call.2.tasks[k]? = some ⟨s.programs.size, .ready s.now, false⟩) ∨
    (call.1 = .panicked ∧ ∃ c ∈ s.scene.statusObservers, ∃ n t,
      (performAll perform (c.requests n) t).1 = .panicked)
  /-- An accepted program exists from now on, and the slot is its own, or that of a program which an
  observer let the scene play meanwhile. -/
  accepted : inRuntime = true → ¬s.Busy →
    call.2.Has s.programs.size (.ofSource source s.scene.delay s.scene.statusObservers) ∧
    ∃ p, call.2.scene.slot = some p ∧ s.programs.size ≤ p
  refused : ∀ why, call.1 = .value (.refused why) → call.2.unremarked = s.unremarked

variable {perform}

/-- The program of a text is empty when the text holds no step. -/
theorem isEmpty_ofSource {source : String} {delay : Delay}
    {observers : List (Callback StatusNotice)} :
    (Program.ofSource source delay observers).isEmpty = true ↔ compile source = [] := by
  simp [Program.ofSource, Program.isEmpty, Program.length]

/-- When telling status observers panics, one of them does. -/
theorem tellStatus_panicked {p : ProgramId} {new old : Status} {cs : List (Callback StatusNotice)}
    {s : Session} (h : (tellStatus perform p new old cs s).1 = .panicked) :
    ∃ c ∈ cs, ∃ n t, (performAll perform (c.requests n) t).1 = .panicked := by
  induction cs generalizing s with
  | nil => cases h
  | cons c rest ih =>
    unfold tellStatus at h
    dsimp only at h
    cases hcall : performAll perform (c.requests (s.notice p new old))
        (s.record (.status c.tag (s.notice p new old))) with
    | mk answer t =>
      cases answer with
      | panicked => exact ⟨c, List.mem_cons_self, _, _, congrArg Prod.fst hcall⟩
      | value _ =>
        rw [hcall] at h
        obtain ⟨c', hc', hpanicked⟩ := ih h
        exact ⟨c', List.mem_cons_of_mem _ hc', hpanicked⟩

/-- The clock stands still during a primitive change. -/
theorem Change.now {s t : Session} (h : Change s t) : t.now = s.now := by
  cases h <;> rfl

/-- The clock stands still while requests are carried out. -/
theorem Changes.now {s t : Session} (h : Changes s t) : t.now = s.now :=
  h.keeps (P := fun u => u.now = s.now) (fun hc hs => hc.now.trans hs) rfl

/-- A slot that a program has taken is only given to later programs. -/
theorem Changes.slot {s t : Session} (h : Changes s t) {n : ProgramId} (hsize : n ≤ s.programs.size)
    (hslot : ∃ p, s.scene.slot = some p ∧ n ≤ p) : ∃ p, t.scene.slot = some p ∧ n ≤ p := by
  refine (h.keeps (P := fun u => n ≤ u.programs.size ∧ ∃ p, u.scene.slot = some p ∧ n ≤ p)
    ?_ ⟨hsize, hslot⟩).2
  rintro s t hc ⟨hsize, hslot⟩
  cases hc with
  | accept source hidle =>
    exact ⟨by simp [accepted, Nat.le_succ_of_le hsize], s.programs.size, rfl, hsize⟩
  | abort | finish | claim | follow => exact ⟨by simpa [setStatus, subscribe] using hsize, hslot⟩
  | note | record | tell | witness | spawn | complete => exact ⟨hsize, hslot⟩

section Play

variable (hperform : perform.Orderly)

include hperform

/-- The start of a claimed program answers with a task, which is ready at once, unless an observer
of the program panics when it is told. -/
theorem startClaimed_answer (p : ProgramId) (s : Session) :
    (∃ k, (startClaimed perform p s).1 = .value k ∧
      (startClaimed perform p s).2.tasks[k]? = some ⟨p, .ready s.now, false⟩) ∨
    ((startClaimed perform p s).1 = .panicked ∧ ∃ q, s.programs[p]? = some q ∧
      ∃ c ∈ q.observers, ∃ n t, (performAll perform (c.requests n) t).1 = .panicked) := by
  have spawned_last (t : Session) (ht : t.now = s.now) :
      (t.spawned p).tasks[t.tasks.size]? = some ⟨p, .ready s.now, false⟩ := by
    rw [← ht]
    exact Array.getElem?_push_size
  rw [startClaimed_eq]
  split
  · have hnow := (Changes.steady.announce hperform p .running .stopped s).now
    cases hannounce : announce perform p .running .stopped s with
    | mk answer t =>
      rw [hannounce] at hnow
      cases answer with
      | value _ => exact .inl ⟨t.tasks.size, rfl, spawned_last t hnow⟩
      | panicked =>
        refine .inr ⟨rfl, ?_⟩
        unfold announce at hannounce
        split at hannounce
        · rename_i q hq
          exact ⟨q, hq, tellStatus_panicked (congrArg Prod.fst hannounce)⟩
        · cases hannounce
  · exact .inl ⟨s.tasks.size, rfl, spawned_last s rfl⟩

/-- An idle scene that is asked to play a text accepts it, and what comes after that only makes
primitive changes. -/
theorem play_changes_accepted (source : String) {s : Session} (h : s.isPlaying = false) :
    Changes (accepted source (noteAll (compileRemarks source) s))
      (play perform true source s).2 := by
  rw [play_idle source h]
  dsimp only
  split
  · exact .single (.note _ _)
  · rename_i hplays
    have hclaimed : (accepted source (noteAll (compileRemarks source) s)).Claimed
        s.programs.size := by
      rw [noteAll_eq]
      exact claimed_accepted (by simpa using hplays)
    refine andThen_keeps ?_ fun _ _ ht => ht
    obtain ⟨t, ht, hstart | hstart⟩ := Changes.steady.startClaimed_cases hperform s.programs.size
      (note (.playing _) (accepted source (noteAll (compileRemarks source) s)))
    · rw [hstart]
      exact .head (.note _ _) ht
    · rw [hstart]
      exact .head (.note _ _) (ht.tail (.spawn (ht.claimed hclaimed)))

/-- The program of a text that an idle scene has accepted, and the slot. -/
theorem play_accepted (source : String) {s : Session} (h : s.isPlaying = false) :
    (play perform true source s).2.Has s.programs.size
        (.ofSource source s.scene.delay s.scene.statusObservers) ∧
      ∃ p, (play perform true source s).2.scene.slot = some p ∧ s.programs.size ≤ p := by
  have hchanges := play_changes_accepted hperform source h
  rw [noteAll_eq] at hchanges
  constructor
  · refine hchanges.keeps (P := fun u => u.Has s.programs.size _) (fun hc hs => hc.has hs) ?_
    refine ⟨_, Array.getElem?_push_size, ?_⟩
    unfold Program.claimed
    split <;> exact ⟨rfl, rfl, rfl⟩
  · exact hchanges.slot (by simp [accepted]) ⟨s.programs.size, rfl, Nat.le_refl _⟩

/-- An idle scene answers with a task to a text that holds a step, unless one of its observers
panics. -/
theorem play_started {source : String} {s : Session} (h : s.isPlaying = false)
    (hsteps : compile source ≠ []) :
    (∃ k, (play perform true source s).1 = .value (.started k) ∧
      (play perform true source s).2.tasks[k]? = some ⟨s.programs.size, .ready s.now, false⟩) ∨
    ((play perform true source s).1 = .panicked ∧ ∃ c ∈ s.scene.statusObservers, ∃ n t,
      (performAll perform (c.requests n) t).1 = .panicked) := by
  have hplays : ¬(Program.ofSource source s.scene.delay s.scene.statusObservers).isEmpty = true :=
    fun hempty => hsteps (isEmpty_ofSource.mp hempty)
  rw [play_idle source h]
  dsimp only
  rw [if_neg hplays, noteAll_eq]
  have hstart := startClaimed_answer hperform s.programs.size
    (note (.playing (Program.ofSource source s.scene.delay s.scene.statusObservers).length)
      (accepted source { s with remarks := (noteAll (compileRemarks source) s).remarks }))
  revert hstart
  rcases startClaimed perform s.programs.size _ with ⟨k | _, t⟩
  · rintro (⟨k', hk, htask⟩ | ⟨hpanicked, -⟩)
    · cases hk
      exact .inl ⟨k, rfl, htask⟩
    · cases hpanicked
  · rintro (⟨k, hk, -⟩ | ⟨-, q, hq, c, hc, hpanicked⟩)
    · cases hk
    · have hpushed : q = (Program.ofSource source s.scene.delay s.scene.statusObservers).claimed :=
        Option.some.inj (hq.symm.trans Array.getElem?_push_size)
      rw [hpushed, Program.claimed, if_neg hplays] at hc
      exact .inr ⟨rfl, c, hc, hpanicked⟩

/-- A scene that is asked to play a text keeps to the law. -/
theorem play_law (inRuntime : Bool) (source : String) (s : Session) :
    PlayLaw perform s inRuntime source (play perform inRuntime source s) := by
  cases inRuntime with
  | false => exact
    { outside := by simp [play]
      busy := by simp [play]
      idle := by simp [play]
      started := nofun
      accepted := nofun
      refused := fun _ _ => rfl }
  | true =>
    cases h : s.isPlaying with
    | true =>
      have hbusy : s.Busy := isPlaying_iff_busy.mp h
      rw [play_busy source h]
      exact
        { outside := by simp
          busy := by simp [hbusy]
          idle := by simp [hbusy]
          started := fun _ hidle => absurd hbusy hidle
          accepted := fun _ hidle => absurd hbusy hidle
          refused := fun _ _ => rfl }
    | false =>
      have hidle : ¬s.Busy := isPlaying_eq_false_iff.mp h
      have hstarted (hsteps : compile source ≠ []) := play_started hperform h hsteps
      -- whether the text holds a step settles which answers are left
      have hanswer : compile source = [] ∧ (play perform true source s).1 = .value .idle ∨
          compile source ≠ [] ∧ ((∃ k, (play perform true source s).1 = .value (.started k)) ∨
            (play perform true source s).1 = .panicked) := by
        by_cases hsteps : compile source = []
        · refine .inl ⟨hsteps, ?_⟩
          rw [play_idle source h]
          dsimp only
          rw [if_pos (isEmpty_ofSource.mpr hsteps)]
        · refine .inr ⟨hsteps, ?_⟩
          obtain ⟨k, hk, -⟩ | ⟨hpanicked, -⟩ := hstarted hsteps
          · exact .inl ⟨k, hk⟩
          · exact .inr hpanicked
      refine
        { outside := ?_, busy := ?_, idle := ?_, started := fun _ _ => hstarted,
          accepted := fun _ _ => play_accepted hperform source h, refused := ?_ }
      all_goals
        obtain ⟨hsteps, hanswer⟩ | ⟨hsteps, ⟨k, hanswer⟩ | hanswer⟩ := hanswer
        all_goals simp [hanswer, hsteps, hidle]

end Play

/-! ## Histories without refusals -/

theorem heedless_respond (hperform : perform.Heedless) (h : Happening) :
    HeedlessCall (respond perform h) := by
  cases h with
  | call c => exact heedless_call hperform c
  | turn k due =>
    intro s rs
    obtain ⟨rs', hturn⟩ := heedless_turn hperform k due s rs
    exact ⟨rs', congrArg (CallAnswer.none, ·) hturn⟩

/-- What is to be seen of a history does not depend on the remarks before it. -/
theorem trace_remarked (hperform : perform.Heedless) (hs : List Happening) (s : Session)
    (rs : Array Remark) : trace perform hs (s.remarked rs) = trace perform hs s := by
  induction hs generalizing s rs with
  | nil => rfl
  | cons h hs ih =>
    obtain ⟨rs', hrespond⟩ := heedless_respond hperform h s rs
    unfold trace
    rw [hrespond]
    exact congrArg _ (ih _ rs')

/-- Where a history leads to does not depend on the remarks before it, remarks apart. -/
theorem heedless_after (hperform : perform.Heedless) (hs : List Happening) :
    Heedless (after perform hs) := by
  induction hs with
  | nil => exact fun _ rs => ⟨rs, rfl⟩
  | cons h hs ih =>
    intro s rs
    obtain ⟨rs', hrespond⟩ := heedless_respond hperform h s rs
    simp only [after_cons, happen_eq_respond]
    rw [hrespond]
    exact ih _ rs'

/-- Only a call to play a text can be refused. -/
theorem isRefusal_call {c : Call} {s : Session} (h : (call perform c s).1.isRefusal = true) :
    ∃ inRuntime source why, c = .play inRuntime source ∧
      (play perform inRuntime source s).1 = .value (.refused why) := by
  have other {α : Type} {f : α → CallAnswer} (hf : ∀ a, (f a).isRefusal = false)
      (call : Outcome α × Session) : (answered f call).1.isRefusal = false := by
    rcases call with ⟨a | _, t⟩
    · exact hf a
    · rfl
  cases c with
  | play inRuntime source =>
    rw [call_play] at h
    refine ⟨inRuntime, source, ?_⟩
    revert h
    rcases play perform inRuntime source s with ⟨(why | _ | k) | _, t⟩
    · exact fun _ => ⟨why, rfl, rfl⟩
    all_goals exact nofun
  | start | stop | stopCurrent | step | finishReached =>
    exact absurd (h.symm.trans (other (fun _ => rfl) _)) (by decide)
  | _ => cases h

/-- A scene refuses every text while it is playing. -/
theorem call_play_busy (source : String) {s : Session} (hplaying : s.isPlaying = true) :
    call perform (.play true source) s =
      (.played (.refused .programRunning), note .rejected s) := by
  rw [call_play, play_busy source hplaying]
  rfl

/-- A text that is not refused is played in a runtime, by a scene that was playing nothing. -/
theorem idle_of_not_refused {inRuntime : Bool} {source : String} {s : Session}
    (haccepted : (call perform (.play inRuntime source) s).1.isRefusal = false) :
    inRuntime = true ∧ s.isPlaying = false := by
  cases inRuntime with
  | false => cases haccepted
  | true =>
    refine ⟨rfl, ?_⟩
    rw [← Bool.not_eq_true]
    intro hplaying
    rw [call_play_busy source hplaying] at haccepted
    cases haccepted

/-- A refused call leaves a remark at most. -/
theorem respond_refused (hperform : perform.Orderly) {h : Happening} {s : Session}
    (hrefused : (respond perform h s).1.isRefusal = true) :
    ∃ rs, (respond perform h s).2 = s.remarked rs := by
  cases h with
  | turn k due => cases hrefused
  | call c =>
    obtain ⟨inRuntime, source, why, rfl, hplay⟩ := isRefusal_call hrefused
    have hsame := (play_law hperform inRuntime source s).refused why hplay
    refine ⟨(play perform inRuntime source s).2.remarks, ?_⟩
    calc (call perform (.play inRuntime source) s).2
        = (play perform inRuntime source s).2 := snd_call_play perform inRuntime source s
      _ = (play perform inRuntime source s).2.unremarked.remarked
            (play perform inRuntime source s).2.remarks := rfl
      _ = s.remarked (play perform inRuntime source s).2.remarks := by rw [hsame]; rfl

/-- A history without its refused calls answers and leaves everything as the history does. -/
theorem trace_unrefused (horderly : perform.Orderly) (hheedless : perform.Heedless)
    (hs : List Happening) (s : Session) :
    trace perform (unrefused perform hs s) s =
      (trace perform hs s).filter (fun seen => !seen.1.isRefusal) := by
  induction hs generalizing s with
  | nil => rfl
  | cons h hs ih =>
    by_cases hrefused : (respond perform h s).1.isRefusal = true
    · obtain ⟨rs, hleft⟩ := respond_refused horderly hrefused
      simp only [unrefused, trace, hrefused, if_true, List.filter_cons, Bool.not_true,
        Bool.false_eq_true, if_false]
      rw [← ih, hleft]
      exact (trace_remarked hheedless _ s rs).symm
    · simp only [unrefused, trace, hrefused, Bool.false_eq_true, if_false, List.filter_cons,
        Bool.not_false, if_true]
      rw [ih]

/-- A history without its refused calls ends as the history does. -/
theorem after_unrefused (horderly : perform.Orderly) (hheedless : perform.Heedless)
    (hs : List Happening) (s : Session) :
    (after perform (unrefused perform hs s) s).unremarked = (after perform hs s).unremarked := by
  induction hs generalizing s with
  | nil => rfl
  | cons h hs ih =>
    by_cases hrefused : (respond perform h s).1.isRefusal = true
    · obtain ⟨rs, hleft⟩ := respond_refused horderly hrefused
      simp only [unrefused, hrefused, if_true, after_cons, happen_eq_respond]
      rw [← ih, hleft]
      obtain ⟨rs', hafter⟩ := heedless_after hheedless (unrefused perform hs (s.remarked rs)) s rs
      rw [hafter]
      rfl
    · simp only [unrefused, hrefused, Bool.false_eq_true, if_false, after_cons, happen_eq_respond]
      exact ih _

/-- A scene refuses a text outside a runtime or while its program runs, and to strike the refused
calls from a history changes nothing but remarks. -/
theorem refused_plays_leave_no_trace (depth : Nat) (s : Session) :
    (∀ inRuntime source, PlayLaw (performWithin depth) s inRuntime source
      (play (performWithin depth) inRuntime source s)) ∧
    ∀ hs,
      trace (performWithin depth) (unrefused (performWithin depth) hs s) s =
        (trace (performWithin depth) hs s).filter (fun seen => !seen.1.isRefusal) ∧
      (after (performWithin depth) (unrefused (performWithin depth) hs s) s).unremarked =
        (after (performWithin depth) hs s).unremarked := by
  have horderly := performWithin_orderly depth
  have hheedless := performWithin_heedless depth
  refine ⟨fun inRuntime source => play_law horderly inRuntime source s, fun hs => ⟨?_, ?_⟩⟩
  · exact trace_unrefused horderly hheedless hs s
  · exact after_unrefused horderly hheedless hs s

end Session

end GridPuzzle
