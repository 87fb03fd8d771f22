import GridPuzzle.Proofs.Session.Passage

/-!
# What the status observers of a scene are told

A program is given the status observers that its scene has when it is accepted, and nobody else
follows it unless he subscribes to the program itself, which nobody does here. So an observer of the
scene is told about the passages of the programs accepted after its registration, and about no
others. In each history the passages are put together from those of the single happenings. There is
at most one in each of them, so they are in the order in which they were made.
-/

namespace GridPuzzle

/-- A plain call that subscribes nobody to a single program. -/
def Call.IsSceneWide (c : Call) : Prop := c.IsPlain ∧ ∀ p o, c ≠ .subscribe p o

/-- What is allowed of some calls is allowed of more. -/
theorem Happening.Allowed.mono {allowed allowed' : Call → Prop} (h : ∀ c, allowed c → allowed' c)
    {what : Happening} (hallowed : what.Allowed allowed) : what.Allowed allowed' := by
  cases what with
  | call c => exact h c hallowed
  | turn k due => trivial

namespace Program

/-- How the status and the past of a program go together, when a scene has accepted it with or
without commands. -/
inductive Route : Bool → Status → List Status → Prop
  | waiting : Route true .stopped []
  | dismissed : Route true .aborted [.stopped]
  | running : Route false .running [.stopped]
  | finished : Route false .finished [.running, .stopped]
  | aborted : Route false .aborted [.running, .stopped]

/-- A program that a scene has accepted: it holds the steps of its text, and runs at once unless
there are none. -/
structure OnRoute (q : Program) : Prop where
  text : q.isEmpty = (compile q.source).isEmpty
  route : Route q.isEmpty q.status q.past

/-- A program is on its route from the moment on when it is accepted. -/
theorem onRoute_claimed_ofSource (source : String) (delay : Delay)
    (observers : List (Callback StatusNotice)) :
    (ofSource source delay observers).claimed.OnRoute := by
  have htext : (ofSource source delay observers).isEmpty = (compile source).isEmpty := by
    rw [Bool.eq_iff_iff, Session.isEmpty_ofSource, List.isEmpty_iff]
  unfold claimed
  split
  · rename_i hempty
    exact ⟨htext, hempty ▸ .waiting⟩
  · rename_i hsome
    rw [Bool.not_eq_true] at hsome
    exact ⟨htext, hsome ▸ .running⟩

/-- A program on its route may be stopped before its status is final. -/
theorem OnRoute.aborted {q : Program} (h : q.OnRoute)
    (hopen : q.status.isTerminal = false) : (q.become .aborted).OnRoute := by
  refine ⟨h.text, ?_⟩
  have hroute := h.route
  change Route q.isEmpty .aborted (q.status :: q.past)
  generalize q.isEmpty = empty, q.status = status, q.past = past at hroute hopen
  cases hroute with
  | waiting => exact .dismissed
  | running => exact .aborted
  | dismissed | finished | aborted => cases hopen

/-- A program that runs may be finished. -/
theorem OnRoute.finished {q : Program} (h : q.OnRoute) (hrun : q.status = .running) :
    (q.become .finished).OnRoute := by
  refine ⟨h.text, ?_⟩
  have hroute := h.route
  change Route q.isEmpty .finished (q.status :: q.past)
  rw [hrun] at hroute ⊢
  generalize q.isEmpty = empty, q.past = past at hroute
  cases hroute
  exact .finished

end Program

/-- The changes of status that a program with or without commands may go through. -/
def courses (source : String) : List (List (Status × Status)) :=
  if compile source = [] then
    [[], [(.aborted, .stopped)]]
  else
    [[(.running, .stopped)], [(.running, .stopped), (.finished, .running)],
      [(.running, .stopped), (.aborted, .running)]]

theorem Program.OnRoute.changes_mem {q : Program} (h : q.OnRoute) :
    q.changes ∈ courses q.source := by
  have hroute := h.route
  have hempty : q.isEmpty = true ↔ compile q.source = [] := by
    rw [h.text, List.isEmpty_iff]
  unfold courses Program.changes
  generalize q.isEmpty = empty at hroute hempty
  generalize q.status = status, q.past = past at hroute
  cases hroute with
  | waiting | dismissed => simp [hempty.mp rfl]
  | running | finished | aborted =>
    have hsome : compile q.source ≠ [] := fun hnil => Bool.false_ne_true (hempty.mpr hnil)
    simp [hsome]

namespace Session

variable {s t : Session} {l : Level} {made : List (String × List (Callback StatusNotice))}
  {xs : List Passage}

variable (perform : Perform)

/-- The text that a scene has accepted when one thing happened, with the status observers that the
scene had at that moment. -/
def enlistment (h : Happening) (answer : CallAnswer) (s : Session) :
    List (String × List (Callback StatusNotice)) :=
  match h with
  | .call (.play _ source) => if answer.isRefusal then [] else [(source, s.scene.statusObservers)]
  | _ => []

/-- The texts that a scene accepts in the course of a history, each with the status observers that
the scene has at that moment. -/
def enlisted : List Happening → Session → List (String × List (Callback StatusNotice))
  | [], _ => []
  | h :: hs, s => enlistment h (respond perform h s).1 s ++ enlisted hs (happen perform h s)

/-- The passages that are made in the course of a history. -/
def passages : List Happening → Session → List Passage
  | [], _ => []
  | h :: hs, s =>
    passagesBetween s (happen perform h s) ++ passages hs (happen perform h s)

variable {perform}

/-- A refused text is not accepted. -/
theorem enlistment_refused {what : Happening} {answer : CallAnswer}
    (hrefused : answer.isRefusal = true) (s : Session) : enlistment what answer s = [] := by
  unfold enlistment
  split
  · exact if_pos hrefused
  · rfl

theorem Spends.exists_passes (h : Spends s t) : ∃ xs, xs.length ≤ 1 ∧ Passes [] xs s t := by
  obtain ⟨xs, hxs, hspent⟩ := h
  have hopen := s.isOpen.toNat_le
  exact ⟨xs, by omega, hxs⟩

/-- A scene that is asked to play a text makes at most one passage, the one with which the program
of the text begins to run. -/
theorem passes_call_play (hperform : perform.Orderly) (h : Plain l s) (inRuntime : Bool)
    (source : String) :
    ∃ xs, xs.length ≤ 1 ∧
      Passes (enlistment (.call (.play inRuntime source))
        (call perform (.play inRuntime source) s).1 s) xs s
        (call perform (.play inRuntime source) s).2 := by
  cases hrefused : (call perform (.play inRuntime source) s).1.isRefusal with
  | true =>
    obtain ⟨rs, hrs⟩ : ∃ rs, (call perform (.play inRuntime source) s).2 = s.remarked rs :=
      respond_refused (h := .call (.play inRuntime source)) hperform hrefused
    rw [enlistment_refused hrefused, hrs]
    exact ⟨[], Nat.zero_le 1, .of_same rfl fun _ => rfl⟩
  | false =>
    obtain ⟨rfl, hidle⟩ := idle_of_not_refused hrefused
    have haccepted : enlistment (.call (.play true source)) (call perform (.play true source) s).1
        s = [(source, s.scene.statusObservers)] := by
      simp only [enlistment, hrefused, Bool.false_eq_true, if_false]
    rw [haccepted, snd_call_play]
    exact h.passes_play hidle source

/-- Whatever happens, at most one passage is made. -/
theorem passes_happening (hperform : perform.Orderly) (h : Plain l s) (hplayer : OnePlayer s)
    {what : Happening} (hallowed : what.Allowed Call.IsSceneWide) :
    ∃ xs, xs.length ≤ 1 ∧
      Passes (enlistment what (respond perform what s).1 s) xs s (respond perform what s).2 := by
  have hpaced := paced_spends (l := l) hperform
  cases what with
  | turn k due => exact (hpaced.turn k due s ⟨h, hplayer⟩).2.exists_passes
  | call c =>
    obtain ⟨hplain, hwide⟩ := hallowed
    have same {t : Session} (hprograms : t.programs = s.programs) (hevents : t.events = s.events) :
        ∃ xs, xs.length ≤ 1 ∧ Passes [] xs s t :=
      ⟨[], Nat.zero_le 1, .of_same hprograms fun tag => by rw [toldTo, toldTo, hevents]⟩
    cases c with
    | advance | join | waitFinal | waitCurrent | watch | pollWatch | look =>
      exact (hpaced.wait (by trivial) s ⟨h, hplayer⟩).2.exists_passes
    | start inRuntime p =>
      obtain ⟨remarks, hstart⟩ : ∃ remarks, start perform inRuntime p s = _ :=
        hplayer.start_eq inRuntime p
      rw [respond_call, snd_call_start, hstart]
      exact same rfl rfl
    | stop p =>
      rw [respond_call, snd_call_stop, h.stop_eq]
      exact passes_halted p s
    | stopCurrent =>
      rw [respond_call, snd_call_stopCurrent, h.stopCurrent_eq]
      exact (Spends.haltedCurrent s).exists_passes
    | finishReached p =>
      rw [respond_call, snd_call_finishReached, h.finishReached_eq]
      exact (Spends.arrived p s).exists_passes
    | step d =>
      rw [respond_call, snd_call_step]
      exact (h.spends_step d).exists_passes
    | reset | onMove | onStatus | onComplete | onWall => exact same rfl rfl
    | play inRuntime source => exact passes_call_play hperform h inRuntime source
    | subscribe p o => exact absurd rfl (hwide p o)
    | guard | dropScene => exact hplain.elim

/-- A refused text makes no passage. -/
theorem passagesBetween_refused (hperform : perform.Orderly) {what : Happening}
    (hrefused : (respond perform what s).1.isRefusal = true) :
    passagesBetween s (happen perform what s) = [] := by
  obtain ⟨rs, hrs⟩ := respond_refused hperform hrefused
  rw [happen_eq_respond, hrs]
  have hpasses : Passes [] [] s (s.remarked rs) := Passes.of_same rfl fun _ => rfl
  exact hpasses.between_eq (Nat.zero_le 1)

/-- Whatever is allowed keeps a session plain, with one player. -/
theorem happen_plain (hperform : perform.Orderly) (h : Plain l s ∧ OnePlayer s)
    {what : Happening} (hallowed : what.Allowed Call.IsPlain) :
    Plain l (happen perform what s) ∧ OnePlayer (happen perform what s) := by
  have hall : ∀ h ∈ [what], h.Allowed Call.IsPlain := by simpa using hallowed
  refine Deeds.keeps (P := fun s => Plain l s ∧ OnePlayer s) ?_ (after_deeds hall s) h
  exact fun hd h => ⟨hd.plain hperform h.1, hd.onePlayer hperform h.2⟩

/-- The passages of a history are those of its programs, and everybody who follows a program has
been told about them. -/
theorem passes_after (hperform : perform.Orderly) (h : Plain l s ∧ OnePlayer s)
    {hs : List Happening} (hall : ∀ what ∈ hs, what.Allowed Call.IsSceneWide) :
    Passes (enlisted perform hs s) (passages perform hs s) s (after perform hs s) := by
  induction hs generalizing s with
  | nil => exact .refl s
  | cons what hs ih =>
    have hallowed := hall what List.mem_cons_self
    obtain ⟨xs, hone, hxs⟩ := passes_happening hperform h.1 h.2 hallowed
    rw [← happen_eq_respond] at hxs
    have hrest := ih (happen_plain hperform h (hallowed.mono fun _ hc => hc.1))
      fun what' hmem => hall what' (List.mem_cons_of_mem _ hmem)
    rw [after_cons, enlisted, passages, hxs.between_eq hone]
    exact hxs.trans hrest

/-- Nobody but a client that says so becomes a status observer of the scene. -/
theorem statusObservers_happen (hperform : perform.Orderly) {what : Happening}
    (hother : ∀ c, what ≠ .call (.onStatus c)) (s : Session) :
    (happen perform what s).scene.statusObservers = s.scene.statusObservers := by
  have hallowed : what.Allowed fun c => ∀ o, c ≠ .onStatus o := by
    cases what with
    | call c => exact fun o hc => hother o (congrArg _ hc)
    | turn k due => trivial
  have hall : ∀ h ∈ [what], h.Allowed fun c => ∀ o, c ≠ .onStatus o := by simpa using hallowed
  refine Deeds.keeps (P := fun t => t.scene.statusObservers = s.scene.statusObservers) ?_
    (after_deeds hall s) rfl
  intro t u hd ht
  refine hd.keeps (P := fun t => t.scene.statusObservers = s.scene.statusObservers) hperform
    (fun hc h => hc.sameFrame.statusObservers.trans h)
    (fun ha h => (congrArg _ ha.scene).trans h) (fun _ h => h) (fun {t c} hc hallowed h => ?_) ht
  cases c with
  | onStatus o => exact absurd rfl (hallowed o)
  | subscribe | onMove | onComplete | onWall | guard | dropScene => exact h
  | _ => cases hc

/-- While nobody with a tag is registered, a scene gives each program the tag as often as it has
it. -/
theorem count_enlisted (hperform : perform.Orderly) {tag : String} {hs : List Happening}
    (hother : ∀ c, .call (.onStatus c) ∈ hs → c.tag ≠ tag) (s : Session) :
    (∀ e ∈ enlisted perform hs s, (e.2.countP fun c => c.tag == tag) =
        s.scene.statusObservers.countP fun c => c.tag == tag) ∧
      ((after perform hs s).scene.statusObservers.countP fun c => c.tag == tag) =
        s.scene.statusObservers.countP fun c => c.tag == tag := by
  induction hs generalizing s with
  | nil => exact ⟨nofun, rfl⟩
  | cons what hs ih =>
    have hnext : ((happen perform what s).scene.statusObservers.countP fun c => c.tag == tag) =
        s.scene.statusObservers.countP fun c => c.tag == tag := by
      by_cases hwhat : ∃ c, what = .call (.onStatus c)
      · obtain ⟨c, rfl⟩ := hwhat
        have hc : c.tag ≠ tag := hother c List.mem_cons_self
        change ((s.scene.statusObservers ++ [c]).countP fun c => c.tag == tag) = _
        simp [List.countP_append, hc]
      · rw [statusObservers_happen hperform (fun c hc => hwhat ⟨c, hc⟩)]
    obtain ⟨henlisted, hafter⟩ :=
      ih (fun c hc => hother c (List.mem_cons_of_mem _ hc)) (happen perform what s)
    refine ⟨fun e he => ?_, hafter.trans hnext⟩
    rcases List.mem_append.mp he with hfirst | hrest
    · unfold enlistment at hfirst
      split at hfirst
      · split at hfirst
        · cases hfirst
        · cases List.mem_singleton.mp hfirst
          rfl
      · cases hfirst
    · rw [henlisted e hrest, hnext]

theorem enlisted_append (hs hs' : List Happening) (s : Session) :
    enlisted perform (hs ++ hs') s =
      enlisted perform hs s ++ enlisted perform hs' (after perform hs s) := by
  induction hs generalizing s with
  | nil => rfl
  | cons what hs ih =>
    simp only [List.cons_append, enlisted, ih, after_cons, List.append_assoc]

section Routes

/-- Every program is on its route. -/
def Routed (s : Session) : Prop :=
  ∀ (p : ProgramId) (q : Program), s.programs[p]? = some q → q.OnRoute

theorem Routed.subscribe (h : s.Routed) (p : ProgramId) (c : Callback StatusNotice) :
    (s.subscribe p c).Routed := by
  intro p' q hq
  simp only [Session.subscribe, Array.getElem?_modify] at hq
  split at hq
  · obtain ⟨q', hq', rfl⟩ := Option.map_eq_some_iff.mp hq
    exact ⟨(h p' q' hq').text, (h p' q' hq').route⟩
  · exact h p' q hq

theorem Routed.setStatus (h : s.Routed) {p : ProgramId} {status : Status}
    (hp : ∀ q, s.programs[p]? = some q → q.OnRoute → (q.become status).OnRoute) :
    (s.setStatus p status).Routed := by
  intro p' q hq
  by_cases hpp : p = p'
  · subst hpp
    simp only [Session.setStatus, Array.getElem?_modify, if_pos] at hq
    obtain ⟨q', hq', rfl⟩ := Option.map_eq_some_iff.mp hq
    exact hp q' hq' (h p q' hq')
  · simp only [Session.setStatus, Array.getElem?_modify, if_neg hpp] at hq
    exact h p' q hq

/-- Every primitive change keeps the programs on their routes. -/
theorem Change.routed (hc : Change s t) (h : s.Routed) : t.Routed := by
  have status_of {p : ProgramId} {q : Program} {status : Status}
      (hst : s.status? p = some status) (hq : s.programs[p]? = some q) : q.status = status :=
    Option.some.inj ((status?_of_program hq).symm.trans hst)
  cases hc with
  | abort hst hopen =>
    exact h.setStatus fun q hq hroute => hroute.aborted (by rw [status_of hst hq]; exact hopen)
  | finish hrun =>
    exact h.setStatus fun q hq hroute => hroute.finished (status_of (isRunning_iff.mp hrun) hq)
  | @claim p q hq hclaimable =>
    -- a program with steps has been claimed when it was accepted
    have hroute := (h p q hq).route
    simp only [Program.isClaimable, Bool.and_eq_true, beq_iff_eq, Bool.not_eq_true'] at hclaimable
    rw [hclaimable.1, hclaimable.2] at hroute
    cases hroute
  | accept source hidle =>
    intro p q hq
    rw [getElem?_accepted] at hq
    split at hq
    · cases hq
      exact Program.onRoute_claimed_ofSource _ _ _
    · exact h p q hq
  | follow p tag => exact h.subscribe p _
  | note | record | tell | witness | spawn | complete => exact h

theorem Deed.routed (hperform : perform.Orderly) {allowed : Call → Prop}
    (hd : Deed perform allowed s t) (h : s.Routed) : t.Routed := by
  refine hd.keeps hperform Change.routed (fun ha h p q hq => ?_) (fun _ h => h)
    (fun {s c} hc _ h => ?_) h
  · rw [ha.programs] at hq
    exact h p q hq
  · rcases arrange_cases hc s with ⟨p, c', hcall⟩ | ⟨scene, -, hcall⟩
    · rw [hcall]
      exact h.subscribe p c'
    · rw [hcall]
      exact h

end Routes

/-- To write down the passages of the programs from a number on. -/
theorem retold_from (n : ProgramId) (xs : List Passage) :
    retold (fun p => if n ≤ p then 1 else 0) xs = xs.filter fun x => n ≤ x.program := by
  induction xs with
  | nil => rfl
  | cons x xs ih =>
    rw [List.filter_cons, ← ih]
    by_cases hx : n ≤ x.program
    · simp [retold, hx]
    · simp [retold, hx]

/-- An observer is given to the programs that are accepted after its registration, and to no
others. -/
theorem count_enlisted_around (hperform : perform.Orderly) {before later : List Happening}
    {c : Callback StatusNotice}
    (hother : ∀ c', .call (.onStatus c') ∈ before ++ later → c'.tag ≠ c.tag)
    (hnobody : s.scene.statusObservers = []) {p : ProgramId}
    {e : String × List (Callback StatusNotice)}
    (he : (enlisted perform (before ++ .call (.onStatus c) :: later) s)[p]? = some e) :
    (e.2.countP fun c' => c'.tag == c.tag) =
      if (enlisted perform before s).length ≤ p then 1 else 0 := by
  obtain ⟨hbefore, hthen⟩ := count_enlisted hperform
    (fun c' hc' => hother c' (List.mem_append_left _ hc')) s
  obtain ⟨hlater, -⟩ := count_enlisted hperform
    (fun c' hc' => hother c' (List.mem_append_right _ hc'))
    (happen perform (.call (.onStatus c)) (after perform before s))
  have hregistered : ((happen perform (.call (.onStatus c))
      (after perform before s)).scene.statusObservers.countP fun c' => c'.tag == c.tag) = 1 := by
    change (((after perform before s).scene.statusObservers ++ [c]).countP _) = 1
    rw [List.countP_append, hthen, hnobody]
    simp
  rw [enlisted_append] at he
  split
  · rename_i hp
    rw [List.getElem?_append_right hp] at he
    rw [hlater e (List.mem_of_getElem? he), hregistered]
  · rename_i hp
    rw [List.getElem?_append_left (Nat.lt_of_not_le hp)] at he
    rw [hbefore e (List.mem_of_getElem? he), hnobody]
    rfl

/-- The passages of a program that was accepted meanwhile are one of the courses of its text. -/
theorem Passes.courses_mem (h : Passes made xs s t) (hnone : s.programs = #[]) (hroutes : t.Routed)
    {p : ProgramId} {e : String × List (Callback StatusNotice)} (he : made[p]? = some e) :
    (xs.filter fun x => x.program == p).map (fun x => (x.new, x.old)) ∈ courses e.1 := by
  have hentries := h.entries
  have hnothing : s.entries = [] := by simp [Session.entries, hnone]
  rw [hnothing, List.nil_append] at hentries
  rw [← hentries] at he
  simp only [Session.entries, List.getElem?_map, Array.getElem?_toList] at he
  obtain ⟨q, hq, rfl⟩ := Option.map_eq_some_iff.mp he
  have hchanges := h.changes p
  have hbefore : s.changes p = [] := by simp [Session.changes, hnone]
  rw [changes_of_program hq, hbefore, List.nil_append] at hchanges
  rw [← hchanges]
  exact (hroutes p q hq).changes_mem

/-- An observer of the scene with a tag of its own writes down exactly the passages of the programs
accepted after its registration, in their order. -/
theorem observers_are_told_of_later_programs {depth : Nat} {observers : List (Callback Move)}
    (hobservers : ∀ c ∈ observers, c.IsRecorder) (hlevel : ofLevel l observers = .ok s)
    {before later : List Happening} {c : Callback StatusNotice}
    (hall : ∀ what ∈ before ++ .call (.onStatus c) :: later, what.Allowed Call.IsSceneWide)
    (hother : ∀ c', .call (.onStatus c') ∈ before ++ later → c'.tag ≠ c.tag) :
    let hs := before ++ .call (.onStatus c) :: later
    let xs := passages (performWithin depth) hs s
    let texts := enlisted (performWithin depth) hs s
    (after (performWithin depth) hs s).toldTo c.tag =
        xs.filter (fun x => (enlisted (performWithin depth) before s).length ≤ x.program) ∧
    (∀ x ∈ xs, x.program < texts.length) ∧
    -- the passages of one program are a course that its text allows
    (∀ p text given, texts[p]? = some (text, given) →
      (xs.filter fun x => x.program == p).map (fun x => (x.new, x.old)) ∈ courses text) ∧
    -- each happening makes one passage at most, and a refused text none
    ∀ first what rest, hs = first ++ what :: rest →
      let u := after (performWithin depth) first s
      (passagesBetween u (happen (performWithin depth) what u)).length ≤ 1 ∧
      ((respond (performWithin depth) what u).1.isRefusal = true →
        passagesBetween u (happen (performWithin depth) what u) = []) := by
  intro hs xs texts
  have hperform := performWithin_orderly depth
  have hplain (what : Happening) (hwhat : what ∈ hs) : what.Allowed Call.IsPlain :=
    (hall what hwhat).mono fun _ hc => hc.1
  have hstart : Plain l s ∧ OnePlayer s :=
    ⟨plain_ofLevel hobservers hlevel, onePlayer_ofLevel hlevel⟩
  obtain ⟨hprograms, hnobody, hevents⟩ :
      s.programs = #[] ∧ s.scene.statusObservers = [] ∧ s.events = #[] := by
    obtain ⟨-, r, rfl⟩ := ofLevel_eq_ok hlevel
    exact ⟨rfl, rfl, rfl⟩
  have hpasses : Passes texts xs s (after (performWithin depth) hs s) :=
    passes_after hperform hstart hall
  have hroutes : (after (performWithin depth) hs s).Routed := by
    refine Deeds.keeps (Deed.routed hperform) (after_deeds hplain s) fun p q hq => ?_
    simp [hprograms] at hq
  have hsize : (after (performWithin depth) hs s).programs.size = texts.length := by
    simp [hpasses.size, hprograms]
  refine ⟨?_, fun x hx => hsize ▸ hpasses.known x hx,
    fun p text given htext => hpasses.courses_mem hprograms hroutes htext,
    fun first what rest hsplit => ?_⟩
  · have htold := hpasses.told c.tag
    have hnothing : s.toldTo c.tag = [] := by simp [toldTo, hevents]
    rw [hnothing, List.nil_append] at htold
    rw [htold, ← retold_from]
    refine retold_congr fun x hx => ?_
    have hknown : x.program < texts.length := hsize ▸ hpasses.known x hx
    have hentry : (after (performWithin depth) hs s).entries[x.program]? =
        some texts[x.program] := by
      rw [hpasses.entries]
      simp [entries, hprograms]
    rw [audience_entries, hentry]
    exact count_enlisted_around hperform hother hnobody (List.getElem?_eq_getElem hknown)
  · have hwhat : what.Allowed Call.IsSceneWide := hall what (by
      change what ∈ hs
      simp [hsplit])
    have hfirst : ∀ what ∈ first, what.Allowed Call.IsPlain := fun what hmem => hplain what (by
      simp [hsplit, hmem])
    have hreached : Plain l (after (performWithin depth) first s) ∧
        OnePlayer (after (performWithin depth) first s) :=
      Deeds.keeps (P := fun s => Plain l s ∧ OnePlayer s)
        (fun hd h => ⟨hd.plain hperform h.1, hd.onePlayer hperform h.2⟩)
        (after_deeds hfirst s) hstart
    obtain ⟨ys, hone, hys⟩ := passes_happening hperform hreached.1 hreached.2 hwhat
    rw [← happen_eq_respond] at hys
    exact ⟨hys.between_eq hone ▸ hone, passagesBetween_refused hperform⟩

/-- Somebody is registered, a program is accepted, and it takes its first step. -/
def earlyHistory : List Happening :=
  [.call (.onStatus (.recorder "early")), .call (.play true "left(2)"), .turn 0 0]

/-- A text is refused while the program runs, and the program is stopped; an empty text is accepted
and stopped, and then a program is played to its end. -/
def lateHistory : List Happening :=
  [.call (.play true "up(1)"), .call .stopCurrent, .call (.play true ""), .call .stopCurrent,
    .call (.play true "up(1)"), .turn 1 0, .turn 1 1000]

/-- Whoever is registered while the first program runs is told of the two later programs only. -/
theorem late_observer_is_told_of_two_programs : ∃ s, ofLevel .standard [] = .ok s ∧
    (after (performWithin 1) (earlyHistory ++ .call (.onStatus (.recorder "late")) :: lateHistory)
      s).toldTo "late" =
        [⟨1, .aborted, .stopped⟩, ⟨2, .running, .stopped⟩, ⟨2, .finished, .running⟩] := by
  have hall : ∀ what ∈ earlyHistory ++ .call (.onStatus (.recorder "late")) :: lateHistory,
      what.Allowed Call.IsSceneWide := by
    simp [earlyHistory, lateHistory, Happening.Allowed, Call.IsSceneWide, Call.IsPlain,
      Callback.isRecorder_recorder]
  have hother : ∀ c', .call (.onStatus c') ∈ earlyHistory ++ lateHistory →
      c'.tag ≠ (.recorder "late" : Callback StatusNotice).tag := by
    simp [earlyHistory, lateHistory, Callback.recorder]
  obtain ⟨s, hlevel, hpassages⟩ : ∃ s, ofLevel .standard [] = .ok s ∧
      ((passages (performWithin 1)
          (earlyHistory ++ .call (.onStatus (.recorder "late")) :: lateHistory) s).filter
        fun x => (enlisted (performWithin 1) earlyHistory s).length ≤ x.program) =
          [⟨1, .aborted, .stopped⟩, ⟨2, .running, .stopped⟩, ⟨2, .finished, .running⟩] :=
    ⟨_, rfl, by decide +kernel⟩
  obtain ⟨htold, -⟩ := @observers_are_told_of_later_programs s _ 1 _ (by simp) hlevel _ _ _ hall
    hother
  exact ⟨s, hlevel, htold.trans hpassages⟩

end Session

end GridPuzzle
