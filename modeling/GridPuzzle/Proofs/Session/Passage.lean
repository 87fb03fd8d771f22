import GridPuzzle.Proofs.Session.Plain
import GridPuzzle.Proofs.Session.Refusal
import GridPuzzle.Proofs.Session.SinglePlayer
import Mathlib.Data.List.Basic

/-!
# Passages of programs

A passage of a program is a change of its status. What the status observers have been told is
compared with the passages of the programs, which are read off the programs themselves and not off
any announcement. Every piece of a turn and every outcome of a call extends both alike.

While no program is accepted, only the program in the slot may pass on, once: it is open before and
final afterwards. A scene accepts a program with the status observers that it has at that moment,
and with the passage to running unless there is nothing to play.
-/

namespace GridPuzzle

/-- A program passes from one status on to another. -/
structure Passage where
  program : ProgramId
  new : Status
  old : Status
  deriving DecidableEq, Repr

/-- The passage that somebody with a tag wrote down. -/
def Event.passage? (tag : String) : Event → Option Passage
  | .status t n => if t = tag then some ⟨n.program, n.new, n.old⟩ else none
  | _ => none

namespace Program

/-- The changes of a program's status, each the new status and the old one, the first change
first. -/
def changes (q : Program) : List (Status × Status) := ((q.status :: q.past).zip q.past).reverse

theorem changes_become (q : Program) (status : Status) :
    (q.become status).changes = q.changes ++ [(status, q.status)] := by
  simp [changes, become]

/-- How many observers of a program have a tag. -/
def audience (tag : String) (q : Program) : Nat := q.observers.countP fun c => c.tag == tag

end Program

namespace Session

/-- The passages that somebody with a tag has been told about. -/
def toldTo (tag : String) (s : Session) : List Passage :=
  s.events.toList.filterMap (Event.passage? tag)

/-- The changes of a program's status so far. -/
def changes (p : ProgramId) (s : Session) : List (Status × Status) :=
  ((s.programs[p]?).map Program.changes).getD []

/-- How many observers of a program have a tag. -/
def audience (tag : String) (p : ProgramId) (s : Session) : Nat :=
  ((s.programs[p]?).map (Program.audience tag)).getD 0

/-- The texts of all programs, each with the observers of its program. -/
def entries (s : Session) : List (String × List (Callback StatusNotice)) :=
  s.programs.toList.map fun q => (q.source, q.observers)

/-- The passages that were made between two sessions. -/
def passagesBetween (s t : Session) : List Passage :=
  (List.range t.programs.size).flatMap fun p =>
    ((t.changes p).drop (s.changes p).length).map fun c => ⟨p, c.1, c.2⟩

/-- What one observer of each program with the tag would write down about passages. -/
def retold (count : ProgramId → Nat) (xs : List Passage) : List Passage :=
  xs.flatMap fun x => List.replicate (count x.program) x

/-- Between two sessions, programs of some texts were accepted, with observers for each, and some
passages were made, about which the observers of their programs were told. -/
structure Passes (made : List (String × List (Callback StatusNotice))) (xs : List Passage)
    (s t : Session) : Prop where
  entries : t.entries = s.entries ++ made
  changes : ∀ p, t.changes p = s.changes p ++
    (xs.filter fun x => x.program == p).map fun x => (x.new, x.old)
  told : ∀ tag, t.toldTo tag = s.toldTo tag ++ retold (fun p => t.audience tag p) xs
  known : ∀ x ∈ xs, x.program < t.programs.size

variable {s t u : Session} {made made' : List (String × List (Callback StatusNotice))}
  {xs ys : List Passage}

theorem length_entries (s : Session) : s.entries.length = s.programs.size := by
  simp [entries]

theorem audience_entries (tag : String) (p : ProgramId) (s : Session) :
    s.audience tag p = ((s.entries[p]?).map fun e => e.2.countP fun c => c.tag == tag).getD 0 := by
  simp only [entries, List.getElem?_map, Array.getElem?_toList, Option.map_map]
  rfl

theorem retold_congr {count count' : ProgramId → Nat}
    (h : ∀ x ∈ xs, count x.program = count' x.program) : retold count xs = retold count' xs := by
  refine List.flatMap_congr fun x hx => ?_
  rw [h x hx]

/-- A change of status keeps the texts and the observers of all programs. -/
theorem entries_setStatus (p : ProgramId) (status : Status) (s : Session) :
    (s.setStatus p status).entries = s.entries := by
  refine List.ext_getElem? fun i => ?_
  simp only [entries, Session.setStatus, List.getElem?_map, Array.getElem?_toList,
    Array.getElem?_modify]
  split
  · rw [Option.map_map]
    rfl
  · rfl

namespace Passes

theorem size (h : Passes made xs s t) : t.programs.size = s.programs.size + made.length := by
  rw [← length_entries t, h.entries, List.length_append, length_entries]

/-- Nobody new follows a program that was accepted before. -/
theorem audience (h : Passes made xs s t) (tag : String) {p : ProgramId}
    (hp : p < s.programs.size) : t.audience tag p = s.audience tag p := by
  rw [audience_entries, audience_entries, h.entries,
    List.getElem?_append_left (by rwa [length_entries])]

/-- Where the programs are the same and the same was told about their statuses. -/
theorem of_same (hprograms : t.programs = s.programs) (htold : ∀ tag, t.toldTo tag = s.toldTo tag) :
    Passes [] [] s t where
  entries := by simp [Session.entries, hprograms]
  changes p := by simp [Session.changes, hprograms]
  told tag := by simp [retold, htold]
  known := nofun

theorem refl (s : Session) : Passes [] [] s s := of_same rfl fun _ => rfl

theorem trans (h : Passes made xs s t) (h' : Passes made' ys t u) :
    Passes (made ++ made') (xs ++ ys) s u where
  entries := by rw [h'.entries, h.entries, List.append_assoc]
  changes p := by
    rw [h'.changes, h.changes, List.filter_append, List.map_append, List.append_assoc]
  told tag := by
    -- whoever was told about the first passages still follows their programs
    have hfirst : retold (fun p => u.audience tag p) xs = retold (fun p => t.audience tag p) xs :=
      retold_congr fun x hx => h'.audience tag (h.known x hx)
    rw [h'.told, h.told, List.append_assoc, ← hfirst]
    simp only [retold, List.flatMap_append]
  known x hx := by
    rcases List.mem_append.mp hx with hold | hnew
    · rw [h'.size]
      exact Nat.lt_add_right _ (h.known x hold)
    · exact h'.known x hnew

end Passes

/-- A batch of at most one passage is found again by comparing the programs. -/
theorem Passes.between_eq (h : Passes made xs s t) (hone : xs.length ≤ 1) :
    passagesBetween s t = xs := by
  have hprogram (p : ProgramId) :
      ((t.changes p).drop (s.changes p).length).map (fun c => (⟨p, c.1, c.2⟩ : Passage)) =
        xs.filter fun x => x.program == p := by
    rw [h.changes, List.drop_left, List.map_map]
    refine (List.map_congr_left fun x hx => ?_).trans (List.map_id _)
    obtain rfl : x.program = p := by simpa using (List.mem_filter.mp hx).2
    rfl
  unfold passagesBetween
  simp only [hprogram]
  match xs, hone, h.known with
  | [], _, _ => simp
  | [x], _, hknown =>
    -- the one passage is found with its own program only
    have hrange (n : Nat) : ((List.range n).flatMap fun p => [x].filter fun x => x.program == p) =
        if x.program < n then [x] else [] := by
      induction n with
      | zero => rfl
      | succ n ih =>
        rw [List.range_succ, List.flatMap_append, ih]
        rcases Nat.lt_trichotomy x.program n with hlt | heq | hgt
        · simp [hlt, Nat.lt_succ_of_lt hlt, Nat.ne_of_lt hlt]
        · simp [heq]
        · have hbeyond : ¬x.program < n + 1 := Nat.not_lt.mpr hgt
          simp [Nat.not_lt_of_gt hgt, Nat.ne_of_gt hgt, hbeyond]
    rw [hrange, if_pos (hknown x List.mem_cons_self)]

section Pieces

variable {p : ProgramId} {q : Program}

theorem changes_of_program (hq : s.programs[p]? = some q) : s.changes p = q.changes := by
  simp [Session.changes, hq]

theorem audience_of_program (hq : s.programs[p]? = some q) (tag : String) :
    s.audience tag p = q.audience tag := by
  simp [Session.audience, hq]

/-- Events that are not about a status do not tell of any passage. -/
theorem toldTo_recordAll {es : List Event} (hes : ∀ tag, ∀ e ∈ es, e.passage? tag = none)
    (tag : String) (s : Session) : (recordAll es s).toldTo tag = s.toldTo tag := by
  unfold toldTo
  rw [events_recordAll, List.filterMap_append, List.filterMap_eq_nil_iff.mpr (hes tag),
    List.append_nil]

/-- An announcement tells each observer of the program about the passage. -/
theorem toldTo_announced (hq : s.programs[p]? = some q) (new old : Status) (tag : String) :
    (announced p new old s).toldTo tag =
      s.toldTo tag ++ List.replicate (q.audience tag) ⟨p, new, old⟩ := by
  have hevents (cs : List (Callback StatusNotice)) (n : StatusNotice) :
      (cs.map fun c => Event.status c.tag n).filterMap (Event.passage? tag) =
        List.replicate (cs.countP fun c => c.tag == tag) ⟨n.program, n.new, n.old⟩ := by
    induction cs with
    | nil => rfl
    | cons c cs ih =>
      rw [List.map_cons, List.filterMap_cons, List.countP_cons, ih]
      by_cases hc : c.tag = tag
      · simp [Event.passage?, hc, List.replicate_succ]
      · simp [Event.passage?, hc]
  unfold toldTo
  rw [events_announced hq, List.filterMap_append, hevents]
  rfl

/-- A program that moves on to another status, and whose observers are told so. -/
theorem passes_become (hq : s.programs[p]? = some q) (status : Status) :
    Passes [] [⟨p, status, q.status⟩] s (announced p status q.status (s.setStatus p status)) := by
  have hmoved := getElem?_setStatus hq status
  have hother {p' : ProgramId} (hne : p ≠ p') :
      (s.setStatus p status).programs[p']? = s.programs[p']? := by
    simp [Session.setStatus, Array.getElem?_modify, hne]
  refine ⟨?_, fun p' => ?_, fun tag => ?_, ?_⟩
  · have hentries := entries_setStatus p status s
    simp only [entries, programs_announced, List.append_nil] at hentries ⊢
    exact hentries
  · have hchanges : (announced p status q.status (s.setStatus p status)).changes p' =
        (s.setStatus p status).changes p' := by
      simp only [Session.changes, programs_announced]
    rw [hchanges]
    by_cases hp : p = p'
    · subst hp
      rw [changes_of_program hmoved, changes_of_program hq, Program.changes_become]
      simp
    · simp [Session.changes, hother hp, hp]
  · rw [toldTo_announced hmoved]
    have hkept : (announced p status q.status (s.setStatus p status)).audience tag p =
        (q.become status).audience tag := by
      rw [← audience_of_program hmoved]
      simp only [Session.audience, programs_announced]
    simp only [retold, List.flatMap_cons, List.flatMap_nil, List.append_nil, hkept]
    rfl
  · intro x hx
    cases List.mem_singleton.mp hx
    rw [programs_announced]
    exact (Array.getElem?_eq_some_iff.mp hmoved).1

/-- A program may be stopped: that is one passage, unless its status is final. -/
theorem halted_cases (p : ProgramId) (s : Session) :
    (halted p s = s ∧ ∀ old, s.status? p = some old → old.isTerminal = true) ∨
      ∃ q, s.programs[p]? = some q ∧ q.status.isTerminal = false ∧
        halted p s = announced p .aborted q.status (s.setStatus p .aborted) := by
  unfold halted status?
  cases hq : s.programs[p]? with
  | none => exact .inl ⟨rfl, nofun⟩
  | some q =>
    cases hfinal : q.status.isTerminal with
    | true =>
      refine .inl ⟨by simp [hfinal], fun old hold => ?_⟩
      cases hold
      exact hfinal
    | false => exact .inr ⟨q, rfl, hfinal, by simp [hfinal]⟩

theorem passes_halted (p : ProgramId) (s : Session) :
    ∃ xs, xs.length ≤ 1 ∧ Passes [] xs s (halted p s) := by
  rcases halted_cases p s with ⟨hsame, -⟩ | ⟨q, hq, -, hhalted⟩
  · rw [hsame]
    exact ⟨[], Nat.zero_le 1, .refl s⟩
  · rw [hhalted]
    exact ⟨[⟨p, .aborted, q.status⟩], Nat.le_refl 1, passes_become hq .aborted⟩

end Pieces

/-- The program in the slot may still pass on to another status. -/
def isOpen (s : Session) : Bool :=
  match s.scene.slot with
  | some p => (s.status? p).any fun status => !status.isTerminal
  | none => false

/-- What comes to pass while no program is accepted: at most one passage, after which the program in
the slot is not open any more. -/
def Spends (s t : Session) : Prop :=
  ∃ xs, Passes [] xs s t ∧ xs.length + t.isOpen.toNat ≤ s.isOpen.toNat

theorem isOpen_congr (hprograms : t.programs = s.programs) (hslot : t.scene.slot = s.scene.slot) :
    t.isOpen = s.isOpen := by
  unfold isOpen
  rw [hslot]
  cases s.scene.slot with
  | none => rfl
  | some p => simp only [status?_congr hprograms p]

namespace Spends

theorem of_same (hprograms : t.programs = s.programs) (hslot : t.scene.slot = s.scene.slot)
    (htold : ∀ tag, t.toldTo tag = s.toldTo tag) : Spends s t := by
  refine ⟨[], .of_same hprograms htold, ?_⟩
  rw [isOpen_congr hprograms hslot]
  exact Nat.le_of_eq (Nat.zero_add _)

theorem refl (s : Session) : Spends s s := of_same rfl rfl fun _ => rfl

theorem trans (h : Spends s t) (h' : Spends t u) : Spends s u := by
  obtain ⟨xs, hxs, hspent⟩ := h
  obtain ⟨ys, hys, hspent'⟩ := h'
  refine ⟨xs ++ ys, hxs.trans hys, ?_⟩
  rw [List.length_append]
  omega

/-- Something is written down that is not about a status. -/
theorem recordAll {es : List Event} (hes : ∀ tag, ∀ e ∈ es, e.passage? tag = none) (s : Session) :
    Spends s (recordAll es s) :=
  of_same rfl rfl fun tag => toldTo_recordAll hes tag s

/-- The program in the slot passes on to a final status. -/
theorem become {p : ProgramId} {q : Program} (hslot : s.scene.slot = some p)
    (hq : s.programs[p]? = some q) (hopen : q.status.isTerminal = false) {status : Status}
    (hfinal : status.isTerminal = true) :
    Spends s (announced p status q.status (s.setStatus p status)) := by
  have hbefore : s.isOpen = true := by
    simp [isOpen, hslot, status?_of_program hq, hopen]
  have hafter : (announced p status q.status (s.setStatus p status)).isOpen = false := by
    have hmoved := status?_setStatus_self (status?_of_program hq) status
    rw [isOpen_congr (s := s.setStatus p status) (programs_announced _ _ _ _)
      (congrArg Scene.slot (scene_announced _ _ _ _))]
    unfold isOpen
    rw [scene_setStatus, hslot]
    simp only [hmoved, Option.any_some, hfinal, Bool.not_true]
  refine ⟨_, passes_become hq status, ?_⟩
  rw [hbefore, hafter]
  exact Nat.le_refl 1

theorem haltedCurrent (s : Session) : Spends s s.haltedCurrent := by
  unfold Session.haltedCurrent
  split
  · rename_i p hslot
    rcases halted_cases p s with ⟨hsame, -⟩ | ⟨q, hq, hopen, hhalted⟩
    · rw [hsame]
      exact refl s
    · rw [hhalted]
      exact become hslot hq hopen rfl
  · exact refl s

theorem arrived (p : Position) (s : Session) : Spends s (arrived p s) := by
  unfold Session.arrived
  split
  · exact haltedCurrent s
  · have hmarked : Spends s.haltedCurrent
        (note (.levelComplete p) { s.haltedCurrent with scene.complete := true }) :=
      of_same rfl rfl fun _ => rfl
    exact ((haltedCurrent s).trans hmarked).trans (recordAll (by simp [Event.passage?]) _)

/-- Only the program in the slot can be finished. -/
theorem finished (h : OnePlayer s) (p : ProgramId) : Spends s (finished p s) := by
  unfold Session.finished
  split
  · rename_i hrun
    obtain ⟨q, hq, hstatus⟩ := Option.map_eq_some_iff.mp (isRunning_iff.mp hrun)
    have hopen : q.status.isTerminal = false := by
      rw [hstatus]
      rfl
    have hspends : Spends s (announced p .finished q.status (s.setStatus p .finished)) :=
      become (h.slot p hrun) hq hopen rfl
    rwa [hstatus] at hspends
  · exact refl s

end Spends

section Level

variable {l : Level} {perform : Perform}

theorem spends_passed (early late : List (Callback Move)) (m : Move) (s : Session) :
    Spends s (passed l early late m s) := by
  have told (cs : List (Callback Move)) (u : Session) :
      Spends u (recordAll (cs.map fun c => .moved c.tag m m.target) u) :=
    .recordAll (by simp [Event.passage?]) u
  have hcommitted : Spends s (note (.committed m) s) := .of_same rfl rfl fun _ => rfl
  by_cases hm : m.target = l.finish
  · rw [passed_onto hm]
    exact hcommitted.trans ((told early _).trans ((Spends.arrived _ _).trans (told late _)))
  · rw [passed_by hm]
    exact hcommitted.trans ((told early _).trans (told late _))

theorem Plain.spends_step (h : Plain l s) (d : Direction) : Spends s (step perform d s).2 := by
  obtain ⟨early, late, hw⟩ := h.finish
  cases hd : l.sight? s.scene.position d with
  | none =>
    obtain ⟨r, -, hstep⟩ : ∃ r, _ ∧ step perform d s = (.value false, note r s) :=
      h.step_unseen hd
    rw [hstep]
    exact .of_same rfl rfl fun _ => rfl
  | some seen =>
    cases seen with
    | bumped m =>
      rw [h.step_bumped hd]
      have hbumped : Spends s (note (.bumped m.target) s) := .of_same rfl rfl fun _ => rfl
      have htold : Spends s (recordAll (s.scene.wallObservers.map fun c => .bumped c.tag m)
          (note (.bumped m.target) s)) :=
        hbumped.trans (.recordAll (by simp [Event.passage?]) _)
      exact htold.trans (.of_same rfl rfl fun _ => rfl)
    | moved m =>
      rw [h.step_moved hw hd]
      exact (spends_passed early late m s).trans (.of_same rfl rfl fun _ => rfl)

/-- Whatever happens while everybody waits spends at most the program in the slot. -/
theorem paced_spends (hperform : perform.Orderly) :
    Paced perform fun s t =>
      Plain l s ∧ OnePlayer s → (Plain l t ∧ OnePlayer t) ∧ Spends s t where
  refl s h := ⟨h, .refl s⟩
  trans h h' hs := ⟨(h' (h hs).1).1, (h hs).2.trans (h' (h hs).1).2⟩
  skipped s _ _ h := ⟨⟨h.1.congr rfl rfl, h.2.congr rfl rfl⟩, .of_same rfl rfl fun _ => rfl⟩
  stoppedAfter s _ _ h := ⟨⟨h.1.congr rfl rfl, h.2.congr rfl rfl⟩, .of_same rfl rfl fun _ => rfl⟩
  act {s p q} index {a} hq ha h := by
    obtain ⟨d, rfl⟩ := h.1.commands p q hq a (by simpa using ha)
    rw [act_command]
    have hd : Deed perform Call.IsPlain s (step perform d s).2 := .step s d
    exact ⟨⟨hd.plain hperform h.1, hd.onePlayer hperform h.2⟩, h.1.spends_step d⟩
  finish s p h := by
    have hd : Deed perform Call.IsPlain s (finishProgram perform p s).2 := .finish s p
    refine ⟨⟨hd.plain hperform h.1, hd.onePlayer hperform h.2⟩, ?_⟩
    rw [h.1.finishProgram_eq]
    exact .finished h.2 p
  task s k state h := ⟨⟨h.1.congr rfl rfl, h.2.congr rfl rfl⟩, .of_same rfl rfl fun _ => rfl⟩
  clock s time h := ⟨⟨h.1.congr rfl rfl, h.2.congr rfl rfl⟩, .of_same rfl rfl fun _ => rfl⟩
  joined s k h := ⟨⟨h.1.congr rfl rfl, h.2.congr rfl rfl⟩, .of_same rfl rfl fun _ => rfl⟩
  receivers s rs h := ⟨⟨h.1.congr rfl rfl, h.2.congr rfl rfl⟩, .of_same rfl rfl fun _ => rfl⟩

end Level

section Accepted

/-- The program that a scene makes of a text, as it accepts it. -/
def newcomer (source : String) (s : Session) : Program :=
  (Program.ofSource source s.scene.delay s.scene.statusObservers).claimed

variable {source : String}

theorem getElem?_accepted (s : Session) (source : String) (p : ProgramId) :
    (s.accepted source).programs[p]? =
      if p = s.programs.size then some (s.newcomer source) else s.programs[p]? :=
  Array.getElem?_push

/-- A program is accepted running, unless there is nothing to play. -/
theorem newcomer_eq (source : String) (s : Session) : s.newcomer source =
    if compile source = [] then Program.ofSource source s.scene.delay s.scene.statusObservers
    else (Program.ofSource source s.scene.delay s.scene.statusObservers).become .running := by
  unfold newcomer Program.claimed
  simp only [isEmpty_ofSource]

theorem changes_newcomer (source : String) (s : Session) : (s.newcomer source).changes =
    if compile source = [] then [] else [(.running, .stopped)] := by
  rw [newcomer_eq]
  split <;> rfl

theorem entries_accepted (source : String) (s : Session) :
    (s.accepted source).entries = s.entries ++ [(source, s.scene.statusObservers)] := by
  have hnewcomer : ((s.newcomer source).source, (s.newcomer source).observers) =
      (source, s.scene.statusObservers) := by
    rw [newcomer_eq]
    split <;> rfl
  rw [← hnewcomer]
  simp [entries, Session.accepted, newcomer]

theorem changes_accepted (source : String) (s : Session) (p : ProgramId) :
    (s.accepted source).changes p =
      s.changes p ++ if p = s.programs.size then (s.newcomer source).changes else [] := by
  unfold Session.changes
  rw [getElem?_accepted]
  split
  · rename_i hp
    simp [hp]
  · simp

/-- A text without any step is accepted without a passage. -/
theorem passes_accepted_empty (hsource : compile source = []) (s : Session) :
    Passes [(source, s.scene.statusObservers)] [] s (s.accepted source) where
  entries := entries_accepted source s
  changes p := by
    rw [changes_accepted, changes_newcomer, if_pos hsource, ite_self]
    rfl
  told tag := by
    simp only [retold, List.flatMap_nil, List.append_nil]
    rfl
  known := nofun

/-- A text with a step is accepted with a passage, which is announced to the observers that the
scene has. -/
theorem passes_accepted (hsource : compile source ≠ []) (s : Session) (n : Nat) :
    Passes [(source, s.scene.statusObservers)] [⟨s.programs.size, .running, .stopped⟩] s
      (launched s.programs.size (note (.playing n) (s.accepted source))) := by
  have hchanges : (s.newcomer source).changes = [(.running, .stopped)] := by
    rw [changes_newcomer, if_neg hsource]
  have hnew : (note (.playing n) (s.accepted source)).programs[s.programs.size]? =
      some (s.newcomer source) := by
    rw [programs_note, getElem?_accepted, if_pos rfl]
  have hrun : (note (.playing n) (s.accepted source)).isRunning s.programs.size = true := by
    rw [isRunning_iff, status?_of_program hnew, newcomer_eq, if_neg hsource]
    rfl
  have hprograms : (launched s.programs.size (note (.playing n) (s.accepted source))).programs =
      (s.accepted source).programs := by
    unfold launched
    rw [if_pos hrun]
    exact programs_announced _ _ _ _
  refine ⟨?_, fun p => ?_, fun tag => ?_, ?_⟩
  · rw [← entries_accepted]
    simp only [entries, hprograms]
  · have hsame := changes_accepted source s p
    simp only [Session.changes, hprograms] at hsame ⊢
    rw [hsame, hchanges]
    by_cases hp : p = s.programs.size
    · simp [hp]
    · simp [hp, Ne.symm hp]
  · have htold := toldTo_announced hnew .running .stopped tag
    have hlaunched : (launched s.programs.size (note (.playing n) (s.accepted source))).toldTo tag =
        (announced s.programs.size .running .stopped
          (note (.playing n) (s.accepted source))).toldTo tag := by
      unfold launched
      rw [if_pos hrun]
      rfl
    have haudience : (launched s.programs.size
        (note (.playing n) (s.accepted source))).audience tag s.programs.size =
          (s.newcomer source).audience tag := by
      rw [← audience_of_program hnew]
      simp only [Session.audience, hprograms, programs_note]
    rw [hlaunched, htold]
    simp only [retold, List.flatMap_cons, List.flatMap_nil, List.append_nil, haudience]
    rfl
  · intro x hx
    cases List.mem_singleton.mp hx
    rw [hprograms]
    simp [Session.accepted]

/-- A scene that plays nothing accepts a text with at most one passage. -/
theorem Quiet.passes_play {perform : Perform} (h : Quiet s) (hidle : s.isPlaying = false)
    (source : String) :
    ∃ xs, xs.length ≤ 1 ∧ Passes [(source, s.scene.statusObservers)] xs s
      (play perform true source s).2 := by
  have hnoted : Passes [] [] s (noteAll (compileRemarks source) s) := by
    rw [noteAll_eq]
    exact .of_same rfl fun _ => rfl
  have hsize : (noteAll (compileRemarks source) s).programs.size = s.programs.size := by
    rw [noteAll_eq]
  have hscene : (noteAll (compileRemarks source) s).scene = s.scene := by
    rw [noteAll_eq]
  rw [h.play_idle_eq source hidle]
  by_cases hsource : compile source = []
  · simp only [if_pos hsource]
    have haccepted := passes_accepted_empty hsource (noteAll (compileRemarks source) s)
    rw [hscene] at haccepted
    exact ⟨[], Nat.zero_le 1, (hnoted.trans haccepted).trans (.of_same rfl fun _ => rfl)⟩
  · simp only [if_neg hsource]
    have haccepted := passes_accepted hsource (noteAll (compileRemarks source) s)
      (compile source).length
    rw [hsize, hscene] at haccepted
    exact ⟨[⟨s.programs.size, .running, .stopped⟩], Nat.le_refl 1, hnoted.trans haccepted⟩

end Accepted

end Session

end GridPuzzle
