import SteeredActors.Proofs.Fates
import SteeredActors.Proofs.World.Reached

/-!
# What tasks do to mailboxes

A mailbox changes in few ways only: an envelope is posted, the actor starts, selects, or is drained.
Which of them happens can be read off the task that is done. A drained actor does no work of its own
any more, so nothing is selected from its mailbox again.
-/

set_option autoImplicit false
set_option relaxedAutoImplicit false

namespace SteeredActors

variable {σ : Type}

namespace World

/-- Whatever becomes of stacks, mailboxes do not depend on it. -/
private abbrev Anyone : Subject → Prop := fun _ => True

/-! ## Traffic -/

/-- An envelope, if the mailbox of an actor accepts it. -/
def admitted? (w : World σ) (i : Nat) (envelope : Envelope) : Option Envelope :=
  match w.actors[i]? with
  | some a =>
    match (a.mailbox.enqueue envelope).1 with
    | .dropped => none
    | .queued | .woke => some envelope
  | none => none

/-- The envelope that a task adds to the mailbox of an actor. -/
def arrival? (w : World σ) (i : Nat) : Task → Option Envelope
  | .post j event => if j = i then w.admitted? i ⟨event, none⟩ else none
  | .engage j event => if j = i then w.admitted? i ⟨event, some w.rendezvous.length⟩ else none
  | _ => none

/-- What an actor selects from its mailbox by a task, with what is discarded. -/
def selection? (w : World σ) (i : Nat) : Task → Option (Selected × List Envelope)
  | .cycle j =>
    if j = i ∧ w.isOver = false then
      w.actors[i]?.bind fun a =>
        if a.core.halted || a.core.raised.isSome then none
        else a.core.stack.head?.map fun top =>
          let (selected, discarded, _) := a.mailbox.dequeue (top.verdict w.policy) top.hasDefault
          (selected, discarded)
    else none
  | _ => none

/-- What is dropped when the mailbox of an actor is closed on the way to another world. -/
def drained (w w' : World σ) (i : Nat) : List Envelope :=
  if (w.mailbox i).status ≠ .halted ∧ (w'.mailbox i).status = .halted then (w.mailbox i).queue
  else []

/-- What goes in and out of the mailbox of an actor when a task leads to another world. -/
def traffic (w w' : World σ) (i : Nat) (x : Task) : Traffic where
  accepted := (w.arrival? i x).toList
  discarded := ((w.selection? i x).map (·.2)).getD []
  dispatched := ((w.selection? i x).bind (·.1.envelope?)).toList
  drained := w.drained w' i

/-! ## Mailboxes -/

variable [Strategy σ] {w : World σ}

omit [Strategy σ] in
theorem mailbox_of_getElem? {i : Nat} {a : Actor} (found : w.actors[i]? = some a) :
    w.mailbox i = a.mailbox := by
  simp [mailbox, found]

omit [Strategy σ] in
theorem mailbox_modifyActor (w : World σ) (i j : Nat) (f : Actor → Actor) :
    (w.modifyActor i f).mailbox j =
      if i = j then ((w.actors[j]?.map f).map (·.mailbox)).getD {} else w.mailbox j := by
  simp only [mailbox, modifyActor, List.getElem?_modify]
  split <;> simp_all

theorem mailbox_enqueue (w : World σ) (i j : Nat) (envelope : Envelope) :
    (w.enqueue i envelope).mailbox j =
      if i = j ∧ j < w.actors.length then ((w.mailbox j).enqueue envelope).2 else w.mailbox j := by
  unfold enqueue
  cases found : w.actors[i]? with
  | none =>
    have absent := List.getElem?_eq_none_iff.1 found
    rw [if_neg (by omega)]
  | some a =>
    obtain ⟨there, rfl⟩ := List.getElem?_eq_some_iff.1 found
    have delivered : (w.modifyActor i fun a =>
        { a with mailbox := (w.actors[i].mailbox.enqueue envelope).2 }).mailbox j =
        if i = j ∧ j < w.actors.length then ((w.mailbox j).enqueue envelope).2
        else w.mailbox j := by
      rw [mailbox_modifyActor]
      by_cases same : i = j
      · subst same
        simp [there, mailbox]
      · simp [same]
    simp only
    rw [← delivered]
    split
    · exact (Works.discard (S := Anyone) _ _).mailbox j
    · rfl
    · exact (Works.of_controller (S := Anyone) _ (.setStatus _ _ _ _)).mailbox j

theorem mailbox_abandon (w : World σ) (i j : Nat) :
    (w.abandon i).mailbox j =
      if i = j ∧ j < w.actors.length then (w.mailbox j).halt.2 else w.mailbox j := by
  cases found : w.actors[i]? with
  | none =>
    have absent := List.getElem?_eq_none_iff.1 found
    rw [abandon_of_none found, if_neg (by omega)]
  | some a =>
    rw [abandon_eq found, (Works.replyAll (S := Anyone) _ _ _).mailbox, mailbox_modifyActor]
    obtain ⟨there, rfl⟩ := List.getElem?_eq_some_iff.1 found
    by_cases same : i = j
    · subst same
      simp [there, Mailbox.halt, Actor.emptied]
    · simp [same]

/-- An actor that halts closes its mailbox. -/
theorem mailbox_halt {i : Nat} {core : Core} (found : w.core? (.actor i) = some core)
    (awake : core.halted = false) (j : Nat) :
    (w.halt (.actor i)).mailbox j = (if i = j then (w.mailbox j).halt.2 else w.mailbox j) ∧
      ∃ core', (w.halt (.actor i)).core? (.actor i) = some core' ∧ core'.halted = true := by
  obtain ⟨a, there, rfl⟩ := Option.map_eq_some_iff.1 found
  rw [halt_eq there awake]
  have works := (Works.replyAll (S := Anyone) (w.modifyActor i Actor.stopped) a.owed false).trans
    (.observe _ (.destroyed a.core.id))
  refine ⟨?_, ?_⟩
  · rw [works.mailbox, mailbox_modifyActor]
    by_cases same : i = j
    · subst same
      simp [there, Mailbox.halt, Actor.stopped, Actor.emptied]
    · simp [same]
  · obtain ⟨core', found', becomes⟩ := works.cores (.actor i) a.stopped.core
      (by simp [core?, modifyActor, there])
    exact ⟨core', found', becomes.halted rfl⟩

/-- What doing a task comes to for the mailbox of an actor. -/
inductive Deals (w : World σ) (i : Nat) (x : Task) : Move σ → Prop where
  | waits : Deals w i x .wait
  | answers {a : Answer} {w₁ : World σ} (same : w₁.mailbox i = w.mailbox i)
      (unopened : w.arrival? i x = none) (unselected : w.selection? i x = none) :
      Deals w i x (.answer a w₁)
  | rests {tasks : List Task} {w₁ : World σ} (queue : (w₁.mailbox i).queue = (w.mailbox i).queue)
      (status : (w₁.mailbox i).status = .halted ↔ (w.mailbox i).status = .halted)
      (unopened : w.arrival? i x = none) (unselected : w.selection? i x = none) :
      Deals w i x (.go tasks w₁)
  | receives {w₁ : World σ} {tasks : List Task} {envelope : Envelope}
      (accepted : w.arrival? i x = some envelope) (unselected : w.selection? i x = none)
      (alive : (w.mailbox i).status ≠ .halted)
      (mailbox : w₁.mailbox i = ((w.mailbox i).enqueue envelope).2) :
      Deals w i x (.go tasks w₁)
  | selects {w₁ : World σ} {tasks : List Task} {verdict : EventType → Verdict}
      {hasDefault : Bool} {selected : Selected} {discarded : List Envelope}
      (unopened : w.arrival? i x = none) (chosen : w.selection? i x = some (selected, discarded))
      (own : x = .cycle i) (awake : ∀ core, w.core? (.actor i) = some core → core.halted = false)
      (found : (w.mailbox i).dequeue verdict hasDefault = (selected, discarded, w₁.mailbox i))
      (hands : ∀ envelope, selected = .event envelope →
        tasks.head? = some (.handle (.actor i) envelope.event envelope.rendezvous)) :
      Deals w i x (.go tasks w₁)
  | closes {w₁ : World σ} {tasks : List Task} (mailbox : w₁.mailbox i = (w.mailbox i).halt.2)
      (unopened : w.arrival? i x = none) (unselected : w.selection? i x = none)
      (spent : (∃ core, w₁.core? (.actor i) = some core ∧ core.halted = true) ∨
        x.worker? = some i ∧ tasks = []) :
      Deals w i x (.go tasks w₁)

omit [Strategy σ] in
theorem Deals.of_same {x : Task} {i : Nat} {m : Move σ}
    (same : m.All fun w₁ => w₁.mailbox i = w.mailbox i) (unopened : w.arrival? i x = none)
    (unselected : w.selection? i x = none) : w.Deals i x m := by
  cases m with
  | wait => exact .waits
  | go tasks w₁ => exact .rests (by rw [same]) (by rw [same]) unopened unselected
  | answer a w₁ => exact .answers same unopened unselected

omit [Strategy σ] in
private theorem quiet_of_trader {x : Task} {i : Nat} (apart : x.trader? ≠ some i) :
    w.arrival? i x = none ∧ w.selection? i x = none := by
  cases x <;> simp_all [arrival?, selection?, Task.trader?]

private theorem deals_enqueue {w₁ : World σ} {x : Task} {tasks : List Task} {i j : Nat}
    {envelope : Envelope} (mailbox : w₁.mailbox i = w.mailbox i)
    (actors : w₁.actors = w.actors)
    (arrival : w.arrival? i x = if j = i then w.admitted? i envelope else none)
    (unselected : w.selection? i x = none) :
    w.Deals i x (.go tasks (w₁.enqueue j envelope)) := by
  have after := mailbox_enqueue w₁ j i envelope
  rw [actors, mailbox] at after
  by_cases same : j = i
  · subst same
    rw [if_pos rfl, admitted?] at arrival
    cases found : w.actors[j]? with
    | none =>
      have absent := List.getElem?_eq_none_iff.1 found
      rw [if_neg (by omega)] at after
      exact .rests (by rw [after]) (by rw [after]) (by rw [arrival, found]) unselected
    | some a =>
      have there := (List.getElem?_eq_some_iff.1 found).1
      rw [if_pos ⟨rfl, there⟩] at after
      have own := mailbox_of_getElem? found
      simp only [found] at arrival
      by_cases halted : a.mailbox.status = .halted
      · have refused : a.mailbox.enqueue envelope = (.dropped, a.mailbox) := by
          simp [Mailbox.enqueue, halted]
        rw [own, refused] at after
        exact .rests (by rw [after, own]) (by rw [after, own]) (by rw [arrival, refused]) unselected
      · refine .receives ?_ unselected (by rwa [own]) after
        rw [arrival]
        unfold Mailbox.enqueue
        cases status : a.mailbox.status <;> simp_all
  · rw [if_neg (by simp [same])] at after
    exact .rests (by rw [after]) (by rw [after]) (by rw [arrival, if_neg same]) unselected

omit [Strategy σ] in
private theorem deals_withActor {x : Task} {i j : Nat} {f : Actor → Move σ}
    (none : w.actors[j]? = none → w.arrival? i x = none ∧ w.selection? i x = none)
    (h : ∀ a, w.actors[j]? = some a → w.Deals i x (f a)) : w.Deals i x (w.withActor j f) := by
  unfold withActor
  cases found : w.actors[j]? with
  | none => exact .rests rfl .rfl (none found).1 (none found).2
  | some a => exact h a found

private theorem deals_abandon {x : Task} {i j : Nat} (own : x.worker? = some j)
    (quiet : w.arrival? i x = none ∧ w.selection? i x = none) :
    w.Deals i x (.go [] (w.abandon j)) := by
  have after := mailbox_abandon w j i
  by_cases mine : j = i ∧ i < w.actors.length
  · rw [if_pos mine] at after
    exact .closes after quiet.1 quiet.2 (.inr ⟨mine.1 ▸ own, rfl⟩)
  · rw [if_neg mine] at after
    exact .rests (by rw [after]) (by rw [after]) quiet.1 quiet.2

private theorem deals_passage {x : Task} {i j : Nat} (own : x.worker? = some j)
    (quiet : w.arrival? i x = none ∧ w.selection? i x = none) (p : Passage) :
    Deals w i x (match p with
      | .passed => .go [.wake j] w
      | .waits => .wait
      | .canceled => .go [] (w.abandon j)) := by
  cases p with
  | passed => exact .rests rfl .rfl quiet.1 quiet.2
  | waits => exact .waits
  | canceled => exact deals_abandon own quiet

private theorem deals_wake (i j : Nat) : w.Deals i (.wake j) (w.wakeActor j) := by
  refine deals_withActor (fun _ => ⟨rfl, rfl⟩) fun a found => ?_
  split
  · exact .rests rfl .rfl rfl rfl
  · have started : ∀ f : Actor → Actor, (∀ a', (f a').mailbox = a.mailbox.start.2) →
        ((w.modifyActor j f).mailbox i).queue = (w.mailbox i).queue ∧
          (((w.modifyActor j f).mailbox i).status = .halted ↔ (w.mailbox i).status = .halted) := by
      intro f starts
      rw [mailbox_modifyActor]
      by_cases same : j = i
      · subst same
        simp only [if_true, found, Option.map_some, Option.getD_some, starts,
          mailbox_of_getElem? found, Mailbox.start]
        cases status : a.mailbox.status <;> simp [status]
      · simp [same]
    simp only
    split
    · obtain ⟨queue, status⟩ :=
        started (fun a' => { a' with mailbox := a.mailbox.start.2 }) fun _ => rfl
      -- the actor's slots are emptied as well, but not its mailbox
      have kept := fun (w₁ : World σ) => (Works.modifyActor (S := Anyone) w₁ j (f := fun a =>
          { a with
            pending := a.pending ++ a.creationRendezvous.toList.map (·, true)
            creationRendezvous := none
            creationEvent := none })
        (fun a _ => .refl a.core) (fun _ => rfl) fun _ => rfl).mailbox i
      exact .rests (by rw [kept, queue]) (by rw [kept, status]) rfl rfl
    · obtain ⟨queue, status⟩ :=
        started (fun a' => { a' with mailbox := a.mailbox.start.2 }) fun _ => rfl
      exact .rests queue status rfl rfl

private theorem mailbox_comeToRest (w : World σ) (j : Nat) (a : Actor) (i : Nat) :
    ((a.pending.foldl (fun w (r, handled) => w.reply r handled) w).modifyActor j fun a =>
      { a with pending := [] }).mailbox i = w.mailbox i := (works_rested (S := Anyone) j a).mailbox i

omit [Strategy σ] in
private theorem mailbox_emptied {j : Nat} {a : Actor} (found : w.actors[j]? = some a)
    (mailbox : Mailbox) (i : Nat) :
    (w.modifyActor j fun a => { a with mailbox }).mailbox i =
      if j = i then mailbox else w.mailbox i := by
  rw [mailbox_modifyActor]
  by_cases same : j = i
  · subst same
    simp [found]
  · simp [same]

/-- A selection is what the scan of the mailbox finds. -/
private theorem deals_selectEvent {i j : Nat} {a : Actor} (found : w.actors[j]? = some a)
    (finished : w.isOver = false) (awake : a.core.halted = false) (free : a.core.raised = none) :
    w.Deals i (.cycle j) (w.selectEvent j a) := by
  have own := mailbox_of_getElem? found
  unfold selectEvent
  split
  · next empty =>
    have unselected : w.selection? i (.cycle j) = none := by
      simp only [selection?]
      split
      · next same => simp [← same.1, found, empty]
      · rfl
    exact .rests (by rw [mailbox_comeToRest]) (by rw [mailbox_comeToRest]) rfl unselected
  · next top below stack =>
    cases dequeued : a.mailbox.dequeue (top.verdict w.policy) top.hasDefault with
    | mk selected rest =>
      obtain ⟨discarded, mailbox⟩ := rest
      have alert : ∀ core, w.core? (.actor j) = some core → core.halted = false := by
        intro core there
        simp only [core?, found, Option.map_some, Option.some.injEq] at there
        exact there ▸ awake
      -- whatever else is done changes no mailbox
      have dealt : ∀ tasks w₁, (w.modifyActor j fun a => { a with mailbox }).Works Anyone w₁ →
          (∀ envelope, selected = .event envelope →
            tasks.head? = some (.handle (.actor j) envelope.event envelope.rendezvous)) →
          w.Deals i (.cycle j) (.go tasks w₁) := by
        intro tasks w₁ works hands
        have after := (works.mailbox i).trans (mailbox_emptied found mailbox i)
        by_cases same : j = i
        · subst same
          rw [if_pos rfl] at after
          have chosen : w.selection? j (.cycle j) = some (selected, discarded) := by
            simp [selection?, finished, found, awake, free, stack, dequeued]
          exact .selects rfl chosen rfl alert (by rw [own, after]; exact dequeued) hands
        · rw [if_neg same] at after
          exact .rests (by rw [after]) (by rw [after]) rfl (by simp [selection?, same])
      cases selected with
      | event envelope => exact dealt _ _ (Works.discard _ _) fun _ same => by cases same; rfl
      | default => exact dealt _ _ (Works.discard _ _) (by rintro _ ⟨⟩)
      | idle =>
        exact dealt _ _ (((Works.of_controller _ (.setStatus _ _ _ _)).trans
          (Works.discard _ _)).trans
          (works_rested j a)) (by rintro _ ⟨⟩)

private theorem deals_cycle (i j : Nat) : w.Deals i (.cycle j) (w.cycleActor j) := by
  unfold cycleActor
  by_cases finished : w.isOver = true
  · rw [if_pos finished]
    exact .answers rfl rfl (by simp [selection?, finished])
  · rw [if_neg finished]
    refine deals_withActor (fun absent => ⟨rfl, ?_⟩) fun a found => ?_
    · simp only [selection?]
      split
      · next same => simp [← same.1, absent]
      · rfl
    · have unselected : a.core.halted = true ∨ a.core.raised.isSome = true →
          w.selection? i (.cycle j) = none := by
        intro busy
        simp only [selection?]
        split
        · next same =>
          rcases busy with busy | busy <;> simp [← same.1, found, busy]
        · rfl
      split
      · next halted => exact .rests rfl .rfl rfl (unselected (.inl halted))
      · next awake =>
        unfold obey
        split
        · next free =>
          exact deals_selectEvent found (by simpa using finished) (by simpa using awake) free
        · next d raised =>
          have kept := (works_obeyed (S := Anyone) (w := w) (.actor j)).mailbox i
          exact .rests (by rw [kept]) (by rw [kept]) rfl (unselected (.inr (by simp [raised])))

omit [Strategy σ] in
private theorem mailbox_setStack (w : World σ) (c : Subject) (stack : List ActiveState) (i : Nat) :
    (w.setStack c stack).mailbox i = w.mailbox i := by
  cases c with
  | monitor m => rfl
  | actor j =>
    rw [setStack, modifyCore, mailbox_modifyActor]
    by_cases same : j = i
    · subst same
      cases found : w.actors[j]? <;> simp [mailbox, found]
    · simp [same]

private theorem deals_handle (i j : Nat) (event : Event) (r : Option Nat) :
    w.Deals i (.handle (.actor j) event r) (w.handle (.actor j) event r) := by
  have kept := fun stack => w.mailbox_setStack (.actor j) stack i
  have rests : ∀ tasks stack, w.Deals i (.handle (.actor j) event r)
      (.go tasks (w.setStack (.actor j) stack)) := fun tasks stack =>
    .rests (by rw [kept]) (by rw [kept]) rfl rfl
  unfold handle withCore
  split
  · next core found =>
    beta_reduce
    generalize resolveEvent event.type core.stack = resolution
    cases resolution with
    | ignored stack => exact rests _ stack
    | bound binding stack => exact rests _ stack
    | exhausted =>
      simp only
      split
      · have there := core?_setStack found []
        by_cases awake : core.halted = true
        · have same : (w.setStack (.actor j) []).halt (.actor j) = w.setStack (.actor j) [] := by
            simp [halt, there, awake]
          rw [same]
          exact rests _ []
        · obtain ⟨mailbox, halted⟩ := mailbox_halt there (by simpa using awake) i
          rw [kept] at mailbox
          by_cases same : j = i
          · subst same
            rw [if_pos rfl] at mailbox
            exact .closes mailbox rfl rfl (.inl halted)
          · rw [if_neg same] at mailbox
            exact .rests (by rw [mailbox]) (by rw [mailbox]) rfl rfl
      · exact .answers
          (((Works.report (S := Anyone) (w.setStack (.actor j) []) _).mailbox i).trans (kept []))
          rfl rfl
  · exact .rests rfl .rfl rfl rfl

/-- Every task deals with mailboxes in one of these ways. -/
theorem deals_exec (fit : w.Fit) (t : ThreadId) {x : Task} (founded : x.Founded w)
    (i : Nat) : w.Deals i x (w.exec t x) := by
  cases trades : x.trader? with
  | none =>
    obtain ⟨unopened, unselected⟩ := quiet_of_trader (w := w) (i := i) (x := x) (by simp [trades])
    refine .of_same ?_ unopened unselected
    have works := works_exec fit t founded trades fun _ => id
    cases executed : w.exec t x with
    | wait => trivial
    | go tasks w₁ =>
      rw [executed] at works
      exact works.1.mailbox i
    | answer a w₁ =>
      rw [executed] at works
      exact works.mailbox i
  | some j =>
    cases x
    case firstTurn =>
      exact deals_withActor (fun _ => ⟨rfl, rfl⟩) fun a _ => deals_passage rfl ⟨rfl, rfl⟩ _
    case rest =>
      exact deals_withActor (fun _ => ⟨rfl, rfl⟩) fun a _ => deals_passage rfl ⟨rfl, rfl⟩ _
    case wake => exact deals_wake i _
    case cycle => exact deals_cycle i _
    case post => exact deals_enqueue rfl rfl rfl rfl
    case engage j event =>
      have opened := (Works.openRendezvous (S := Anyone) w (w.caller? t)).trans
        (.blockCaller _ (w.caller? t))
      exact deals_enqueue (opened.mailbox i) (actors_blockCaller _ _) rfl rfl
    case handle c event r =>
      cases c with
      | monitor m => cases trades
      | actor k => exact deals_handle i k event r
    all_goals cases trades

end World

end SteeredActors
