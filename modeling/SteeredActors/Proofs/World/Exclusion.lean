import SteeredActors.Proofs.World.Registrations
import SteeredActors.Proofs.World.Yields

/-!
# One event at a time

A monitor that was handed an event is in the hand of one thread until the delivery is over, and a new
monitor is in the hand of the thread that registers it. Whoever brings another event waits. So what a
monitor does for one event is never mixed with what it does for another one.
-/

set_option autoImplicit false
set_option relaxedAutoImplicit false

namespace SteeredActors

variable {σ : Type}

namespace Task

/-- The monitor that this takes out of the hand of a thread. -/
def frees? : Task → Option Nat
  | .release m | .enlist m => some m
  | _ => none

/-- A monitor is in hand until this is done, or will be when it is. -/
def minds : Task → Bool
  | .deliver _ _ | .release _ | .enlist _ => true
  | _ => false

theorem minds_of_frees? {x : Task} {m : Nat} (frees : x.frees? = some m) : x.minds = true := by
  cases x <;> first | rfl | cases frees

theorem not_minds_of_interprets {x : Task} (interprets : x.interprets = true) :
    x.minds = false := by
  cases x <;> first | rfl | cases interprets

theorem not_minds_of_serves {x : Task} (serves : x.serves = true) : x.minds = false := by
  cases x <;> first | rfl | cases serves

end Task

/-- The monitors in the hand of a thread. -/
def inHand (tasks : List Task) : List Nat := tasks.filterMap (·.frees?)

theorem inHand_append (xs ys : List Task) : inHand (xs ++ ys) = inHand xs ++ inHand ys :=
  List.filterMap_append

theorem inHand_of_none {xs : List Task} (none : ∀ x ∈ xs, x.frees? = none) : inHand xs = [] :=
  List.filterMap_eq_nil_iff.2 none

namespace World

variable {w w' : World σ} {t u : ThreadId} {x y : Task} {rest tasks xs : List Task} {m : Nat}

/-- A monitor has an event in hand or starts. -/
def Taken (w : World σ) (m : Nat) : Prop := w.busied[m]? = some true ∨ w.Starting m

/-- A monitor is registered. -/
def Listed (w : World σ) (m : Nat) : Prop := ∃ observed, w.standing[m]? = some (.listed, observed)

theorem Listed.not_starting (listed : w.Listed m) : ¬w.Starting m := by
  rintro ⟨_, starts⟩
  obtain ⟨_, lists⟩ := listed
  cases lists.symm.trans starts

theorem length_busied (w : World σ) : w.busied.length = w.standing.length := by
  simp [busied, standing]

theorem Taken.lt (taken : w.Taken m) : m < w.standing.length := by
  rcases taken with busy | ⟨_, starts⟩
  · exact w.length_busied ▸ (List.getElem?_eq_some_iff.1 busy).1
  · exact (List.getElem?_eq_some_iff.1 starts).1

theorem listed_of_observers {type : EventType} (mem : m ∈ w.observers type) : w.Listed m := by
  obtain ⟨observed, lists, _⟩ := mem_observers.1 mem
  exact ⟨observed, lists⟩

theorem listed_of_monitor? {typeTag : String} (found : w.monitor? typeTag = some m) :
    w.Listed m := by
  obtain ⟨lt, listed, _⟩ := List.findIdx?_eq_some_iff_getElem.1 found
  rw [Bool.and_eq_true, beq_iff_eq] at listed
  refine ⟨w.monitors[m].subscriptions, ?_⟩
  rw [standing, List.getElem?_map, List.getElem?_eq_getElem lt, ← listed.1]
  rfl

/-! ## Tasks -/

/-- Only monitors that are registered are handed events, and only to hand one an event or to install
it takes it in hand. -/
theorem Yields.of_minds (yields : w.Yields x xs) (mem : y ∈ xs) (minds : y.minds = true) :
    (∃ m event, y = .deliver m event ∧ w.Listed m) ∨
      (∃ m event, y = .release m ∧ x = .deliver m event) ∨
      ∃ m d id, y = .enlist m ∧ x = .install d id := by
  have absurd_of {p : Prop} {z : Task} (careless : z.minds = false) (same : y = z) : p := by
    subst same
    cases careless.symm.trans minds
  have plain {p : Prop} {l : List Task} (each : ∀ z ∈ l, z.interprets = true) (mem : y ∈ l) : p :=
    absurd_of (Task.not_minds_of_interprets (each y mem)) rfl
  have careless {p : Prop} {l : List Task} (each : ∀ z ∈ l, z.minds = false) (mem : y ∈ l) : p :=
    absurd_of (each y mem) rfl
  cases yields with
  | forwards event =>
    obtain ⟨m, seen, rfl⟩ := List.mem_map.1 mem
    exact .inl ⟨m, event, rfl, listed_of_observers seen⟩
  | notifies typeTag event m found =>
    obtain rfl := List.mem_singleton.1 mem
    exact .inl ⟨m, event, rfl, listed_of_monitor? found⟩
  | delivers m event =>
    simp only [List.mem_cons, List.not_mem_nil, or_false] at mem
    rcases mem with rfl | rfl | rfl | rfl
    · cases minds
    · cases minds
    · cases minds
    · exact .inr (.inl ⟨m, event, rfl, rfl⟩)
  | installs d id m =>
    simp only [List.mem_cons, List.not_mem_nil, or_false] at mem
    rcases mem with rfl | rfl | rfl | rfl
    · cases minds
    · cases minds
    · cases minds
    · exact .inr (.inr ⟨m, d, id, rfl, rfl⟩)
  | @obeys _ c core d own =>
    rcases List.mem_append.1 mem with mem | mem
    · exact plain (interprets_obedience c core d) mem
    · refine absurd_of ?_ (List.mem_singleton.1 mem)
      rcases own with ⟨_, _, rfl, _⟩ | ⟨_, _, rfl⟩ <;> rfl
  | enters own entry => exact plain (interprets_invocation _ _ _ entry) mem
  | settles c event r => exact plain (interprets_settlement c r false) mem
  | consumes c event r core binding =>
    rcases List.mem_append.1 mem with mem | mem
    · exact plain (interprets_consumption c core event binding) mem
    · exact plain (interprets_settlement c r true) mem
  | pops c core =>
    rcases List.mem_append.1 mem with mem | mem
    · exact plain (interprets_leaving c none core) mem
    · exact absurd_of rfl (List.mem_singleton.1 mem)
  | asks speaker voice request next outside shared each =>
    rcases List.mem_append.1 mem with mem | mem
    · exact absurd_of (Task.not_minds_of_serves (each y mem)) rfl
    · exact absurd_of rfl (List.mem_singleton.1 mem)
  | nothing => cases mem
  | _ => exact careless (by simp [Task.minds]) mem

/-! ## Steps -/

/-- A change of one monitor concerns no other one. -/
theorem taken_modifyMonitor (w : World σ) {k : Nat} (other : m ≠ k) (f : Monitor → Monitor) :
    (w.modifyMonitor k f).Taken m ↔ w.Taken m := by
  simp only [Taken, Starting, busied, standing, modifyMonitor, List.getElem?_map,
    List.getElem?_modify_ne _ _ (Ne.symm other)]

/-- A monitor that does not get an event in hand has none unless it had one. -/
theorem busied_modifyMonitor (w : World σ) {k : Nat} {f : Monitor → Monitor}
    (rests : ∀ a, (f a).busy = true → a.busy = true)
    (busy : (w.modifyMonitor k f).busied[m]? = some true) : w.busied[m]? = some true := by
  simp only [busied, modifyMonitor, List.getElem?_map, List.getElem?_modify] at busy ⊢
  cases found : w.monitors[m]? with
  | none => simp [found] at busy
  | some a =>
    simp only [found, Option.map_some] at busy ⊢
    split at busy
    · exact congrArg some (rests a (Option.some.inj busy))
    · exact busy

theorem busied_take (w : World σ) (m : Nat) :
    (w.modifyMonitor m fun monitor => { monitor with busy := true }).busied =
      w.busied.set m true := by
  refine List.ext_getElem? fun k => ?_
  simp only [busied, modifyMonitor, List.getElem?_map, List.getElem?_modify, List.getElem?_set,
    List.length_map]
  by_cases same : m = k
  · subst same
    cases found : w.monitors[m]? with
    | none => simp [List.getElem?_eq_none_iff.1 found]
    | some a => simp [(List.getElem?_eq_some_iff.1 found).1]
  · cases w.monitors[k]? <;> simp [same]

/-- Some monitors are out of hand in another world, and no monitor has got another event. -/
structure Returns (w w' : World σ) (gone : List Nat) : Prop where
  kept : ∀ m ∉ gone, w.Taken m → w'.Taken m
  busy : ∀ m : Nat, w'.busied[m]? = some true → w.busied[m]? = some true

theorem Returns.of_same (standing : w'.standing = w.standing) (busied : w'.busied = w.busied) :
    w.Returns w' [] := by
  refine ⟨fun m _ taken => ?_, fun m busy => busied ▸ busy⟩
  rwa [Taken, Starting, standing, busied]

theorem Returns.trans {w₁ : World σ} {gone more : List Nat} (h : w.Returns w₁ gone)
    (k : w₁.Returns w' more) : w.Returns w' (gone ++ more) where
  kept m away taken := by
    rw [List.mem_append, not_or] at away
    exact k.kept m away.2 (h.kept m away.1 taken)
  busy m busy := h.busy m (k.busy m busy)

private theorem Returns.modifyMonitor (w : World σ) (m : Nat) {f : Monitor → Monitor}
    (rests : ∀ a, (f a).busy = true → a.busy = true) : w.Returns (w.modifyMonitor m f) [m] where
  kept k away taken := (w.taken_modifyMonitor (by simpa using away) f).2 taken
  busy k busy := w.busied_modifyMonitor rests busy

/-- A delivery to a monitor is over. -/
theorem Returns.release (w : World σ) (m : Nat) :
    w.Returns (w.modifyMonitor m fun monitor => { monitor with busy := false }) [m] :=
  .modifyMonitor w m fun _ => by simp

/-- The registration of a monitor is over. -/
theorem Returns.settle (w : World σ) (m : Nat) (stage : Stage) :
    w.Returns (w.modifyMonitor m fun monitor => { monitor with stage }) [m] :=
  .modifyMonitor w m fun _ => id

theorem Returns.setThread {gone : List Nat} (h : w.Returns w' gone) (t : ThreadId)
    (thread : Thread) : w.Returns (w'.setThread t thread) gone where
  kept m away taken := by
    have := h.kept m away taken
    rwa [Taken, Starting, standing_setThread, busied_setThread]
  busy m busy := h.busy m (by rwa [busied_setThread] at busy)

/-- What is abandoned for an answer goes out of hand. -/
private theorem returns_deliverAnswer (w : World σ) (t : ThreadId) (a : Answer)
    (tasks : List Task) : ∃ (v : World σ) (thread : Thread) (gone : List Nat),
      w.deliverAnswer t a tasks = v.setThread t thread ∧
        inHand tasks = gone ++ inHand thread.tasks ∧ w.Returns v gone := by
  induction tasks generalizing w with
  | nil =>
    cases t with
    | driver | sleeper j => exact ⟨w, _, [], rfl, rfl, .of_same rfl rfl⟩
    | actor i =>
      have retains : w.Retains .driver (w.abandon i) := .abandon w i
      exact ⟨w.abandon i, _, [], rfl, rfl, .of_same retains.standing retains.busied⟩
  | cons x rest ih =>
    cases x
    case resume => exact ⟨w, _, [], rfl, rfl, .of_same rfl rfl⟩
    case release m =>
      obtain ⟨v, thread, gone, delivered, split, returns⟩ :=
        ih (w.modifyMonitor m fun monitor => { monitor with busy := false })
      exact ⟨v, thread, m :: gone, delivered, congrArg (m :: ·) split,
        (Returns.release w m).trans returns⟩
    case enlist m =>
      obtain ⟨v, thread, gone, delivered, split, returns⟩ :=
        ih (w.modifyMonitor m fun monitor => { monitor with stage := .dropped })
      exact ⟨v, thread, m :: gone, delivered, congrArg (m :: ·) split,
        (Returns.settle w m .dropped).trans returns⟩
    all_goals exact ih w

/-- What a step of a thread does to the monitors that it has in hand. -/
inductive Hands (w w' : World σ) (x : Task) (rest tasks : List Task) : Prop where
  | gives (gone : List Nat) (split : inHand (x :: rest) = gone ++ inHand tasks)
      (returns : w.Returns w' gone)
  | takes (m : Nat) (event : Event) (delivers : x = .deliver m event)
      (free : w.busied[m]? = some false) (standing : w'.standing = w.standing)
      (busied : w'.busied = w.busied.set m true) (taken : inHand tasks = m :: inHand (x :: rest))
  | begins (observed : List EventType) (more : w'.standing = w.standing ++ [(.starting, observed)])
      (busied : w'.busied = w.busied ++ [false])
      (taken : inHand tasks = w.standing.length :: inHand (x :: rest))

private theorem inHand_cons (plain : x.frees? = none) (rest : List Task) :
    inHand (x :: rest) = inHand rest := List.filterMap_cons_none plain

private theorem hands_deliverAnswer {v : World σ} (plain : x.frees? = none) {a : Answer}
    (same : w.Returns v []) {thread : Thread}
    (now : (v.deliverAnswer t a rest).thread? t = some thread) :
    w.Hands (v.deliverAnswer t a rest) x rest thread.tasks := by
  obtain ⟨v', thread', gone, delivered, split, returns⟩ := v.returns_deliverAnswer t a rest
  rw [delivered] at now ⊢
  obtain rfl := eq_of_thread?_setThread v' now
  exact .gives gone ((inHand_cons plain rest).trans split) ((same.trans returns).setThread t _)

variable [Strategy σ]

theorem hands_of_stepThread? {outside : Bool}
    (found : w.thread? t = some ⟨x :: rest, outside⟩) (moved : w.stepThread? t = some w')
    {thread : Thread} (now : w'.thread? t = some thread) : w.Hands w' x rest thread.tasks := by
  obtain ⟨x', rest', outside', found', steps⟩ := of_stepThread? moved
  cases found.symm.trans found'
  have yields := w.leaving_exec t x
  cases special : x.registers || x.hands with
  | false =>
    rw [Bool.or_eq_false_iff] at special
    have plain : x.frees? = none := by
      cases x <;> first | rfl | simp [Task.registers, Task.hands] at special
    have kept := w.monitors_exec t found special.1 special.2
    rcases steps with ⟨xs, w₁, old, executed, _, rfl⟩ | ⟨a, w₁, executed, rfl⟩ <;>
      rw [executed] at kept yields
    · rw [eq_of_thread?_setThread _ now]
      have none : inHand xs = [] := inHand_of_none fun y mem => by
        cases frees : y.frees? with
        | none => rfl
        | some m =>
          rcases yields.yields.of_minds mem (Task.minds_of_frees? frees) with
            ⟨m, event, rfl, _⟩ | ⟨m, event, _, rfl⟩ | ⟨m, d, id, _, rfl⟩
          · cases frees
          · cases special.2
          · cases special.1
      refine .gives [] ?_ ((Returns.of_same kept.1.1 kept.1.2).setThread t _)
      rw [inHand_append, none, inHand_cons plain]
      rfl
    · exact hands_deliverAnswer plain (.of_same kept.1 kept.2) now
  | true =>
    cases x
    case deliver m event =>
      rcases w.exec_deliver t m event with ⟨waits, _⟩ | goes | ⟨free, goes⟩
      all_goals rcases steps with ⟨xs, w₁, old, executed, _, rfl⟩ | ⟨a, w₁, executed, rfl⟩
      · cases waits.symm.trans executed
      · cases waits.symm.trans executed
      · cases goes.symm.trans executed
        rw [eq_of_thread?_setThread _ now]
        exact .gives [] rfl ((Returns.of_same rfl rfl).setThread t _)
      · cases goes.symm.trans executed
      · cases goes.symm.trans executed
        rw [eq_of_thread?_setThread _ now]
        refine .takes m event rfl free ?_ ?_ rfl
        · rw [standing_setThread]
          exact (Upholds.hand (t := t) w m true).standing
        · rw [busied_setThread, busied_take]
      · cases goes.symm.trans executed
    case release m =>
      rcases steps with ⟨xs, w₁, old, executed, _, rfl⟩ | ⟨a, w₁, executed, _⟩ <;> cases executed
      rw [eq_of_thread?_setThread _ now]
      exact .gives [m] rfl ((Returns.release w m).setThread t _)
    case enlist m =>
      rcases steps with ⟨xs, w₁, old, executed, _, rfl⟩ | ⟨a, w₁, executed, _⟩ <;> cases executed
      rw [eq_of_thread?_setThread _ now]
      exact .gives [m] rfl ((Returns.settle w m .listed).setThread t _)
    case install d id =>
      rcases w.exec_install t d id with ⟨waits, _⟩ | ⟨r, answers⟩ | ⟨_, goes⟩
      all_goals rcases steps with ⟨xs, w₁, old, executed, _, rfl⟩ | ⟨a, w₁, executed, rfl⟩
      · cases waits.symm.trans executed
      · cases waits.symm.trans executed
      · cases answers.symm.trans executed
      · cases answers.symm.trans executed
        exact hands_deliverAnswer (x := .install d id) rfl (.of_same rfl rfl) now
      · cases goes.symm.trans executed
        rw [eq_of_thread?_setThread _ now]
        refine .begins d.subscriptions ?_ ?_ ?_
        · rw [standing_setThread]
          simp [standing, Monitor.standing]
        · rw [busied_setThread]
          simp [busied]
        · rw [show w.standing.length = w.monitors.length by simp [standing]]
          rfl
      · cases goes.symm.trans executed
    all_goals cases special

/-- Who is handed an event by a thread was registered before. -/
theorem listed_of_stepThread? {outside : Bool} (found : w.thread? t = some ⟨x :: rest, outside⟩)
    (moved : w.stepThread? t = some w') {thread : Thread} (now : w'.thread? t = some thread)
    {event : Event} (mem : .deliver m event ∈ thread.tasks) :
    .deliver m event ∈ rest ∨ w.Listed m := by
  have goes := goes_of_stepThread? found moved now
  generalize thread.tasks = tasks at goes mem
  cases goes with
  | does yields =>
    rcases List.mem_append.1 mem with mem | mem
    · rcases yields.of_minds mem rfl with ⟨k, _, same, listed⟩ | ⟨_, _, same, _⟩ |
        ⟨_, _, _, same, _⟩ <;> cases same
      exact .inr listed
    · exact .inl mem
  | gives gives =>
    cases gives with
    | resumes suffix =>
      exact .inl (suffix.subset (List.mem_cons_of_mem _ (by simpa using mem)))
    | ends | retires => simp at mem

/-! ## One event at a time -/

/-- A monitor in hand is in the hand of one thread and once, and monitors are handed events only while they
are registered. -/
structure Exclusive (w : World σ) : Prop where
  once : ∀ t thread, w.thread? t = some thread → (inHand thread.tasks).Nodup
  taken : ∀ t thread, w.thread? t = some thread → ∀ m ∈ inHand thread.tasks, w.Taken m
  apart : ∀ t u thread thread', t ≠ u → w.thread? t = some thread → w.thread? u = some thread' →
    ∀ m ∈ inHand thread.tasks, m ∉ inHand thread'.tasks
  listed : ∀ t thread, w.thread? t = some thread → ∀ m event, .deliver m event ∈ thread.tasks →
    w.Listed m
  busy : ∀ m : Nat, w.busied[m]? = some true → w.Listed m

omit [Strategy σ] in
/-- Monitors get an event in hand only by being handed one. -/
private theorem Hands.busy (hands : w.Hands w' x rest tasks) (busy : w'.busied[m]? = some true) :
    w.busied[m]? = some true ∨ ∃ event, x = .deliver m event := by
  cases hands with
  | gives gone _ returns => exact .inl (returns.busy m busy)
  | takes k event delivers _ _ busied =>
    rw [busied] at busy
    by_cases same : k = m
    · exact .inr ⟨event, same ▸ delivers⟩
    · rw [List.getElem?_set_ne same] at busy
      exact .inl busy
  | begins _ _ busied =>
    rw [busied] at busy
    rcases Nat.lt_or_ge m w.busied.length with lt | ge
    · rw [List.getElem?_append_left lt] at busy
      exact .inl busy
    · rw [List.getElem?_append_right ge] at busy
      obtain ⟨_, busy⟩ := List.getElem?_eq_some_iff.1 busy
      simp at busy

/-- What a thread has in hand when it had other tasks before. -/
private structure Grasp (w w' : World σ) (before tasks : List Task) : Prop where
  once : (inHand tasks).Nodup
  mine : ∀ m ∈ inHand tasks, w'.Taken m ∧ (m ∈ inHand before ∨ ¬w.Taken m)
  others : ∀ m ∉ inHand before, w.Taken m → w'.Taken m

omit [Strategy σ] in
/-- A thread takes in hand what nobody has taken. -/
private theorem Grasp.of_more {before : List Task} (once : (inHand before).Nodup)
    (taken : ∀ m ∈ inHand before, w.Taken m) (kept : ∀ m, w.Taken m → w'.Taken m)
    (free : ¬w.Taken m) (new : w'.Taken m) (more : inHand tasks = m :: inHand before) :
    w.Grasp w' before tasks where
  once := by
    rw [more]
    exact List.nodup_cons.2 ⟨fun mem => free (taken m mem), once⟩
  mine k mem := by
    rw [more] at mem
    rcases List.mem_cons.1 mem with rfl | mem
    · exact ⟨new, .inr free⟩
    · exact ⟨kept k (taken k mem), .inl mem⟩
  others k _ := kept k

omit [Strategy σ] in
private theorem Exclusive.grasp (exclusive : w.Exclusive) {outside : Bool}
    (found : w.thread? t = some ⟨x :: rest, outside⟩) (hands : w.Hands w' x rest tasks) :
    w.Grasp w' (x :: rest) tasks := by
  have once := exclusive.once t _ found
  have taken := exclusive.taken t _ found
  cases hands with
  | gives gone split returns =>
    simp only [split] at once taken
    obtain ⟨_, here, apart⟩ := List.nodup_append'.1 once
    refine ⟨here, fun m mem => ⟨?_, .inl ?_⟩, fun m away => ?_⟩
    · exact returns.kept m (fun lost => apart lost mem) (taken m (List.mem_append_right _ mem))
    · rw [split]
      exact List.mem_append_right _ mem
    · rw [split, List.mem_append, not_or] at away
      exact returns.kept m away.1
  | takes m event delivers free standing busied more =>
    have listed := exclusive.listed t _ found m event (by simp [delivers])
    have untaken : ¬w.Taken m := by
      rintro (busy | starts)
      · cases busy.symm.trans free
      · exact listed.not_starting starts
    have mine : w'.Taken m := by
      refine .inl ?_
      rw [busied, List.getElem?_set_self (List.getElem?_eq_some_iff.1 free).1]
    refine .of_more once taken (fun k taken => ?_) untaken mine more
    by_cases same : k = m
    · exact same ▸ mine
    · rw [Taken, Starting, standing, busied, List.getElem?_set_ne (Ne.symm same)]
      exact taken
  | begins observed standing busied more =>
    refine .of_more once taken (fun k taken => ?_) (fun taken => Nat.lt_irrefl _ taken.lt)
      (.inr ⟨observed, by simp [standing]⟩) more
    have lt := taken.lt
    rw [Taken, Starting, standing, busied, List.getElem?_append_left lt,
      List.getElem?_append_left (w.length_busied ▸ lt)]
    exact taken

theorem Exclusive.does (exclusive : w.Exclusive) (registers : w.Registering) (orderly : w.Orderly)
    (moved : w.stepThread? t = some w') : w'.Exclusive := by
  obtain ⟨x, rest, outside, found, _⟩ := of_stepThread? moved
  obtain ⟨own, now⟩ := orderly.stays moved
  have hands := hands_of_stepThread? found moved now
  have grasp := exclusive.grasp found hands
  have keeps : ∀ {m}, w.Listed m → w'.Listed m :=
    fun ⟨observed, lists⟩ => ⟨observed, registers.keeps orderly moved lists⟩
  -- a thread that does not move has what it had, or it is new
  have bystander : ∀ u thread, u ≠ t → w'.thread? u = some thread →
      (∃ k, thread.tasks = [.firstTurn k] ∨ thread.tasks = [.sleep k]) ∨
        ∃ old, w.thread? u = some old ∧ thread.tasks = old.tasks := by
    intro u thread other now'
    rcases orderly.bystander moved other now' with old | ⟨_, fresh⟩
    · exact .inr old
    · exact .inl fresh
  have holds : ∀ u thread, u ≠ t → w'.thread? u = some thread → ∀ m ∈ inHand thread.tasks,
      ∃ old, w.thread? u = some old ∧ thread.tasks = old.tasks ∧ m ∈ inHand old.tasks := by
    intro u thread other now' m mem
    rcases bystander u thread other now' with ⟨k, fresh | fresh⟩ | ⟨old, was, same⟩
    · rw [fresh] at mem
      cases mem
    · rw [fresh] at mem
      cases mem
    · exact ⟨old, was, same, same ▸ mem⟩
  have foreign : ∀ u thread, u ≠ t → w'.thread? u = some thread → ∀ m ∈ inHand thread.tasks,
      m ∉ inHand own.tasks := by
    intro u thread other now' m mem mine
    obtain ⟨old, was, _, held⟩ := holds u thread other now' m mem
    rcases (grasp.mine m mine).2 with before | free
    · exact exclusive.apart u t old _ other was found m held before
    · exact free (exclusive.taken u old was m held)
  refine ⟨fun u thread now' => ?_, fun u thread now' m mem => ?_,
    fun u v thread thread' apart now' now'' m mem mem' => ?_,
    fun u thread now' m event mem => ?_, fun m busy => ?_⟩
  · by_cases mine : u = t
    · subst mine
      obtain rfl := Option.some.inj (now.symm.trans now')
      exact grasp.once
    · rcases bystander u thread mine now' with ⟨k, fresh | fresh⟩ | ⟨old, was, same⟩
      · simp [fresh, inHand, Task.frees?]
      · simp [fresh, inHand, Task.frees?]
      · exact same ▸ exclusive.once u old was
  · by_cases mine : u = t
    · subst mine
      obtain rfl := Option.some.inj (now.symm.trans now')
      exact (grasp.mine m mem).1
    · obtain ⟨old, was, _, held⟩ := holds u thread mine now' m mem
      exact grasp.others m (exclusive.apart u t old _ mine was found m held)
        (exclusive.taken u old was m held)
  · by_cases mine : u = t
    · subst mine
      obtain rfl := Option.some.inj (now.symm.trans now')
      exact foreign v thread' (Ne.symm apart) now'' m mem' mem
    · by_cases mine' : v = t
      · subst mine'
        obtain rfl := Option.some.inj (now.symm.trans now'')
        exact foreign u thread mine now' m mem mem'
      · obtain ⟨old, was, _, held⟩ := holds u thread mine now' m mem
        obtain ⟨old', was', _, held'⟩ := holds v thread' mine' now'' m mem'
        exact exclusive.apart u v old old' apart was was' m held held'
  · by_cases mine : u = t
    · subst mine
      obtain rfl := Option.some.inj (now.symm.trans now')
      rcases listed_of_stepThread? found moved now mem with mem | listed
      · exact keeps (exclusive.listed u _ found m event (List.mem_cons_of_mem _ mem))
      · exact keeps listed
    · rcases bystander u thread mine now' with ⟨k, fresh | fresh⟩ | ⟨old, was, same⟩
      · simp [fresh] at mem
      · simp [fresh] at mem
      · exact keeps (exclusive.listed u old was m event (same ▸ mem))
  · rcases hands.busy busy with busy | ⟨event, rfl⟩
    · exact keeps (exclusive.busy m busy)
    · exact keeps (exclusive.listed t _ found m event List.mem_cons_self)

omit [Strategy σ] in
theorem Exclusive.initial (controller : Controller σ) (registry : Registry)
    (policy : DequeuePolicy) (ids : Allocator) (test : Program) :
    (World.new controller registry policy ids test).Exclusive := by
  have threads : ∀ t thread, (World.new controller registry policy ids test).thread? t = some thread →
      thread.tasks = [.perform .test test] := by
    intro t thread found
    cases t with
    | driver =>
      obtain rfl := Option.some.inj found
      rfl
    | actor i | sleeper j => cases found
  refine ⟨fun t thread found => ?_, fun t thread found m mem => ?_,
    fun t u thread thread' _ found _ m mem => ?_, fun t thread found m event mem => ?_,
    fun m busy => by simp [busied, World.new] at busy⟩
  all_goals rw [threads t thread found] at *
  · simp [inHand, Task.frees?]
  · cases mem
  · cases mem
  · simp at mem

end World

namespace Experiment

variable [Strategy σ] (e : Experiment)

/-- A monitor handles one event at a time. -/
theorem exclusive (accepted : e.registry.Accepted) (ids : Allocator) (s : σ) (n : Nat) :
    (e.iterate n ids s).Exclusive := by
  induction n with
  | zero => exact .initial _ _ _ _ _
  | succ n ih =>
    rw [e.iterate_succ]
    cases moved : (e.iterate n ids s).step? with
    | none => exact ih
    | some w =>
      rcases World.of_step? moved with ⟨t, _, does⟩ | ⟨_, clock, rfl⟩
      · exact ih.does (e.registering accepted ids s n) ((e.reached n ids s).orderly accepted) does
      · exact ⟨fun t thread found => ih.once t thread (by cases t <;> exact found),
          fun t thread found => ih.taken t thread (by cases t <;> exact found),
          fun t u thread thread' apart found found' => ih.apart t u thread thread' apart
            (by cases t <;> exact found) (by cases u <;> exact found'),
          fun t thread found => ih.listed t thread (by cases t <;> exact found), ih.busy⟩

end Experiment

end SteeredActors
