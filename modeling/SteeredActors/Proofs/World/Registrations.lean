import SteeredActors.Proofs.World.Conservation
import SteeredActors.Proofs.World.Errands

/-!
# Registrations

A monitor is registered for good. At most one registration is under way at a time, since one that
begins waits for the one before. So nobody but the thread that registers a monitor ever lists or drops
it, and what is listed stays listed.
-/

set_option autoImplicit false
set_option relaxedAutoImplicit false

namespace SteeredActors

variable {σ : Type}

/-- The monitor that a task lists. -/
def Task.enlists? : Task → Option Nat
  | .enlist m => some m
  | _ => none

/-- The monitors that tasks list. -/
def registering (tasks : List Task) : List Nat := tasks.filterMap (·.enlists?)

theorem registering_append (xs ys : List Task) :
    registering (xs ++ ys) = registering xs ++ registering ys := List.filterMap_append

private theorem enlists?_of_plain {x : Task} (plain : x.isErrand = false) : x.enlists? = none := by
  cases x <;> first | rfl | cases plain

private theorem registering_of_plain {xs : List Task} (plain : ∀ x ∈ xs, x.isErrand = false) :
    registering xs = [] :=
  List.filterMap_eq_nil_iff.2 fun x mem => enlists?_of_plain (plain x mem)

namespace World

variable {w w' : World σ} {t : ThreadId}

/-- The registration of a monitor is under way. -/
def Starting (w : World σ) (m : Nat) : Prop := ∃ observed, w.standing[m]? = some (.starting, observed)

theorem standing_setThread (w : World σ) (t : ThreadId) (thread : Thread) :
    (w.setThread t thread).standing = w.standing := by
  cases t <;> rfl

theorem busied_setThread (w : World σ) (t : ThreadId) (thread : Thread) :
    (w.setThread t thread).busied = w.busied := by
  cases t <;> rfl

theorem standing_modifyMonitor (w : World σ) (m : Nat) (stage : Stage) :
    (w.modifyMonitor m fun monitor => { monitor with stage }).standing =
      w.standing.modify m fun standing => (stage, standing.2) := by
  refine List.ext_getElem? fun k => ?_
  simp only [standing, modifyMonitor, List.getElem?_map, List.getElem?_modify]
  cases w.monitors[k]? with
  | none => rfl
  | some a =>
    simp only [Option.map_some, Option.map_eq_map]
    split <;> rfl

theorem monitorsLocked_eq_false_iff : w.monitorsLocked = false ↔ ∀ m, ¬w.Starting m := by
  simp only [monitorsLocked, List.any_eq_false, beq_iff_eq]
  constructor
  · rintro unlocked m ⟨observed, starts⟩
    rw [standing, List.getElem?_map] at starts
    obtain ⟨a, there, same⟩ := Option.map_eq_some_iff.1 starts
    exact unlocked a (List.mem_of_getElem? there) (congrArg Prod.fst same)
  · intro rests a mem starts
    obtain ⟨m, there⟩ := List.mem_iff_getElem?.1 mem
    refine rests m ⟨a.subscriptions, ?_⟩
    simp [standing, Monitor.standing, there, starts]

/-- The monitors that see events of a type are those that are listed and observe the type. -/
theorem mem_observers {type : EventType} {m : Nat} : m ∈ w.observers type ↔
    ∃ observed, w.standing[m]? = some (.listed, observed) ∧ type ∈ observed := by
  simp only [observers, List.mem_map, List.mem_filter, Bool.and_eq_true, beq_iff_eq,
    List.contains_iff_mem, standing, List.getElem?_map]
  constructor
  · rintro ⟨⟨a, k⟩, ⟨there, listed, observes⟩, rfl⟩
    refine ⟨a.subscriptions, ?_, observes⟩
    rw [List.mem_zipIdx_iff_getElem?.1 there, ← listed]
    rfl
  · rintro ⟨observed, lists, observes⟩
    obtain ⟨a, there, same⟩ := Option.map_eq_some_iff.1 lists
    obtain ⟨listed, rfl⟩ := Prod.mk.inj same
    exact ⟨(a, m), ⟨List.mem_zipIdx_iff_getElem?.2 there, listed, observes⟩, rfl⟩

/-- Who sees what is told by how monitors stand. -/
theorem observers_congr (same : w'.standing = w.standing) (type : EventType) :
    w'.observers type = w.observers type := by
  have told : ∀ w : World σ, w.observers type =
      (w.standing.zipIdx.filter fun p => p.1.1 == .listed && p.1.2.contains type).map (·.2) := by
    intro w
    rw [observers, standing, List.zipIdx_map, List.filter_map, List.map_map]
    rfl
  rw [told, told, same]

theorem nodup_observers (w : World σ) (type : EventType) : (w.observers type).Nodup := by
  have positions : (w.monitors.zipIdx.map (·.2)).Nodup := by
    rw [List.zipIdx_map_snd]
    exact List.nodup_range' ..
  exact positions.sublist (List.filter_sublist.map _)

/-! ## Steps -/

/-- How registrations stand after an answer: as before, or the one that its thread has in hand is
given up. -/
private theorem registering_deliverAnswer (w : World σ) (t : ThreadId) (a : Answer)
    {tasks : List Task} (once : (registering tasks).length ≤ 1) :
    ∃ (v : World σ) (thread : Thread), w.deliverAnswer t a tasks = v.setThread t thread ∧
      (v.standing = w.standing ∧
          (registering thread.tasks = [] ∨ registering thread.tasks = registering tasks) ∨
        ∃ m, registering tasks = [m] ∧ registering thread.tasks = [] ∧
          v.standing = w.standing.modify m fun standing => (.dropped, standing.2)) := by
  induction tasks generalizing w with
  | nil =>
    cases t with
    | driver | sleeper j => exact ⟨w, _, rfl, .inl ⟨rfl, .inl rfl⟩⟩
    | actor i =>
      exact ⟨w.abandon i, _, rfl, .inl ⟨(Retains.abandon (t := .driver) w i).standing, .inl rfl⟩⟩
  | cons x rest ih =>
    cases x
    case resume => exact ⟨w, _, rfl, .inl ⟨rfl, .inr rfl⟩⟩
    case release m =>
      have same : (w.modifyMonitor m fun monitor => { monitor with busy := false }).standing =
          w.standing :=
        (Upholds.hand (t := t) w m false).standing
      obtain ⟨v, thread, goes, stands⟩ :=
        ih (w.modifyMonitor m fun monitor => { monitor with busy := false }) once
      rw [same] at stands
      exact ⟨v, thread, goes, stands⟩
    case enlist m =>
      have alone : registering rest = [] := by
        have shorter : (registering rest).length + 1 ≤ 1 := once
        exact List.eq_nil_of_length_eq_zero (by omega)
      obtain ⟨v, thread, goes, ⟨same, gone⟩ | ⟨k, one, _⟩⟩ :=
        ih (w.modifyMonitor m fun monitor => { monitor with stage := .dropped }) (by simp [alone])
      · rw [standing_modifyMonitor] at same
        rw [alone, or_self] at gone
        exact ⟨v, thread, goes, .inr ⟨m, congrArg (m :: ·) alone, gone, same⟩⟩
      · rw [alone] at one
        cases one
    all_goals exact ih w once

variable [Strategy σ]

/-- A task that neither begins nor ends a registration or a delivery. -/
theorem monitors_exec (w : World σ) (t : ThreadId) {x : Task} {thread : Thread}
    (found : w.thread? t = some thread) (plain : x.registers = false) (keeps : x.hands = false) :
    (w.exec t x).Leads (fun w' => w'.standing = w.standing ∧ w'.busied = w.busied)
      fun _ => True := by
  cases asks : x.request? with
  | none =>
    by_cases touches : ∃ object operation, x = .touch object operation
    · obtain ⟨object, operation, rfl⟩ := touches
      simp only [exec]
      split <;> exact ⟨rfl, rfl⟩
    · have leads :=
        w.retains_exec t asks (fun object operation same => touches ⟨_, _, same⟩) plain keeps
      cases executed : w.exec t x with
      | wait => trivial
      | answer a w₁ =>
        rw [executed] at leads
        exact ⟨leads.standing, leads.busied⟩
      | go xs w₁ =>
        rw [executed] at leads
        exact ⟨⟨leads.1.standing, leads.1.busied⟩, fun _ _ => trivial⟩
  | some request =>
    obtain ⟨speaker, voice, next, rfl⟩ := Task.of_request? asks
    have brings := w.brings_service t thread speaker voice request
    rcases exec_ask found speaker voice request next with
      ⟨a, w₁, served, executed⟩ | ⟨tasks, w₁, outside', served, executed⟩ <;>
      rw [served] at brings <;> rw [executed]
    · refine ⟨?_, fun _ _ => trivial⟩
      cases brings with
      | now retains => exact ⟨retains.standing, retains.busied⟩
      | makes => exact ⟨rfl, rfl⟩
    · refine ⟨?_, fun _ _ => trivial⟩
      have same : w₁.standing = w.standing ∧ w₁.busied = w.busied := by
        cases brings with
        | later retains => exact ⟨retains.standing, retains.busied⟩
        | accesses | sends => exact ⟨rfl, rfl⟩
      exact ⟨(standing_setThread w₁ t _).trans same.1, (busied_setThread w₁ t _).trans same.2⟩

/-- A task that neither begins nor ends a registration. -/
theorem standing_exec (w : World σ) (t : ThreadId) {x : Task} {thread : Thread}
    (found : w.thread? t = some thread) (plain : x.registers = false) :
    (w.exec t x).Leads (fun w' => w'.standing = w.standing) fun _ => True := by
  cases hands : x.hands with
  | false => exact (w.monitors_exec t found plain hands).imp fun _ => And.left
  | true =>
    have leads := w.errands_exec t (x := x) (by cases x <;> first | rfl | cases hands)
      (by rintro object operation rfl; cases hands) plain
    cases executed : w.exec t x with
    | wait => trivial
    | answer a w₁ =>
      rw [executed] at leads
      exact leads.standing
    | go xs w₁ =>
      rw [executed] at leads
      exact ⟨leads.1.standing, fun _ _ => trivial⟩

omit [Strategy σ] in
private theorem registering_of_leaves {x : Task} {rest tasks : List Task}
    (plain : x.registers = false) (leaves : x.Leaves w rest tasks)
    (once : (registering rest).length ≤ 1) :
    registering tasks = [] ∨ registering tasks = registering rest := by
  cases leaves with
  | goes plain => exact .inr (by rw [registering_append, registering_of_plain plain]; rfl)
  | installs registers =>
    rw [plain] at registers
    cases registers
  | @resumes speaker outside shared next below program suffix =>
    obtain ⟨before, rfl⟩ := suffix
    rw [registering_append] at once ⊢
    have fewer : (registering before).length + (registering below).length ≤ 1 := by
      rw [List.length_append] at once
      exact once
    cases first : registering before with
    | nil => exact .inr rfl
    | cons m ms =>
      rw [first, List.length_cons] at fewer
      exact .inl (List.eq_nil_of_length_eq_zero (l := registering below) (by omega))
  | retires | ends => exact .inl rfl
  | accesses => exact .inr rfl
  | @sends _ _ event y xs _ _ _ _ _ _ _ posts plain =>
    have silent : y.enlists? = none := by cases y <;> first | rfl | cases posts
    have none : registering (.forward event :: y :: xs) = [] := by
      rw [registering, List.filterMap_cons_none rfl, List.filterMap_cons_none silent]
      exact registering_of_plain plain
    exact .inr (by rw [registering_append, none]; rfl)

/-- What a step of a thread does to registrations. -/
inductive Registers (w w' : World σ) (x : Task) (rest tasks : List Task) : Prop where
  | rests (same : w'.standing = w.standing)
      (kept : registering tasks = [] ∨ registering tasks = registering (x :: rest))
  | begins (observed : List EventType) (unlocked : w.monitorsLocked = false)
      (more : w'.standing = w.standing ++ [(.starting, observed)])
      (begun : registering tasks = w.standing.length :: registering (x :: rest))
      (fresh : ∃ core, w'.core? (.monitor w.standing.length) = some core ∧
        w.monitor? core.descriptor.typeTag = none)
  | ends (m : Nat) (stage : Stage) (settled : stage ≠ .starting)
      (changed : w'.standing = w.standing.modify m fun standing => (stage, standing.2))
      (mine : registering (x :: rest) = [m]) (done : registering tasks = [])

omit [Strategy σ] in
private theorem registering_cons {x : Task} (plain : x.enlists? = none) (rest : List Task) :
    registering (x :: rest) = registering rest := List.filterMap_cons_none plain

omit [Strategy σ] in
/-- A thread whose task fails. -/
private theorem registers_deliverAnswer {v : World σ} {x : Task} (plain : x.enlists? = none)
    {rest : List Task} (once : (registering rest).length ≤ 1) (same : v.standing = w.standing)
    {a : Answer} {thread : Thread} (now : (v.deliverAnswer t a rest).thread? t = some thread) :
    w.Registers (v.deliverAnswer t a rest) x rest thread.tasks := by
  obtain ⟨v', thread', goes, stands⟩ := v.registering_deliverAnswer t a once
  rw [goes] at now ⊢
  obtain rfl := eq_of_thread?_setThread v' now
  rcases stands with ⟨kept, left⟩ | ⟨m, mine, done, changed⟩
  · refine .rests ((standing_setThread ..).trans (kept.trans same)) ?_
    rw [registering_cons plain]
    exact left
  · refine .ends m .dropped (by decide) ?_ (by rw [registering_cons plain, mine]) done
    rw [standing_setThread, changed, same]

theorem registers_of_stepThread? {x : Task} {rest : List Task} {outside : Bool}
    (found : w.thread? t = some ⟨x :: rest, outside⟩) (moved : w.stepThread? t = some w')
    (once : (registering (x :: rest)).length ≤ 1) {thread : Thread}
    (now : w'.thread? t = some thread) : w.Registers w' x rest thread.tasks := by
  have leaves := leaves_of_stepThread? found moved now
  obtain ⟨x', rest', outside', found', steps⟩ := of_stepThread? moved
  cases found.symm.trans found'
  cases registers : x.registers with
  | false =>
    have plain : x.enlists? = none := by cases x <;> first | rfl | cases registers
    rw [registering_cons plain] at once
    have kept := standing_exec w t found registers
    rcases steps with ⟨xs, w₁, old, executed, _, rfl⟩ | ⟨a, w₁, executed, rfl⟩ <;>
      rw [executed] at kept
    · refine .rests ((standing_setThread ..).trans kept.1) ?_
      rw [registering_cons plain]
      exact registering_of_leaves registers leaves once
    · exact registers_deliverAnswer plain once kept now
  | true =>
    cases x
    case enlist m =>
      rcases steps with ⟨xs, w₁, old, executed, _, rfl⟩ | ⟨a, w₁, executed, _⟩ <;> cases executed
      have alone : registering rest = [] := by
        have shorter : (registering rest).length + 1 ≤ 1 := once
        exact List.eq_nil_of_length_eq_zero (by omega)
      rw [eq_of_thread?_setThread _ now]
      exact .ends m .listed (by decide)
        ((standing_setThread ..).trans (standing_modifyMonitor w m .listed))
        (congrArg (m :: ·) alone) alone
    case install d id =>
      rcases w.exec_install t d id with ⟨waits, _⟩ | ⟨r, answers⟩ | ⟨⟨unlocked, fresh⟩, goes⟩
      all_goals rcases steps with ⟨xs, w₁, old, executed, _, rfl⟩ | ⟨a, w₁, executed, rfl⟩
      · cases waits.symm.trans executed
      · cases waits.symm.trans executed
      · cases answers.symm.trans executed
      · cases answers.symm.trans executed
        have once : (registering rest).length ≤ 1 := once
        exact registers_deliverAnswer (x := .install d id) rfl once rfl now
      · cases goes.symm.trans executed
        rw [eq_of_thread?_setThread _ now]
        refine .begins d.subscriptions unlocked ?_ ?_ ⟨.new id d, ?_, fresh⟩
        · rw [standing_setThread]
          simp [standing, Monitor.standing]
        · rw [show w.standing.length = w.monitors.length by simp [standing]]
          rfl
        · rw [core?_setThread]
          simp [core?, standing]
      · cases goes.symm.trans executed
    all_goals cases registers

/-! ## One registration at a time -/

/-- Nothing is registered, or one thread has one registration in hand. -/
inductive Registering (w : World σ) : Prop where
  | rests (none : ∀ m, ¬w.Starting m)
      (idle : ∀ t thread, w.thread? t = some thread → registering thread.tasks = [])
  | starts (m : Nat) (t : ThreadId) (only : ∀ n, w.Starting n ↔ n = m)
      (own : ∀ thread, w.thread? t = some thread →
        registering thread.tasks = [] ∨ registering thread.tasks = [m])
      (others : ∀ u thread, u ≠ t → w.thread? u = some thread → registering thread.tasks = [])

/-- Other threads take nothing in hand. -/
private theorem registering_of_bystander (orderly : w.Orderly) (moved : w.stepThread? t = some w')
    {u : ThreadId} (other : u ≠ t) {thread : Thread} (now : w'.thread? u = some thread) :
    registering thread.tasks = [] ∨
      ∃ old, w.thread? u = some old ∧ registering old.tasks = registering thread.tasks := by
  rcases orderly.bystander moved other now with ⟨old, was, same⟩ | ⟨_, k, fresh | fresh⟩
  · exact .inr ⟨old, was, by rw [same]⟩
  all_goals
    rw [fresh]
    exact .inl rfl

omit [Strategy σ] in
private theorem starting_concat (none : ∀ m, ¬w.Starting m) {observed : List EventType}
    (more : w'.standing = w.standing ++ [(.starting, observed)]) (n : Nat) :
    w'.Starting n ↔ n = w.standing.length := by
  rw [Starting, more]
  constructor
  · rintro ⟨observed, starts⟩
    rcases Nat.lt_or_ge n w.standing.length with lt | ge
    · rw [List.getElem?_append_left lt] at starts
      exact absurd ⟨observed, starts⟩ (none n)
    · rw [List.getElem?_append_right ge] at starts
      have bound := (List.getElem?_eq_some_iff.1 starts).1
      rw [List.length_singleton] at bound
      omega
  · rintro rfl
    exact ⟨observed, by simp⟩

omit [Strategy σ] in
private theorem not_starting_modify {m : Nat} (only : ∀ n, w.Starting n ↔ n = m) {stage : Stage}
    (settled : stage ≠ .starting)
    (changed : w'.standing = w.standing.modify m fun standing => (stage, standing.2)) (n : Nat) :
    ¬w'.Starting n := by
  rintro ⟨observed, starts⟩
  rw [changed, List.getElem?_modify] at starts
  obtain ⟨old, there, equal⟩ := Option.map_eq_some_iff.1 starts
  split at equal
  · exact settled (congrArg Prod.fst equal)
  · next other =>
    subst equal
    exact other ((only n).1 ⟨observed, there⟩).symm

omit [Strategy σ] in
theorem Registering.once (registers : w.Registering) {thread : Thread}
    (found : w.thread? t = some thread) : (registering thread.tasks).length ≤ 1 := by
  cases registers with
  | rests _ idle => simp [idle t thread found]
  | starts m owner _ own others =>
    by_cases mine : t = owner
    · subst mine
      rcases own thread found with none | one
      · simp [none]
      · simp [one]
    · simp [others t thread mine found]

omit [Strategy σ] in
/-- Whoever has a registration in hand is alone with it. -/
theorem Registering.alone (registers : w.Registering) {thread : Thread}
    (found : w.thread? t = some thread) {m : Nat} (mine : registering thread.tasks = [m]) :
    (∀ n, w.Starting n ↔ n = m) ∧ ∀ u thread', u ≠ t → w.thread? u = some thread' →
      registering thread'.tasks = [] := by
  cases registers with
  | rests _ idle =>
    rw [idle t _ found] at mine
    cases mine
  | starts k owner only own idle =>
    have owns : t = owner := by
      by_contra other
      rw [idle t _ other found] at mine
      cases mine
    subst owns
    rcases own _ found with none | one
    · rw [none] at mine
      cases mine
    · rw [one] at mine
      cases mine
      exact ⟨only, idle⟩

theorem Registering.step (registers : w.Registering) (orderly : w.Orderly)
    (moved : w.stepThread? t = some w') : w'.Registering := by
  obtain ⟨x, rest, outside, found, _⟩ := of_stepThread? moved
  obtain ⟨thread, now⟩ := orderly.stays moved
  have others : ∀ u thread', u ≠ t → w'.thread? u = some thread' →
      registering thread'.tasks = [] ∨
        ∃ old, w.thread? u = some old ∧ registering old.tasks = registering thread'.tasks :=
    fun u thread' other now' => registering_of_bystander orderly moved other now'
  cases registers_of_stepThread? found moved (registers.once found) now with
  | rests same kept =>
    have all : ∀ u thread', w'.thread? u = some thread' → registering thread'.tasks = [] ∨
        ∃ old, w.thread? u = some old ∧ registering old.tasks = registering thread'.tasks := by
      intro u thread' now'
      by_cases own : u = t
      · subst own
        obtain rfl := Option.some.inj (now.symm.trans now')
        exact kept.imp_right fun same => ⟨_, found, same.symm⟩
      · exact others u thread' own now'
    have starting : ∀ n, w'.Starting n ↔ w.Starting n := fun n => by rw [Starting, same, Starting]
    cases registers with
    | rests none idle =>
      refine .rests (fun n starts => none n ((starting n).1 starts)) fun u thread' now' => ?_
      rcases all u thread' now' with none | ⟨old, was, same⟩
      · exact none
      · rw [← same, idle u old was]
    | starts m owner only own idle =>
      refine .starts m owner (fun n => (starting n).trans (only n)) (fun thread' now' => ?_)
        fun u thread' other now' => ?_
      · rcases all owner thread' now' with none | ⟨old, was, same⟩
        · exact .inl none
        · exact same ▸ own old was
      · rcases all u thread' now' with none | ⟨old, was, same⟩
        · exact none
        · rw [← same, idle u old other was]
  | begins observed unlocked more begun =>
    cases registers with
    | rests none idle =>
      rw [idle t _ found] at begun
      refine .starts w.standing.length t (starting_concat none more) (fun thread' now' => ?_)
        fun u thread' other now' => ?_
      · rw [← Option.some.inj (now.symm.trans now')]
        exact .inr begun
      · rcases others u thread' other now' with none | ⟨old, was, same⟩
        · exact none
        · rw [← same, idle u old was]
    | starts m _ only => exact absurd ((only m).2 rfl) (monitorsLocked_eq_false_iff.1 unlocked m)
  | ends m stage settled changed mine done =>
    obtain ⟨only, idle⟩ := registers.alone found mine
    refine .rests (not_starting_modify only settled changed) fun u thread' now' => ?_
    by_cases self : u = t
    · subst self
      rwa [← Option.some.inj (now.symm.trans now')]
    · rcases others u thread' self now' with none | ⟨old, was, same⟩
      · exact none
      · rw [← same, idle u old self was]

/-- What is listed stays listed. -/
theorem Registering.keeps (registers : w.Registering) (orderly : w.Orderly)
    (moved : w.stepThread? t = some w') {m : Nat} {observed : List EventType}
    (lists : w.standing[m]? = some (.listed, observed)) :
    w'.standing[m]? = some (.listed, observed) := by
  obtain ⟨x, rest, outside, found, _⟩ := of_stepThread? moved
  obtain ⟨thread, now⟩ := orderly.stays moved
  cases registers_of_stepThread? found moved (registers.once found) now with
  | rests same => rw [same, lists]
  | begins _ _ more =>
    rw [more, List.getElem?_append_left (List.getElem?_eq_some_iff.1 lists).1, lists]
  | ends k stage _ changed mine =>
    have other : k ≠ m := by
      rintro rfl
      obtain ⟨_, starts⟩ := ((registers.alone found mine).1 k).2 rfl
      rw [lists] at starts
      cases starts
    rw [changed, List.getElem?_modify_ne _ _ other, lists]

omit [Strategy σ] in
theorem Registering.initial (controller : Controller σ) (registry : Registry)
    (policy : DequeuePolicy) (ids : Allocator) (test : Program) :
    (World.new controller registry policy ids test).Registering := by
  refine .rests (fun m starts => ?_) fun t thread found => ?_
  · obtain ⟨_, starts⟩ := starts
    cases starts
  · cases t with
    | driver =>
      obtain rfl := Option.some.inj found
      rfl
    | actor i | sleeper j => cases found

end World

namespace Experiment

variable [Strategy σ] (e : Experiment)

theorem registering (accepted : e.registry.Accepted) (ids : Allocator) (s : σ) (n : Nat) :
    (e.iterate n ids s).Registering := by
  induction n with
  | zero => exact .initial _ _ _ _ _
  | succ n ih =>
    rw [e.iterate_succ]
    cases moved : (e.iterate n ids s).step? with
    | none => exact ih
    | some w =>
      rcases World.of_step? moved with ⟨t, _, does⟩ | ⟨_, clock, rfl⟩
      · exact ih.step ((e.reached n ids s).orderly accepted) does
      · cases ih with
        | rests none idle =>
          exact .rests none fun t thread found => idle t thread (by cases t <;> exact found)
        | starts m owner only own idle =>
          exact .starts m owner only (fun thread found => own thread (by cases owner <;> exact found))
            fun u thread other found => idle u thread other (by cases u <;> exact found)

/-- What is listed in an iteration stays listed. -/
theorem listed (accepted : e.registry.Accepted) (ids : Allocator) (s : σ) {k n : Nat} (le : k ≤ n)
    {m : Nat} {observed : List EventType}
    (lists : (e.iterate k ids s).standing[m]? = some (.listed, observed)) :
    (e.iterate n ids s).standing[m]? = some (.listed, observed) := by
  induction le with
  | refl => exact lists
  | @step n _ ih =>
    rw [e.iterate_succ]
    cases moved : (e.iterate n ids s).step? with
    | none => exact ih
    | some w =>
      rcases World.of_step? moved with ⟨t, _, does⟩ | ⟨_, clock, rfl⟩
      · exact (e.registering accepted ids s n).keeps ((e.reached n ids s).orderly accepted) does ih
      · exact ih

/-- A monitor that is listed sees the events of its types from then on, and no others. -/
theorem mem_observers_of_listed (accepted : e.registry.Accepted) (ids : Allocator) (s : σ)
    {k n : Nat} (le : k ≤ n) {m : Nat} {observed : List EventType}
    (lists : (e.iterate k ids s).standing[m]? = some (.listed, observed)) (type : EventType) :
    m ∈ (e.iterate n ids s).observers type ↔ type ∈ observed := by
  rw [World.mem_observers, e.listed accepted ids s le lists]
  constructor
  · rintro ⟨_, same, observes⟩
    cases same
    exact observes
  · exact fun observes => ⟨observed, rfl, observes⟩

end Experiment

end SteeredActors
