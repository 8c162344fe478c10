import SteeredActors.Proofs.World.Pursuits
import SteeredActors.Proofs.World.Reports

/-!
# What actions ask of their own interpreter

An action may make one demand of its own interpreter. It is kept in a slot that is empty whenever an
action starts, and it is met as soon as the action has returned, before the interpreter does anything
else.
-/

set_option autoImplicit false
set_option relaxedAutoImplicit false

namespace SteeredActors

variable {σ : Type}

/-! ## What the slot holds -/

namespace Task

/-- What stands between an action that has returned and what it has raised. -/
def heeds : Task → Bool
  | .settle _ _ _ | .cycle _ | .drain _ => true
  | _ => false

/-- An interpreter makes a demand of itself. -/
def Demands (x : Task) (c : Subject) : Prop := x.begun? = some c ∧ x.demand?.isSome = true

/-- An interpreter starts an action. -/
def Invokes (x : Task) (c : Subject) : Prop :=
  ∃ action event phase, x = .invoke c action event phase

/-- Whether an action has made a demand once a task is done, by whether it had before. -/
def Asks (x : Task) (c : Subject) (asked : Prop) : Prop := x.Demands c ∨ asked ∧ ¬x.Invokes c

theorem asks_of_apart {x : Task} {c : Subject} (apart : x.begun? ≠ some c) (asked : Prop) :
    x.Asks c asked ↔ asked := by
  constructor
  · rintro (⟨begun, _⟩ | ⟨asked, _⟩)
    · exact absurd begun apart
    · exact asked
  · intro asked
    refine .inr ⟨asked, ?_⟩
    rintro ⟨action, event, phase, rfl⟩
    exact apart rfl

end Task

/-- What the slot of an interpreter holds while it goes on with a task, by whether its action has
made a demand. -/
structure Core.Slotted (core : Core) (asked : Prop) (x : Task) : Prop where
  free : x.phase? = none → x.heeds = false → core.raised = none
  awake : x.concludes = false → core.halted = false
  emptied : core.halted = true → core.raised = none
  asked : ∀ phase, x.phase? = some phase → (core.raised ≠ none ↔ asked)
  exits : x.phase? = some .exit → core.raised = none

/-- An empty slot. -/
theorem Core.Slotted.of_none {core : Core} {asked : Prop} {x : Task} (raised : core.raised = none)
    (awake : x.concludes = false → core.halted = false) (quiet : x.phase? = none) :
    core.Slotted asked x where
  free _ _ := raised
  awake := awake
  emptied _ := raised
  asked phase speaks := by
    rw [quiet] at speaks
    cases speaks
  exits _ := raised

/-- What the slot of an interpreter holds in a world. -/
structure World.Slotted (w : World σ) (c : Subject) (asked : Prop) : Prop where
  busy : ∀ x core, w.Pursues c x → w.core? c = some core → core.Slotted asked x
  idle : ∀ core, (∀ x, ¬w.Pursues c x) → w.core? c = some core → core.raised = none

section Steps

variable {w w' : World σ} {c : Subject} {x y : Task} {xs rest : List Task} {phase : Phase}

/-- What an interpreter finds when what it has done has left it nothing. -/
theorem Task.comes_of_rest (comes : Linked Task.Comes (x :: rest) none) (begun : x.begun? = some c)
    (below : x.ends? = some c → c.first? rest = none) (first : c.first? rest = some y) :
    x.Comes (some y) ∧ y.phase? = none := by
  rcases comes.1.exists_next begun with ends | ⟨z, next, own, quiet⟩
  · rw [below ends] at first
    cases first
  · cases rest with
    | nil => cases next
    | cons z' rest =>
      obtain rfl : z' = z := by simpa using next
      rw [Subject.first?_cons_self own] at first
      obtain rfl := Option.some.inj first
      exact ⟨comes.1, quiet⟩

/-- After an action that may make demands comes what heeds them. -/
theorem Task.Returns.heeds (returns : Task.Returns c phase (some y)) :
    phase = .exit ∨ y.heeds = true := by
  by_cases exits : phase = .exit
  · exact .inl exits
  · rw [Task.Returns, if_neg exits] at returns
    right
    rcases returns with round | ⟨i, r, handled, _, settle⟩
    · obtain rfl := Option.some.inj round
      cases c <;> rfl
    · obtain rfl := Option.some.inj settle
      rfl

/-- Who has nothing left but to be done has nothing else left afterwards. -/
theorem Task.Comes.concludes (comes : x.Comes (some y)) (concludes : x.concludes = true)
    (goesOn : x.ends? = none) : y.concludes = true := by
  cases x <;> try cases concludes
  case settle =>
    obtain rfl := Option.some.inj comes
    rfl
  case drain =>
    obtain rfl := Option.some.inj comes
    rfl
  case defaults =>
    rcases comes with same | same <;> obtain rfl := Option.some.inj same <;> rfl
  case cycle | release | enlist => cases goesOn

/-- What an interpreter goes on with is what its task has led to, or what comes after it. -/
private theorem mem_or_comes (comes : Linked Task.Comes (x :: rest) none)
    (begun : x.begun? = some c) (below : x.ends? = some c → c.first? rest = none)
    (first : c.first? (xs ++ rest) = some y) :
    y ∈ xs ∨ (∀ z ∈ xs, z.begun? ≠ some c) ∧ x.Comes (some y) ∧ y.phase? = none ∧
      x.ends? = none := by
  by_cases none : ∀ z ∈ xs, z.begun? ≠ some c
  · rw [Subject.first?_append_of_none none] at first
    obtain ⟨comes, quiet⟩ := Task.comes_of_rest comes begun below first
    refine .inr ⟨none, comes, quiet, ?_⟩
    cases ends : x.ends? with
    | none => rfl
    | some d =>
      obtain rfl := Option.some.inj ((Task.begun?_of_ends? ends).symm.trans begun)
      rw [below ends] at first
      cases first
  · obtain ⟨z, mem, own⟩ : ∃ z ∈ xs, z.begun? = some c := by simpa using none
    cases inner : c.first? xs with
    | none => exact absurd own (Subject.first?_eq_none.1 inner z mem)
    | some z' =>
      rw [Subject.first?_append_of_some inner] at first
      obtain rfl := Option.some.inj first
      exact .inl (Subject.mem_of_first? inner)

/-- What is led to speaks only if the task did, or if it starts an action. -/
private theorem phase?_of_next (yields : w.Yields x xs) (begun : x.begun? = some c)
    (own : y.begun? = some c) (origin : y ∈ xs ∨ y.phase? = none) :
    y.phase? = none ∨ y.phase? = x.phase? ∨ x.Invokes c := by
  rcases origin with mem | quiet
  · rcases yields.of_begun mem own with ⟨_, same | ⟨a, e, p, rfl⟩⟩ | ⟨quiet, _⟩
    · exact .inr (.inl same)
    · cases begun
      exact .inr (.inr ⟨a, e, p, rfl⟩)
    · exact .inl quiet
  · exact .inl quiet

/-- The slot is left alone. -/
private theorem Core.Slotted.of_same {core core' : Core} {asked : Prop} (slotted : core.Slotted asked x)
    (quiet : x.demand? = none) (raised : core'.raised = core.raised)
    (halted : core'.halted = core.halted)
    (calm : x = c.round → core.raised = none ∨ core.halted = true)
    (spent : core.halted = true → x.concludes = true → ∀ y ∈ xs, y.begun? = none)
    (yields : w.Yields x xs) (begun : x.begun? = some c) (own : y.begun? = some c)
    (origin : y ∈ xs ∨ x.Comes (some y) ∧ y.phase? = none ∧ x.ends? = none) :
    core'.Slotted (x.Asks c asked) y := by
  have speaks := phase?_of_next yields begun own (origin.imp_right fun h => h.2.1)
  -- an action that starts finds the slot empty
  have invoked : x.Invokes c → core.raised = none := by
    rintro ⟨a, e, p, rfl⟩
    exact slotted.free rfl rfl
  constructor
  · intro still other
    rw [raised]
    cases spoke : x.phase? with
    | some phase =>
      have returns : x.Comes (some y) := by
        rcases origin with mem | ⟨comes, _⟩
        · rcases yields.of_begun mem own with ⟨_, same | ⟨a, e, p, rfl⟩⟩ |
            ⟨_, ⟨i, _, rfl⟩ | ⟨m, e, _, rfl⟩ | ⟨m, d, id, _, rfl⟩⟩
          · rw [still, spoke] at same
            cases same
          all_goals cases spoke
        · exact comes
      have heeds : phase = .exit ∨ y.heeds = true := by
        cases x <;> try cases spoke
        case perform speaker _ | resume speaker _ _ _ =>
          cases speaker <;> cases spoke
          exact Task.Returns.heeds returns
      rcases heeds with rfl | heeds
      · exact slotted.exits spoke
      · rw [heeds] at other
        cases other
    | none =>
      cases heeds : x.heeds with
      | false => exact slotted.free spoke heeds
      | true =>
        have round : (∃ i r b, x = .settle i r b) ∨ x = c.round := by
          cases x <;> cases heeds
          case settle => exact .inl ⟨_, _, _, rfl⟩
          case cycle | drain =>
            cases begun
            exact .inr rfl
        rcases round with ⟨i, r, b, rfl⟩ | round
        · rcases origin with mem | ⟨comes, _⟩
          · rw [yields.eq_nil_of_settle] at mem
            cases mem
          · obtain rfl := Option.some.inj comes
            cases other
        · exact (calm round).elim (fun empty => empty) slotted.emptied
  · intro opens
    by_contra ceased
    have ceased : core.halted = true := by rw [← halted]; simpa using ceased
    have concludes : x.concludes = true := by
      by_contra other
      have awake := slotted.awake (by simpa using other)
      rw [ceased] at awake
      cases awake
    rcases origin with mem | ⟨comes, _, goesOn⟩
    · rw [spent ceased concludes y mem] at own
      cases own
    · rw [comes.concludes concludes goesOn] at opens
      cases opens
  · intro ceased
    rw [raised]
    exact slotted.emptied (halted ▸ ceased)
  · intro phase spoken
    have undemanded : ¬x.Demands c := by
      rintro ⟨_, demands⟩
      rw [quiet] at demands
      cases demands
    rw [raised]
    rcases speaks with still | same | invokes
    · rw [still] at spoken
      cases spoken
    · have spoke := same.symm.trans spoken
      have other : ¬x.Invokes c := by
        rintro ⟨a, e, p, rfl⟩
        cases spoke
      rw [slotted.asked phase spoke]
      exact ⟨fun asked => .inr ⟨asked, other⟩, fun asks => (asks.resolve_left undemanded).1⟩
    · exact ⟨fun filled => absurd (invoked invokes) filled,
        fun asks => absurd invokes (asks.resolve_left undemanded).2⟩
  · intro exits
    rw [raised]
    rcases speaks with still | same | invokes
    · rw [still] at exits
      cases exits
    · exact slotted.exits (same.symm.trans exits)
    · exact invoked invokes

/-- A task of an interpreter leaves in its slot what is expected of what comes next. -/
private theorem Core.Slotted.step {core core' : Core} {asked : Prop} (slotted : core.Slotted asked x)
    (stirs : core.Stirs c x xs core') (yields : w.Yields x xs)
    (comes : Linked Task.Comes (x :: rest) none) (begun : x.begun? = some c)
    (below : x.ends? = some c → c.first? rest = none)
    (first : c.first? (xs ++ rest) = some y) : core'.Slotted (x.Asks c asked) y := by
  have origin := (mem_or_comes comes begun below first).imp_right fun h => h.2
  have own := Subject.begun?_of_first? first
  have still : x.phase? = none → ¬x.Invokes c → y.phase? = none := by
    intro quiet other
    rcases phase?_of_next yields begun own (origin.imp_right fun h => h.2.1) with
      still | same | invokes
    · exact still
    · exact same.trans quiet
    · exact absurd invokes other
  cases stirs with
  | keeps quiet raised halted calm spent =>
    exact slotted.of_same quiet raised halted calm spent yields begun own origin
  | obeys raised awake =>
    refine .of_none rfl (fun _ => awake) (still (Task.phase?_round c) ?_)
    rintro ⟨a, e, p, same⟩
    cases c <;> cases same
  | halts event r =>
    have concludes : y.concludes = true := by
      rcases origin with mem | ⟨comes, _⟩
      · cases c with
        | monitor => cases mem
        | actor =>
          cases r with
          | none => cases mem
          | some =>
            obtain rfl := List.mem_singleton.1 mem
            rfl
      · obtain rfl := Option.some.inj comes
        exact Task.concludes_round c
    refine .of_none rfl (fun opens => ?_) (still rfl ?_)
    · rw [concludes] at opens
      cases opens
    · rintro ⟨a, e, p, same⟩
      cases same
  | @asks phase request next d asks _ may free =>
    obtain rfl : Task.perform (.action c phase) (next (.ok .null)) = y := by
      rw [List.singleton_append, Subject.first?_cons_self rfl] at first
      exact Option.some.inj first
    have awake := slotted.awake rfl
    exact {
      free := fun quiet => by cases quiet
      awake := fun _ => awake
      emptied := fun halted => absurd (awake.symm.trans halted) Bool.false_ne_true
      asked := fun _ _ => ⟨fun _ => .inl ⟨rfl, by simp [Task.demand?, asks]⟩, fun _ => nofun⟩
      exits := fun exits => absurd (Option.some.inj exits) may }

/-- An interpreter that is done with everything leaves its slot empty. -/
private theorem Core.Slotted.done {core core' : Core} {asked : Prop} (slotted : core.Slotted asked x)
    (stirs : core.Stirs c x xs core') (comes : Linked Task.Comes (x :: rest) none)
    (begun : x.begun? = some c) (first : c.first? (xs ++ rest) = none) : core'.raised = none := by
  have nothing := Subject.first?_eq_none.1 first
  have ends : x.ends? = some c := by
    rcases comes.1.exists_next begun with ends | ⟨y, next, own, _⟩
    · exact ends
    · cases rest with
      | nil => cases next
      | cons z rest =>
        obtain rfl : z = y := by simpa using next
        exact absurd own (nothing z (List.mem_append_right _ List.mem_cons_self))
  cases stirs with
  | keeps _ raised _ calm _ =>
    rw [raised]
    cases c with
    | actor i =>
      obtain rfl := Task.eq_of_ends? ends
      exact (calm rfl).elim (fun empty => empty) slotted.emptied
    | monitor m =>
      have frees := Task.frees?_of_ends? ends
      cases x <;> cases frees <;> exact slotted.free rfl rfl
  | obeys | halts => rfl
  | asks => exact absurd rfl (nothing _ (List.mem_append_left _ List.mem_cons_self))

/-- Whatever step is taken, the slot of an interpreter holds what is expected. -/
theorem World.Slotted.step {asked : Prop} (slotted : w.Slotted c asked) (composed : w.Composed)
    (composed' : w'.Composed) (affects : w.Affects w' c x) : w'.Slotted c (x.Asks c asked) := by
  cases affects with
  | spares apart same core =>
    rw [propext (Task.asks_of_apart apart asked)]
    refine ⟨fun y core' pursues found => ?_, fun core' rests found => ?_⟩
    · have pursued := (same y).1 pursues
      rcases core with core | ⟨absent, _⟩
      · exact slotted.busy y core' pursued (core.symm.trans found)
      · obtain ⟨_, there⟩ := composed.core_of_pursues pursued
        cases absent.symm.trans there
    · rcases core with core | ⟨_, fresh⟩
      · exact slotted.idle core' (fun y pursues => rests y ((same y).2 pursues))
          (core.symm.trans found)
      · exact fresh core' found
  | answers apart waits goes core =>
    rw [propext (Task.asks_of_apart apart asked)]
    refine ⟨fun y core' pursues found => ?_, fun _ rests _ => absurd goes (rests _)⟩
    obtain rfl := composed'.pursues_unique goes pursues
    have before := slotted.busy _ core' waits (core.symm.trans found)
    exact ⟨before.free, before.awake, before.emptied, before.asked, before.exits⟩
  | @begins core apart rests quiet found awake before =>
    rw [propext (Task.asks_of_apart apart asked)]
    have raised : core.raised = none :=
      before.elim (fun known => slotted.idle core rests known) fun empty => empty
    refine ⟨fun y core' pursues found' => ?_, fun core' _ found' => ?_⟩ <;>
      obtain rfl := Option.some.inj (found.symm.trans found')
    · exact .of_none raised (fun _ => awake) (quiet y pursues)
    · exact raised
  | drops apart was gone core =>
    refine ⟨fun y _ pursues _ => absurd pursues (gone y), fun core' _ found => ?_⟩
    exact (slotted.busy _ core' was (core.symm.trans found)).free rfl rfl
  | @does xs rest core core' begun pursues comes below yields found now stirs next speaks =>
    have before := slotted.busy x core pursues found
    refine ⟨fun y there goes found' => ?_, fun there rests found' => ?_⟩ <;>
      obtain rfl := Option.some.inj (now.symm.trans found')
    · exact before.step stirs yields comes begun below ((next y).1 goes)
    · refine before.done stirs comes begun (Option.eq_none_iff_forall_not_mem.2 fun y first => ?_)
      exact rests y ((next y).2 first)

end Steps

/-! ## Runs -/

/-- An action of an interpreter fails. -/
def Task.fails (c : Subject) : Task → Bool
  | .perform (.action _ _) (.finish _ .ok) => false
  | .perform (.action d _) (.finish _ _) => d == c
  | _ => false

theorem Task.ending_of_not_fails {c : Subject} {phase : Phase} {memory : Memory} {ending : Ending}
    (sound : Task.fails c (.perform (.action c phase) (.finish memory ending)) = false) :
    ending = .ok := by
  cases ending with
  | ok => rfl
  | failed | panicked => simp [Task.fails] at sound

namespace World

variable [Strategy σ] {w : World σ} {t : ThreadId} {c : Subject} {x : Task}

/-- A thread that cannot move has to wait. -/
theorem Orderly.waits_of_stuck (orderly : w.Orderly) {rest : List Task} {outside : Bool}
    (found : w.thread? t = some ⟨x :: rest, outside⟩) (stuck : w.stepThread? t = none) :
    w.exec t x = .wait := by
  have acts := orderly.exec t (orderly.founded t _ found x List.mem_cons_self)
  rw [stepThread?_cons found] at stuck
  cases executed : w.exec t x with
  | wait => rfl
  | answer => simp [executed] at stuck
  | go xs v =>
    rw [executed] at acts
    obtain ⟨old, kept, _⟩ := acts.1.kept t _ found
    simp [executed, kept] at stuck

/-- An action never waits before it starts or makes a demand. -/
theorem exec_ne_wait {thread : Thread} (found : w.thread? t = some thread)
    (prompt : x.Demands c ∨ x.Invokes c) : w.exec t x ≠ .wait := by
  rcases prompt with ⟨begun, demands⟩ | ⟨action, event, phase, rfl⟩
  · obtain ⟨speaker, voice, request, next, rfl⟩ :
        ∃ speaker voice request next, x = .perform speaker (.ask voice request next) := by
      cases x <;> try cases demands
      case perform speaker program =>
        cases program with
        | finish => cases speaker <;> cases demands
        | ask voice request next => exact ⟨_, _, _, _, rfl⟩
    rcases exec_ask found speaker voice request next with ⟨_, _, _, goes⟩ | ⟨_, _, _, _, goes⟩ <;>
      simp [goes]
  · simp only [exec, invoke, withCore]
    split <;> simp

end World

namespace Experiment

variable [Strategy σ] (e : Experiment) (ids : Allocator) (s : σ)

/-- The action of an interpreter has made a demand since it was started. -/
def HasAsked (c : Subject) (n : Nat) : Prop :=
  ∃ k < n, ∃ x, (e.iterate k ids s).next? = some x ∧ x.Demands c ∧
    ∀ j, k < j → j < n → ∀ y, (e.iterate j ids s).next? = some y → ¬y.Invokes c

variable {e ids s} {c : Subject} {x : Task} {n : Nat}

theorem hasAsked_succ (next : (e.iterate n ids s).next? = some x) :
    e.HasAsked ids s c (n + 1) ↔ x.Asks c (e.HasAsked ids s c n) := by
  constructor
  · rintro ⟨k, before, y, there, demands, since⟩
    rcases Nat.lt_succ_iff_lt_or_eq.1 before with earlier | rfl
    · exact .inr ⟨⟨k, earlier, y, there, demands, fun j after lt => since j after (by omega)⟩,
        since n earlier (by omega) x next⟩
    · obtain rfl := Option.some.inj (there.symm.trans next)
      exact .inl demands
  · rintro (demands | ⟨⟨k, before, y, there, demands, since⟩, other⟩)
    · exact ⟨n, by omega, x, next, demands, fun j after lt => by omega⟩
    · refine ⟨k, by omega, y, there, demands, fun j after lt z found => ?_⟩
      rcases Nat.lt_succ_iff_lt_or_eq.1 lt with earlier | rfl
      · exact since j after earlier z found
      · obtain rfl := Option.some.inj (found.symm.trans next)
        exact other

/-- Whether an action has made a demand is the same as long as nothing moves. -/
private theorem hasAsked_of_stuck (accepted : e.registry.Accepted)
    (running : (e.iterate n ids s).isOver = false) (stuck : (e.iterate n ids s).step? = none) :
    e.HasAsked ids s c (n + 1) ↔ e.HasAsked ids s c n := by
  rw [World.step?_of_running (e.sound running).explores running] at stuck
  cases next : (e.iterate n ids s).next? with
  | some x =>
    obtain ⟨rest, outside, found⟩ := World.thread_of_next? next
    have waits := ((e.reached n ids s).orderly accepted).waits_of_stuck found stuck
    have idle : ¬(x.Demands c ∨ x.Invokes c) :=
      fun prompt => World.exec_ne_wait found prompt waits
    rw [hasAsked_succ next]
    exact ⟨fun asks => (asks.resolve_left fun demands => idle (.inl demands)).1,
      fun asked => .inr ⟨asked, fun invokes => idle (.inr invokes)⟩⟩
  | none =>
    constructor
    · rintro ⟨k, before, y, there, demands, since⟩
      rcases Nat.lt_succ_iff_lt_or_eq.1 before with earlier | rfl
      · exact ⟨k, earlier, y, there, demands, fun j after lt => since j after (by omega)⟩
      · cases there.symm.trans next
    · rintro ⟨k, before, y, there, demands, since⟩
      refine ⟨k, by omega, y, there, demands, fun j after lt z found => ?_⟩
      rcases Nat.lt_succ_iff_lt_or_eq.1 lt with earlier | rfl
      · exact since j after earlier z found
      · cases found.symm.trans next

/-- What a step of a run means for an interpreter whose actions do not fail. -/
theorem affects_of_step? (accepted : e.registry.Accepted)
    (running : (e.iterate (n + 1) ids s).isOver = false) {w : World σ}
    (moved : (e.iterate n ids s).step? = some w)
    (sound : ∀ x, (e.iterate n ids s).next? = some x → x.fails c = false) :
    ∃ x, (e.iterate n ids s).next? = some x ∧
      (e.iterate n ids s).Affects (e.iterate (n + 1) ids s) c x := by
  have before := e.running_of_succ ids s running
  have same : e.iterate (n + 1) ids s = w := by rw [iterate_succ, moved, Option.getD_some]
  rw [World.step?_of_running (e.sound before).explores before, ← same] at moved
  obtain ⟨x, rest, outside, found, _⟩ := World.of_stepThread? moved
  have next := World.next?_of_thread found
  refine ⟨x, next, World.affects_of_stepThread? (e.composed accepted ids s n)
    ((e.reached n ids s).orderly accepted) (e.owned accepted ids s n) found moved running c ?_⟩
  rintro phase memory ending rfl
  exact Task.ending_of_not_fails (sound _ next)

/-- At any time the slot of an interpreter whose actions have not failed holds what is expected. -/
theorem slotted (accepted : e.registry.Accepted) (running : (e.iterate n ids s).isOver = false)
    (sound : ∀ k < n, ∀ x, (e.iterate k ids s).next? = some x → x.fails c = false) :
    (e.iterate n ids s).Slotted c (e.HasAsked ids s c n) := by
  induction n with
  | zero =>
    have absent : (e.iterate 0 ids s).core? c = none := by cases c <;> rfl
    refine ⟨fun _ _ _ found => ?_, fun _ _ found => ?_⟩ <;> cases absent.symm.trans found
  | succ n ih =>
    have before := e.running_of_succ ids s running
    have slotted := ih before fun k lt => sound k (Nat.lt_succ_of_lt lt)
    cases moved : (e.iterate n ids s).step? with
    | none =>
      rw [propext (hasAsked_of_stuck accepted before moved), iterate_succ, moved, Option.getD_none]
      exact slotted
    | some w =>
      obtain ⟨x, next, affects⟩ :=
        affects_of_step? accepted running moved (sound n (Nat.lt_succ_self n))
      rw [propext (hasAsked_succ next)]
      exact slotted.step (e.composed accepted ids s n) (e.composed accepted ids s (n + 1)) affects

end Experiment

end SteeredActors
