import SteeredActors.World.Request

/-!
# What requests come to

Requests to send, to create and to change the own interpreter are checked before they are carried out.
Each is read here once: whether it is refused and what the refusal reports, and otherwise what was
found and what the request leads to. What a request keeps and what it brings follows from these cases.
-/

set_option autoImplicit false
set_option relaxedAutoImplicit false

namespace SteeredActors

variable {σ : Type}

/-- What the actions of a type of actors may demand: gotos and pushes lead to states that there are,
and monitors neither push nor pop. -/
def Demand.Allowed (d : Descriptor) : Demand → Prop
  | .event _ => True
  | .goto state => (d.state? state).isSome
  | .push state => d.kind = .machine ∧ (d.state? state).isSome
  | .pop => d.kind = .machine

/-- What a rendezvous comes to. -/
inductive Service.OfRendezvous (w : World σ) (caller : Option Nat) (target : ActorId)
    (event : Event) : Service σ → Prop where
  | refused {r : Refusal} (honest : r.isTermination = true → w.isOver = true) :
      OfRendezvous w caller target event (w.refuse r)
  /-- An actor would wait for itself. -/
  | fails (text : String) :
      OfRendezvous w caller target event
        ((w.report (.assertion text (some target))).refuse (.assertionFailure text))
  | brings {i : Nat} (running : w.isOver = false) (known : w.ensureKnown caller = .ok ())
      (found : w.actor? target = some i) :
      OfRendezvous w caller target event (.later [.forward event, .engage i event] w)

/-- What a request to create an actor comes to. -/
inductive Service.OfCreation (w : World σ) (caller : Option Nat) (typeTag : String)
    (name : Option String) (event : Option Event) (execute : Bool) : Service σ → Prop where
  | refused {r : Refusal} (honest : r.isTermination = true → w.isOver = true) :
      OfCreation w caller typeTag name event execute (w.refuse r)
  /-- There is no number left. -/
  | overflows (generation : Nat) (report : BugReport) :
      OfCreation w caller typeTag name event execute
        ((w.report report).refuse (.identity (.overflow generation)))
  /-- Somebody has this identity already. -/
  | taken {id : ActorId} {ids : Allocator} (known : w.ensureKnown caller = .ok ())
      (numbered : w.ids.create typeTag (name.getD "") name.isSome = (.ok id, ids))
      (taken : (w.actor? id).isSome = true) (text : String) :
      OfCreation w caller typeTag name event execute
        (World.refuse { w with ids } (.invalidOperation text))
  | populates {d : Descriptor} {id : ActorId} {ids : Allocator} (running : w.isOver = false)
      (known : w.ensureKnown caller = .ok ()) (offered : w.registry.machine? typeTag = some d)
      (numbered : w.ids.create typeTag (name.getD "") name.isSome = (.ok id, ids))
      (free : w.actor? id = none) :
      OfCreation w caller typeTag name event execute
        (World.populate { w with ids } caller id d event execute)

/-- What a demand comes to. The context is the action that makes it. -/
inductive Service.OfDemand (w : World σ) (context : Option (Subject × Phase × Core)) (d : Demand) :
    Service σ → Prop where
  | nobody (absent : context = none) (text : String) :
      OfDemand w context d (w.refuse (.invalidOperation text))
  | fails (text : String) (actor : Option ActorId) :
      OfDemand w context d ((w.report (.assertion text actor)).refuse (.assertionFailure text))
  /-- The slot is free and takes the demand. -/
  | kept {c : Subject} {phase : Phase} {core : Core} (asked : context = some (c, phase, core))
      (allowed : d.Allowed core.descriptor) (enters : phase ≠ .exit) (free : core.raised = none) :
      OfDemand w context d
        (.now (.ok .null) (w.modifyCore c fun core => { core with raised := some d }))

/-- Without an identity no number is used up. -/
theorem Allocator.create_eq_error {ids ids' : Allocator} {typeTag friendly : String} {useName : Bool}
    {e : IdentityError} (refused : ids.create typeTag friendly useName = (.error e, ids')) :
    ids' = ids := by
  cases useName with
  | true => exact (Prod.mk.inj refused).2.symm
  | false =>
    simp only [Allocator.create, Bool.false_eq_true, if_false, Allocator.numbered] at refused
    split at refused
    · exact (Prod.mk.inj refused).2.symm
    · cases (Prod.mk.inj refused).1

namespace World

variable {w : World σ} {caller : Option Nat} {target : ActorId} {typeTag : String}

/-! ## Who asks and who is asked -/

section

variable {c : Subject} {phase : Phase} {core : Core}

theorem context?_of_action (found : w.core? c = some core) :
    w.context? (.action c phase) .own = some (c, phase, core) := by
  simp [context?, found]

theorem context?_eq_some {speaker : Speaker} {voice : Voice}
    (asked : w.context? speaker voice = some (c, phase, core)) :
    voice = .own ∧ speaker = .action c phase ∧ w.core? c = some core := by
  unfold context? at asked
  split at asked
  · obtain ⟨_, found, same⟩ := Option.map_eq_some_iff.1 asked
    cases same
    exact ⟨rfl, rfl, found⟩
  · cases asked

end

/-- An identity stands for the first actor that has it. -/
theorem actor?_eq_some {id : ActorId} {j : Nat} :
    w.actor? id = some j ↔
      (∃ core, w.core? (.actor j) = some core ∧ core.id.same id = true) ∧
        ∀ k < j, ∀ core, w.core? (.actor k) = some core → core.id.same id = false := by
  unfold actor?
  rw [List.findIdx?_eq_some_iff_getElem]
  constructor
  · rintro ⟨there, same, others⟩
    refine ⟨⟨_, by simp [core?, there], same⟩, fun k lt core found => ?_⟩
    have inside : k < w.actors.length := by omega
    have other := others k lt
    simp only [core?, List.getElem?_eq_getElem inside, Option.map_some, Option.some.injEq] at found
    rw [← found]
    simpa using other
  · rintro ⟨⟨core, found, same⟩, others⟩
    obtain ⟨a, there, rfl⟩ := Option.map_eq_some_iff.1 found
    obtain ⟨inside, rfl⟩ := List.getElem?_eq_some_iff.1 there
    refine ⟨inside, same, fun k lt => ?_⟩
    have within : k < w.actors.length := by omega
    simpa using others k lt w.actors[k].core (by simp [core?, within])

/-! ## Checks -/

theorem ensureRunning_eq_ok (ensured : w.ensureRunning = .ok ()) : w.isOver = false := by
  unfold ensureRunning at ensured
  split at ensured
  · cases ensured
  · next running => simpa using running

theorem isOver_of_ensureRunning {r : Refusal} (failed : w.ensureRunning = .error r) :
    w.isOver = true := by
  unfold ensureRunning at failed
  split at failed
  · assumption
  · cases failed

private theorem of_ensureKnown {r : Refusal} (failed : w.ensureKnown caller = .error r) :
    r.isTermination = false := by
  unfold ensureKnown at failed
  split at failed
  · cases failed
    rfl
  · cases failed

private theorem of_findActor {r : Refusal} (failed : w.findActor target = .error r) :
    r.isTermination = false := by
  unfold findActor at failed
  split at failed
  · cases failed
  · cases failed
    rfl

private theorem actor?_of_findActor {i : Nat} (found : w.findActor target = .ok i) :
    w.actor? target = some i := by
  unfold findActor at found
  split at found
  · next there =>
    cases found
    exact there
  · cases found

/-- While decisions are explored, the controller knows whoever is let through. -/
theorem isSome_of_ensureKnown (explores : w.explores = true)
    (known : w.ensureKnown caller = .ok ()) : caller.isSome = true := by
  cases caller with
  | some op => rfl
  | none => simp [ensureKnown, explores] at known

/-- Nothing is sent or created unless the run goes on and the controller knows who calls. -/
private theorem checks_eq_ok {α : Type} {next : Except Refusal α} {a : α}
    (passed : (do w.ensureRunning; w.ensureKnown caller; next) = .ok a) :
    w.isOver = false ∧ w.ensureKnown caller = .ok () ∧ next = .ok a := by
  cases running : w.ensureRunning with
  | error r => simp [running, bind, Except.bind] at passed
  | ok _ =>
    cases known : w.ensureKnown caller with
    | error r => simp [running, known, bind, Except.bind] at passed
    | ok _ =>
      simp only [running, known, bind, Except.bind] at passed
      exact ⟨ensureRunning_eq_ok running, rfl, passed⟩

/-- Otherwise it fails for a reason of its own, or because the run has ended. -/
private theorem checks_eq_error {α : Type} {next : Except Refusal α} {r : Refusal}
    (failed : (do w.ensureRunning; w.ensureKnown caller; next) = .error r)
    (own : next = .error r → r.isTermination = false) (ends : r.isTermination = true) :
    w.isOver = true := by
  have honest : r.isTermination ≠ false := by simp [ends]
  cases running : w.ensureRunning with
  | error r' => exact isOver_of_ensureRunning running
  | ok _ =>
    cases known : w.ensureKnown caller with
    | error r' =>
      simp only [running, known, bind, Except.bind, Except.error.injEq] at failed
      exact absurd (failed ▸ of_ensureKnown known) honest
    | ok _ =>
      simp only [running, known, bind, Except.bind] at failed
      exact absurd (own failed) honest

/-! ## Sending -/

/-- An event is sent to an actor that is there. -/
theorem send_eq_ok {event : Event} {xs : List Task} (sent : w.send caller target event = .ok xs) :
    ∃ i, w.isOver = false ∧ w.ensureKnown caller = .ok () ∧ w.actor? target = some i ∧
      xs = [.forward event, .post i event, .point .send, .answer .null] := by
  obtain ⟨running, known, passed⟩ := checks_eq_ok sent
  cases found : w.findActor target with
  | error r => simp [found, bind, Except.bind] at passed
  | ok i =>
    simp only [found, bind, Except.bind, pure, Except.pure, Except.ok.injEq] at passed
    exact ⟨i, running, known, actor?_of_findActor found, passed.symm⟩

theorem send_eq_error {event : Event} {r : Refusal} (failed : w.send caller target event = .error r)
    (ends : r.isTermination = true) : w.isOver = true := by
  refine checks_eq_error failed (fun failed => ?_) ends
  cases found : w.findActor target with
  | error r' =>
    simp only [found, bind, Except.bind, Except.error.injEq] at failed
    exact failed ▸ of_findActor found
  | ok i => simp [found, bind, Except.bind, pure, Except.pure] at failed

theorem ofRendezvous (w : World σ) (caller : Option Nat) (target : ActorId) (event : Event) :
    (w.sendAndExecute caller target event).OfRendezvous w caller target event := by
  unfold sendAndExecute
  simp only
  split
  · next failed => exact .refused (checks_eq_error failed of_findActor)
  · next checked =>
    obtain ⟨running, known, found⟩ := checks_eq_ok checked
    split
    · exact .fails _
    · exact .brings running known (actor?_of_findActor found)

/-! ## Creating -/

theorem ofCreation (w : World σ) (caller : Option Nat) (typeTag : String) (name : Option String)
    (event : Option Event) (execute : Bool) :
    (w.create caller typeTag name event execute).OfCreation w caller typeTag name event execute := by
  unfold create
  simp only
  split
  · next failed =>
    refine .refused (checks_eq_error failed fun failed => ?_)
    split at failed
    · simp [pure, Except.pure] at failed
    · simp only [throw, throwThe, MonadExceptOf.throw, Except.error.injEq] at failed
      exact failed ▸ rfl
  · next d checked =>
    obtain ⟨running, known, passed⟩ := checks_eq_ok checked
    have offered : w.registry.machine? typeTag = some d := by
      split at passed
      · next found => exact found.trans (congrArg some (Except.ok.inj passed))
      · cases passed
    unfold allocate
    cases numbered : w.ids.create typeTag (name.getD "") name.isSome with
    | mk result ids =>
      cases result with
      | error e =>
        obtain rfl := Allocator.create_eq_error numbered
        cases e with
        | nameRequired => exact .refused nofun
        | overflow generation => exact .overflows generation _
      | ok id =>
        simp only
        split
        · next taken => exact .taken known numbered taken _
        · next free =>
          exact .populates running known offered numbered (Option.not_isSome_iff_eq_none.1 free)

/-! ## Demands -/

section

variable {c : Subject} {phase : Phase} {core : Core} {d : Demand}

/-- A demand that the type of an actor allows is refused only for what the action has done. -/
theorem serveDemand_of_allowed (allowed : d.Allowed core.descriptor) :
    w.serveDemand (some (c, phase, core)) d = w.demand c phase core d := by
  have state : ∀ state, (core.descriptor.state? state).isSome = true →
      w.demandState c phase core state d = w.demand c phase core d := by
    intro state known
    obtain ⟨s, known⟩ := Option.isSome_iff_exists.1 known
    simp [demandState, known]
  cases d with
  | event event => rfl
  | goto target => exact state target allowed
  | push target =>
    simp only [serveDemand, demandOfMachine, allowed.1]
    exact state target allowed.2
  | pop =>
    have machine : core.descriptor.kind = .machine := allowed
    simp only [serveDemand, demandOfMachine, machine]

private theorem ofDemand_demand (allowed : d.Allowed core.descriptor) :
    (w.demand c phase core d).OfDemand w (some (c, phase, core)) d := by
  unfold demand
  split
  · exact .fails _ _
  · next enters =>
    split
    · exact .fails _ _
    · next free => exact .kept rfl allowed enters (by simpa using free)

private theorem ofDemand_demandState {state : String}
    (allowed : (core.descriptor.state? state).isSome = true → d.Allowed core.descriptor) :
    (w.demandState c phase core state d).OfDemand w (some (c, phase, core)) d := by
  unfold demandState
  split
  · next there => exact ofDemand_demand (allowed (by simp [there]))
  · exact .fails _ _

private theorem ofDemand_demandOfMachine {what : String} {next : Service σ}
    (served : core.descriptor.kind = .machine → next.OfDemand w (some (c, phase, core)) d) :
    (w.demandOfMachine core what next).OfDemand w (some (c, phase, core)) d := by
  unfold demandOfMachine
  split
  · next machine => exact served machine
  · exact .fails _ _

end

theorem ofDemand (w : World σ) (context : Option (Subject × Phase × Core)) (d : Demand) :
    (w.serveDemand context d).OfDemand w context d := by
  match context with
  | none => exact .nobody rfl _
  | some (c, phase, core) =>
    cases d with
    | event => exact ofDemand_demand trivial
    | goto => exact ofDemand_demandState id
    | push =>
      exact ofDemand_demandOfMachine fun machine => ofDemand_demandState fun there => ⟨machine, there⟩
    | pop => exact ofDemand_demandOfMachine fun machine => ofDemand_demand machine

/-! ## Registering -/

/-- A monitor is registered by its installation. -/
theorem registerMonitor_eq_ok {xs : List Task} (begun : w.registerMonitor typeTag = .ok xs) :
    ∃ descriptor id, w.isOver = false ∧ w.registry.monitor? typeTag = some descriptor ∧
      xs = [.install descriptor id, .answer .null] := by
  unfold registerMonitor at begun
  cases running : w.ensureRunning with
  | error r => simp [running, bind, Except.bind] at begun
  | ok _ =>
    cases found : w.registry.monitor? typeTag with
    | none => simp [running, found, bind, Except.bind, throw, throwThe, MonadExceptOf.throw] at begun
    | some descriptor =>
      cases named : w.ids.named typeTag typeTag with
      | error e =>
        simp [running, found, named, bind, Except.bind, throw, throwThe, MonadExceptOf.throw]
          at begun
      | ok id =>
        simp [running, found, named, bind, Except.bind, pure, Except.pure] at begun
        exact ⟨descriptor, id, ensureRunning_eq_ok running, rfl, begun.symm⟩

theorem registerMonitor_eq_error {r : Refusal} (failed : w.registerMonitor typeTag = .error r)
    (ends : r.isTermination = true) : w.isOver = true := by
  unfold registerMonitor at failed
  cases running : w.ensureRunning with
  | error r' => exact isOver_of_ensureRunning running
  | ok _ =>
    simp only [running, bind, Except.bind] at failed
    split at failed
    · cases failed
      cases ends
    · split at failed <;> cases failed
      cases ends

end World

end SteeredActors
