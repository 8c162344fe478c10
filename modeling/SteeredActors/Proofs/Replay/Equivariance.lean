import SteeredActors.Proofs.Replay.Renaming

/-!
# What does not depend on generations

Everything that is computed with identities, values, descriptors, stacks and mailboxes commutes with
a renaming of generations, except that texts of identities show them, and that identities of several
generations are put in order by them.
-/

set_option autoImplicit false
set_option relaxedAutoImplicit false

namespace SteeredActors

variable (π : Equiv.Perm Nat)

/-! ## Identities -/

namespace ActorId

@[simp] theorem name_rename (a : ActorId) : (a.rename π).name = a.name := rfl

@[simp] theorem same_rename (a b : ActorId) : (a.rename π).same (b.rename π) = a.same b := by
  have generations : (π a.generation == π b.generation) = (a.generation == b.generation) := by
    rw [Bool.eq_iff_iff]
    simp
  exact congrArg (a.isNamed == b.isNamed
    && (if a.isNamed then a.keyName == b.keyName else a.value == b.value) && ·) generations

private theorem order_rename {a b : ActorId} (same : a.generation = b.generation) :
    (a.rename π).order (b.rename π) = a.order b := by
  unfold order
  rw [same_rename]
  simp [rename, same, isNamed]

private theorem insertBackwards_rename {a : ActorId} {ids : List ActorId}
    (same : ∀ b ∈ ids, a.generation = b.generation) :
    insertBackwards (a.rename π) (ids.map (rename π)) = (insertBackwards a ids).map (rename π) := by
  induction ids with
  | nil => rfl
  | cons b rest ih =>
    obtain ⟨first, others⟩ := List.forall_mem_cons.1 same
    simp only [List.map_cons, insertBackwards, order_rename π first]
    split
    · rw [ih others, List.map_cons]
    · rfl

private theorem mem_insertBackwards {a b : ActorId} {ids : List ActorId} :
    b ∈ insertBackwards a ids ↔ b = a ∨ b ∈ ids := by
  induction ids with
  | nil => simp [insertBackwards]
  | cons c rest ih =>
    unfold insertBackwards
    split
    · rw [List.mem_cons, ih, List.mem_cons, or_left_comm]
    · simp

/-- Identities of one generation are put in the same order under another one. -/
theorem sort_rename {g : Nat} {ids : List ActorId} (one : ∀ a ∈ ids, a.generation = g) :
    sort (ids.map (rename π)) = (sort ids).map (rename π) := by
  have folded : ∀ sorted : List ActorId, (∀ a ∈ sorted, a.generation = g) →
      (ids.map (rename π)).foldl (fun backwards a => insertBackwards a backwards)
          (sorted.map (rename π)) =
        (ids.foldl (fun backwards a => insertBackwards a backwards) sorted).map (rename π) := by
    induction ids with
    | nil => exact fun _ _ => rfl
    | cons a rest ih =>
      obtain ⟨first, others⟩ := List.forall_mem_cons.1 one
      intro sorted same
      simp only [List.map_cons, List.foldl_cons]
      rw [insertBackwards_rename π fun b mem => first.trans (same b mem).symm]
      refine ih others _ fun b mem => ?_
      rcases mem_insertBackwards.1 mem with rfl | mem
      · exact first
      · exact same b mem
  have whole := folded [] (by simp)
  rw [List.map_nil] at whole
  rw [sort, sort, whole, List.map_reverse]

end ActorId

/-! ## Values -/

mutual

/-- No identity occurs in the value. -/
def Value.anonymous : Value → Bool
  | .actor _ => false
  | .list items => Value.allAnonymous items
  | .null | .bool _ | .int _ | .text _ | .shared _ => true

/-- No identity occurs in the values. -/
def Value.allAnonymous : List Value → Bool
  | [] => true
  | v :: vs => Value.anonymous v && Value.allAnonymous vs

end

@[simp] theorem SharedObject.describe_rename (o : SharedObject) :
    (o.rename π).describe = o.describe := by
  cases o <;> rfl

@[simp] theorem Value.ofNat_rename (n : Nat) : (Value.ofNat n).rename π = Value.ofNat n := by
  unfold Value.ofNat
  split <;> rfl

mutual

theorem Value.same_rename : (a b : Value) → (a.rename π).same (b.rename π) = a.same b
  | .list as, .list bs => by simp only [Value.rename, Value.same, Value.sameItems_rename as bs]
  | .list _, .null | .list _, .bool _ | .list _, .int _ | .list _, .text _ | .list _, .actor _
  | .list _, .shared _ => rfl
  | .null, b | .bool _, b | .int _, b | .text _, b | .shared _, b | .actor _, b => by
    cases b <;> simp [Value.rename, Value.same]

theorem Value.sameItems_rename :
    (as bs : List Value) →
      Value.sameItems (Value.renameAll π as) (Value.renameAll π bs) = Value.sameItems as bs
  | [], [] | [], _ :: _ | _ :: _, [] => rfl
  | a :: as, b :: bs => by
    simp only [Value.renameAll, Value.sameItems, Value.same_rename a b,
      Value.sameItems_rename as bs]

end

mutual

/-- Values without identities stay as they are. -/
theorem Value.rename_of_anonymous : (v : Value) → v.anonymous = true → v.rename π = v
  | .list items, h => by rw [Value.rename, Value.renameAll_of_anonymous items h]
  | .actor _, h => by cases h
  | .null, _ | .bool _, _ | .int _, _ | .text _, _ | .shared _, _ => rfl

theorem Value.renameAll_of_anonymous :
    (vs : List Value) → Value.allAnonymous vs = true → Value.renameAll π vs = vs
  | [], _ => rfl
  | v :: vs, h => by
    obtain ⟨first, others⟩ := Bool.and_eq_true_iff.1 h
    rw [Value.renameAll, Value.rename_of_anonymous v first, Value.renameAll_of_anonymous vs others]

end

mutual

/-- A text shows the generations of identities, and of nothing else. -/
theorem Value.render_rename (objects : List SharedObject) :
    (v : Value) → v.anonymous = true →
      (v.rename π).render (objects.map (SharedObject.rename π)) = v.render objects
  | .list items, h => by
    simp only [Value.rename, Value.render, Value.renderAll_rename objects items h]
  | .actor _, h => by cases h
  | .shared i, _ => by
    simp only [Value.rename, Value.render, List.getElem?_map]
    cases objects[i]? <;> simp
  | .null, _ | .bool _, _ | .int _, _ | .text _, _ => rfl

theorem Value.renderAll_rename (objects : List SharedObject) :
    (vs : List Value) → Value.allAnonymous vs = true →
      Value.renderAll (objects.map (SharedObject.rename π)) (Value.renameAll π vs) =
        Value.renderAll objects vs
  | [], _ => rfl
  | v :: vs, h => by
    obtain ⟨first, others⟩ := Bool.and_eq_true_iff.1 h
    simp only [Value.renameAll, Value.renderAll, Value.render_rename objects v first,
      Value.renderAll_rename objects vs others]

end

theorem Value.add_rename (objects : List SharedObject) {a b : Value} (first : a.anonymous = true)
    (second : b.anonymous = true) :
    (a.rename π).add (objects.map (SharedObject.rename π)) (b.rename π) =
      (a.add objects b).rename π := by
  have texts := Value.render_rename π objects a first
  have texts' := Value.render_rename π objects b second
  cases a <;> cases b <;>
    first
    | rfl
    | (simp only [Value.rename] at texts texts'
       simp only [Value.add, Value.rename, texts, texts'])

theorem Value.toKey_rename (objects : List SharedObject) {v : Value} (h : v.anonymous = true) :
    (v.rename π).toKey (objects.map (SharedObject.rename π)) = v.toKey objects := by
  have text := Value.render_rename π objects v h
  cases v <;> first | rfl | exact congrArg Key.text text

/-! ## Shared objects -/

/-- The operation shows no identity. -/
def SharedOperation.Discreet : SharedOperation → SharedObject → Prop
  | .register (.update a), .register v => v.anonymous = true ∧ a.anonymous = true
  | _, _ => True

theorem CounterOperation.ofMethod?_rename (method : String) (arguments : List Value) :
    ofMethod? method (arguments.map (Value.rename π)) = ofMethod? method arguments := by
  rcases arguments with _ | ⟨a, _ | ⟨b, _ | ⟨c, rest⟩⟩⟩
  · rfl
  · cases a <;> rfl
  · cases a <;> cases b <;> rfl
  · cases a <;> cases b <;> rfl

theorem RegisterOperation.ofMethod?_rename (method : String) (arguments : List Value) :
    ofMethod? method (arguments.map (Value.rename π)) =
      (ofMethod? method arguments).map (RegisterOperation.rename π) := by
  rcases arguments with _ | ⟨a, _ | ⟨b, rest⟩⟩
  · by_cases get : method = "get"
    · subst get; rfl
    · simp [ofMethod?, get]
  · by_cases set : method = "set"
    · subst set; rfl
    · by_cases update : method = "update"
      · subst update; rfl
      · simp [ofMethod?, set, update]
  · simp [ofMethod?]

theorem DictionaryOperation.ofMethod?_rename (objects : List SharedObject) (method : String)
    {arguments : List Value} (key : ∀ v ∈ arguments.head?, v.anonymous = true) :
    ofMethod? (objects.map (SharedObject.rename π)) method (arguments.map (Value.rename π)) =
      (ofMethod? objects method arguments).map (DictionaryOperation.rename π) := by
  have known : ∀ a rest, arguments = a :: rest →
      (a.rename π).toKey (objects.map (SharedObject.rename π)) = a.toKey objects :=
    fun a rest same => Value.toKey_rename π objects (key a (by simp [same]))
  rcases arguments with _ | ⟨a, _ | ⟨b, _ | ⟨c, _ | ⟨d, rest⟩⟩⟩⟩
  · by_cases count : method = "count"
    · subst count; rfl
    · simp [ofMethod?, count]
  · by_cases tryGet : method = "try_get"
    · subst tryGet; simp [ofMethod?, known a [] rfl, rename]
    · by_cases get : method = "get"
      · subst get; simp [ofMethod?, known a [] rfl, rename]
      · by_cases remove : method = "try_remove"
        · subst remove; simp [ofMethod?, known a [] rfl, rename]
        · simp [ofMethod?, tryGet, get, remove]
  · by_cases add : method = "try_add"
    · subst add; simp [ofMethod?, known a _ rfl, rename]
    · by_cases set : method = "set"
      · subst set; simp [ofMethod?, known a _ rfl, rename]
      · simp [ofMethod?, add, set]
  · by_cases update : method = "try_update"
    · subst update; simp [ofMethod?, known a _ rfl, rename]
    · simp [ofMethod?, update]
  · simp [ofMethod?]

theorem SharedObject.operation?_rename (objects : List SharedObject) (object : SharedObject)
    (method : String) {arguments : List Value}
    (key : ∀ entries, object = .dictionary entries → ∀ v ∈ arguments.head?, v.anonymous = true) :
    (object.rename π).operation? (objects.map (SharedObject.rename π)) method
        (arguments.map (Value.rename π)) =
      (object.operation? objects method arguments).map (SharedOperation.rename π) := by
  cases object with
  | counter n =>
    simp only [rename, operation?, CounterOperation.ofMethod?_rename, Option.map_map]
    rfl
  | dictionary entries =>
    simp only [rename, operation?, DictionaryOperation.ofMethod?_rename π objects method
      (key entries rfl), Option.map_map]
    rfl
  | register v =>
    simp only [rename, operation?, RegisterOperation.ofMethod?_rename, Option.map_map]
    rfl

/-- Rename the entries of a dictionary. -/
private abbrev renameEntries (entries : List (Key × Value)) : List (Key × Value) :=
  entries.map fun (k, v) => (k, v.rename π)

private theorem lookupKey_rename (entries : List (Key × Value)) (key : Key) :
    lookupKey (renameEntries π entries) key = (lookupKey entries key).map (Value.rename π) := by
  simp only [lookupKey, List.find?_map, Option.map_map]
  rfl

private theorem eraseKey_rename (entries : List (Key × Value)) (key : Key) :
    eraseKey (renameEntries π entries) key = renameEntries π (eraseKey entries key) := by
  simp only [eraseKey, List.filter_map]
  rfl

private theorem insertKey_rename (entries : List (Key × Value)) (key : Key) (v : Value) :
    insertKey (renameEntries π entries) key (v.rename π) =
      renameEntries π (insertKey entries key v) := by
  simp [insertKey, eraseKey_rename]

private theorem apply_rename_dictionary (op : DictionaryOperation) (entries : List (Key × Value)) :
    (op.rename π).apply (renameEntries π entries) =
      (Answer.rename π (op.apply entries).1, renameEntries π (op.apply entries).2) := by
  cases op <;> simp only [DictionaryOperation.rename, DictionaryOperation.apply, lookupKey_rename]
  case tryAdd key v =>
    cases lookupKey entries key with
    | some _ => rfl
    | none => simp only [Option.map_none, insertKey_rename]; rfl
  case tryUpdate key v expected =>
    cases lookupKey entries key with
    | none => rfl
    | some current =>
      simp only [Option.map_some, Value.same_rename]
      split
      · simp only [insertKey_rename]; rfl
      · rfl
  case tryGet key => cases lookupKey entries key <;> rfl
  case get key => cases lookupKey entries key <;> rfl
  case set key v => simp only [insertKey_rename]; rfl
  case tryRemove key =>
    cases lookupKey entries key <;> simp only [eraseKey_rename] <;> rfl
  case count => simp [Answer.rename]

/-- An operation that shows no identity does the same to renamed objects. -/
theorem SharedOperation.apply_rename (objects : List SharedObject) {operation : SharedOperation}
    {object : SharedObject} (discreet : operation.Discreet object) :
    (operation.rename π).apply (objects.map (SharedObject.rename π)) (object.rename π) =
      (Answer.rename π (operation.apply objects object).1,
        (operation.apply objects object).2.rename π) := by
  cases operation <;> cases object <;> try rfl
  case counter.counter op n => cases op <;> rfl
  case dictionary.dictionary op entries =>
    simp only [rename, SharedObject.rename, apply]
    rw [show (entries.map fun x => (x.1, x.2.rename π)) = renameEntries π entries from rfl,
      apply_rename_dictionary π op entries]
  case register.register op v =>
    cases op with
    | get | set => rfl
    | update a =>
      have sum := Value.add_rename π objects discreet.1 discreet.2
      simp only [rename, RegisterOperation.rename, SharedObject.rename, apply,
        RegisterOperation.apply, sum]
      rfl

/-! ## Events and failures -/

@[simp] theorem Event.type_rename (e : Event) : (e.rename π).type = e.type := rfl

@[simp] theorem Refusal.message_rename (r : Refusal) : (r.rename π).message = r.message := by
  cases r <;> rfl

@[simp] theorem Refusal.isTermination_rename (r : Refusal) :
    (r.rename π).isTermination = r.isTermination := by
  cases r <;> rfl

@[simp] theorem Failure.message_rename (f : Failure) : (f.rename π).message = f.message := by
  cases f <;> simp [Failure.rename, Failure.message]

@[simp] theorem Failure.chain_rename (f : Failure) : (f.rename π).chain = f.chain := by
  cases f <;> first | rfl | simp [Failure.rename, Failure.chain, Failure.message]

@[simp] theorem Failure.isTermination_rename (f : Failure) :
    (f.rename π).isTermination = f.isTermination := by
  cases f <;> simp [Failure.rename, Failure.isTermination]

/-! ## Programs and actions -/

theorem Program.rename_ask {voice : Voice} {request : Request} {next next' : Answer → Program}
    (same : ∀ a, (next a).rename π = next' (Answer.rename π a)) :
    (Program.ask voice request next).rename π = .ask voice (request.rename π) next' := by
  simp only [Program.rename]
  congr 1
  funext a
  rw [same, Answer.rename_symm]

@[simp] theorem Action.rename_apply (a : Action) (o : Occasion) :
    Action.rename π a (o.rename π) = (a o).rename π := by
  simp [Action.rename]

/-- An action that does the same with other generations stays as it is. -/
theorem Action.rename_eq {a : Action} (same : ∀ o, a (o.rename π) = (a o).rename π) :
    Action.rename π a = a := by
  funext o
  have back : (o.rename π.symm).rename π = o := Occasion.rename_rename π.symm o
  rw [Action.rename, ← same, back]

/-! ## Descriptors and stacks -/

namespace StateDescriptor

variable (s : StateDescriptor) (e : EventType)

@[simp] theorem disposition?_rename :
    (s.rename π).disposition? e = (s.disposition? e).map (Disposition.rename π) := by
  simp only [disposition?, rename, List.find?_map, Option.map_map]
  rfl

@[simp] theorem events_rename : (s.rename π).events = s.events := by
  simp [events, rename, Function.comp_def]

@[simp] theorem declares_rename : (s.rename π).declares e = s.declares e := by
  simp [declares]

@[simp] theorem defers_rename : (s.rename π).defers e = s.defers e := by
  unfold defers
  rw [disposition?_rename]
  cases s.disposition? e with
  | none => rfl
  | some d => cases d <;> rfl

@[simp] theorem actions_rename :
    (s.rename π).actions = s.actions.map fun (e, a) => (e, Action.rename π a) := by
  simp only [actions, rename, List.filterMap_map, List.map_filterMap]
  congr 1
  funext ⟨e, d⟩
  cases d <;> rfl

@[simp] theorem ignored_rename : (s.rename π).ignored = s.ignored := by
  simp only [ignored, rename, List.filterMap_map]
  congr 1
  funext ⟨e, d⟩
  cases d <;> rfl

end StateDescriptor

theorem Descriptor.state?_rename (d : Descriptor) (name : String) :
    (d.rename π).state? name = (d.state? name).map (StateDescriptor.rename π) := by
  simp only [state?, rename, List.find?_map]
  rfl

@[simp] theorem Descriptor.subscriptions_rename (d : Descriptor) :
    (d.rename π).subscriptions = d.subscriptions := by
  simp [subscriptions, rename, List.flatMap_map]

theorem Registry.find?_rename (r : Registry) (kind : ActorKind) (typeTag : String) :
    (r.rename π).find? kind typeTag = (r.find? kind typeTag).map (Descriptor.rename π) := by
  simp only [find?, rename, List.find?_map]
  rfl

namespace ActiveState

theorem ofState_rename (s : StateDescriptor) (lower : Option ActiveState) :
    ofState (s.rename π) (lower.map (rename π)) = (ofState s lower).rename π := by
  cases lower with
  | none => simp [ofState, rename]
  | some below => simp [ofState, rename, List.filter_map, Function.comp_def]

variable (s : ActiveState) (e : EventType)

@[simp] theorem name_rename : (s.rename π).name = s.name := rfl

@[simp] theorem ignores_rename : (s.rename π).ignores e = s.ignores e := rfl

@[simp] theorem defers_rename : (s.rename π).defers e = s.defers e :=
  StateDescriptor.defers_rename π s.state e

theorem action?_rename : (s.rename π).action? e = (s.action? e).map (Action.rename π) := by
  simp only [action?, rename, List.find?_map, Option.map_map]
  rfl

theorem binding?_rename : (s.rename π).binding? e = (s.binding? e).map (Binding.rename π) := by
  unfold binding?
  rw [action?_rename, show (s.rename π).state = s.state.rename π from rfl,
    StateDescriptor.disposition?_rename]
  have acts : ((s.action? e).map (Action.rename π)).map Binding.action =
      ((s.action? e).map .action).map (Binding.rename π) := by
    simp only [Option.map_map]
    rfl
  cases s.state.disposition? e with
  | none => exact acts
  | some d => cases d <;> first | rfl | exact acts

@[simp] theorem canHandle_rename : (s.rename π).canHandle e = s.canHandle e := by
  simp [canHandle, binding?_rename]

@[simp] theorem hasDefault_rename : (s.rename π).hasDefault = s.hasDefault :=
  canHandle_rename π s .default

@[simp] theorem verdict_rename (policy : DequeuePolicy) :
    (s.rename π).verdict policy = s.verdict policy := by
  funext e
  simp [verdict]

end ActiveState

theorem resolveEvent_rename (e : EventType) (stack : List ActiveState) :
    resolveEvent e (stack.map (ActiveState.rename π)) = (resolveEvent e stack).rename π := by
  induction stack with
  | nil => rfl
  | cons top rest ih =>
    simp only [List.map_cons, resolveEvent, ActiveState.ignores_rename, ActiveState.binding?_rename]
    split
    · rfl
    · cases top.binding? e with
      | none => exact ih
      | some binding => rfl

/-! ## Mailboxes -/

namespace Mailbox

variable (m : Mailbox)

theorem enqueue_rename (envelope : Envelope) :
    (m.rename π).enqueue (envelope.rename π) =
      ((m.enqueue envelope).1, (m.enqueue envelope).2.rename π) := by
  obtain ⟨status, queue⟩ := m
  cases status <;> simp [enqueue, rename]

theorem start_rename : (m.rename π).start = (m.start.1, m.start.2.rename π) := by
  obtain ⟨status, queue⟩ := m
  cases status <;> rfl

theorem halt_rename :
    (m.rename π).halt = (m.halt.1.map (Envelope.rename π), m.halt.2.rename π) := rfl

theorem scan_rename (verdict : EventType → Verdict) (queue : List Envelope) :
    scan verdict (queue.map (Envelope.rename π)) =
      { taken := (scan verdict queue).taken.map (Envelope.rename π)
        discarded := (scan verdict queue).discarded.map (Envelope.rename π)
        remaining := (scan verdict queue).remaining.map (Envelope.rename π) } := by
  induction queue with
  | nil => rfl
  | cons envelope rest ih =>
    simp only [List.map_cons, scan]
    rw [show (envelope.rename π).event.type = envelope.event.type from rfl, ih]
    cases verdict envelope.event.type <;> rfl

theorem dequeue_rename (verdict : EventType → Verdict) (hasDefault : Bool) :
    (m.rename π).dequeue verdict hasDefault =
      ((m.dequeue verdict hasDefault).1.rename π,
        (m.dequeue verdict hasDefault).2.1.map (Envelope.rename π),
        (m.dequeue verdict hasDefault).2.2.rename π) := by
  simp only [dequeue, rename, scan_rename]
  cases (scan verdict m.queue).taken with
  | some envelope => rfl
  | none => cases hasDefault <;> rfl

end Mailbox

theorem filterMap_rendezvous_rename (envelopes : List Envelope) :
    (envelopes.map (Envelope.rename π)).filterMap (·.rendezvous) =
      envelopes.filterMap (·.rendezvous) := by
  rw [List.filterMap_map]
  rfl

/-! ## Timers -/

namespace Timer

@[simp] theorem creation_rename (owner : ActorId) (period : Nat) (periodic : Bool) :
    (creation owner period periodic).rename π = creation (owner.rename π) period periodic := rfl

@[simp] theorem firing_rename (info : TimerInfo) :
    (firing info).rename π = firing (info.rename π) := rfl

private theorem conclude_rename (memory : Memory) (a : Answer) :
    (conclude memory a).rename π = conclude (memory.rename π) (Answer.rename π a) := by
  cases a <;> rfl

private theorem onSuccess_rename (memory : Memory) {next next' : Value → Program}
    (same : ∀ v, (next v).rename π = next' (v.rename π)) (a : Answer) :
    (onSuccess memory next a).rename π =
      onSuccess (memory.rename π) next' (Answer.rename π a) := by
  cases a with
  | ok v => exact same v
  | error f => rfl

private theorem haltSelf_rename (memory : Memory) :
    (haltSelf memory).rename π = haltSelf (memory.rename π) :=
  Program.rename_ask π (conclude_rename π memory)

theorem fire_rename (info : TimerInfo) : (fire info).rename π = fire (info.rename π) := by
  refine Program.rename_ask π (onSuccess_rename π {} fun _ => ?_)
  rw [show (info.rename π).periodic = info.periodic from rfl]
  split
  · rfl
  · exact Program.rename_ask π (conclude_rename π {})

private theorem info_rename (o : Occasion) :
    info (o.rename π) =
      match info o with
      | .ok info => .ok (info.rename π)
      | .error failure => .error (failure.rename π) := by
  obtain ⟨self, state, event, memory⟩ := o
  rcases event with _ | ⟨type, _ | payload⟩
  · rfl
  · rfl
  · cases payload <;> rfl

private theorem remember_rename : Action.rename π remember = remember := by
  refine Action.rename_eq π fun o => ?_
  simp only [remember, info_rename]
  cases info o <;> rfl

private theorem tryLuck_rename : Action.rename π tryLuck = tryLuck := by
  refine Action.rename_eq π fun o => ?_
  unfold tryLuck
  rw [show (o.rename π).memory.timer = o.memory.timer.map (TimerInfo.rename π) from rfl]
  cases o.memory.timer with
  | none => rfl
  | some info =>
    symm
    refine Program.rename_ask π (onSuccess_rename π o.memory fun fires => ?_)
    rw [show (fires.rename π).isTrue = fires.isTrue from by cases fires <;> rfl]
    split
    · refine Program.rename_ask π (onSuccess_rename π o.memory fun _ => ?_)
      rw [show (info.rename π).periodic = info.periodic from rfl]
      split
      · rfl
      · exact haltSelf_rename π o.memory
    · rfl

private theorem fallAsleep_rename : Action.rename π fallAsleep = fallAsleep := by
  refine Action.rename_eq π fun o => ?_
  simp only [fallAsleep, info_rename]
  cases info o with
  | error failure => rfl
  | ok info =>
    symm
    exact Program.rename_ask π (conclude_rename π o.memory)

private theorem wakeUp_rename : Action.rename π wakeUp = wakeUp := by
  refine Action.rename_eq π fun o => ?_
  symm
  exact Program.rename_ask π (onSuccess_rename π o.memory fun _ => haltSelf_rename π o.memory)

/-- The built-in machines do not look at generations. -/
theorem descriptors_rename : descriptors.map (Descriptor.rename π) = descriptors := by
  have halts : Action.rename π (fun o => haltSelf o.memory) = fun o => haltSelf o.memory :=
    Action.rename_eq π fun o => (haltSelf_rename π o.memory).symm
  simp [descriptors, machine, Descriptor.rename, StateDescriptor.rename, Disposition.rename,
    remember_rename, tryLuck_rename, fallAsleep_rename, wakeUp_rename, halts]

end Timer

end SteeredActors
