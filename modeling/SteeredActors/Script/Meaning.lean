import SteeredActors.Script.Syntax

/-!
# The meaning of scripts

A script means a program. Expressions are turned into requests where they ask something of the run,
and every instruction is followed either by what comes next or by what happens on a failure.
-/

set_option autoImplicit false
set_option relaxedAutoImplicit false

namespace SteeredActors.Script

/-- The surroundings in which a script runs: an action has an occasion, a test has none. -/
structure Scope where
  voice : Voice
  occasion : Option Occasion

/-- The surroundings of a thread that the controller does not know. -/
def Scope.foreign : Scope := ⟨.outsider, none⟩

/-- What follows an instruction. -/
abbrev Next := Memory → Program

/-- What follows a failure. -/
abbrev OnFailure := Failure → Memory → Program

namespace Scope

/-- Ask for something that is always answered. -/
def query (s : Scope) (request : Request) (next : Value → Program) : Program :=
  .ask s.voice request fun
    | .ok v => next v
    | .error _ => next .null

/-- Make a request and go on with its answer. -/
def request (s : Scope) (request : Request) (fail : OnFailure) (m : Memory)
    (next : Value → Program) : Program :=
  .ask s.voice request fun
    | .ok v => next v
    | .error failure => fail failure m

/-- The text of a value. -/
def text (s : Scope) (v : Value) (next : String → Program) : Program :=
  s.query (.render v) fun
    | .text t => next t
    | _ => next ""

/-- The texts of values in order. -/
def texts (s : Scope) : List Value → (List String → Program) → Program
  | [], next => next []
  | v :: vs, next => s.text v fun t => s.texts vs fun ts => next (t :: ts)

/-- What an action knows of its own; `null` outside of one. -/
def ofOccasion (s : Scope) (f : Occasion → Value) : Value := (s.occasion.map f).getD .null

end Scope

/-- The value that an event carries. -/
def payloadOf (o : Occasion) : Value :=
  match o.event with
  | some ⟨_, some (.value v)⟩ => v
  | _ => .null

/-- What a timer told its owner. -/
def timerInfoOf (o : Occasion) : Value :=
  match o.event with
  | some ⟨_, some (.timerElapsed info)⟩ =>
    .list [.actor info.timer, .actor info.owner, .ofNat info.period, .bool info.periodic]
  | _ => .null

/-- The type of the event that led to an action. -/
def eventOf (o : Occasion) : Value :=
  match o.event with
  | some e => .text e.type.name
  | none => .null

mutual

/-- Evaluate an expression. -/
def Expr.eval (s : Scope) (m : Memory) : Expr → (Value → Program) → Program
  | .value v, next => next v
  | .var x, next => next (m.get x)
  | .list es, next => evalAll s m es fun vs => next (.list vs)
  | .nth e i, next => e.eval s m fun v => i.eval s m fun w => next (v.nth w)
  | .add a b, next => a.eval s m fun v => b.eval s m fun w => s.query (.add v w) next
  | .eq a b, next => a.eval s m fun v => b.eval s m fun w => next (.bool (v.same w))
  | .lt a b, next => a.eval s m fun v => b.eval s m fun w => next (.bool (v.lt w))
  | .not e, next => e.eval s m fun v => next (.bool (!v.isTrue))
  | .ghost name generation, next => next (.actor ⟨0, name, "Ghost", name, generation⟩)
  | .status e, next => e.eval s m fun
    | .actor id => s.query (.status id) next
    | _ => next .null
  | .actors, next => s.query .actors next
  | .monitors, next => s.query .monitors next
  | .monitorState typeTag, next => s.query (.monitorState typeTag) next
  | .steps, next => s.query .steps next
  | .isOver, next => s.query .isOver next
  | .explores, next => s.query .explores next
  | .self, next => next (s.ofOccasion (.actor ·.self))
  | .state, next => next (s.ofOccasion (.text ·.state))
  | .event, next => next (s.ofOccasion eventOf)
  | .payload, next => next (s.ofOccasion payloadOf)
  | .timerInfo, next => next (s.ofOccasion timerInfoOf)

/-- Evaluate expressions in order. -/
def evalAll (s : Scope) (m : Memory) : List Expr → (List Value → Program) → Program
  | [], next => next []
  | e :: es, next => e.eval s m fun v => evalAll s m es fun vs => next (v :: vs)

end

/-- Make an event. -/
def EventExpr.eval (s : Scope) (m : Memory) (e : EventExpr) (next : Event → Program) : Program :=
  match e.payload with
  | none => next (.ofType e.type)
  | some p => p.eval s m fun v => next ⟨e.type, some (.value v)⟩

/-- Make an event if there is one to make. -/
def evalEvent? (s : Scope) (m : Memory) : Option EventExpr → (Option Event → Program) → Program
  | none, next => next none
  | some e, next => e.eval s m fun event => next (some event)

/-- Evaluate an expression that has to be an identity. -/
def Expr.evalActor (s : Scope) (m : Memory) (e : Expr) (fail : OnFailure)
    (next : ActorId → Program) : Program :=
  e.eval s m fun
    | .actor id => next id
    | v => s.text v fun t => fail (.other s!"not an actor: {t}") m

/-- Do something a number of times. -/
def iterate : Nat → (Next → Next) → Next → Next
  | 0, _, next => next
  | n + 1, body, next => fun m => body (iterate n body next) m

mutual

/-- Carry out an instruction. -/
def Instruction.run (s : Scope) (fail : OnFailure) : Instruction → Next → Next
  | .log items, next => fun m =>
    evalAll s m items fun vs => s.texts vs fun ts =>
      s.request (.journal (" ".intercalate ts)) fail m fun _ => next m
  | .set x e, next => fun m => e.eval s m fun v => next (m.set x v)
  | .choose condition yes no, next => fun m =>
    condition.eval s m fun v =>
      if v.isTrue then runAll s fail yes next m else runAll s fail no next m
  | .times n body, next => iterate n (fun next => runAll s fail body next) next
  | .attempt body, next =>
    runAll s
      (fun failure m => s.query .isOver fun ended =>
        if ended.isTrue then fail failure m
        else
          s.request (.journal s!"error:{failure.kind}:{failure.message}") fail m fun _ => next m)
      body next
  | .swallow body, next => runAll s (fun _ m => next m) body next
  | .fail e, _ => fun m => e.eval s m fun v => s.text v fun t => fail (.other t) m
  | .failWithin context text, _ => fun m =>
    context.eval s m fun v => s.text v fun outer =>
      text.eval s m fun w => s.text w fun inner => fail (.within outer inner) m
  | .panic e, _ => fun m =>
    e.eval s m fun v => s.text v fun t => .finish m (.panicked (some t))
  | .panicSilently, _ => fun m => .finish m (.panicked none)
  | .feign refusal, _ => fun m => fail (.runtime refusal) m
  | .send target event, next => fun m =>
    target.evalActor s m fail fun id => event.eval s m fun event =>
      s.request (.send id event) fail m fun _ => next m
  | .sendAndExecute x target event, next => fun m =>
    target.evalActor s m fail fun id => event.eval s m fun event =>
      s.request (.sendAndExecute id event) fail m fun v => next (m.set x v)
  | .create x typeTag name event execute, next => fun m =>
    evalEvent? s m event fun event =>
      s.request (.create typeTag name event execute) fail m fun v => next (m.set x v)
  | .raise event, next => fun m =>
    event.eval s m fun event => s.request (.raise event) fail m fun _ => next m
  | .goto state, next => fun m => s.request (.goto state) fail m fun _ => next m
  | .push state, next => fun m => s.request (.push state) fail m fun _ => next m
  | .pop, next => fun m => s.request .pop fail m fun _ => next m
  | .startTimer x period periodic, next => fun m =>
    s.request (.startTimer period periodic) fail m fun v => next (m.set x v)
  | .stopTimer e, next => fun m =>
    e.evalActor s m fail fun id => s.request (.stopTimer id) fail m fun _ => next m
  | .assert e message, next => fun m =>
    e.eval s m fun v => s.request (.assert v.isTrue message) fail m fun _ => next m
  | .randomBool x, next => fun m =>
    s.request .randomBool fail m fun v => next (m.set x v)
  | .randomInt x max, next => fun m =>
    s.request (.randomInt max) fail m fun v => next (m.set x v)
  | .monitor typeTag event, next => fun m =>
    event.eval s m fun event => s.request (.monitor typeTag event) fail m fun _ => next m
  | .registerMonitor typeTag, next => fun m =>
    s.request (.registerMonitor typeTag) fail m fun _ => next m
  | .point kind, next => fun m => s.request (.point kind) fail m fun _ => next m
  | .waitForQuiescence, next => fun m => s.request .waitForQuiescence fail m fun _ => next m
  | .shutdown, next => fun m => s.request .shutdown fail m fun _ => next m
  | .terminate outcome, next => fun m => s.request (.terminate outcome) fail m fun _ => next m
  | .reportBug kind message, next => fun m =>
    s.request (.reportBug kind message) fail m fun _ => next m
  | .foreign body, next => runAll .foreign fail body next
  | .awaitHalted e, next => fun m =>
    e.evalActor s m fail fun id => s.request (.awaitHalted id) fail m fun _ => next m
  | .newCounter x n, next => fun m =>
    s.request (.newObject (.counter n)) fail m fun v => next (m.set x v)
  | .newDictionary x, next => fun m =>
    s.request (.newObject (.dictionary [])) fail m fun v => next (m.set x v)
  | .newRegister x e, next => fun m =>
    e.eval s m fun v => s.request (.newObject (.register v)) fail m fun v => next (m.set x v)
  | .access x e call, next => fun m =>
    e.eval s m fun target => evalAll s m call.arguments fun vs =>
      match target with
      | .shared object =>
        s.request (.access object call.method vs) fail m fun v => next (m.set x v)
      | _ => fail SharedOperation.unsupported m

/-- Carry out instructions in order. -/
def runAll (s : Scope) (fail : OnFailure) : List Instruction → Next → Next
  | [], next => next
  | i :: rest, next => i.run s fail (runAll s fail rest next)

end

end SteeredActors.Script

namespace SteeredActors.Script

/-- The program of a script. -/
def toProgram (script : Script) (scope : Scope) (memory : Memory) : Program :=
  runAll scope (fun failure m => .finish m (.failed failure)) script (fun m => .finish m .ok) memory

/-- The action of a script. -/
def toAction (script : Script) : Action := fun o => toProgram script ⟨.own, some o⟩ o.memory

end SteeredActors.Script
