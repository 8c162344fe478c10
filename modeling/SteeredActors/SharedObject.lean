import SteeredActors.Failure
import SteeredActors.Text.Quoted
import SteeredActors.Value

/-!
# Shared objects

Counters, dictionaries and registers that actors use directly instead of exchanging events. Each
operation takes effect at once: it maps the content to an answer and a new content.
-/

set_option autoImplicit false
set_option relaxedAutoImplicit false

namespace SteeredActors

/-- What a dictionary is looked up by. -/
inductive Key where
  | int (n : Int64)
  | text (s : String)
deriving DecidableEq, Repr

/-- The diagnostic form of a key. -/
def Key.describe : Key → String
  | .int n => toString n.toInt
  | .text s => Text.Quoted.encode s

/-- The content of a shared object. -/
inductive SharedObject where
  | counter (n : Int64)
  | dictionary (entries : List (Key × Value))
  | register (value : Value)
deriving Repr

/-- An operation on a counter. -/
inductive CounterOperation where
  | increment
  | decrement
  /-- Add, and answer the new number. -/
  | add (n : Int64)
  | get
  /-- Store, and answer the old number. -/
  | exchange (n : Int64)
  /-- Store if the counter holds the expected number, and answer the old number. -/
  | compareExchange (n expected : Int64)
deriving DecidableEq, Repr

/-- An operation on a dictionary. -/
inductive DictionaryOperation where
  /-- Store unless the key is present, and answer whether it was stored. -/
  | tryAdd (key : Key) (value : Value)
  /-- Store if the key holds the expected value, and answer whether it was stored. -/
  | tryUpdate (key : Key) (value expected : Value)
  | tryGet (key : Key)
  /-- Like `tryGet`, but an absent key is a failure. -/
  | get (key : Key)
  | set (key : Key) (value : Value)
  /-- Remove, and answer the removed value. -/
  | tryRemove (key : Key)
  | count
deriving Repr

/-- An operation on a register. -/
inductive RegisterOperation where
  | get
  | set (value : Value)
  /-- Add to the value, and answer the new one. -/
  | update (value : Value)
deriving Repr

/-- An operation on a shared object. -/
inductive SharedOperation where
  | counter (operation : CounterOperation)
  | dictionary (operation : DictionaryOperation)
  | register (operation : RegisterOperation)
deriving Repr

namespace SharedObject

/-- The diagnostic form. -/
def describe : SharedObject → String
  | .counter n => s!"SharedCounter \x7b value: {n.toInt} \x7d"
  | .dictionary _ => "<dict>"
  | .register _ => "<register>"

end SharedObject

mutual

/-- The text of a value; shared objects are shown as they are now. -/
def Value.render (objects : List SharedObject) : Value → String
  | .null => "null"
  | .bool b => if b then "true" else "false"
  | .int n => toString n.toInt
  | .text s => s
  | .actor id => s!"{id.name}@{id.generation}"
  | .list items => "[" ++ ",".intercalate (Value.renderAll objects items) ++ "]"
  | .shared i =>
    match objects[i]? with
    | some object => object.describe
    | none => "null"

/-- The texts of values in order. -/
def Value.renderAll (objects : List SharedObject) : List Value → List String
  | [] => []
  | v :: vs => Value.render objects v :: Value.renderAll objects vs

end

/-- The sum of two integers, and the texts of all other values one after the other. -/
def Value.add (objects : List SharedObject) : Value → Value → Value
  | .int a, .int b => .int (a + b)
  | a, b => .text (a.render objects ++ b.render objects)

/-- The key that a value stands for: an integer, or the text of anything else. -/
def Value.toKey (objects : List SharedObject) : Value → Key
  | .int n => .int n
  | v => .text (v.render objects)

/-! ## Methods -/

/-- The operation on a counter that a method stands for. -/
def CounterOperation.ofMethod? (method : String) : List Value → Option CounterOperation
  | [] =>
    match method with
    | "increment" => some .increment
    | "decrement" => some .decrement
    | "get" => some .get
    | _ => none
  | [.int n] =>
    match method with
    | "add" => some (.add n)
    | "exchange" => some (.exchange n)
    | _ => none
  | [.int n, .int expected] =>
    match method with
    | "compare_exchange" => some (.compareExchange n expected)
    | _ => none
  | _ => none

/-- The operation on a dictionary that a method stands for. -/
def DictionaryOperation.ofMethod? (objects : List SharedObject) :
    String → List Value → Option DictionaryOperation
  | "try_add", [k, v] => some (.tryAdd (k.toKey objects) v)
  | "try_update", [k, v, expected] => some (.tryUpdate (k.toKey objects) v expected)
  | "try_get", [k] => some (.tryGet (k.toKey objects))
  | "get", [k] => some (.get (k.toKey objects))
  | "set", [k, v] => some (.set (k.toKey objects) v)
  | "try_remove", [k] => some (.tryRemove (k.toKey objects))
  | "count", [] => some .count
  | _, _ => none

/-- The operation on a register that a method stands for. -/
def RegisterOperation.ofMethod? : String → List Value → Option RegisterOperation
  | "get", [] => some .get
  | "set", [v] => some (.set v)
  | "update", [v] => some (.update v)
  | _, _ => none

/-- The operation that a method of an object stands for. -/
def SharedObject.operation? (objects : List SharedObject) (object : SharedObject) (method : String)
    (arguments : List Value) : Option SharedOperation :=
  match object with
  | .counter _ => (CounterOperation.ofMethod? method arguments).map .counter
  | .dictionary _ => (DictionaryOperation.ofMethod? objects method arguments).map .dictionary
  | .register _ => (RegisterOperation.ofMethod? method arguments).map .register

/-! ## Effects -/

namespace CounterOperation

/-- The answer and the new number. -/
def apply : CounterOperation → Int64 → Value × Int64
  | .increment, n => (.null, n + 1)
  | .decrement, n => (.null, n - 1)
  | .add d, n => (.int (n + d), n + d)
  | .get, n => (.int n, n)
  | .exchange new, n => (.int n, new)
  | .compareExchange new expected, n => (.int n, if n = expected then new else n)

end CounterOperation

/-- The value of a key. -/
def lookupKey (entries : List (Key × Value)) (key : Key) : Option Value :=
  (entries.find? (·.1 == key)).map (·.2)

/-- The entries without a key. -/
def eraseKey (entries : List (Key × Value)) (key : Key) : List (Key × Value) :=
  entries.filter (·.1 != key)

/-- The entries with a key set to a value. -/
def insertKey (entries : List (Key × Value)) (key : Key) (value : Value) : List (Key × Value) :=
  eraseKey entries key ++ [(key, value)]

namespace DictionaryOperation

/-- The answer and the new entries. -/
def apply : DictionaryOperation → List (Key × Value) →
    Except Failure Value × List (Key × Value)
  | .tryAdd key value, entries =>
    match lookupKey entries key with
    | some _ => (.ok (.bool false), entries)
    | none => (.ok (.bool true), insertKey entries key value)
  | .tryUpdate key value expected, entries =>
    match lookupKey entries key with
    | some current =>
      if current.same expected then (.ok (.bool true), insertKey entries key value)
      else (.ok (.bool false), entries)
    | none => (.ok (.bool false), entries)
  | .tryGet key, entries => (.ok ((lookupKey entries key).getD .null), entries)
  | .get key, entries =>
    match lookupKey entries key with
    | some value => (.ok value, entries)
    | none => (.error (.keyNotFound key.describe), entries)
  | .set key value, entries => (.ok .null, insertKey entries key value)
  | .tryRemove key, entries => (.ok ((lookupKey entries key).getD .null), eraseKey entries key)
  | .count, entries => (.ok (.ofNat entries.length), entries)

end DictionaryOperation

namespace RegisterOperation

/-- The answer and the new value. -/
def apply (objects : List SharedObject) : RegisterOperation → Value → Value × Value
  | .get, value => (value, value)
  | .set new, _ => (.null, new)
  | .update a, value => (value.add objects a, value.add objects a)

end RegisterOperation

namespace SharedOperation

/-- The failure of an operation that an object does not have. -/
def unsupported : Failure := .other "no such shared operation"

/-- The answer and the new content of an object. -/
def apply (objects : List SharedObject) :
    SharedOperation → SharedObject → Except Failure Value × SharedObject
  | .counter op, .counter n =>
    let (answer, n) := op.apply n
    (.ok answer, .counter n)
  | .dictionary op, .dictionary entries =>
    let (answer, entries) := op.apply entries
    (answer, .dictionary entries)
  | .register op, .register value =>
    let (answer, value) := op.apply objects value
    (.ok answer, .register value)
  | _, object => (.error unsupported, object)

end SharedOperation

end SteeredActors
