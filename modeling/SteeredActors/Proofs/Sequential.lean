import Mathlib.Data.Finmap
import Mathlib.Data.Int.ModEq
import SteeredActors.Program

/-!
# Shared objects one operation at a time

What shared objects are to somebody who uses them alone: a counter is an integer, of which only
increments and decrements wrap around, a register is a value, and a dictionary is a finite map. Each
operation on a shared object does to its content what the operation of the same name does to these.
-/

set_option autoImplicit false
set_option relaxedAutoImplicit false

namespace SteeredActors

/-- A finite map from keys to values. -/
abbrev KeyMap := Finmap fun _ : Key => Value

/-- What a shared object is to somebody who uses it alone. -/
inductive PlainObject where
  | integer (n : Int)
  | map (entries : KeyMap)
  | value (v : Value)

/-- Around at 64 bits. -/
def wrap (n : Int) : Int := n.bmod (2 ^ 64)

/-- On an integer: the answer and the new integer. -/
def CounterOperation.onInteger : CounterOperation → Int → Value × Int
  | .increment, n => (.null, wrap (n + 1))
  | .decrement, n => (.null, wrap (n - 1))
  | .add d, n => (.int (.ofInt (n + d.toInt)), n + d.toInt)
  | .get, n => (.int (.ofInt n), n)
  | .exchange new, n => (.int (.ofInt n), new.toInt)
  | .compareExchange new expected, n =>
    (.int (.ofInt n), if n = expected.toInt then new.toInt else n)

/-- On a finite map: the answer and the new map. -/
def DictionaryOperation.onMap : DictionaryOperation → KeyMap → Answer × KeyMap
  | .tryAdd key value, m =>
    if key ∈ m then (.ok (.bool false), m) else (.ok (.bool true), m.insert key value)
  | .tryUpdate key value expected, m =>
    match m.lookup key with
    | some current =>
      if current.same expected then (.ok (.bool true), m.insert key value)
      else (.ok (.bool false), m)
    | none => (.ok (.bool false), m)
  | .tryGet key, m => (.ok ((m.lookup key).getD .null), m)
  | .get key, m =>
    match m.lookup key with
    | some value => (.ok value, m)
    | none => (.error (.keyNotFound key.describe), m)
  | .set key value, m => (.ok .null, m.insert key value)
  | .tryRemove key, m => (.ok ((m.lookup key).getD .null), m.erase key)
  | .count, m => (.ok (.ofNat m.keys.card), m)

/-- A shared object that looks like a plain one. -/
def PlainObject.shown : PlainObject → SharedObject
  | .integer n => .counter (.ofInt n)
  | .map _ => .dictionary []
  | .value v => .register v

/-- On a plain object among others: the answer and the new object. -/
def SharedOperation.onPlain (objects : List PlainObject) :
    SharedOperation → PlainObject → Answer × PlainObject
  | .counter op, .integer n =>
    let (answer, n) := op.onInteger n
    (.ok answer, .integer n)
  | .dictionary op, .map m =>
    let (answer, m) := op.onMap m
    (answer, .map m)
  | .register op, .value v =>
    let (answer, v) := op.apply (objects.map PlainObject.shown) v
    (.ok answer, .value v)
  | _, object => (.error unsupported, object)

/-- The entries of a dictionary as entries of a map. -/
def entriesOf (entries : List (Key × Value)) : List (Sigma fun _ : Key => Value) :=
  entries.map fun e => ⟨e.1, e.2⟩

/-- What a shared object is to somebody who uses it alone. -/
def SharedObject.plain : SharedObject → PlainObject
  | .counter n => .integer n.toInt
  | .dictionary entries => .map (entriesOf entries).toFinmap
  | .register v => .value v

/-- A dictionary has each key once. -/
def SharedObject.Distinct : SharedObject → Prop
  | .dictionary entries => (entries.map (·.1)).Nodup
  | .counter _ | .register _ => True

/-- The sum of an addition to a counter is a 64-bit integer. -/
def SharedOperation.InRange : SharedOperation → SharedObject → Prop
  | .counter (.add d), .counter n => -2 ^ 63 ≤ n.toInt + d.toInt ∧ n.toInt + d.toInt < 2 ^ 63
  | _, _ => True

/-! ## Counters -/

private theorem ofInt_toInt (n : Int64) : Int64.ofInt n.toInt = n := Int64.ofInt_toInt n

/-- A counter does what an integer does. -/
theorem CounterOperation.onInteger_toInt (op : CounterOperation) (n : Int64)
    (inRange : (SharedOperation.counter op).InRange (.counter n)) :
    op.onInteger n.toInt = ((op.apply n).1, (op.apply n).2.toInt) := by
  cases op with
  | increment =>
    simp only [onInteger, apply, wrap, Int64.toInt_add]
    rfl
  | decrement =>
    simp only [onInteger, apply, wrap, Int64.toInt_sub]
    rfl
  | add d =>
    have small : (n + d).toInt = n.toInt + d.toInt := by
      obtain ⟨above, below⟩ := inRange
      rw [Int64.toInt_add, Int.bmod_eq_of_le (by omega) (by omega)]
    simp only [onInteger, apply, ← small, ofInt_toInt]
  | get | exchange new => simp only [onInteger, apply, ofInt_toInt]
  | compareExchange new expected =>
    simp only [onInteger, apply, ofInt_toInt, Int64.toInt_inj]
    split <;> rfl

/-! ## Dictionaries -/

theorem lookup_plain (entries : List (Key × Value)) (key : Key) :
    Finmap.lookup key (entriesOf entries).toFinmap = lookupKey entries key := by
  rw [Finmap.dlookup_list_toFinmap]
  induction entries with
  | nil => rfl
  | cons e rest ih =>
    by_cases same : e.1 = key
    · subst same
      simp [entriesOf, lookupKey]
    · have next : lookupKey (e :: rest) key = lookupKey rest key := by
        simp [lookupKey, same]
      rw [next, ← ih]
      exact List.dlookup_cons_ne _ _ (Ne.symm same)

theorem lookupKey_eraseKey (entries : List (Key × Value)) (key k : Key) :
    lookupKey (eraseKey entries key) k = if k = key then none else lookupKey entries k := by
  induction entries with
  | nil => simp [lookupKey, eraseKey]
  | cons e rest ih =>
    simp only [lookupKey, eraseKey, List.filter_cons, List.find?_cons] at ih ⊢
    by_cases gone : e.1 = key <;> by_cases here : e.1 = k <;> grind

theorem lookupKey_insertKey (entries : List (Key × Value)) (key k : Key) (value : Value) :
    lookupKey (insertKey entries key value) k =
      if k = key then some value else lookupKey entries k := by
  have appended : lookupKey (insertKey entries key value) k =
      (lookupKey (eraseKey entries key) k).or (lookupKey [(key, value)] k) := by
    simp only [lookupKey, insertKey, List.find?_append]
    cases List.find? (fun e => e.1 == k) (eraseKey entries key) <;> rfl
  rw [appended, lookupKey_eraseKey]
  by_cases same : k = key
  · subst same
    simp [lookupKey]
  · have absent : lookupKey [(key, value)] k = none := by simp [lookupKey, Ne.symm same]
    rw [if_neg same, if_neg same, absent, Option.or_none]

theorem plain_eraseKey (entries : List (Key × Value)) (key : Key) :
    (entriesOf (eraseKey entries key)).toFinmap = (entriesOf entries).toFinmap.erase key := by
  refine Finmap.ext_lookup fun k => ?_
  rw [lookup_plain, lookupKey_eraseKey]
  by_cases same : k = key
  · subst same
    simp
  · rw [if_neg same, Finmap.lookup_erase_ne same, lookup_plain]

theorem plain_insertKey (entries : List (Key × Value)) (key : Key) (value : Value) :
    (entriesOf (insertKey entries key value)).toFinmap =
      (entriesOf entries).toFinmap.insert key value := by
  refine Finmap.ext_lookup fun k => ?_
  rw [lookup_plain, lookupKey_insertKey]
  by_cases same : k = key
  · subst same
    simp
  · rw [if_neg same, Finmap.lookup_insert_of_ne _ same, lookup_plain]

/-- A dictionary that has each key once has as many entries as keys. -/
theorem card_keys_plain {entries : List (Key × Value)} (distinct : (entries.map (·.1)).Nodup) :
    (entriesOf entries).toFinmap.keys.card = entries.length := by
  have keys : (entriesOf entries).toFinmap.keys = (entries.map (·.1)).toFinset := by
    ext k
    rw [Finmap.mem_keys, Finmap.mem_list_toFinmap]
    simp [entriesOf]
  rw [keys, List.toFinset_card_of_nodup distinct, List.length_map]

theorem distinct_eraseKey {entries : List (Key × Value)} (distinct : (entries.map (·.1)).Nodup)
    (key : Key) : ((eraseKey entries key).map (·.1)).Nodup :=
  distinct.sublist (List.filter_sublist.map _)

theorem distinct_insertKey {entries : List (Key × Value)} (distinct : (entries.map (·.1)).Nodup)
    (key : Key) (value : Value) : ((insertKey entries key value).map (·.1)).Nodup := by
  rw [insertKey, List.map_append]
  refine List.Nodup.append (distinct_eraseKey distinct key) (by simp) ?_
  simp [eraseKey]

/-- A dictionary does what a finite map does. -/
theorem DictionaryOperation.onMap_plain (op : DictionaryOperation) {entries : List (Key × Value)}
    (distinct : (entries.map (·.1)).Nodup) :
    op.onMap (entriesOf entries).toFinmap =
      ((op.apply entries).1, (entriesOf (op.apply entries).2).toFinmap) := by
  cases op with
  | tryAdd key value =>
    have present : key ∈ (entriesOf entries).toFinmap ↔ (lookupKey entries key).isSome := by
      rw [← Finmap.lookup_isSome, lookup_plain]
    cases found : lookupKey entries key <;>
      simp [onMap, apply, present, found, plain_insertKey]
  | tryUpdate key value expected =>
    cases found : lookupKey entries key with
    | none => simp only [onMap, apply, lookup_plain, found]
    | some current =>
      simp only [onMap, apply, lookup_plain, found]
      split
      · rw [plain_insertKey]
      · rfl
  | tryGet key => simp only [onMap, apply, lookup_plain]
  | get key =>
    cases found : lookupKey entries key <;> simp only [onMap, apply, lookup_plain, found]
  | set key value => simp only [onMap, apply, plain_insertKey]
  | tryRemove key => simp only [onMap, apply, lookup_plain, plain_eraseKey]
  | count => simp only [onMap, apply, card_keys_plain distinct]

theorem DictionaryOperation.distinct_apply (op : DictionaryOperation)
    {entries : List (Key × Value)} (distinct : (entries.map (·.1)).Nodup) :
    (((op.apply entries).2).map (·.1)).Nodup := by
  cases op <;> simp only [apply]
  case tryAdd key value =>
    split
    · exact distinct
    · exact distinct_insertKey distinct key value
  case tryUpdate key value expected =>
    split
    · split
      · exact distinct_insertKey distinct key value
      · exact distinct
    · exact distinct
  case get key => split <;> exact distinct
  case set key value => exact distinct_insertKey distinct key value
  case tryRemove key => exact distinct_eraseKey distinct key
  all_goals exact distinct

/-! ## Texts -/

/-- Objects that look the same. -/
theorem describe_shown (o : SharedObject) : o.plain.shown.describe = o.describe := by
  cases o with
  | counter n => simp [SharedObject.plain, PlainObject.shown]
  | dictionary | register => rfl

mutual

/-- A text depends on how objects look only. -/
theorem Value.render_congr {objects objects' : List SharedObject}
    (alike : objects.map (·.describe) = objects'.map (·.describe)) (v : Value) :
    v.render objects = v.render objects' := by
  cases v with
  | null | bool | int | text | actor => rfl
  | list items => simp only [Value.render, Value.renderAll_congr alike items]
  | shared i =>
    have there := congrArg (·[i]?) alike
    simp only [List.getElem?_map] at there
    simp only [Value.render]
    cases left : objects[i]? <;> cases right : objects'[i]? <;> simp_all

theorem Value.renderAll_congr {objects objects' : List SharedObject}
    (alike : objects.map (·.describe) = objects'.map (·.describe)) (vs : List Value) :
    Value.renderAll objects vs = Value.renderAll objects' vs := by
  cases vs with
  | nil => rfl
  | cons v vs =>
    simp only [Value.renderAll, Value.render_congr alike v, Value.renderAll_congr alike vs]

end

theorem Value.add_congr {objects objects' : List SharedObject}
    (alike : objects.map (·.describe) = objects'.map (·.describe)) (a b : Value) :
    a.add objects b = a.add objects' b := by
  unfold Value.add
  split
  · rfl
  · rw [Value.render_congr alike a, Value.render_congr alike b]

/-! ## Objects -/

/-- An operation does to the content of a shared object what it does to the plain one. -/
theorem SharedOperation.onPlain_plain (op : SharedOperation) (objects : List SharedObject)
    {o : SharedObject} (distinct : o.Distinct) (inRange : op.InRange o) :
    op.onPlain (objects.map (·.plain)) o.plain =
      ((op.apply objects o).1, (op.apply objects o).2.plain) := by
  have alike : ((objects.map (·.plain)).map PlainObject.shown).map (·.describe) =
      objects.map (·.describe) := by
    simp [describe_shown]
  cases op <;> cases o <;> try rfl
  case counter.counter op n =>
    simp only [SharedObject.plain, onPlain, apply, op.onInteger_toInt n inRange]
  case dictionary.dictionary op entries =>
    simp only [SharedObject.plain, onPlain, apply, op.onMap_plain distinct]
  case register.register op v =>
    cases op with
    | get | set => rfl
    | update a =>
      have sum := Value.add_congr alike v a
      simp only [onPlain, apply, RegisterOperation.apply, SharedObject.plain] at sum ⊢
      rw [sum]

theorem SharedOperation.distinct_apply (op : SharedOperation) (objects : List SharedObject)
    {o : SharedObject} (distinct : o.Distinct) : (op.apply objects o).2.Distinct := by
  cases op <;> cases o <;> try exact distinct
  case dictionary.dictionary op entries => exact op.distinct_apply distinct

/-! ## Histories -/

/-- What happens to shared objects. -/
inductive SharedEvent where
  | made (object : SharedObject)
  | accessed (object : Nat) (operation : SharedOperation)

/-- The answer of an operation on one of the objects, and the objects after it. -/
def SharedOperation.onPlains (op : SharedOperation) (i : Nat) (objects : List PlainObject) :
    Answer × List PlainObject :=
  match objects[i]? with
  | some o => ((op.onPlain objects o).1, objects.set i (op.onPlain objects o).2)
  | none => (.error unsupported, objects)

/-- An operation does to shared objects what it does to the plain ones. -/
theorem SharedOperation.onPlains_of_some (op : SharedOperation) {i : Nat}
    {objects : List SharedObject} {o : SharedObject} (there : objects[i]? = some o)
    (distinct : o.Distinct) (inRange : op.InRange o) :
    op.onPlains i (objects.map (·.plain)) =
      ((op.apply objects o).1, (objects.set i (op.apply objects o).2).map (·.plain)) := by
  have there' : (objects.map (·.plain))[i]? = some o.plain := by
    rw [List.getElem?_map, there, Option.map_some]
  simp only [onPlains, there', op.onPlain_plain objects distinct inRange, List.map_set]

theorem SharedOperation.onPlains_of_none (op : SharedOperation) {i : Nat}
    {objects : List SharedObject} (absent : objects[i]? = none) :
    op.onPlains i (objects.map (·.plain)) = (.error unsupported, objects.map (·.plain)) := by
  have absent' : (objects.map (·.plain))[i]? = none := by
    rw [List.getElem?_map, absent, Option.map_none]
  simp only [onPlains, absent']

namespace SharedEvent

/-- The objects after one more event. -/
def apply (objects : List PlainObject) : SharedEvent → List PlainObject
  | .made object => objects ++ [object.plain]
  | .accessed i op => (op.onPlains i objects).2

/-- The objects after one event after the other. -/
def after (history : List SharedEvent) : List PlainObject := history.foldl apply []

@[simp] theorem after_nil : after [] = [] := rfl

@[simp] theorem after_concat (history : List SharedEvent) (event : SharedEvent) :
    after (history ++ [event]) = event.apply (after history) := by
  simp [after]

/-- An operation is on this object. -/
def Concerns (i : Nat) : SharedEvent → Prop
  | .made _ => False
  | .accessed j _ => j = i

end SharedEvent

end SteeredActors
