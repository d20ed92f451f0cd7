import Metered.Sequence

/-!
# Data as Containers

What can be done with a datum of which it is not known whether it is a container, and of which kind.

Tuples, lists and texts are sequences: taking one apart yields sequences of the same kind, and only
sequences of one kind can be joined. A dictionary yields its keys in order, but has no first or last
item. All other data have no items at all.

* `Datum.items`, `Datum.countedItems` — the items of a container, for two ways to ask for them;
* `Datum.isFilled` — a datum as a condition;
* `Datum.uncons`, `Datum.unsnoc` and their variants — a datum taken apart at either end;
* `Datum.append` — a sequence continued.
-/

namespace Metered

/-- The kinds of sequences. -/
inductive SequenceKind where
  | tuple
  | list
  | text
  deriving DecidableEq, Repr

/-- The sequence of a kind with the given items; the items of a text are texts. -/
def SequenceKind.ofItems (kind : SequenceKind) (items : List Datum) : Datum :=
  match kind with
  | tuple => .tuple items
  | list => .list items
  | text => .text (String.join (items.map Datum.plain))

namespace Datum

/-- The kind and the items of a sequence. -/
def sequence? : Datum → Option (SequenceKind × List Datum)
  | tuple xs => some (.tuple, xs)
  | list xs => some (.list, xs)
  | text s => some (.text, s.toList.map fun c => text c.toString)
  | _ => none

/-- A datum as a condition: nothing, the number zero and the empty containers are false. -/
def isFilled : Datum → Bool
  | null => false
  | bool b => b
  | int n => n != 0
  | real x => !x.equals (.finite false 0 0)
  | text s => !s.isEmpty
  | tuple xs | list xs => !xs.isEmpty
  | dict es => !es.isEmpty
  | _ => true

/-! ### Items -/

/-- The items that a datum yields one by one. -/
def items (d : Datum) : Except Fault (List Datum) :=
  match d.items? with
  | some xs => .ok xs
  | none => .error (.notIterable d.typeName)

/-- The items of a datum that is to be counted first. -/
def countedItems (d : Datum) : Except Fault (List Datum) :=
  match d.items? with
  | some xs => .ok xs
  | none => .error (.unsized d.typeName)

/-- The number of items of a container. -/
def size (d : Datum) : Except Fault Nat :=
  d.countedItems.map List.length

/-! ### Taking apart -/

/-- The fault of taking a stretch out of a datum that is no sequence. -/
def noStretch : Datum → Fault
  | dict _ => .unhashable "slice"
  | d => .notIndexable d.typeName

/-- The fault of taking the first item of a datum that is no sequence, and the rest after it. A
dictionary is asked for the key zero first. -/
def noFirst : Datum → Fault
  | dict es => if (lookup? es (int 0)).isSome then .unhashable "slice" else .unknownKey (int 0)
  | d => .notIndexable d.typeName

/-- The first item of a datum and the rest. -/
def uncons (d : Datum) : Except Fault (Datum × Datum) :=
  match d.sequence? with
  | some (kind, xs) => (Sequence.uncons xs).map fun (x, rest) => (x, kind.ofItems rest)
  | none => .error (if d.isFilled then d.noFirst else .emptySequence "head_tail")

/-- All items of a datum but the last, and the last. -/
def unsnoc (d : Datum) : Except Fault (Datum × Datum) :=
  match d.sequence? with
  | some (kind, xs) => (Sequence.unsnoc xs).map fun (rest, x) => (kind.ofItems rest, x)
  | none => .error (if d.isFilled then d.noStretch else .emptySequence "init_last")

/-- The first item of a datum and the rest; of one without items a default and nothing. -/
def unconsD (d default : Datum) : Except Fault (Datum × Datum) :=
  if d.isFilled then d.uncons else .ok (default, tuple [])

/-- All items of a datum but the last, and the last; of one without items nothing and a default. -/
def unsnocD (d default : Datum) : Except Fault (Datum × Datum) :=
  if d.isFilled then d.unsnoc else .ok (tuple [], default)

/-- A sequence without its last item. -/
def pop (d : Datum) : Except Fault Datum :=
  match d.sequence? with
  | some (kind, xs) => .ok (kind.ofItems (Sequence.pop xs))
  | none => .error d.noStretch

/-! ### Putting together -/

/-- The fault of continuing a datum with another one that it cannot be joined with. -/
def noJoin (d other : Datum) : Fault :=
  if d.sequence?.isSome then .notJoinable d.typeName other.typeName
  else .unsupported "+" d.typeName other.typeName

/-- A sequence continued with a sequence of the same kind. -/
def append (d other : Datum) : Except Fault Datum :=
  match d.sequence?, other.sequence? with
  | some (kind, xs), some (kind', ys) =>
    if kind = kind' then .ok (kind.ofItems (xs ++ ys)) else .error (d.noJoin other)
  | _, _ => .error (d.noJoin other)

/-- A tuple with an item at its end. -/
def push (d x : Datum) : Except Fault Datum :=
  d.append (tuple [x])

/-- A tuple with an item before its first one. -/
def cons (x d : Datum) : Except Fault Datum :=
  (tuple [x]).append d

/-- The dictionary that arises from putting entries one by one, each of whose keys must be fit to be
looked up. -/
def dictOf (entries : List (Datum × Datum)) : Except Fault Datum :=
  match entries.findSome? fun entry => entry.1.unhashable? with
  | some type => .error (.unhashable type)
  | none => .ok (ofEntries entries)

end Datum

end Metered
