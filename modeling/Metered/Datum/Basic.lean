import Metered.Binary64.Basic
import Metered.Direction

/-!
# Untyped Data

Operands, rows, tables and tapes are described by plain data, and nothing about a description is
known before it is checked. `Datum` is the type of such data.

* `Datum.integer?` — the integer that a datum equals; truth values and floating-point numbers count
  as numbers, so `1`, `true` and `1.0` are one value everywhere that values are compared;
* `Datum.equals` — equality of data;
* `Datum.items?`, `Datum.size?`, `Datum.index?` — a datum seen as a container;
* `Datum.unhashable?` — what keeps a datum from being the key of a look-up.
-/

namespace Metered

/-- A piece of plain data. The last four constructors are data of the engine itself: a direction, an
entry of a table, a tape and a rule, each with fields that nobody has checked. -/
inductive Datum where
  | null
  | bool (value : Bool)
  | int (value : Int)
  | real (value : Binary64)
  | text (value : String)
  | tuple (items : List Datum)
  | list (items : List Datum)
  | dict (entries : List (Datum × Datum))
  | direction (value : Direction)
  | transition (write move next : Datum)
  | tape (left head right : Datum)
  | rule (number : Nat)
  deriving Inhabited

namespace Datum

instance : Zero Datum := ⟨int 0⟩

/-- A bit as a number. -/
def ofBit (bit : Bool) : Datum :=
  int (if bit then 1 else 0)

/-- The name of a datum's type. -/
def typeName : Datum → String
  | null => "NoneType"
  | bool _ => "bool"
  | int _ => "int"
  | real _ => "float"
  | text _ => "str"
  | tuple _ => "tuple"
  | list _ => "list"
  | dict _ => "dict"
  | direction _ => "Direction"
  | transition .. => "Transition"
  | tape .. => "Tape"
  | rule _ => "ElementaryRule"

/-! ### Data as numbers -/

/-- The integer that a datum equals, if it does. -/
def integer? : Datum → Option Int
  | bool b => some (if b then 1 else 0)
  | int n => some n
  | real x => x.integer?
  | _ => none

/-- The bit that a datum equals, if it does. -/
def bit? (d : Datum) : Option Bool :=
  match d.integer? with
  | some 0 => some false
  | some 1 => some true
  | _ => none

/-- Equality of data that are numbers. -/
def equalsNumber (x y : Datum) : Bool :=
  match x.integer?, y.integer? with
  | some m, some n => m == n
  | none, none =>
    match x, y with
    | real a, real b => a.equals b
    | _, _ => false
  | _, _ => false

/-! ### Equality -/

mutual

/-- Equality of data: numbers by value, containers of one kind by their items, dictionaries without
regard to order. A rule equals no other datum. -/
def equals : Datum → Datum → Bool
  | null, null => true
  | text s, text t => s == t
  | tuple xs, tuple ys => equalsItems xs ys
  | list xs, list ys => equalsItems xs ys
  | dict es, dict fs => es.length == fs.length && equalsEntries es fs
  | direction a, direction b => a == b
  | transition w m n, transition w' m' n' => equals w w' && equals m m' && equals n n'
  | tape l h r, tape l' h' r' => equals l l' && equals h h' && equals r r'
  | x, y => equalsNumber x y

/-- Equality of two rows of data, item by item. -/
def equalsItems : List Datum → List Datum → Bool
  | [], [] => true
  | x :: xs, y :: ys => equals x y && equalsItems xs ys
  | _, _ => false

/-- Whether every entry of the first dictionary is one of the second. -/
def equalsEntries : List (Datum × Datum) → List (Datum × Datum) → Bool
  | [], _ => true
  | (key, value) :: entries, others =>
    (match others.find? fun other => equals key other.1 with
      | some other => equals value other.2
      | none => false) && equalsEntries entries others

end

/-! ### Containers -/

/-- The value under a key of a dictionary. -/
def lookup? (entries : List (Datum × Datum)) (key : Datum) : Option Datum :=
  (entries.find? fun entry => equals entry.1 key).map Prod.snd

/-- The entries of a dictionary after an entry is put: an equal key keeps its place and takes the
new value. -/
def putEntry (entries : List (Datum × Datum)) (key value : Datum) : List (Datum × Datum) :=
  if entries.any fun entry => equals entry.1 key then
    entries.map fun entry => if equals entry.1 key then (entry.1, value) else entry
  else entries ++ [(key, value)]

/-- The dictionary that arises from putting entries one by one. -/
def ofEntries (entries : List (Datum × Datum)) : Datum :=
  dict (entries.foldl (fun dictionary entry => putEntry dictionary entry.1 entry.2) [])

/-- What a datum yields item by item: the items of a sequence, the characters of a text, the keys of
a dictionary. -/
def items? : Datum → Option (List Datum)
  | tuple xs | list xs => some xs
  | text s => some (s.toList.map fun c => text c.toString)
  | dict es => some (es.map Prod.fst)
  | _ => none

/-- The number of items of a container. -/
def size? (d : Datum) : Option Nat :=
  d.items?.map List.length

/-- The item of a row at a position, which counts from the end when it is negative. -/
def itemAt? (items : List Datum) (position : Int) : Option Datum :=
  if 0 ≤ position then items[position.toNat]?
  else if -position ≤ items.length then items[items.length - position.natAbs]?
  else none

/-- The position that a datum stands for in a sequence: only integers and truth values do. -/
def position? : Datum → Option Int
  | bool b => some (if b then 1 else 0)
  | int n => some n
  | _ => none

/-- The item of a container under an index: a position in a sequence or a text, a key in a
dictionary. -/
def index? (container index : Datum) : Option Datum :=
  match container with
  | dict es => lookup? es index
  | tuple _ | list _ | text _ =>
    container.items?.bind fun items => index.position?.bind fun position => itemAt? items position
  | _ => none

mutual

/-- The type of the first part of a datum that may not be in a key, if there is one: a list or a
dictionary can still change. -/
def unhashable? : Datum → Option String
  | list _ => some "list"
  | dict _ => some "dict"
  | tuple xs => unhashableItem? xs
  | transition write move next =>
    unhashable? write <|> unhashable? move <|> unhashable? next
  | tape left head right => unhashable? left <|> unhashable? head <|> unhashable? right
  | _ => none

/-- The type of the first part of a row that may not be in a key. -/
def unhashableItem? : List Datum → Option String
  | [] => none
  | x :: xs => unhashable? x <|> unhashableItem? xs

end

end Datum

end Metered
