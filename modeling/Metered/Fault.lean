import Metered.Datum.Written
import Metered.Number
import Metered.Text.Numeral

/-!
# Faults and Their Reports

A computation that yields no value yields a `Fault`, which says what went wrong and holds the data
that the explanation names. `Fault.report` turns it into a `Report`: the kind of fault, the words,
and the attributes that a handler can read off.

Reports can also be made directly from their attributes (`Report.ofArguments`), with the
defaults that each kind has.
-/

namespace Metered

/-! ### Reports -/

/-- What a handler may tell faults apart by. -/
inductive FaultKind where
  | general
  | emptySequence
  | undefinedTransition
  | divisionByZero
  | budgetExceeded
  | wrongType
  | wrongValue
  | unknownKey
  | unknownField
  | overflow
  deriving DecidableEq, Repr, Inhabited

namespace FaultKind

/-- The name of a kind. -/
def name : FaultKind → String
  | general => "FixpointError"
  | emptySequence => "EmptySequence"
  | undefinedTransition => "UndefinedTransition"
  | divisionByZero => "DivisionByZero"
  | budgetExceeded => "EvaluationBudgetExceeded"
  | wrongType => "TypeError"
  | wrongValue => "ValueError"
  | unknownKey => "KeyError"
  | unknownField => "AttributeError"
  | overflow => "OverflowError"

/-- The name of the more general kind under which the engine's own kinds can be handled too. -/
def base? : FaultKind → Option String
  | general => some "Exception"
  | emptySequence => some "IndexError"
  | undefinedTransition => some "LookupError"
  | divisionByZero => some "ZeroDivisionError"
  | budgetExceeded => some "RuntimeError"
  | _ => none

/-- The attributes that a report of a kind must be given, and how many more it may be given. -/
def parameters? : FaultKind → Option (List String × Nat)
  | emptySequence => some ([], 1)
  | undefinedTransition => some (["message"], 2)
  | divisionByZero => some (["op"], 0)
  | budgetExceeded => some (["limit", "spent"], 1)
  | _ => none

end FaultKind

/-- The outward form of a fault. -/
structure Report where
  kind : FaultKind
  message : String
  attributes : List (String × Datum)
  deriving Inhabited

namespace Report

/-- A report that carries nothing but its words. -/
def ofMessage (kind : FaultKind) (message : String) : Report :=
  ⟨kind, message, []⟩

/-- The report on taking apart an empty sequence. -/
def emptySequence (op : Datum) : Report :=
  ⟨.emptySequence, op.plain ++ ": sequence is empty", [("op", op)]⟩

/-- The report on an entry that a table lacks or should not have. -/
def undefinedTransition (message state bit : Datum) : Report :=
  ⟨.undefinedTransition, message.plain, [("state", state), ("bit", bit)]⟩

/-- The report on a division by zero. -/
def divisionByZero (op : Datum) : Report :=
  ⟨.divisionByZero, op.plain ++ ": divisor must be nonzero", [("op", op)]⟩

/-- The report on a budget that ran out. -/
def budgetExceeded (limit spent what : Datum) : Report :=
  ⟨.budgetExceeded,
    what.plain ++ " exceeded budget of " ++ limit.plain ++ " (spent " ++ spent.plain ++ ")",
    [("limit", limit), ("spent", spent), ("what", what)]⟩

end Report

/-! ### Faults -/

/-- What is wrong with a table at a state and a bit. -/
inductive TableFault where
  /-- The table has no states. -/
  | empty
  /-- The state has no entry for the bit. -/
  | missing
  /-- The entry is no triple of what to write, where to move and what comes next. -/
  | notTriple (entry : Datum)
  /-- The entry writes something other than a bit. -/
  | badWrite (write : Datum)
  /-- The entry moves in no direction. -/
  | badMove (move : Datum)
  /-- The entry goes on to no state of a table of `count` states. -/
  | badNext (next : Datum) (count : Nat)
  /-- The table has no such state. -/
  | outside
  /-- The entry was never validated. -/
  | unvalidated (entry : Datum)

/-- Why a computation yields no value. -/
inductive Fault where
  /-- An empty sequence was taken apart. -/
  | emptySequence (op : String)
  /-- A table has no valid entry for a state and a bit. -/
  | undefinedTransition (cause : TableFault) (state bit : Datum)
  /-- A divisor is zero. -/
  | divisionByZero (op : String)
  /-- More was spent than the budget allows. -/
  | budgetExceeded (limit spent : Number) (what : String)
  /-- An operand is no integer. -/
  | notNatural (op : String) (operand : Datum)
  /-- An operand is below zero. -/
  | negative (op : String) (operand : Int)
  /-- A cell of a row is no bit. -/
  | notBit (op : String) (cell : Datum)
  /-- One of three neighbours is no bit. -/
  | notNeighbourhood (prev cur next : Datum)
  /-- A datum that cannot be a key was looked up. -/
  | unhashable (type : String)
  /-- The number of a rule is no integer. -/
  | ruleNotInteger (number : Datum)
  /-- The number of a rule is not in `0..255`. -/
  | ruleOutOfRange (number : Int)
  /-- A rule turns the zero background into ones. -/
  | ruleLightsBackground (number : Nat)
  /-- A datum names no direction. -/
  | notDirection (word : Datum)
  /-- A datum that is no container was counted. -/
  | unsized (type : String)
  /-- A datum that yields no items was gone through. -/
  | notIterable (type : String)
  /-- A part was taken of a datum that has none. -/
  | notIndexable (type : String)
  /-- A sequence was continued with something other than a sequence of its kind. -/
  | notJoinable (whole part : String)
  /-- A sign of arithmetic stands between data that it does not apply to. -/
  | unsupported (sign left right : String)
  /-- Data were compared that have no order. -/
  | notComparable (sign left right : String)
  /-- A datum has no such field. -/
  | noField (type name : String)
  /-- An integer is too large for the floating-point format. -/
  | tooLarge
  /-- The limit of a tank is below zero. -/
  | negativeLimit (limit : Number)
  /-- A text denotes no integer that is read. -/
  | notNumeral (text : String) (cause : Text.NumeralFault)
  /-- There is nothing under a key. -/
  | unknownKey (key : Datum)
  /-- A margin is no integer. -/
  | notWidth (type : String)
  /-- A margin is wider than any text. -/
  | tooWide
  /-- A cell does not fit into a byte. -/
  | notByte (cell : Int)
  /-- A cell of a grid is no finite number. -/
  | notFinite (cell : Binary64)
  /-- A cell of a grid is itself a sequence. -/
  | nestedCell
  /-- A cell of a grid is nothing like a number. -/
  | notNumber (type : String)
  /-- A report was not given all the attributes that it must have. -/
  | missingArguments (kind : FaultKind) (names : List String)
  /-- A report was given more attributes than it can have. -/
  | tooManyArguments (kind : FaultKind) (least most given : Nat)
  deriving Inhabited

/-- The words on a direction that cannot be read. -/
def notDirectionMessage (word : Datum) : String :=
  "Not a direction: " ++ word.written

/-- The words on a fault of a table at a state and a bit. -/
def TableFault.message (state bit : Datum) : TableFault → String
  | empty => "state table is empty; state 0 is undefined"
  | missing => "state " ++ state.plain ++ " has no transition for bit " ++ bit.plain
  | outside => "state " ++ state.plain ++ " is not in the table"
  | notTriple entry => entryMessage ("expected (write, move, next), got " ++ entry.written)
  | badWrite write => entryMessage ("cannot write " ++ write.written)
  | badMove move => entryMessage (notDirectionMessage move)
  | badNext next count =>
    entryMessage ("next state " ++ next.written ++ " is not in 0.." ++
      toString ((count : Int) - 1) ++ " or HALT")
  | unvalidated entry =>
    entryMessage ("unvalidated entry " ++ entry.written ++ "; build the table with make_table")
where
  /-- Words on the entry of the state and the bit. -/
  entryMessage (words : String) : String :=
    "state " ++ state.plain ++ ", bit " ++ bit.plain ++ ": " ++ words

namespace Fault

/-- The beginning of a quoted text, as much of it as is shown in a message. -/
def excerpt (text : String) : String :=
  String.ofList ((Text.quoted text).toList.take 200)

/-- The report on a fault. -/
def report : Fault → Report
  | emptySequence op => .emptySequence (.text op)
  | undefinedTransition cause state bit =>
    .undefinedTransition (.text (cause.message state bit)) state bit
  | divisionByZero op => .divisionByZero (.text op)
  | budgetExceeded limit spent what => .budgetExceeded limit.toDatum spent.toDatum (.text what)
  | notNatural op operand =>
    .ofMessage .wrongType (op ++ ": expected a natural number, got " ++ operand.written)
  | negative op operand =>
    .ofMessage .wrongValue
      (op ++ ": negative numbers are not representable, got " ++ toString operand)
  | notBit op cell =>
    .ofMessage .wrongValue (op ++ ": row cells must be bits, got " ++ cell.written)
  | notNeighbourhood prev cur next =>
    .ofMessage .wrongValue
      ("Neighbourhood cells must be bits, got " ++ (Datum.tuple [prev, cur, next]).written)
  | unhashable type => .ofMessage .wrongType ("unhashable type: " ++ Text.quoted type)
  | ruleNotInteger number =>
    .ofMessage .wrongType ("Rule number must be an int, got " ++ number.written)
  | ruleOutOfRange number =>
    .ofMessage .wrongValue ("Rule number must be in 0..255, got " ++ toString number)
  | ruleLightsBackground number =>
    .ofMessage .wrongValue ("Rule " ++ toString number ++
      " maps 000 to 1; an infinite zero background is not representable")
  | notDirection word => .ofMessage .wrongValue (notDirectionMessage word)
  | unsized type =>
    .ofMessage .wrongType ("object of type " ++ Text.quoted type ++ " has no len()")
  | notIterable type =>
    .ofMessage .wrongType (Text.quoted type ++ " object is not iterable")
  | notIndexable type =>
    .ofMessage .wrongType (Text.quoted type ++ " object is not subscriptable")
  | notJoinable whole part =>
    .ofMessage .wrongType
      ("can only concatenate " ++ whole ++ " (not \"" ++ part ++ "\") to " ++ whole)
  | unsupported sign left right =>
    .ofMessage .wrongType ("unsupported operand type(s) for " ++ sign ++ ": " ++
      Text.quoted left ++ " and " ++ Text.quoted right)
  | notComparable sign left right =>
    .ofMessage .wrongType (Text.quoted sign ++ " not supported between instances of " ++
      Text.quoted left ++ " and " ++ Text.quoted right)
  | noField type name =>
    .ofMessage .unknownField
      (Text.quoted type ++ " object has no attribute " ++ Text.quoted name)
  | tooLarge => .ofMessage .overflow "int too large to convert to float"
  | negativeLimit limit =>
    .ofMessage .wrongValue ("Fuel limit must be non-negative, got " ++ limit.toDatum.plain)
  | notNumeral text .malformed =>
    .ofMessage .wrongValue ("invalid literal for int() with base 10: " ++ excerpt text)
  | notNumeral _ (.tooLong digits) =>
    .ofMessage .wrongValue
      ("Exceeds the limit (4300 digits) for integer string conversion: value has " ++
        toString digits ++ " digits; use sys.set_int_max_str_digits() to increase the limit")
  | unknownKey key => .ofMessage .unknownKey key.written
  | notWidth type =>
    .ofMessage .wrongType ("can't multiply sequence by non-int of type " ++ Text.quoted type)
  | tooWide => .ofMessage .overflow "cannot fit 'int' into an index-sized integer"
  | notByte cell =>
    .ofMessage .overflow ("Python integer " ++ toString cell ++ " out of bounds for uint8")
  | notFinite .notANumber => .ofMessage .wrongValue "cannot convert float NaN to integer"
  | notFinite _ => .ofMessage .overflow "cannot convert float infinity to integer"
  | nestedCell =>
    .ofMessage .wrongValue ("setting an array element with a sequence. " ++
      "The requested array would exceed the maximum number of dimension of 1.")
  | notNumber type =>
    .ofMessage .wrongType
      ("int() argument must be a string, a bytes-like object or a real number, not " ++
        Text.quoted type)
  | missingArguments kind names =>
    .ofMessage .wrongType (kind.name ++ ".__init__() missing " ++ toString names.length ++
      " required positional argument" ++ (if names.length = 1 then "" else "s") ++ ": " ++
      " and ".intercalate (names.map Text.quoted))
  | tooManyArguments kind least most given =>
    .ofMessage .wrongType (kind.name ++ ".__init__() takes " ++
      (if least = most then "" else "from " ++ toString least ++ " to ") ++ toString most ++
      " positional arguments but " ++ toString given ++ " were given")

/-- The words on a fault. -/
def message (fault : Fault) : String :=
  fault.report.message

end Fault

/-! ### Reports from attributes -/

namespace Report

/-- The report of a kind with the right number of attributes in order; those at the end may be left
out where they have a default. -/
def ofAttributes : FaultKind → List Datum → Report
  | .emptySequence, [] => emptySequence (.text "decompose")
  | .emptySequence, [op] => emptySequence op
  | .undefinedTransition, [message] => undefinedTransition message .null .null
  | .undefinedTransition, [message, state] => undefinedTransition message state .null
  | .undefinedTransition, [message, state, bit] => undefinedTransition message state bit
  | .divisionByZero, [op] => divisionByZero op
  | .budgetExceeded, [limit, spent] => budgetExceeded limit spent (.text "evaluation")
  | .budgetExceeded, [limit, spent, what] => budgetExceeded limit spent what
  | kind, [] => ofMessage kind ""
  | kind, [message] => ofMessage kind message.plain
  | kind, arguments => ofMessage kind (Datum.tuple arguments).written

/-- The report of a kind with the given attributes in order, or the fault of having been given too
few of them or too many. The report itself is counted as one of them. -/
def ofArguments (kind : FaultKind) (arguments : List Datum) : Except Fault Report :=
  match kind.parameters? with
  | none => .ok (ofAttributes kind arguments)
  | some (required, optional) =>
    let given := arguments.length
    let most := required.length + optional
    if given < required.length then .error (.missingArguments kind (required.drop given))
    else if most < given then
      .error (.tooManyArguments kind (required.length + 1) (most + 1) (given + 1))
    else .ok (ofAttributes kind arguments)

end Report

end Metered
