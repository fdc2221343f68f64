import PackageScaffold.Calendar
import PackageScaffold.Decimal.Binary

/-!
# Dynamic values

Package metadata and the bindings of a template are values of any shape: scalars, lists, and
mappings that keep the order in which their keys were first written.

## Main definitions

* `Value` and its mappings, `Entries`.  A collection that holds itself is a value too: it is written
  out once, and stands for itself where it comes again;
* `Value.sameKey`: when two values are one key of a mapping — numbers are compared by what they
  count, so that `1`, `1.0` and `true` are one key;
* `Entries.put`: a key written twice keeps its first place and takes its last value.
-/

namespace PackageScaffold

/-- The shape of a collection. -/
inductive Shape where
  | list
  | map
  deriving DecidableEq, Repr

/-- A value of package metadata or of a template binding. -/
inductive Value where
  | null
  | bool (value : Bool)
  | int (value : Int)
  | float (value : Float)
  | text (value : String)
  | list (items : List Value)
  | map (entries : List (Value × Value))
  | date (value : Date)
  | moment (value : Moment)
  | bytes (value : List UInt8)
  | set (members : List Value)
  | pair (first second : Value)
  /-- The numbers that spell a text with halves of character pairs, which is no text. -/
  | brokenText (codes : List Nat)
  /-- A list or a mapping inside itself.  The collection is there to be looked up, one level at a
  time. -/
  | again (shape : Shape) (collection : Unit → Value)
  deriving Inhabited

/-- The entries of a mapping, in order. -/
abbrev Entries := List (Value × Value)

/-- What a number counts: a whole number, or the bits of a float that is no whole number. -/
inductive Quantity where
  | whole (value : Int)
  | fraction (bits : UInt64)
  deriving DecidableEq

/-- What a numeric value counts; a value that is no number counts nothing. -/
def Value.quantity? : Value → Option Quantity
  | .bool value => some (.whole (if value then 1 else 0))
  | .int value => some (.whole value)
  | .float value =>
    match Decimal.decompose value, Decimal.whole? value with
    | .nan, _ => none
    | _, some whole => some (.whole whole)
    | _, none => some (.fraction value.toBits)
  | _ => none

/-- Whether two values are the same key of a mapping. -/
def Value.sameKey : Value → Value → Bool
  | .text a, .text b => a == b
  | .brokenText a, .brokenText b => a == b
  | .null, .null => true
  | .date a, .date b => a == b
  | .moment a, .moment b => a.same b
  | .bytes a, .bytes b => a == b
  | a, b =>
    match a.quantity?, b.quantity? with
    | some m, some n => m == n
    | _, _ => false

/-- The value that a name is bound to. -/
def Entries.get? (entries : Entries) (name : String) : Option Value :=
  match entries with
  | [] => none
  | (.text key, value) :: rest => if key == name then some value else Entries.get? rest name
  | _ :: rest => Entries.get? rest name

/-- Binds a key.  A key that is bound already keeps its place. -/
def Entries.put (entries : Entries) (key value : Value) : Entries :=
  match entries with
  | [] => [(key, value)]
  | (k, v) :: rest =>
    if k.sameKey key then (k, value) :: rest else (k, v) :: Entries.put rest key value

/-- The mapping that binding the given keys in turn builds. -/
def Entries.ofList (bindings : List (Value × Value)) : Entries :=
  bindings.foldl (fun entries (key, value) => entries.put key value) []

/-- The entries of a mapping; any other value has none. -/
def Value.entries? : Value → Option Entries
  | .map entries => some entries
  | .again _ collection =>
    match collection () with
    | .map entries => some entries
    | _ => none
  | _ => none

/-- The items of a list or of a pair; any other value has none. -/
def Value.items? : Value → Option (List Value)
  | .list items => some items
  | .pair first second => some [first, second]
  | .again _ collection =>
    match collection () with
    | .list items => some items
    | _ => none
  | _ => none

/-- The value that a name is bound to, if the value is a mapping. -/
def Value.get? (value : Value) (name : String) : Option Value :=
  value.entries?.bind (·.get? name)

end PackageScaffold
