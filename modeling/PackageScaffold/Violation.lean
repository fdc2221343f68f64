import PackageScaffold.Text.Order
import PackageScaffold.Text.Split

/-!
# Violations

A record that comes from outside is checked field by field, and every field that does not fit is
reported, not only the first.
-/

namespace PackageScaffold

/-- What is wrong with a field. -/
inductive Complaint where
  | missing
  | textExpected
  | textTooShort
  | textUndecodable
  | numberUnreadable
  | numberTooLong
  | numberFractional
  | numberInfinite
  | numberExpected
  | numberTooSmall
  | truthUnreadable
  | truthExpected
  | listExpected
  | tupleExpected
  | tooFewItems
  | unknownChoice
  | wrongKind
  | pathExpected
  | valueRefused
  | documentUnreadable
  | documentNotRecord
  deriving DecidableEq, Repr

/-- The short name of a complaint. -/
def Complaint.code : Complaint → String
  | .missing => "missing"
  | .textExpected => "string_type"
  | .textTooShort => "string_too_short"
  | .textUndecodable => "string_unicode"
  | .numberUnreadable => "int_parsing"
  | .numberTooLong => "int_parsing_size"
  | .numberFractional => "int_from_float"
  | .numberInfinite => "finite_number"
  | .numberExpected => "int_type"
  | .numberTooSmall => "greater_than_equal"
  | .truthUnreadable => "bool_parsing"
  | .truthExpected => "bool_type"
  | .listExpected => "list_type"
  | .tupleExpected => "tuple_type"
  | .tooFewItems => "too_short"
  | .unknownChoice => "enum"
  | .wrongKind => "literal_error"
  | .pathExpected => "path_type"
  | .valueRefused => "value_error"
  | .documentUnreadable => "json_invalid"
  | .documentNotRecord => "model_type"

/-- A complaint about a place in a record; the record as a whole is the empty place. -/
structure Violation where
  place : List String
  complaint : Complaint
  deriving DecidableEq, Repr

namespace Violation

/-- The place as text, its parts joined by dots. -/
def placeText (v : Violation) : String :=
  Text.join "." v.place

/-- The violations of a record in words. -/
def summary (record : String) (violations : List Violation) : String :=
  let count := String.ofList (Nat.toDigits 10 violations.length)
  let noun := if violations.length == 1 then " validation error for " else " validation errors for "
  count ++ noun ++ record ++ ": " ++
    Text.join ", " (violations.map fun v => v.placeText ++ " (" ++ v.complaint.code ++ ")")

end Violation

/-- A field that was read, or the violations in it. -/
abbrev Checked (α : Type) := Except (List Violation) α

/-- A complaint about a whole field. -/
def Checked.ofField {α : Type} (field : String) : Except Complaint α → Checked α
  | .ok value => .ok value
  | .error complaint => .error [⟨[field], complaint⟩]

theorem Checked.ofField_eq_ok_iff {α : Type} {field : String} {read : Except Complaint α}
    {value : α} : Checked.ofField field read = .ok value ↔ read = .ok value := by
  cases read <;> simp [Checked.ofField]

/-- The violations in a field, none if it was read. -/
def Checked.violations {α : Type} : Checked α → List Violation
  | .ok _ => []
  | .error violations => violations

end PackageScaffold
