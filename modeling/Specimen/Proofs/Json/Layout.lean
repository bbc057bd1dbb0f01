/-
# Specimen.Proofs.Json.Layout — one writer for all layouts.

The two layouts of the writer differ only in the white space between lexemes.  Here a value is
written in any layout that puts white space where a reader may find some, and both layouts are
shown to be cases of that.
-/
import Specimen.Json.Lexeme
import Specimen.Json.Writer

namespace Specimen.Json

/-! ## Layouts -/

/-- What a layout puts between lexemes. -/
structure Layout where
  /-- What stands in front of an element, a field or a closing bracket, by the number of brackets
  that are open there. -/
  gap : Nat → List Char
  /-- What stands behind a colon. -/
  behindColon : List Char
  gap_blank : ∀ depth, ∀ c ∈ gap depth, isBlank c = true
  behindColon_blank : ∀ c ∈ behindColon, isBlank c = true

namespace Layout

/-- The layout without any space. -/
def compact : Layout where
  gap _ := []
  behindColon := []
  gap_blank _ := List.forall_mem_nil _
  behindColon_blank := List.forall_mem_nil _

/-- The layout over several lines. -/
def indented : Layout where
  gap := Value.newline
  behindColon := [' ']
  gap_blank depth c inside := by
    obtain rfl | inside := List.mem_cons.mp inside
    · rfl
    · obtain rfl := List.eq_of_mem_replicate inside
      rfl
  behindColon_blank := List.forall_mem_singleton.mpr rfl

end Layout

namespace Value

mutual

/-- A value in some layout; `depth` is the number of brackets around it. -/
def written (layout : Layout) (depth : Nat) : Value → List Char
  | null => ['n', 'u', 'l', 'l']
  | bool true => ['t', 'r', 'u', 'e']
  | bool false => ['f', 'a', 'l', 's', 'e']
  | number numeral => numeral.text
  | string text => quoted text
  | array [] => ['[', ']']
  | array (value :: values) =>
    '[' :: (layout.gap (depth + 1) ++
      (written layout (depth + 1) value ++ writtenElements layout depth values))
  | object [] => ['{', '}']
  | object ((name, value) :: fields) =>
    '{' :: (layout.gap (depth + 1) ++ (quoted name ++ ':' :: (layout.behindColon ++
      (written layout (depth + 1) value ++ writtenFields layout depth fields))))

/-- The elements after the first, and the bracket that closes the array. -/
def writtenElements (layout : Layout) (depth : Nat) : List Value → List Char
  | [] => layout.gap depth ++ [']']
  | value :: values =>
    ',' :: (layout.gap (depth + 1) ++
      (written layout (depth + 1) value ++ writtenElements layout depth values))

/-- The fields after the first, and the bracket that closes the object. -/
def writtenFields (layout : Layout) (depth : Nat) : List (String × Value) → List Char
  | [] => layout.gap depth ++ ['}']
  | (name, value) :: fields =>
    ',' :: (layout.gap (depth + 1) ++ (quoted name ++ ':' :: (layout.behindColon ++
      (written layout (depth + 1) value ++ writtenFields layout depth fields))))

end

mutual

theorem compact_eq_written (depth : Nat) :
    ∀ value : Value, value.compact = written .compact depth value
  | null => rfl
  | bool true => rfl
  | bool false => rfl
  | number _ => rfl
  | string _ => rfl
  | array [] => rfl
  | array (value :: values) => by
      rw [compact, written, compact_eq_written, compactElements_eq_written]
      rfl
  | object [] => rfl
  | object ((name, value) :: fields) => by
      rw [compact, written, compact_eq_written, compactFields_eq_written]
      rfl

theorem compactElements_eq_written (depth : Nat) :
    ∀ values : List Value, compactElements values = writtenElements .compact depth values
  | [] => rfl
  | value :: values => by
      rw [compactElements, writtenElements, compact_eq_written, compactElements_eq_written]
      rfl

theorem compactFields_eq_written (depth : Nat) :
    ∀ fields : List (String × Value), compactFields fields = writtenFields .compact depth fields
  | [] => rfl
  | (name, value) :: fields => by
      rw [compactFields, writtenFields, compact_eq_written, compactFields_eq_written]
      rfl

end

mutual

theorem indented_eq_written (depth : Nat) :
    ∀ value : Value, value.indented depth = written .indented depth value
  | null => rfl
  | bool true => rfl
  | bool false => rfl
  | number _ => rfl
  | string _ => rfl
  | array [] => rfl
  | array (value :: values) => by
      rw [indented, written, indented_eq_written, indentedElements_eq_written, List.append_assoc]
      rfl
  | object [] => rfl
  | object ((name, value) :: fields) => by
      rw [indented, written, indented_eq_written, indentedFields_eq_written, List.append_assoc]
      rfl

theorem indentedElements_eq_written (depth : Nat) :
    ∀ values : List Value, indentedElements depth values = writtenElements .indented depth values
  | [] => rfl
  | value :: values => by
      rw [indentedElements, writtenElements, indented_eq_written, indentedElements_eq_written,
        List.append_assoc]
      rfl

theorem indentedFields_eq_written (depth : Nat) :
    ∀ fields : List (String × Value),
      indentedFields depth fields = writtenFields .indented depth fields
  | [] => rfl
  | (name, value) :: fields => by
      rw [indentedFields, writtenFields, indented_eq_written, indentedFields_eq_written,
        List.append_assoc]
      rfl

end

end Value

end Specimen.Json
