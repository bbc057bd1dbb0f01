/-
# Specimen.Template.Json — trees as JSON.

A node is written as an object.  Its field `type` says what it is; the other fields are the parts of
that form, in a fixed order:

    {"type":"LineBreak"}
    {"type":"Call","kind":…,"code":…,"children":[…]}
    {"type":"Markup","kind":…,"text":…,"children":[…]}
    {"type":"Container","children":[…]}

More is understood than is written.  Fields may come in any order and unknown ones are passed over,
but a field that matters may stand only once; a line break has no such fields.  A node may also be an
array of its type and its parts in order, complete and without anything behind them.  A kind may be
an object whose one field has its name and is null or empty.  Below the root, a type may be given by
its place in the list above, counted from zero.
-/
import Specimen.Json.Reader
import Specimen.Json.Writer
import Specimen.Template.Node

namespace Specimen.Template

open Json

/-! ## Names -/

/-- The name of a kind of call. -/
def CallKind.name : CallKind → String
  | .control => "Control"
  | .output => "Output"
  | .unescapedOutput => "UnescapedOutput"

/-- The kind of call with this name. -/
def CallKind.ofName? : String → Option CallKind
  | "Control" => some .control
  | "Output" => some .output
  | "UnescapedOutput" => some .unescapedOutput
  | _ => none

/-- The name of a kind of markup. -/
def MarkupKind.name : MarkupKind → String
  | .tag => "Tag"
  | .text => "Text"
  | .comment => "Comment"
  | .html => "Html"
  | .embedded => "Embedded"

/-- The kind of markup with this name. -/
def MarkupKind.ofName? : String → Option MarkupKind
  | "Tag" => some .tag
  | "Text" => some .text
  | "Comment" => some .comment
  | "Html" => some .html
  | "Embedded" => some .embedded
  | _ => none

theorem CallKind.ofName?_name (kind : CallKind) : ofName? kind.name = some kind := by
  cases kind <;> rfl

theorem MarkupKind.ofName?_name (kind : MarkupKind) : ofName? kind.name = some kind := by
  cases kind <;> rfl

/-- The forms of a node. -/
inductive Form where
  | lineBreak
  | call
  | markup
  | container
  deriving DecidableEq, Repr

namespace Form

/-- The form with this name. -/
def ofName? : String → Option Form
  | "LineBreak" => some .lineBreak
  | "Call" => some .call
  | "Markup" => some .markup
  | "Container" => some .container
  | _ => none

/-- The form at this place. -/
def ofIndex? : Nat → Option Form
  | 0 => some .lineBreak
  | 1 => some .call
  | 2 => some .markup
  | 3 => some .container
  | _ => none

/-- The form that a type names, or numbers if the node stands below the root. -/
def ofJson? (isRoot : Bool) : Value → Option Form
  | .string name => ofName? name
  | .number numeral => if isRoot then none else numeral.natural?.bind ofIndex?
  | _ => none

end Form

namespace Node

/-! ## Writing -/

/-- The parts of a head, as fields. -/
def headFields : Head → List (String × Value)
  | .call kind code =>
    [("type", .string "Call"), ("kind", .string kind.name), ("code", .string code)]
  | .markup kind text =>
    [("type", .string "Markup"), ("kind", .string kind.name), ("text", .string text)]

mutual

/-- A node as a JSON value. -/
def toJson : Node → Value
  | lineBreak => .object [("type", .string "LineBreak")]
  | block head nodes => .object (headFields head ++ [("children", .array (toJsonList nodes))])
  | container nodes =>
    .object [("type", .string "Container"), ("children", .array (toJsonList nodes))]

/-- Several nodes as JSON values. -/
def toJsonList : List Node → List Value
  | [] => []
  | node :: nodes => toJson node :: toJsonList nodes

end

/-- A node as JSON text, without any space. -/
def toJsonText (node : Node) : String := String.ofList node.toJson.compact

/-! ## Reading -/

/-- The value of the one field with this name; none if the name is missing or repeated. -/
def only? (name : String) (fields : List (String × Value)) : Option Value :=
  match fields.filter (·.1 = name) with
  | [(_, value)] => some value
  | _ => none

/-- The text of a value that is a string. -/
def text? : Value → Option String
  | .string text => some text
  | _ => none

/-- The name of a kind: a string, or the one field of an object, null or empty. -/
def kindName? : Value → Option String
  | .string name => some name
  | .object [(name, .null)] => some name
  | .object [(name, .object [])] => some name
  | _ => none

/-- The head of a call with this kind and this code. -/
def callHead? (kind code : Value) : Option Head := do
  pure (.call (← (kindName? kind).bind CallKind.ofName?) (← text? code))

/-- The head of markup with this kind and this text. -/
def markupHead? (kind text : Value) : Option Head := do
  pure (.markup (← (kindName? kind).bind MarkupKind.ofName?) (← text? text))

/-- The one member of a list that has one. -/
def single? : List (Option α) → Option α
  | [found] => found
  | _ => none

mutual

/-- The node that a JSON value stands for. -/
def ofJson? (isRoot : Bool) : Value → Option Node
  | .object fields =>
    match (only? "type" fields).bind (Form.ofJson? isRoot) with
    | none => none
    | some .lineBreak => some .lineBreak
    | some .call => do
      let head ← callHead? (← only? "kind" fields) (← only? "code" fields)
      pure (.block head (← single? (childLists fields)))
    | some .markup => do
      let head ← markupHead? (← only? "kind" fields) (← only? "text" fields)
      pure (.block head (← single? (childLists fields)))
    | some .container => do
      pure (.container (← single? (childLists fields)))
  | .array [type] =>
    if Form.ofJson? isRoot type = some .lineBreak then some .lineBreak else none
  | .array [type, .array nodes] =>
    if Form.ofJson? isRoot type = some .container then (ofJsonList? nodes).map container else none
  | .array [type, kind, text, .array nodes] =>
    match Form.ofJson? isRoot type with
    | some .call => do pure (.block (← callHead? kind text) (← ofJsonList? nodes))
    | some .markup => do pure (.block (← markupHead? kind text) (← ofJsonList? nodes))
    | _ => none
  | _ => none

/-- The nodes that a list of JSON values stands for. -/
def ofJsonList? : List Value → Option (List Node)
  | [] => some []
  | value :: values => do
    pure ((← ofJson? false value) :: (← ofJsonList? values))

/-- For each field with the name `children`, the nodes that it lists. -/
def childLists : List (String × Value) → List (Option (List Node))
  | [] => []
  | (name, value) :: fields =>
    if name = "children" then
      (match value with
        | .array nodes => ofJsonList? nodes
        | _ => none) :: childLists fields
    else childLists fields

end

/-- The node that a JSON text stands for; none if the text is not JSON or not a node. -/
def ofJsonText? (text : String) : Option Node :=
  match Value.read text with
  | .ok value => ofJson? true value
  | .error _ => none

end Node

end Specimen.Template
