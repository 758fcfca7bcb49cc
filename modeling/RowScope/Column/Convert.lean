import RowScope.Column.Basic

/-!
# Converting Columns

A column becomes a value of a target. New names do not matter, and a choice
between one target and nothing is nothing for NULL and that target otherwise.
Whether the cell is NULL is looked at before the target is, so NULL becomes
nothing even where no conversion exists for the rest of the choice.

## Main definitions

* `Target.isDecided`: A choice in which exactly one alternative is something.
* `Column.convert`: The conversion.
-/

namespace RowScope

namespace Target

/-- Exactly one alternative is something. -/
def isDecided (alternatives : List Target) : Bool :=
  alternatives.countP (fun t => !t.isNothing) == 1

end Target

namespace Column

mutual

/-- The value of a column as a target. -/
def convert (c : Column) : Target → Except Fault Value
  | .integer => c.get .int64
  | .real => c.get .double
  | .text => c.get .fullText
  | .bytes => c.get .content
  | .window => c.get .window
  | .truth => return .truth ((← c.read Cell.int64) != 0)
  | .storageClass => c.get .storageClass
  | .anything => return .column c.id c.index
  | .column => return .column c.id c.index
  | .nothing => .error (.noConversion .nothing)
  | .absence => .error (.noConversion .absence)
  | .unsupported typeName => .error (.noConversion (.unsupported typeName))
  | .named name .nothing => .error (.noConversion (.named name .nothing))
  | .named _ base => c.convert base
  | .choice spelling alternatives => do
    if Target.isDecided alternatives then
      if ← c.isNull then return .null else c.convertSome alternatives
    else throw (.ambiguousTarget (.choice spelling alternatives))

/-- The value of a column as the first alternative that is something. -/
def convertSome (c : Column) : List Target → Except Fault Value
  | [] => .error (.noConversion .nothing)
  | .nothing :: rest => c.convertSome rest
  | t :: _ => c.convert t

end

end Column

end RowScope
