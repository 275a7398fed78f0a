import ApiRelease.Declaration.Decode
import ApiRelease.Likeness

/-! # Options of a comparison -/
namespace ApiRelease

structure DiffOptions where
  /-- the least score at which a removed and an added declaration are one renamed -/
  renameThreshold : Float
  /-- look at the members of matched declarations -/
  includeNested : Bool
  /-- ask the oracle about types that differ -/
  resolveTypes : Bool
  /-- the greatest depth at which changes are still reported -/
  maxDepth : Int
  detectReordering : Bool

namespace DiffOptions

def standard : DiffOptions where
  renameThreshold := Scale.ratio 4 5
  includeNested := true
  resolveTypes := true
  maxDepth := 10
  detectReordering := true

def toValue (o : DiffOptions) : Value :=
  .table [("rename_threshold", .float o.renameThreshold),
    ("include_nested_changes", .bool o.includeNested),
    ("resolve_type_relationships", .bool o.resolveTypes),
    ("max_nesting_depth", .int o.maxDepth),
    ("detect_parameter_reordering", .bool o.detectReordering)]

/-- Options from a configuration table; fields it does not name keep their standard
value. -/
def ofFields (fs : Fields) : Except Fault DiffOptions := do
  let threshold ← (fs.getD "rename_threshold" (.float standard.renameThreshold)).toFloat
  if !(decide (Likeness.zero ≤ threshold) && decide (threshold ≤ Likeness.one)) then
    throw .thresholdOutOfRange
  let depth ← (fs.getD "max_nesting_depth" (.int standard.maxDepth)).toInt
  if depth < 0 then throw .negativeDepth
  let flag (key : String) : Bool := (fs.getD key (.bool true)).truthy
  return { renameThreshold := threshold, includeNested := flag "include_nested_changes",
           resolveTypes := flag "resolve_type_relationships", maxDepth := depth,
           detectReordering := flag "detect_parameter_reordering" }

def ofValue (v : Value) : Except Fault DiffOptions := do
  ofFields (← v.fields)

/-- The same options, doubles compared as doubles. -/
def same (a b : DiffOptions) : Bool :=
  decide (a.renameThreshold = b.renameThreshold) && a.includeNested == b.includeNested &&
    a.resolveTypes == b.resolveTypes && decide (a.maxDepth = b.maxDepth) &&
    a.detectReordering == b.detectReordering

end DiffOptions

end ApiRelease
