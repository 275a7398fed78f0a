import ApiRelease.Document.Numeral
import ApiRelease.Document.Show

/-! # What can go wrong

A fault is the cause of a failure, with just what its message needs. Its sort says
who may recover from it: a loader skips an entry whose fault is an absent field, a
document of the wrong shape or a malformed value, and passes every other fault on.
A text that breaks the rules of its format has a sort of its own.
-/
namespace ApiRelease

inductive FaultSort where
  /-- a required entry is absent -/
  | absent
  /-- a document has the wrong shape -/
  | mistyped
  /-- a document has the right shape and a value that is not allowed -/
  | malformed
  /-- a document was asked for something that its shape does not offer -/
  | unsupported
  /-- a number does not fit -/
  | overflow
  /-- something is asked of a place where there is nothing -/
  | outOfBounds
  /-- a text breaks the rules of its format -/
  | illFormed
  | invalidDescriptor
  | unreadablePolicy
  | unreadableModule
  /-- a file is not text -/
  | undecodable
  /-- console text with a closing tag that closes nothing -/
  | unbalancedMarkup
  /-- a value that cannot be put on the console -/
  | unprintable
  /-- a failure of someone else, which nobody here recovers from -/
  | foreign
  deriving DecidableEq

inductive DescriptorFault where
  | unknownTarget (given : Value)
  | unknownAction (given : Value)
  | unknownTags (given : List String)
  | incomplete (target : String) (aspect impact : Value)
  | unknownAspect (given : Value)
  | unknownImpact (given : Value)
  | superfluous (action target : String) (aspect impact : Value)

inductive Fault where
  | missing (key : String)
  | unknownBuiltin (name : String) (available : List String)
  | notIndexed (kind : String)
  | notIterable (kind : String)
  | notHashable (kind : String)
  | notInteger (kind : String)
  | notNumber (kind : String)
  | notText (kind : String)
  | notKey (kind : String)
  | notWritable (kind : String)
  | notJoinable
  | badCall
  | badInteger (base : Nat) (given : Scalar)
  | badNumber (given : Scalar)
  | tooManyDigits (count : Nat)
  | numberTooLong
  | badMoment (cause : MomentFault)
  | badCharacter
  | characterTooLarge
  | blankNumber
  | illFormed
  | integerOfNaN
  | integerOfInfinity
  | integerTooLarge
  | noField (kind : String)
  | namelessNode
  | unknownNodeKind (kind name : String)
  | thresholdOutOfRange
  | negativeDepth
  | unknownRelease (given : Value)
  | incompleteIntent
  | incompletePattern
  | unknownRuleType (given : Value)
  | unknownLevel (given : String)
  | notRules
  | descriptor (cause : DescriptorFault)
  | policyFile (source reason : String)
  | moduleFile (source reason : String)
  | undecodable
  | unbalancedMarkup
  | unprintable
  | raised (sort : FaultSort) (message : String)

/-- `key=value` pairs in brackets after a message. -/
def withDetails (message : String) (details : List (String × String)) : String :=
  message ++ " (" ++ ", ".intercalate (details.map fun d => d.1 ++ "=" ++ d.2) ++ ")"

def DescriptorFault.message : DescriptorFault → String
  | .unknownTarget given => "unknown change target '" ++ given.toText ++ "'"
  | .unknownAction given => "unknown change action '" ++ given.toText ++ "'"
  | .unknownTags given => "unknown change tags: " ++ ", ".intercalate given
  | .incomplete target aspect impact =>
    withDetails "modified changes require both aspect and impact"
      [("target", target), ("aspect", aspect.toText), ("impact", impact.toText)]
  | .unknownAspect given => "unknown change aspect '" ++ given.toText ++ "'"
  | .unknownImpact given => "unknown change impact '" ++ given.toText ++ "'"
  | .superfluous action target aspect impact =>
    withDetails ("'" ++ action ++ "' changes carry no aspect or impact")
      [("target", target), ("aspect", aspect.toText), ("impact", impact.toText)]

namespace Fault

def sort : Fault → FaultSort
  | .missing _ | .unknownBuiltin _ _ => .absent
  | .notIndexed _ | .notIterable _ | .notHashable _ | .notInteger _ | .notNumber _ | .notText _
  | .notKey _ | .notWritable _ | .notJoinable | .badCall => .mistyped
  | .badInteger _ _ | .badNumber _ | .tooManyDigits _ | .numberTooLong | .badMoment _
  | .badCharacter | .integerOfNaN | .namelessNode | .unknownNodeKind _ _
  | .thresholdOutOfRange | .negativeDepth | .unknownRelease _ | .incompleteIntent
  | .incompletePattern | .unknownRuleType _ | .unknownLevel _ | .notRules => .malformed
  | .integerOfInfinity | .integerTooLarge | .characterTooLarge => .overflow
  | .blankNumber => .outOfBounds
  | .illFormed => .illFormed
  | .noField _ => .unsupported
  | .descriptor _ => .invalidDescriptor
  | .policyFile _ _ => .unreadablePolicy
  | .moduleFile _ _ => .unreadableModule
  | .undecodable => .undecodable
  | .unbalancedMarkup => .unbalancedMarkup
  | .unprintable => .unprintable
  | .raised sort _ => sort

def shownCharacters : Nat := 200

/-- The cause in words, without the quotes that an absent key is shown in. -/
def detail : Fault → String
  | .missing key => key
  | .unknownBuiltin name available =>
    "unknown built-in policy '" ++ name ++ "' (available: " ++ ", ".intercalate available ++ ")"
  | .notIndexed kind =>
    if kind == "str" then "string indices must be integers, not 'str'"
    else if kind == "list" || kind == "tuple" then
      kind ++ " indices must be integers or slices, not str"
    else if kind == "bytes" then "byte indices must be integers or slices, not str"
    else "'" ++ kind ++ "' object is not subscriptable"
  | .notIterable kind => "'" ++ kind ++ "' object is not iterable"
  | .notHashable kind => "unhashable type: '" ++ kind ++ "'"
  | .notInteger kind =>
    "int() argument must be a string, a bytes-like object or a real number, not '" ++ kind ++ "'"
  | .notNumber kind => "float() argument must be a string or a real number, not '" ++ kind ++ "'"
  | .notText kind => "expected string or bytes-like object, got '" ++ kind ++ "'"
  | .notKey kind => "keys must be str, int, float, bool or None, not " ++ kind
  | .notWritable kind => "Object of type " ++ kind ++ " is not JSON serializable"
  | .notJoinable => "sequence item 0: expected str instance"
  | .badCall => "unexpected arguments"
  | .badInteger base given =>
    "invalid literal for int() with base " ++ toString base ++ ": " ++
      String.ofList (given.quote.toList.take shownCharacters)
  | .badNumber given => "could not convert string to float: " ++ given.quote
  | .tooManyDigits count =>
    "Exceeds the limit (" ++ toString Numeral.mostDigits ++ " digits) for integer string conversion: value has " ++
      toString count ++ " digits; use sys.set_int_max_str_digits() to increase the limit"
  | .numberTooLong =>
    "Exceeds the limit (" ++ toString Numeral.mostDigits ++ " digits) for integer string conversion; use sys.set_int_max_str_digits() to increase the limit"
  | .badMoment cause => cause.message
  | .badCharacter => "chr() arg not in range(0x110000)"
  | .characterTooLarge => "character number out of range"
  | .blankNumber => "string index out of range"
  | .illFormed => "not well formed"
  | .integerOfNaN => "cannot convert float NaN to integer"
  | .integerOfInfinity => "cannot convert float infinity to integer"
  | .integerTooLarge => "int too large to convert to float"
  | .noField kind => "'" ++ kind ++ "' object has no attribute 'get'"
  | .namelessNode => "declaration node without a name"
  | .unknownNodeKind kind name => "unknown node kind '" ++ kind ++ "' for '" ++ name ++ "'"
  | .thresholdOutOfRange => "rename_threshold must be between 0 and 1"
  | .negativeDepth => "max_nesting_depth must not be negative"
  | .unknownRelease given => "unknown release type '" ++ given.toText ++ "'"
  | .incompleteIntent => "intent rules need 'expression' and 'returns'"
  | .incompletePattern => "pattern rules need 'template' and 'returns'"
  | .unknownRuleType given => "unknown rule type '" ++ given.toText ++ "'"
  | .unknownLevel given => "unknown rule level '" ++ given ++ "'"
  | .notRules => "expected a rule object, a list of rules, or a table with 'rules'"
  | .descriptor cause => cause.message
  | .policyFile source reason =>
    withDetails ("Cannot load policy: " ++ source) [("source", source), ("reason", reason)]
  | .moduleFile source reason =>
    withDetails ("Cannot load module analysis: " ++ source)
      [("source", source), ("reason", reason)]
  | .undecodable => "not UTF-8 text"
  | .unbalancedMarkup => "closing tag without an opening tag"
  | .unprintable => "not printable"
  | .raised _ message => message

/-- The message of a fault; the key of an absent entry is quoted in it. -/
def message (f : Fault) : String :=
  match f.sort with
  | .absent => Text.quoted f.detail
  | _ => f.detail

/-- Faults of a single entry of a document, which its loader reports and skips. -/
def isOfEntry (f : Fault) : Bool :=
  match f.sort with
  | .absent | .mistyped | .malformed | .invalidDescriptor | .unreadablePolicy | .unreadableModule
  | .undecodable => true
  | _ => false

/-- Faults of one value: all those of an entry but an absent field. -/
def isOfValue (f : Fault) : Bool := f.isOfEntry && f.sort != .absent

end Fault

end ApiRelease
