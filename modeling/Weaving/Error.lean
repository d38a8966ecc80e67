import Weaving.Argument
import Weaving.Failure

/-!
# Errors

The reasons for which an operation refuses to go on. Each is kept as its cause; the wording is
in one place.
-/

namespace Weaving

/-- Why an operation failed. -/
inductive Error where
  /-- An edit needs an instruction where there is none. -/
  | positionOutOfRange (position : Int) (length : Nat)
  /-- The cursor was required to be on an instruction. -/
  | invalidCursor (explanation : String) (failure : Option Failure)
  /-- The patterns were required to match. -/
  | patternMismatch (explanation : String) (position : Int)
  /-- A condition was required to hold. -/
  | conditionFailed (explanation : String)
  /-- There is no match to repeat. -/
  | noPriorMatch
  | callNotFound (target : MethodPattern)
  /-- The receiver was asked for in a method that has none. -/
  | staticContext (m : MethodRef)
  | parameterOutOfRange (index count : Nat)
  | parameterTypeMismatch (index : Nat) (expected found : ValueType TypeRef)
  | missingLocal (choice : LocalChoice)
  /-- The operand is no constant that can be pushed. -/
  | unsupportedLiteral (value : Operand)
  /-- The method returns nothing that could be an argument. -/
  | voidArgument (m : MethodRef)
  | missingField (type : TypeRef) (name : MemberName)
  /-- No method of the type takes arguments of these types. -/
  | missingOverload (type : TypeRef) (name : MemberName) (arguments : List (ValueType TypeRef))
  /-- More than one method takes the arguments; the first two are named. -/
  | ambiguousMethod (first second : MethodRef)
  /-- The code is not well labelled. -/
  | labels (fault : Code.LabelFault)
  /-- A removal whose last instruction lies before its first. It is a breach of contract and no
  outcome that a caller could handle. -/
  | invertedRange (first last : Nat)
  /-- A repetition used up its rounds before it ran out of matches. -/
  | roundsExhausted

namespace Error

/-- The error is a breach of contract that ends all work on the code. -/
def isFatal : Error → Bool
  | .invertedRange _ _ => true
  | _ => false

/-- The sentence that reports the error. -/
def message (md : Metadata) : Error → String
  | .positionOutOfRange position length =>
    "cursor position " ++ toString position ++ " is outside of the " ++ toString length ++
      " instructions"
  | .invalidCursor explanation failure =>
    explanation ++ " - " ++ Failure.messageOrRange md failure
  | .patternMismatch explanation position =>
    explanation ++ " - no match at position " ++ toString position
  | .conditionFailed explanation => explanation
  | .noPriorMatch => "no previous match operation, cannot repeat"
  | .callNotFound target => "no call to " ++ target.render md ++ " found"
  | .staticContext m => "cannot load 'this' in static context " ++ md.renderMethod m
  | .parameterOutOfRange index count =>
    "parameter index " ++ toString index ++ " is out of range (method has " ++ toString count ++
      " parameters)"
  | .parameterTypeMismatch index expected found =>
    "parameter " ++ toString index ++ " has type " ++ md.renderType found ++ " but " ++
      md.renderType expected ++ " was expected"
  | .missingLocal (.slot n) => "no local variable with index " ++ toString n.toNat
  | .missingLocal (.ofType type) => "no local variable of type " ++ type
  | .unsupportedLiteral value => "cannot load " ++ value.render md ++ " as a literal"
  | .voidArgument m => md.renderMethod m ++ " returns nothing and cannot be an argument"
  | .missingField type name => "missing member " ++ md.renderMember type name
  | .missingOverload type name arguments =>
    "missing member " ++ Text.Dump.tagged (md.renderMember type name) (arguments.map md.renderType)
  | .ambiguousMethod first second =>
    "ambiguous method: both " ++ md.renderMethod first ++ " and " ++ md.renderMethod second ++
      " match"
  | .labels (.dangling ls) =>
    "branch labels " ++ Label.renderAll ls ++ " do not tag any instruction"
  | .labels (.duplicate l) => "label " ++ l.render ++ " tags more than one instruction"
  | .invertedRange first last =>
    "the range from " ++ toString first ++ " to " ++ toString last ++ " is inverted"
  | .roundsExhausted => "the repetition did not end within its rounds"

end Error

end Weaving
