import Stencil.Event
import Stencil.Fault

/-!
# Headers of statements

A header is a statement from its first keyword to its opening brace:

* `if condition {` and `if ( condition ) {`,
* `else if condition {` and `else if ( condition ) {`,
* `else {`,
* `for name in collection {` and `for ( name in collection ) {`.

It is read one token at a time; how far it has been read determines what must come next.

## Main definitions

* `Stencil.Header`: how far a header has been read.
* `Stencil.Header.expectation`: what must come next.
* `Stencil.Header.step`: the header after one more token, or the event that it amounts to.
-/

namespace Stencil

/-- Whether a condition is that of the first branch or of a later one. -/
inductive Arm where
  /-- `if` -/
  | first
  /-- `else if` -/
  | further
  deriving DecidableEq, Repr

/-- The event of a complete header with a condition. -/
def Arm.event : Arm → String → Event
  | first, condition => .openIf condition
  | further, condition => .elseIf condition

/-- How far a header has been read. -/
inductive Header where
  /-- `if` -/
  | condition (arm : Arm)
  /-- `if (` -/
  | conditionName (arm : Arm)
  /-- `if ( condition` -/
  | conditionEnd (arm : Arm) (condition : String)
  /-- `if condition` or `if ( condition )` -/
  | branchBody (arm : Arm) (condition : String)
  /-- `for` -/
  | loopVariable
  /-- `for (` -/
  | loopVariableName
  /-- `for name` or `for ( name` -/
  | loopIn (parens : Bool) (name : String)
  /-- `for name in` or `for ( name in` -/
  | loopCollection (parens : Bool) (name : String)
  /-- `for ( name in collection` -/
  | loopCollectionEnd (name collection : String)
  /-- `for name in collection` or `for ( name in collection )` -/
  | loopBody (name collection : String)
  /-- `else` -/
  | alternative
  deriving DecidableEq, Repr

namespace Header

/-- What must come next. -/
def expectation : Header → Expectation
  | condition _ => .condition
  | conditionName _ => .condition
  | conditionEnd _ _ => .conditionEnd
  | branchBody .first _ => .ifBody
  | branchBody .further _ => .elseIfBody
  | loopVariable => .loopVariable
  | loopVariableName => .loopVariable
  | loopIn _ _ => .loopIn
  | loopCollection _ _ => .loopCollection
  | loopCollectionEnd _ _ => .loopCollectionEnd
  | loopBody _ _ => .loopBody
  | alternative => .elseBody

/-- The header after one more token, or the event of the header that the token completes. -/
def step : Header → Token → Except StatementFault (Header ⊕ Event)
  | condition arm, .identifier c => .ok (.inl (branchBody arm c))
  | condition arm, .leftParen => .ok (.inl (conditionName arm))
  | conditionName arm, .identifier c => .ok (.inl (conditionEnd arm c))
  | conditionEnd arm c, .rightParen => .ok (.inl (branchBody arm c))
  | branchBody arm c, .leftBrace => .ok (.inr (arm.event c))
  | loopVariable, .identifier x => .ok (.inl (loopIn false x))
  | loopVariable, .leftParen => .ok (.inl loopVariableName)
  | loopVariableName, .identifier x => .ok (.inl (loopIn true x))
  | loopIn parens x, .keyword .inWord => .ok (.inl (loopCollection parens x))
  | loopCollection false x, .identifier c => .ok (.inl (loopBody x c))
  | loopCollection true x, .identifier c => .ok (.inl (loopCollectionEnd x c))
  | loopCollectionEnd x c, .rightParen => .ok (.inl (loopBody x c))
  | loopBody x c, .leftBrace => .ok (.inr (.openFor x c))
  | alternative, .leftBrace => .ok (.inr .otherwise)
  | alternative, .keyword .ifWord => .ok (.inl (condition .further))
  | alternative, t => .error (.unexpectedAfterElse t)
  | h, t => .error (.expected h.expectation (.token t))

end Header

end Stencil
