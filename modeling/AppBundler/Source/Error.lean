/-!
# Syntax errors

A source text is refused with a problem and the line and column where it showed.
-/

namespace AppBundler

/-- What the parser looked for in vain. -/
inductive Expectation where
  | punct (text : String)
  | identifier
  | function
  | propertyKey
  | enumMember
  | enumInitializer
  | expression
  | arrowFunction
  | arrow
  | typeExpr
  | functionType
  | constructorType
  | propertySignature
  | memberSeparator
  | closedBrackets
  | closedAngle
deriving DecidableEq

/-- What is wrong with a source text. -/
inductive SyntaxProblem where
  | unterminatedComment
  | unterminatedString
  | unterminatedTemplate
  | unterminatedExpression
  | unterminatedRegex
  | unterminatedElement
  | unterminatedClosingTag
  | unterminatedAttribute
  | unterminatedTypeArguments
  | invalidAttributeValue
  | unexpectedInTag
  /-- Another token than expected, or the end of the text. -/
  | unexpected (expected : Expectation) (found : Option String)
  /-- The recursion went deeper than the text has tokens, which no text makes it do. -/
  | tooDeep
deriving DecidableEq

/-- A problem and its place. -/
structure SyntaxError where
  problem : SyntaxProblem
  line : Nat
  column : Nat
deriving DecidableEq

/-- The wording of an expectation. -/
def Expectation.message : Expectation → String
  | .punct text => "expected `" ++ text ++ "`"
  | .identifier => "expected identifier"
  | .function => "expected `function`"
  | .propertyKey => "expected property key"
  | .enumMember => "expected enum member"
  | .enumInitializer => "expected enum initializer"
  | .expression => "expected expression"
  | .arrowFunction => "expected arrow function"
  | .arrow => "expected `=>`"
  | .typeExpr => "expected type"
  | .functionType => "expected function type"
  | .constructorType => "expected constructor type"
  | .propertySignature => "expected property signature"
  | .memberSeparator => "expected `;` or `,` between members"
  | .closedBrackets => "unbalanced brackets"
  | .closedAngle => "unbalanced `<`"

/-- The wording of a problem. -/
def SyntaxProblem.message : SyntaxProblem → String
  | .unterminatedComment => "unterminated block comment"
  | .unterminatedString => "unterminated string literal"
  | .unterminatedTemplate => "unterminated template literal"
  | .unterminatedExpression => "unterminated embedded expression"
  | .unterminatedRegex => "unterminated regular expression"
  | .unterminatedElement => "unterminated JSX element"
  | .unterminatedClosingTag => "unterminated JSX closing tag"
  | .unterminatedAttribute => "unterminated JSX attribute"
  | .unterminatedTypeArguments => "unterminated type arguments"
  | .invalidAttributeValue => "invalid JSX attribute value"
  | .unexpectedInTag => "unexpected character in JSX tag"
  | .unexpected expected (some text) => expected.message ++ ", found `" ++ text ++ "`"
  | .unexpected expected none => expected.message ++ ", found end of input"
  | .tooDeep => "source is nested too deeply"

/-- The wording of a syntax error. -/
def SyntaxError.message (e : SyntaxError) : String :=
  e.problem.message ++ " at " ++ toString e.line ++ ":" ++ toString e.column

end AppBundler
