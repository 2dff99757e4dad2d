import Offside.Parser.State
import Offside.Syntax.Tree

/-!
The rules of the grammar. Rules that can contain themselves take fuel: one unit for each rule
inside another and for each round of a loop, so that what bounds the depth of a reading bounds
the fuel it needs.
-/

namespace Offside

/-- Kinds of tokens that an expression can start with. -/
def Kind.startsExpression : Kind → Bool
  | .integer _ | .float _ _ | .char _ | .stringStart | .boolean _ | .nothing | .placeholder
  | .identifier => true
  | .symbol .leftParen | .keyword .switch | .symbol .dotDot => true
  | kind => (PrefixOp.ofKind? kind).isSome

namespace Grammar

open Offside.Parser

def applyPrefix (op : PrefixOp) (operand : Expr Span) (span : Span) : Expr Span :=
  match op with
  | .unary op => .unary op operand span
  | .update op => .update op true operand span

/-- The type that an expression names, if it is a name known to be one. -/
def knownType? (settings : Settings) : Expr Span → Option (Identifier Span)
  | .identifier name => if settings.isTypeName name.name then some name else none
  | _ => none

def applyCall (settings : Settings) (callee : Expr Span) (arguments : List (Expr Span))
    (span : Span) : Expr Span :=
  match knownType? settings callee, arguments with
  | some type, [value] => .cast type value span
  | some type, values => .initializer type values span
  | none, arguments => .call callee arguments span

def identifier : Parser (Identifier Span) := do
  let token ← expect .identifier
  return ⟨token.text, token.span⟩

def updated (op : UpdateOp) (value : Expr Span) : Parser (Expr Span) := do
  let token ← consume
  return .update op false value (value.span.join token.span)

def optionalField (value : Expr Span) : Parser (Expr Span) := do
  discard consume
  let name ← within .identifier identifier
  return .optionalField value name (value.span.join name.span)

/-- The names of a group of fields, after the first one. A comma may follow the last. -/
def fieldNames : Nat → Parser (List (Identifier Span))
  | 0 => exhausted
  | fuel + 1 => do
    if (← consumeKind (.symbol .comma)).isNone then
      return []
    else if ← check (.symbol .rightParen) then
      return []
    else
      let name ← within .identifier identifier
      return name :: (← fieldNames fuel)

/-- A literal other than a string. -/
def simpleLiteral : Parser (Literal Span) := do
  let token ← consume
  match token.kind with
  | .integer value => return .integer value token.span
  | .float value suffix => return .float value suffix token.span
  | .char value => return .char value token.span
  | .boolean value => return .boolean value token.span
  | .nothing => return .nothing token.span
  | .placeholder => return .placeholder token.span
  | _ => unexpected token.span token [.literal]

/-- The end of a statement after an expression, with the span of a semicolon. A semicolon or line
break is taken. What closes or opens a block also ends the statement but stays, and after a switch
no end is needed. -/
def terminator (value : Expr Span) : Parser (Option Span) := do
  let next ← peek
  match next.kind with
  | .symbol .semicolon => return some (← consume).span
  | .newline =>
    discard consume
    return none
  | .indent | .dedent | .endOfInput => return none
  | _ =>
    if value.endsWithLayout then
      return none
    else
      unexpected next.span next [.kind (.symbol .semicolon), .kind .newline]

mutual

/-- An expression whose infix operators all bind at least as tightly as `minimum`. -/
def expression : Nat → Nat → Parser (Expr Span)
  | 0, _ => exhausted
  | fuel + 1, minimum => do
    let first ← operand fuel
    climb fuel minimum first

/-- Goes on with the infix operators after an expression that bind at least as tightly as
`minimum`. None can follow the layout of a switch. -/
def climb : Nat → Nat → Expr Span → Parser (Expr Span)
  | 0, _, _ => exhausted
  | fuel + 1, minimum, left => do
    if left.endsWithLayout then
      return left
    else
      match InfixOp.ofKind? (← peekKind) with
      | none => return left
      | some op =>
        if op.leftBinding < minimum then
          return left
        else
          let token ← consume
          let longer ← applyInfix fuel op token.span left
          climb fuel minimum longer

/-- The operation of an infix operator that was just taken. -/
def applyInfix : Nat → InfixOp → Span → Expr Span → Parser (Expr Span)
  | 0, _, _, _ => exhausted
  | fuel + 1, op, opSpan, left => do
    match op with
    | .assign assignOp =>
      if left.isAssignable then
        let right ← expression fuel op.rightBinding
        return .assignment assignOp left right (left.span.join right.span)
      else
        failAt left.span .invalidTarget
    | .binary binaryOp =>
      let right ← expression fuel op.rightBinding
      return .binary binaryOp left right (left.span.join right.span)
    | .range =>
      let upper ← rangeEnd fuel
      let last := (upper.map Expr.span).getD opSpan
      return .range (some left) upper (left.span.join last)

def rangeEnd : Nat → Parser (Option (Expr Span))
  | 0 => exhausted
  | fuel + 1 => do
    if (← peekKind).startsExpression then
      let upper ← expression fuel InfixOp.range.rightBinding
      return some upper
    else
      return none

/-- What infix operators stand between. -/
def operand : Nat → Parser (Expr Span)
  | 0 => exhausted
  | fuel + 1 => do
    let kind ← peekKind
    match PrefixOp.ofKind? kind, kind with
    | some op, _ =>
      let token ← consume
      let value ← expression fuel prefixBinding
      return applyPrefix op value (token.span.join value.span)
    | none, .symbol .dotDot =>
      let token ← consume
      let upper ← rangeEnd fuel
      let span := match upper with
        | some upper => token.span.join upper.span
        | none => token.span
      return .range none upper span
    | none, .keyword .switch => within .switch (switch fuel)
    | none, _ =>
      let value ← primary fuel
      suffixes fuel value

/-- A name, a literal or an expression in parentheses. Parentheses leave no trace. -/
def primary : Nat → Parser (Expr Span)
  | 0 => exhausted
  | fuel + 1 => do
    let next ← peek
    match next.kind with
    | .identifier => return .identifier (← within .identifier identifier)
    | .symbol .leftParen =>
      discard consume
      let value ← within .expr (expression fuel 0)
      discard (expect (.symbol .rightParen))
      return value
    | kind =>
      if kind.isLiteral || kind = .stringStart then
        return .literal (← within .literal (literal fuel))
      else
        unexpected next.span next [.expression]

/-- Goes on with everything that can follow an operand. -/
def suffixes : Nat → Expr Span → Parser (Expr Span)
  | 0, _ => exhausted
  | fuel + 1, value => do
    match ← peekKind with
    | .symbol .plusPlus => suffixes fuel (← updated .increment value)
    | .symbol .minusMinus => suffixes fuel (← updated .decrement value)
    | .symbol .bang => suffixes fuel (← unwrapped fuel value)
    | .symbol .question => suffixes fuel (← extracted fuel value)
    | .symbol .questionDot => suffixes fuel (← optionalField value)
    | .symbol .dot => suffixes fuel (← field fuel value)
    | .symbol .leftBracket => suffixes fuel (← indexed fuel value)
    | .symbol .leftParen => suffixes fuel (← called fuel value)
    | _ => return value

/-- An exclamation mark, with or without arguments. -/
def unwrapped : Nat → Expr Span → Parser (Expr Span)
  | 0, _ => exhausted
  | fuel + 1, value => do
    let bang ← consume
    if ← check (.symbol .leftParen) then
      let (arguments, span) ← delimited fuel .leftParen .rightParen
      return .unwrapWith value arguments (value.span.join span)
    else
      return .unwrap value (value.span.join bang.span)

/-- A question mark, which needs arguments. -/
def extracted : Nat → Expr Span → Parser (Expr Span)
  | 0, _ => exhausted
  | fuel + 1, value => do
    discard consume
    let (arguments, span) ← delimited fuel .leftParen .rightParen
    return .extraction value arguments (value.span.join span)

/-- A field, or several in parentheses. -/
def field : Nat → Expr Span → Parser (Expr Span)
  | 0, _ => exhausted
  | fuel + 1, value => do
    discard consume
    if (← consumeKind (.symbol .leftParen)).isSome then
      let first ← within .identifier identifier
      let others ← fieldNames fuel
      let close ← expect (.symbol .rightParen)
      return .fieldGroup value (first :: others) (value.span.join close.span)
    else
      let name ← within .identifier identifier
      return .field value name (value.span.join name.span)

/-- Indices, of which there has to be one. After a known type, arguments may follow, and then
the indices are the dimensions of a new array. -/
def indexed : Nat → Expr Span → Parser (Expr Span)
  | 0, _ => exhausted
  | fuel + 1, value => do
    let (indices, span) ← delimited fuel .leftBracket .rightBracket
    if indices.isEmpty then
      failAt span (.expected [.expression] (.symbol .rightBracket) "]")
    else
      let hasValues ← check (.symbol .leftParen)
      match knownType? (← get).settings value, hasValues with
      | some type, true =>
        let (values, valuesSpan) ← delimited fuel .leftParen .rightParen
        return .newArray type indices values (type.span.join valuesSpan)
      | _, _ => return .element value indices (value.span.join span)

def called : Nat → Expr Span → Parser (Expr Span)
  | 0, _ => exhausted
  | fuel + 1, value => do
    let (arguments, span) ← delimited fuel .leftParen .rightParen
    return applyCall (← get).settings value arguments (value.span.join span)

/-- Expressions between two delimiters, with the span from one to the other. -/
def delimited : Nat → Symbol → Symbol → Parser (List (Expr Span) × Span)
  | 0, _, _ => exhausted
  | fuel + 1, opening, closing => do
    let first ← expect (.symbol opening)
    let values ← listed fuel closing
    let last ← expect (.symbol closing)
    return (values, first.span.join last.span)

/-- Expressions between commas, up to a delimiter. A comma may follow the last. -/
def listed : Nat → Symbol → Parser (List (Expr Span))
  | 0, _ => exhausted
  | fuel + 1, closing => do
    if ← check (.symbol closing) then
      return []
    else
      let value ← within .expr (expression fuel 0)
      if (← consumeKind (.symbol .comma)).isSome then
        return value :: (← listed fuel closing)
      else
        return [value]

def literal : Nat → Parser (Literal Span)
  | 0 => exhausted
  | fuel + 1 => do
    if ← check .stringStart then
      let start ← consume
      let (parts, last) ← stringParts fuel
      return .string parts (start.span.join last)
    else
      simpleLiteral

/-- The parts of a string up to its end, with the span of the end. -/
def stringParts : Nat → Parser (List (StringPart Span) × Span)
  | 0 => exhausted
  | fuel + 1 => do
    let token ← consume
    match token.kind with
    | .stringFragment text =>
      let (parts, last) ← stringParts fuel
      return (.fragment text :: parts, last)
    | .interpolationStart =>
      let value ← within .expr (expression fuel 0)
      discard (expect .interpolationEnd)
      let (parts, last) ← stringParts fuel
      return (.interpolation value :: parts, last)
    | .stringEnd => return ([], token.span)
    | _ =>
      unexpected token.span token
        [.kind (.stringFragment ""), .kind .interpolationStart, .kind .stringEnd]

/-- A switch over one or more subjects. Its arms are an indented block, which may be missing. -/
def switch : Nat → Parser (Expr Span)
  | 0 => exhausted
  | fuel + 1 => do
    let keyword ← expect (.keyword .switch)
    let first ← within .expr (expression fuel 0)
    let others ← subjects fuel
    let colon ← expect (.symbol .colon)
    let head := keyword.span.join colon.span
    let next ← peek
    match next.kind with
    | .newline =>
      discard consume
      return .switch (first :: others) [] head
    | .dedent | .endOfInput => return .switch (first :: others) [] head
    | .indent =>
      discard consume
      let arms ← arms fuel
      let span := (arms.map Arm.span).foldl Span.join head
      return .switch (first :: others) arms span
    | _ => unexpected next.span next [.kind .newline, .kind .indent]

def subjects : Nat → Parser (List (Expr Span))
  | 0 => exhausted
  | fuel + 1 => do
    if (← consumeKind (.symbol .comma)).isSome then
      let subject ← within .expr (expression fuel 0)
      return subject :: (← subjects fuel)
    else
      return []

/-- The arms of a switch, with the end of the block they are in. -/
def arms : Nat → Parser (List (Arm Span))
  | 0 => exhausted
  | fuel + 1 => do
    removeNewlines
    if (← consumeKind .dedent).isSome then
      return []
    else
      let first ← within .arm (arm fuel)
      return first :: (← arms fuel)

def arm : Nat → Parser (Arm Span)
  | 0 => exhausted
  | fuel + 1 => do
    let pattern ← within .pattern (pattern fuel)
    discard (expect (.symbol .arrow))
    let body ← within .armBody (armBody fuel)
    return .mk pattern body (pattern.span.join body.span)

def pattern : Nat → Parser (Pattern Span)
  | 0 => exhausted
  | fuel + 1 => do
    let next ← peek
    match next.kind with
    | .identifier => return .binding (← within .identifier identifier)
    | kind =>
      if kind.isLiteral || kind = .stringStart then
        return .literal (← within .literal (literal fuel))
      else
        unexpected next.span next [.kind .identifier, .literal]

def armBody : Nat → Parser (Action Span)
  | 0 => exhausted
  | fuel + 1 => do
    match ← peekKind with
    | .indent => within .block (block fuel)
    | .keyword .throw => within .throwStatement (throwStatement fuel)
    | _ => within .expressionStatement (expressionStatement fuel)

def statement : Nat → Parser (Statement Span)
  | 0 => exhausted
  | fuel + 1 => do
    let next ← peek
    match next.kind with
    | .indent => return .action (← within .block (block fuel))
    | .symbol .semicolon => return .empty (← consume).span
    | .keyword .throw => return .action (← within .throwStatement (throwStatement fuel))
    | kind =>
      if kind.isDeclaration then
        failAt next.span (.unsupportedDeclaration next.text)
      else
        return .action (← within .expressionStatement (expressionStatement fuel))

def block : Nat → Parser (Action Span)
  | 0 => exhausted
  | fuel + 1 => do
    let first ← expect .indent
    let statements ← statementsUntil fuel .dedent
    let last ← expect .dedent
    let span := (statements.map Statement.span).foldl Span.join (first.span.join last.span)
    return .block statements span

def expressionStatement : Nat → Parser (Action Span)
  | 0 => exhausted
  | fuel + 1 => do
    let value ← within .expr (expression fuel 0)
    match ← terminator value with
    | some last => return .expression value (value.span.join last)
    | none => return .expression value value.span

def throwStatement : Nat → Parser (Action Span)
  | 0 => exhausted
  | fuel + 1 => do
    let keyword ← expect (.keyword .throw)
    let value ← within .expr (expression fuel 0)
    match ← terminator value with
    | some last => return .throw value (keyword.span.join last)
    | none => return .throw value (keyword.span.join value.span)

/-- Statements up to a token of the given kind, which stays, or to the end of input. A statement
that is wrong is reported and left out. -/
def statementsUntil : Nat → Kind → Parser (List (Statement Span))
  | 0, _ => exhausted
  | fuel + 1, last => do
    removeNewlines
    let next ← peek
    if next.kind = last || next.kind = .endOfInput then
      return []
    else
      let depth := (← get).depth
      match ← attempt (within .statement (statement fuel)) with
      | .ok first => return first :: (← statementsUntil fuel last)
      | .error error =>
        recover error depth next.span.first
        statementsUntil fuel last

end

def file (fuel : Nat) : Parser (File Span) := do
  let statements ← statementsUntil fuel .endOfInput
  let last ← expect .endOfInput
  let first := match statements with
    | statement :: _ => statement.span.first
    | [] => .start
  return ⟨statements, ⟨first, last.span.last⟩⟩

end Grammar

end Offside
