import Offside.Parser.Grammar

/-!
The grammar as a relation: which parts of a tree can be derived from which tokens, whatever a
reader does to find them. Tiers of operators are left out of it, and a statement that is wrong is
any run of tokens up to a place where statements can go on.
-/

namespace Offside

/-- The literal that a single token stands for. -/
def Token.literal? (token : Token) : Option (Literal Span) :=
  match token.kind with
  | .integer value => some (.integer value token.span)
  | .float value suffix => some (.float value suffix token.span)
  | .char value => some (.char value token.span)
  | .boolean value => some (.boolean value token.span)
  | .nothing => some (.nothing token.span)
  | .placeholder => some (.placeholder token.span)
  | _ => none

/-- Kinds of tokens that end a statement that is wrong and belong to it. -/
def Kind.endsSkipped : Kind → Bool
  | .symbol .semicolon | .newline | .dedent => true
  | _ => false

/-- Kinds of tokens that end a statement that is wrong and do not belong to it. -/
def Kind.stopsSkipping : Kind → Bool
  | .dedent | .keyword .throw | .keyword .switch => true
  | kind => kind.isDeclaration

/-- Parts of a tree that are read from a run of tokens. -/
inductive Phrase
  | identifier (name : Identifier Span)
  /-- The names of a group of fields, after the first one. -/
  | names (names : List (Identifier Span))
  | literal (literal : Literal Span)
  /-- The parts of a string, with the span of its end. -/
  | parts (parts : List (StringPart Span)) (last : Span)
  /-- An expression that is no operation of an infix or prefix operator, or stands in
  parentheses. -/
  | primary (value : Expr Span)
  | expr (value : Expr Span)
  /-- The upper end of a range, which may be open. -/
  | upper (value : Option (Expr Span))
  /-- Expressions with the delimiters around them. -/
  | group (opening closing : Symbol) (values : List (Expr Span)) (span : Span)
  | listed (values : List (Expr Span))
  /-- The subjects of a switch, after the first one. -/
  | subjects (values : List (Expr Span))
  /-- The arms of a switch, with the layout around them. -/
  | armBlock (arms : List (Arm Span))
  | arms (arms : List (Arm Span))
  | arm (arm : Arm Span)
  | pattern (pattern : Pattern Span)
  | action (action : Action Span)
  | statement (statement : Statement Span)
  | statements (statements : List (Statement Span))

/-- The end of a statement after an expression, with the span of a semicolon. -/
inductive Ends (value : Expr Span) : List Token → Option Span → List Token → Prop
  | semicolon {token : Token} {after : List Token} (isSemicolon : token.kind = .symbol .semicolon) :
    Ends value (token :: after) (some token.span) after
  | line {token : Token} {after : List Token} (isLine : token.kind = .newline) :
    Ends value (token :: after) none after
  | block {token : Token} {after : List Token}
    (isBlock : token.kind = .indent ∨ token.kind = .dedent ∨ token.kind = .endOfInput) :
    Ends value (token :: after) none (token :: after)
  | layout {after : List Token} (endsWithLayout : value.endsWithLayout = true) :
    Ends value after none after

/-- After a run of tokens that was skipped, statements go on. -/
def ResumesAt (skipped after : List Token) : Prop :=
  (∃ before last, skipped = before ++ [last] ∧ last.kind.endsSkipped = true) ∨
    ∃ token rest, after = token :: rest ∧
      (token.kind.stopsSkipping = true ∨ token.kind = .endOfInput)

/-- A part of a tree is derived from tokens, with those after it and the number of attempts at
statements that failed. -/
inductive Derives (settings : Settings) : Nat → List Token → Phrase → List Token → Prop
  | identifier {name : Token} {after : List Token} (isName : name.kind = .identifier) :
    Derives settings 0 (name :: after) (.identifier ⟨name.text, name.span⟩) after
  | noNames {after : List Token} : Derives settings 0 after (.names []) after
  | noNamesAfter {comma : Token} {after : List Token} (isComma : comma.kind = .symbol .comma) :
    Derives settings 0 (comma :: after) (.names []) after
  | names {comma : Token} {rest middle after : List Token} {name : Identifier Span}
    {names : List (Identifier Span)} {m n : Nat} (isComma : comma.kind = .symbol .comma)
    (first : Derives settings m rest (.identifier name) middle)
    (others : Derives settings n middle (.names names) after) :
    Derives settings (m + n) (comma :: rest) (.names (name :: names)) after
  | simpleLiteral {token : Token} {after : List Token} {literal : Literal Span}
    (isLiteral : token.literal? = some literal) :
    Derives settings 0 (token :: after) (.literal literal) after
  | string {start : Token} {rest after : List Token} {parts : List (StringPart Span)}
    {last : Span} {n : Nat} (isStart : start.kind = .stringStart)
    (inside : Derives settings n rest (.parts parts last) after) :
    Derives settings n (start :: rest) (.literal (.string parts (start.span.join last))) after
  | stringEnd {last : Token} {after : List Token} (isEnd : last.kind = .stringEnd) :
    Derives settings 0 (last :: after) (.parts [] last.span) after
  | fragment {token : Token} {text : String} {rest after : List Token}
    {parts : List (StringPart Span)} {last : Span} {n : Nat}
    (isText : token.kind = .stringFragment text)
    (others : Derives settings n rest (.parts parts last) after) :
    Derives settings n (token :: rest) (.parts (.fragment text :: parts) last) after
  | interpolation {opening closing : Token} {rest middle after : List Token} {value : Expr Span}
    {parts : List (StringPart Span)} {last : Span} {m n : Nat}
    (opens : opening.kind = .interpolationStart)
    (inside : Derives settings m rest (.expr value) (closing :: middle))
    (closes : closing.kind = .interpolationEnd)
    (others : Derives settings n middle (.parts parts last) after) :
    Derives settings (m + n) (opening :: rest) (.parts (.interpolation value :: parts) last) after
  | name {before after : List Token} {name : Identifier Span} {n : Nat}
    (read : Derives settings n before (.identifier name) after) :
    Derives settings n before (.primary (.identifier name)) after
  | literal {before after : List Token} {literal : Literal Span} {n : Nat}
    (read : Derives settings n before (.literal literal) after) :
    Derives settings n before (.primary (.literal literal)) after
  | parenthesized {opening closing : Token} {rest after : List Token} {value : Expr Span} {n : Nat}
    (opens : opening.kind = .symbol .leftParen)
    (inside : Derives settings n rest (.expr value) (closing :: after))
    (closes : closing.kind = .symbol .rightParen) :
    Derives settings n (opening :: rest) (.primary value) after
  | updated {before after : List Token} {token : Token} {value : Expr Span} {op : UpdateOp}
    {n : Nat} (read : Derives settings n before (.primary value) (token :: after))
    (isUpdate : PrefixOp.ofKind? token.kind = some (.update op)) :
    Derives settings n before (.primary (.update op false value (value.span.join token.span)))
      after
  | unwrap {before after : List Token} {bang : Token} {value : Expr Span} {n : Nat}
    (read : Derives settings n before (.primary value) (bang :: after))
    (isBang : bang.kind = .symbol .bang) :
    Derives settings n before (.primary (.unwrap value (value.span.join bang.span))) after
  | unwrapWith {before middle after : List Token} {bang : Token} {value : Expr Span}
    {arguments : List (Expr Span)} {span : Span} {m n : Nat}
    (read : Derives settings m before (.primary value) (bang :: middle))
    (isBang : bang.kind = .symbol .bang)
    (group : Derives settings n middle (.group .leftParen .rightParen arguments span) after) :
    Derives settings (m + n) before
      (.primary (.unwrapWith value arguments (value.span.join span))) after
  | extraction {before middle after : List Token} {mark : Token} {value : Expr Span}
    {arguments : List (Expr Span)} {span : Span} {m n : Nat}
    (read : Derives settings m before (.primary value) (mark :: middle))
    (isQuestion : mark.kind = .symbol .question)
    (group : Derives settings n middle (.group .leftParen .rightParen arguments span) after) :
    Derives settings (m + n) before
      (.primary (.extraction value arguments (value.span.join span))) after
  | field {before middle after : List Token} {dot : Token} {value : Expr Span}
    {name : Identifier Span} {m n : Nat}
    (read : Derives settings m before (.primary value) (dot :: middle))
    (isDot : dot.kind = .symbol .dot)
    (named : Derives settings n middle (.identifier name) after) :
    Derives settings (m + n) before (.primary (.field value name (value.span.join name.span))) after
  | fieldGroup {before inside middle after : List Token} {dot opening closing : Token}
    {value : Expr Span} {name : Identifier Span} {names : List (Identifier Span)} {k m n : Nat}
    (read : Derives settings k before (.primary value) (dot :: opening :: inside))
    (isDot : dot.kind = .symbol .dot) (opens : opening.kind = .symbol .leftParen)
    (first : Derives settings m inside (.identifier name) middle)
    (others : Derives settings n middle (.names names) (closing :: after))
    (closes : closing.kind = .symbol .rightParen) :
    Derives settings (k + m + n) before
      (.primary (.fieldGroup value (name :: names) (value.span.join closing.span))) after
  | optionalField {before middle after : List Token} {mark : Token} {value : Expr Span}
    {name : Identifier Span} {m n : Nat}
    (read : Derives settings m before (.primary value) (mark :: middle))
    (isMark : mark.kind = .symbol .questionDot)
    (named : Derives settings n middle (.identifier name) after) :
    Derives settings (m + n) before
      (.primary (.optionalField value name (value.span.join name.span))) after
  | element {before middle after : List Token} {value : Expr Span} {indices : List (Expr Span)}
    {span : Span} {m n : Nat} (read : Derives settings m before (.primary value) middle)
    (group : Derives settings n middle (.group .leftBracket .rightBracket indices span) after)
    (nonempty : indices ≠ []) :
    Derives settings (m + n) before (.primary (.element value indices (value.span.join span))) after
  | newArray {before middle others after : List Token} {value : Expr Span}
    {type : Identifier Span} {dimensions values : List (Expr Span)} {span valuesSpan : Span}
    {k m n : Nat} (read : Derives settings k before (.primary value) middle)
    (isType : Grammar.knownType? settings value = some type)
    (group : Derives settings m middle (.group .leftBracket .rightBracket dimensions span) others)
    (nonempty : dimensions ≠ [])
    (called : Derives settings n others (.group .leftParen .rightParen values valuesSpan) after) :
    Derives settings (k + m + n) before
      (.primary (.newArray type dimensions values (type.span.join valuesSpan))) after
  | called {before middle after : List Token} {value : Expr Span} {arguments : List (Expr Span)}
    {span : Span} {m n : Nat} (read : Derives settings m before (.primary value) middle)
    (group : Derives settings n middle (.group .leftParen .rightParen arguments span) after) :
    Derives settings (m + n) before
      (.primary (Grammar.applyCall settings value arguments (value.span.join span))) after
  | primary {before after : List Token} {value : Expr Span} {n : Nat}
    (read : Derives settings n before (.primary value) after) :
    Derives settings n before (.expr value) after
  | prefixed {token : Token} {rest after : List Token} {op : PrefixOp} {value : Expr Span} {n : Nat}
    (isPrefix : PrefixOp.ofKind? token.kind = some op)
    (read : Derives settings n rest (.expr value) after) :
    Derives settings n (token :: rest)
      (.expr (Grammar.applyPrefix op value (token.span.join value.span))) after
  | assignment {before middle after : List Token} {token : Token} {op : AssignOp}
    {target value : Expr Span} {m n : Nat}
    (left : Derives settings m before (.expr target) (token :: middle))
    (isOp : InfixOp.ofKind? token.kind = some (.assign op))
    (goesOn : target.endsWithLayout = false) (isAssignable : target.isAssignable = true)
    (right : Derives settings n middle (.expr value) after) :
    Derives settings (m + n) before
      (.expr (.assignment op target value (target.span.join value.span))) after
  | binary {before middle after : List Token} {token : Token} {op : BinaryOp}
    {first second : Expr Span} {m n : Nat}
    (left : Derives settings m before (.expr first) (token :: middle))
    (isOp : InfixOp.ofKind? token.kind = some (.binary op))
    (goesOn : first.endsWithLayout = false)
    (right : Derives settings n middle (.expr second) after) :
    Derives settings (m + n) before
      (.expr (.binary op first second (first.span.join second.span))) after
  | openEnd {after : List Token} : Derives settings 0 after (.upper none) after
  | closedEnd {before after : List Token} {value : Expr Span} {n : Nat}
    (read : Derives settings n before (.expr value) after) :
    Derives settings n before (.upper (some value)) after
  | rangeFrom {before middle after : List Token} {token : Token} {lower : Expr Span}
    {upper : Option (Expr Span)} {m n : Nat}
    (left : Derives settings m before (.expr lower) (token :: middle))
    (isOp : InfixOp.ofKind? token.kind = some .range) (goesOn : lower.endsWithLayout = false)
    (right : Derives settings n middle (.upper upper) after) :
    Derives settings (m + n) before (.expr (.range (some lower) upper
      (lower.span.join ((upper.map Expr.span).getD token.span)))) after
  | rangeTo {token : Token} {rest after : List Token} {upper : Option (Expr Span)} {n : Nat}
    (isOp : token.kind = .symbol .dotDot) (right : Derives settings n rest (.upper upper) after) :
    Derives settings n (token :: rest)
      (.expr (.range none upper ((upper.map (token.span.join ·.span)).getD token.span))) after
  | switch {keyword colon : Token} {rest middle others after : List Token} {first : Expr Span}
    {subjects : List (Expr Span)} {arms : List (Arm Span)} {k m n : Nat}
    (isSwitch : keyword.kind = .keyword .switch)
    (subject : Derives settings k rest (.expr first) middle)
    (more : Derives settings m middle (.subjects subjects) (colon :: others))
    (isColon : colon.kind = .symbol .colon)
    (block : Derives settings n others (.armBlock arms) after) :
    Derives settings (k + m + n) (keyword :: rest) (.expr (.switch (first :: subjects) arms
      ((arms.map Arm.span).foldl Span.join (keyword.span.join colon.span)))) after
  | group {first last : Token} {rest after : List Token} {opening closing : Symbol}
    {values : List (Expr Span)} {n : Nat} (opens : first.kind = .symbol opening)
    (inside : Derives settings n rest (.listed values) (last :: after))
    (closes : last.kind = .symbol closing) :
    Derives settings n (first :: rest)
      (.group opening closing values (first.span.join last.span)) after
  | noneListed {after : List Token} : Derives settings 0 after (.listed []) after
  | lastListed {before after : List Token} {value : Expr Span} {n : Nat}
    (read : Derives settings n before (.expr value) after) :
    Derives settings n before (.listed [value]) after
  | listed {before middle after : List Token} {comma : Token} {value : Expr Span}
    {values : List (Expr Span)} {m n : Nat}
    (read : Derives settings m before (.expr value) (comma :: middle))
    (isComma : comma.kind = .symbol .comma)
    (others : Derives settings n middle (.listed values) after) :
    Derives settings (m + n) before (.listed (value :: values)) after
  | noSubjects {after : List Token} : Derives settings 0 after (.subjects []) after
  | subjects {comma : Token} {rest middle after : List Token} {value : Expr Span}
    {values : List (Expr Span)} {m n : Nat} (isComma : comma.kind = .symbol .comma)
    (read : Derives settings m rest (.expr value) middle)
    (others : Derives settings n middle (.subjects values) after) :
    Derives settings (m + n) (comma :: rest) (.subjects (value :: values)) after
  | noArmsInLine {line : Token} {after : List Token} (isLine : line.kind = .newline) :
    Derives settings 0 (line :: after) (.armBlock []) after
  | noArms {token : Token} {after : List Token}
    (isEnd : token.kind = .dedent ∨ token.kind = .endOfInput) :
    Derives settings 0 (token :: after) (.armBlock []) (token :: after)
  | armBlock {indent : Token} {rest after : List Token} {arms : List (Arm Span)} {n : Nat}
    (isIndent : indent.kind = .indent) (inside : Derives settings n rest (.arms arms) after) :
    Derives settings n (indent :: rest) (.armBlock arms) after
  | armsEnd {dedent : Token} {after : List Token} (isDedent : dedent.kind = .dedent) :
    Derives settings 0 (dedent :: after) (.arms []) after
  | armLine {line : Token} {rest after : List Token} {arms : List (Arm Span)} {n : Nat}
    (isLine : line.kind = .newline) (read : Derives settings n rest (.arms arms) after) :
    Derives settings n (line :: rest) (.arms arms) after
  | arms {before middle after : List Token} {arm : Arm Span} {arms : List (Arm Span)} {m n : Nat}
    (first : Derives settings m before (.arm arm) middle)
    (others : Derives settings n middle (.arms arms) after) :
    Derives settings (m + n) before (.arms (arm :: arms)) after
  | arm {before middle after : List Token} {arrow : Token} {pattern : Pattern Span}
    {body : Action Span} {m n : Nat}
    (matched : Derives settings m before (.pattern pattern) (arrow :: middle))
    (isArrow : arrow.kind = .symbol .arrow)
    (done : Derives settings n middle (.action body) after) :
    Derives settings (m + n) before (.arm (.mk pattern body (pattern.span.join body.span))) after
  | binding {before after : List Token} {name : Identifier Span} {n : Nat}
    (read : Derives settings n before (.identifier name) after) :
    Derives settings n before (.pattern (.binding name)) after
  | literalPattern {before after : List Token} {literal : Literal Span} {n : Nat}
    (read : Derives settings n before (.literal literal) after) :
    Derives settings n before (.pattern (.literal literal)) after
  | block {first last : Token} {rest after : List Token} {statements : List (Statement Span)}
    {n : Nat} (isIndent : first.kind = .indent)
    (inside : Derives settings n rest (.statements statements) (last :: after))
    (isDedent : last.kind = .dedent) :
    Derives settings n (first :: rest) (.action (.block statements
      ((statements.map Statement.span).foldl Span.join (first.span.join last.span)))) after
  | expression {before middle after : List Token} {value : Expr Span} {last : Option Span} {n : Nat}
    (read : Derives settings n before (.expr value) middle) (ends : Ends value middle last after) :
    Derives settings n before
      (.action (.expression value ((last.map value.span.join).getD value.span))) after
  | throw {keyword : Token} {rest middle after : List Token} {value : Expr Span}
    {last : Option Span} {n : Nat} (isThrow : keyword.kind = .keyword .throw)
    (read : Derives settings n rest (.expr value) middle) (ends : Ends value middle last after) :
    Derives settings n (keyword :: rest)
      (.action (.throw value (keyword.span.join (last.getD value.span)))) after
  | empty {token : Token} {after : List Token} (isSemicolon : token.kind = .symbol .semicolon) :
    Derives settings 0 (token :: after) (.statement (.empty token.span)) after
  | statement {before after : List Token} {action : Action Span} {n : Nat}
    (read : Derives settings n before (.action action) after) :
    Derives settings n before (.statement (.action action)) after
  | noStatements {after : List Token} : Derives settings 0 after (.statements []) after
  | line {line : Token} {rest after : List Token} {statements : List (Statement Span)} {n : Nat}
    (isLine : line.kind = .newline) (read : Derives settings n rest (.statements statements) after) :
    Derives settings n (line :: rest) (.statements statements) after
  | statements {before middle after : List Token} {statement : Statement Span}
    {statements : List (Statement Span)} {m n : Nat}
    (first : Derives settings m before (.statement statement) middle)
    (others : Derives settings n middle (.statements statements) after) :
    Derives settings (m + n) before (.statements (statement :: statements)) after
  /-- A statement that is wrong is left out, and so is what was found in it. -/
  | skipped {skipped middle after : List Token} {statements : List (Statement Span)} {m n : Nat}
    (resumes : ResumesAt skipped middle)
    (others : Derives settings n middle (.statements statements) after) :
    Derives settings (m + 1 + n) (skipped ++ middle) (.statements statements) after

end Offside
