import Offside.Lexer
import Offside.Parser.Error
import Offside.Settings

/-!
Parsers over the tokens of a lexer. Tokens are taken from the lexer only when they are looked at,
and wait in a buffer until they are consumed; errors of the lexer that end nothing are reported
as they are met.
-/

namespace Offside

structure ParserState where
  lexer : Lexer
  settings : Settings
  cancelled : Bool
  /-- The tokens looked at but not consumed. -/
  buffer : List Token
  /-- The error that ended the tokens. -/
  fatal : Option LexError
  reported : List Diagnostic
  /-- The errors of the attempts that failed so far, in that order: a history that no reading
  depends on. -/
  failures : List SyntaxError
  /-- The parts of the grammar being read, the innermost first. -/
  nonTerminals : List NonTerminal
  lastSpan : Span
  /-- The levels of indentation that the consumed tokens have opened. -/
  depth : Nat
deriving Repr, Inhabited

/-- A computation on the state of a parser, which keeps the state when it gives up. -/
abbrev Parser := EStateM Abort ParserState

namespace ParserState

/-- The state before the first token of a source text. -/
def ofSource (settings : Settings) (cancelled : Bool) (source : List Char) : ParserState :=
  { lexer := .ofSource settings.tabWidth source
    settings
    cancelled
    buffer := []
    fatal := none
    reported := []
    failures := []
    nonTerminals := []
    lastSpan := .origin
    depth := 0 }

def here (state : ParserState) : Span :=
  match state.buffer with
  | token :: _ => token.span
  | [] => state.lastSpan.after

/-- The depth after a token. -/
def depthAfter (kind : Kind) (depth : Nat) : Nat :=
  match kind with
  | .indent => depth + 1
  | .dedent => depth - 1
  | _ => depth

/-- The state after the first buffered token, given those after it. The end of input stays where
it is. -/
def afterToken (state : ParserState) (token : Token) (others : List Token) : ParserState :=
  { state with
    buffer := if token.kind = .endOfInput then state.buffer else others
    depth := depthAfter token.kind state.depth
    lastSpan := token.span }

/-- A bound on the depth of any reading from here. Sixteen calls at most lie between two consumed
tokens, and the tokens to come are the buffered and queued ones, four for each step of the lexer,
and one for each level to close. -/
def fuel (state : ParserState) : Nat :=
  let lexer := state.lexer
  16 * (state.buffer.length + lexer.pending.length + 4 * lexer.state.remaining +
    lexer.indentDepth + state.depth + 4)

end ParserState

namespace Parser

def failAt {α : Type} (span : Span) (fault : SyntaxFault) : Parser α :=
  fun state => .error (.recoverable ⟨fault, span, state.nonTerminals.reverse⟩) state

def fail {α : Type} (fault : SyntaxFault) : Parser α :=
  fun state => failAt state.here fault state

def unexpected {α : Type} (span : Span) (token : Token) (expectations : List Expectation) :
    Parser α :=
  failAt span (.expected expectations token.kind token.text)

def report (diagnostic : Diagnostic) : Parser Unit :=
  modify fun state => { state with reported := state.reported ++ [diagnostic] }

/-- Draws items from the lexer until `count` tokens are buffered, unless the tokens end before. -/
def draw (count : Nat) (state : ParserState) : EStateM.Result Abort ParserState Unit :=
  match state.fatal with
  | some error => .error (.failure (.ofLexError error)) state
  | none =>
    if state.buffer.getLast?.any (·.kind = .endOfInput) then .ok () state
    else
      match _found : state.lexer.next? state.cancelled with
      | some (.token token, lexer) =>
        if count ≤ state.buffer.length + 1 then
          .ok () { state with lexer, buffer := state.buffer ++ [token] }
        else
          draw count { state with lexer, buffer := state.buffer ++ [token] }
      | some (.error error, lexer) =>
        if error.isFatal then draw count { state with lexer, fatal := some error }
        else
          draw count
            { state with lexer, reported := state.reported ++ [error.toDiagnostic] }
      | none =>
        let closing : Token := .structural .endOfInput state.lastSpan.after
        .ok () { state with buffer := state.buffer ++ [closing] }
termination_by (state.lexer.state.remaining, state.lexer.pending.length)
decreasing_by all_goals exact Lexer.shrinks_of_next? _found

/-- Sees to it that `count` tokens are buffered, unless the tokens end before. -/
def fill (count : Nat) (state : ParserState) : EStateM.Result Abort ParserState Unit :=
  if count ≤ state.buffer.length then .ok () state else draw count state

/-- The token `ahead` of the next one. Past the end of the tokens that is the end of input. -/
def peekAhead (ahead : Nat) : Parser Token := do
  fill (ahead + 1)
  let state ← get
  match state.buffer[min ahead (state.buffer.length - 1)]? with
  | some token => return token
  | none => failAt state.lastSpan .unexpectedEnd

def peek : Parser Token :=
  peekAhead 0

def peekKind : Parser Kind := do
  return (← peek).kind

def check (kind : Kind) : Parser Bool := do
  return (← peek).kind = kind

def consume : Parser Token := do
  fill 1
  let state ← get
  match state.buffer with
  | [] => fail .unexpectedEnd
  | token :: buffer =>
    set (state.afterToken token buffer)
    return token

def consumeIf (test : Token → Bool) : Parser (Option Token) := do
  if test (← peek) then
    return some (← consume)
  else
    return none

def consumeKind (kind : Kind) : Parser (Option Token) :=
  consumeIf (·.kind = kind)

def expect (kind : Kind) : Parser Token := do
  let next ← peek
  if next.kind = kind then
    consume
  else
    unexpected (← get).here next [.kind kind]

/-- Reads a part of the grammar that errors name. -/
def within {α : Type} (nonTerminal : NonTerminal) (parser : Parser α) : Parser α := fun state =>
  match parser { state with nonTerminals := nonTerminal :: state.nonTerminals } with
  | .ok value after => .ok value { after with nonTerminals := state.nonTerminals }
  | .error abort after => .error abort { after with nonTerminals := state.nonTerminals }

/-- The value read, or the error if that is a recoverable one. Such an error enters the
history. -/
def attempt {α : Type} (parser : Parser α) : Parser (Except SyntaxError α) := fun state =>
  match parser state with
  | .ok value after => .ok (.ok value) after
  | .error (.recoverable error) after =>
    .ok (.error error) { after with failures := after.failures ++ [error] }
  | .error abort after => .error abort after

/-- Runs a parser with enough fuel for the tokens to come. -/
def fueled {α : Type} (parser : Nat → Parser α) : Parser α := fun state =>
  parser state.fuel state

/-- Gives up because the bound on the depth was too low. -/
def exhausted {α : Type} : Parser α :=
  throw .exhausted

/-! ## Line breaks and recovery -/

/-- Takes line breaks, at most as many as there is fuel. -/
def skipNewlines : Nat → Parser Unit
  | 0 => exhausted
  | fuel + 1 => do
    if (← consumeKind .newline).isSome then
      skipNewlines fuel

/-- Takes all line breaks before the next token. -/
def removeNewlines : Parser Unit :=
  fueled skipNewlines

/-- Takes tokens up to the end of a statement, at most as many as there is fuel. -/
def skipTokens (depth : Nat) (start : Position) : Nat → Parser Bool
  | 0 => exhausted
  | fuel + 1 => do
    let atDepth := (← get).depth = depth
    let next ← peek
    let advanced := start < next.span.first
    match next.kind with
    | .endOfInput => return (← get).lexer.endedAtLineBreak
    | kind =>
      if atDepth && (kind = .symbol .semicolon || kind = .newline) then
        discard consume
        return true
      else if atDepth && advanced && (kind = .dedent || kind = .keyword .throw ||
          kind = .keyword .switch || kind.isDeclaration) then
        return true
      else
        let skipped ← consume
        if skipped.kind = .dedent && (← get).depth = depth then
          return true
        else
          skipTokens depth start fuel

/-- Takes the rest of a statement that starts at `start` at the given depth: up to the semicolon
or line break that ends it, up to the next statement or the end of the block it is in, or with
the block that ends it. Tells whether there was such an end; the end of input is one only after
a line break. -/
def skipStatement (depth : Nat) (start : Position) : Parser Bool :=
  fueled (skipTokens depth start)

/-- Goes on after an error in a statement that starts at `start` at the given depth. The error is
reported in any case, unless it becomes the reason to give up. -/
def recover (error : SyntaxError) (depth : Nat) (start : Position) : Parser Unit := fun state =>
  match skipStatement depth start state with
  | .ok true after => report error.toDiagnostic after
  | .ok false after => .error (.failure error) after
  | .error abort after =>
    .error abort { after with reported := after.reported ++ [error.toDiagnostic] }

end Parser

end Offside
