/-!
Operators and punctuation.
-/

namespace Offside

inductive Symbol
  | assign
  | plusAssign
  | minusAssign
  | starAssign
  | slashAssign
  | colonAssign
  | eq
  | neq
  | gte
  | lte
  | gt
  | lt
  | plus
  | minus
  | star
  | slash
  | percent
  | starStar
  | questionQuestion
  | plusPlus
  | minusMinus
  | bang
  | question
  | questionDot
  | dot
  | dotDot
  | comma
  | colon
  | semicolon
  | arrow
  | leftParen
  | rightParen
  | leftBracket
  | rightBracket
  | leftCurly
  | rightCurly
deriving DecidableEq, Repr, Inhabited

namespace Symbol

/-- Every symbol, those of two characters first. -/
def all : List Symbol :=
  [.starStar, .starAssign, .questionQuestion, .questionDot, .plusPlus, .plusAssign, .minusMinus,
    .minusAssign, .arrow, .slashAssign, .eq, .neq, .gte, .lte, .colonAssign, .dotDot, .star,
    .question, .plus, .minus, .slash, .percent, .assign, .bang, .gt, .lt, .colon, .dot, .comma,
    .semicolon, .leftParen, .rightParen, .leftBracket, .rightBracket, .leftCurly, .rightCurly]

def characters : Symbol → List Char
  | assign => ['=']
  | plusAssign => ['+', '=']
  | minusAssign => ['-', '=']
  | starAssign => ['*', '=']
  | slashAssign => ['/', '=']
  | colonAssign => [':', '=']
  | eq => ['=', '=']
  | neq => ['!', '=']
  | gte => ['>', '=']
  | lte => ['<', '=']
  | gt => ['>']
  | lt => ['<']
  | plus => ['+']
  | minus => ['-']
  | star => ['*']
  | slash => ['/']
  | percent => ['%']
  | starStar => ['*', '*']
  | questionQuestion => ['?', '?']
  | plusPlus => ['+', '+']
  | minusMinus => ['-', '-']
  | bang => ['!']
  | question => ['?']
  | questionDot => ['?', '.']
  | dot => ['.']
  | dotDot => ['.', '.']
  | comma => [',']
  | colon => [':']
  | semicolon => [';']
  | arrow => ['-', '>']
  | leftParen => ['(']
  | rightParen => [')']
  | leftBracket => ['[']
  | rightBracket => [']']
  | leftCurly => ['\x7b']
  | rightCurly => ['\x7d']

def spelling (symbol : Symbol) : String :=
  String.ofList symbol.characters

def name : Symbol → String
  | assign => "Assign"
  | plusAssign => "PlusAssign"
  | minusAssign => "MinusAssign"
  | starAssign => "StarAssign"
  | slashAssign => "SlashAssign"
  | colonAssign => "ColonAssign"
  | eq => "Eq"
  | neq => "Neq"
  | gte => "Gte"
  | lte => "Lte"
  | gt => "Gt"
  | lt => "Lt"
  | plus => "Plus"
  | minus => "Minus"
  | star => "Star"
  | slash => "Slash"
  | percent => "Percent"
  | starStar => "StarStar"
  | questionQuestion => "QuestionQuestion"
  | plusPlus => "PlusPlus"
  | minusMinus => "MinusMinus"
  | bang => "Bang"
  | question => "Question"
  | questionDot => "QuestionDot"
  | dot => "Dot"
  | dotDot => "DotDot"
  | comma => "Comma"
  | colon => "Colon"
  | semicolon => "Semicolon"
  | arrow => "Arrow"
  | leftParen => "LParen"
  | rightParen => "RParen"
  | leftBracket => "LBracket"
  | rightBracket => "RBracket"
  | leftCurly => "LCurly"
  | rightCurly => "RCurly"

theorem mem_all (symbol : Symbol) : symbol ∈ all := by
  cases symbol <;> decide

theorem characters_ne_nil (symbol : Symbol) : symbol.characters ≠ [] := by
  cases symbol <;> simp [characters]

end Symbol

end Offside
