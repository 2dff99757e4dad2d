import Offside.Proofs.Lexer.Lines
import Offside.Proofs.Parser.ReadExpression
import Offside.Proofs.Parser.ReadStatement

/-!
Expressions are read back as they were written.
-/

namespace Offside

open Lexeme

/-- The only statement of a text is the expression in it. -/
theorem Sees.only_expression {settings : Settings} {expr : Expr Unit}
    (readable : expr.Readable settings) {state : ParserState}
    (sees : Sees settings (expr.lexemes ++ [layout .endOfInput]) state) :
    Delivers settings (fun fuel => Grammar.statementsUntil fuel .endOfInput) state
      (fun read => Statement.eraseAll read = [.action (.expression expr ())])
      [layout .endOfInput] := by
  obtain ⟨first, more, lexemes, starts⟩ := readable.starts
  have notNewline : first.kind ≠ .newline := by
    rintro isNewline
    rw [isNewline] at starts
    contradiction
  have notEnd : ¬ (first.kind = .endOfInput ∨ first.kind = .endOfInput) := by
    rw [or_self]
    rintro isEnd
    rw [isEnd] at starts
    contradiction
  have reads : ∀ {named}, Sees settings (first :: (more ++ [layout .endOfInput])) named →
      Delivers settings Grammar.statement named
        (fun statement => statement.erase = .action (.expression expr ()))
        [layout .endOfInput] := by
    intro named sees
    refine sees.statement_expression starts fun sees => ?_
    rw [← List.cons_append, ← lexemes] at sees
    exact sees.expressionStatement readable rfl
  rw [lexemes, List.cons_append] at sees
  exact sees.statementsUntil_cons 0 notNewline notEnd reads fun sees =>
    sees.statementsUntil_nil 0 Kind.noConfusion (Or.inl rfl)

/-- The text of an expression and a line break are read as one statement of that expression, and
nothing is reported. -/
theorem parse_text {settings : Settings} (untyped : settings.typeNames = []) {expr : Expr Unit}
    (plain : expr.Plain) :
    ∃ file, parse settings false (expr.text ++ ['\n']) = ⟨some file, []⟩ ∧
      file.erase = ⟨[.action (.expression expr ())], ()⟩ := by
  have readable := expr.readable untyped plain
  have nonempty : expr.lexemes ≠ [] := by
    obtain ⟨first, more, lexemes, _⟩ := readable.starts
    rw [lexemes]
    exact List.cons_ne_nil first more
  have sound : ∀ line ∈ [Line.mk 0 expr.lexemes], line.Sound := by
    intro line member
    obtain rfl := List.mem_singleton.mp member
    exact ⟨expr.code plain, nonempty, Nat.two_pow_pos 64⟩
  have line : Line.textAll [⟨0, expr.lexemes⟩] = expr.text ++ ['\n'] := by
    simp [Line.textAll, Line.text, Expr.text]
  have lays : Lays false [] [⟨0, expr.lexemes⟩] (expr.lexemes ++ [layout .endOfInput]) :=
    .stays .done
  obtain ⟨tokens, same, items⟩ := items_of_lays lays sound settings.tabWidth
  rw [line] at items
  refine parse_of_reads items fun sees => ?_
  rw [same] at sees
  exact sees.only_expression readable

/-- A sum whose right operand unwraps a string with an expression in it. -/
def Expr.nested : Expr Unit :=
  let inner : Expr Unit := .unwrap (.identifier ⟨"c", ()⟩) ()
  let quoted : Expr Unit := .literal (.string [.fragment "b", .interpolation inner] ())
  .binary .add (.identifier ⟨"a", ()⟩) (.unwrapWith quoted [.literal (.integer 1 ())] ()) ()

theorem parse_text_nested :
    Expr.nested.Plain ∧ ∃ file,
      parse {} false "a + ( \"\\u\x7b62\x7d\x7b c ! \x7d\" ! ( 1 ) )\n".toList = ⟨some file, []⟩ ∧
        file.erase = ⟨[.action (.expression Expr.nested ())], ()⟩ := by
  have isFirst : IsIdentifier "a" := ⟨by decide +kernel, by decide⟩
  have isThird : IsIdentifier "c" := ⟨by decide +kernel, by decide⟩
  have plain : Expr.nested.Plain :=
    ⟨isFirst, ⟨rfl, by decide, isThird, trivial⟩, ⟨by decide, by decide⟩, trivial⟩
  have text : Expr.nested.text ++ ['\n'] =
      "a + ( \"\\u\x7b62\x7d\x7b c ! \x7d\" ! ( 1 ) )\n".toList := by decide
  exact ⟨plain, text ▸ parse_text rfl plain⟩

end Offside
