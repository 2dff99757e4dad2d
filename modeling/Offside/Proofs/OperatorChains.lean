import Offside.Proofs.Lexer.OneLine
import Offside.Proofs.Parser.Climbing
import Offside.Proofs.Parser.ReadStatement

/-!
Lines of operators without parentheses. They are read as assignments to each other's values around
the only grouping of their operands in which operators are applied by their tiers, and those of one
tier from left to right.
-/

namespace Offside

open Lexeme

/-- A line of names with assignments, binary operators and prefix operators, in this order. -/
structure Chain where
  targets : List (Name × AssignOp)
  first : Prefixed
  links : List Link

namespace Chain

def targetLexemes (targets : List (Name × AssignOp)) : List Lexeme :=
  targets.flatMap fun target => [target.1.lexeme, assignOp target.2]

def lexemes (chain : Chain) : List Lexeme :=
  targetLexemes chain.targets ++ (chain.first.lexemes ++ Link.lexemesAll chain.links)

/-- The text with the given numbers of spaces between its tokens, from one space on, and with or
without a line break at the end. -/
def text (chain : Chain) (gaps : Nat → Nat) (broken : Bool) : List Char :=
  line gaps chain.lexemes ++ lineEnd broken

/-- Every assignment is the value of the one before it. -/
def around (targets : List (Name × AssignOp)) (value : Expr Unit) : Expr Unit :=
  targets.foldr (fun target value => .assignment target.2 target.1.expr value ()) value

/-- The operands and the operators between them are grouped by tiers. -/
structure Groups (chain : Chain) (grouping : Grouping) : Prop where
  first : grouping.first = chain.first
  links : grouping.links = chain.links
  tiered : grouping.Tiered

variable {chain : Chain} {grouping other : Grouping}

theorem exists_groups (chain : Chain) : ∃ grouping, chain.Groups grouping := by
  refine ⟨(Grouping.operand chain.first).growAll chain.links, Grouping.first_growAll _ _, ?_, ?_⟩
  · exact Grouping.links_growAll _ _
  · exact Grouping.Tiered.growAll trivial

theorem Groups.unique (groups : chain.Groups grouping) (others : chain.Groups other) :
    other = grouping := by
  rw [← groups.tiered.growAll_eq, ← others.tiered.growAll_eq, groups.first, groups.links,
    others.first, others.links]

/-! ## Its tokens -/

theorem coded_prefixed (operand : Prefixed) : ∀ lexeme ∈ operand.lexemes, lexeme.Coded id := by
  intro lexeme member
  rcases List.mem_append.mp member with isPrefix | isName
  · obtain ⟨op, _, rfl⟩ := List.mem_map.mp isPrefix
    exact coded_unaryOp op
  · rw [List.mem_singleton.mp isName]
    exact coded_word operand.name.isIdentifier.isName

theorem coded (chain : Chain) : ∀ lexeme ∈ chain.lexemes, lexeme.Coded id := by
  intro lexeme member
  rcases List.mem_append.mp member with inTargets | member
  · obtain ⟨⟨name, op⟩, _, inTarget⟩ := List.mem_flatMap.mp inTargets
    rcases List.mem_pair.mp inTarget with rfl | rfl
    · exact coded_word name.isIdentifier.isName
    · exact coded_assignOp op
  · rcases List.mem_append.mp member with inFirst | inLinks
    · exact coded_prefixed chain.first lexeme inFirst
    · obtain ⟨⟨op, operand⟩, _, inLink⟩ := List.mem_flatMap.mp inLinks
      rcases List.mem_cons.mp inLink with rfl | inOperand
      · exact coded_binaryOp op
      · exact coded_prefixed operand lexeme inOperand

theorem getLast?_prefixed (operand : Prefixed) :
    operand.lexemes.getLast? = some operand.name.lexeme :=
  List.getLast?_concat

theorem getLast?_lexemesAll (links : List Link) (op : BinaryOp) (operand : Prefixed) :
    (Link.lexemesAll (links ++ [(op, operand)])).getLast? = some operand.name.lexeme := by
  rw [Link.lexemesAll, List.flatMap_append, List.flatMap_singleton, List.getLast?_append,
    List.getLast?_cons, getLast?_prefixed]
  rfl

/-- A chain ends in a name. -/
theorem getLast?_lexemes (chain : Chain) :
    ∃ name : Name, chain.lexemes.getLast? = some name.lexeme := by
  obtain ⟨targets, first, links⟩ := chain
  rw [lexemes, List.getLast?_append, List.getLast?_append]
  dsimp only
  rcases List.eq_nil_or_concat' links with rfl | ⟨links, ⟨op, operand⟩, rfl⟩
  · rw [getLast?_prefixed]
    exact ⟨first.name, rfl⟩
  · rw [getLast?_lexemesAll]
    exact ⟨operand.name, rfl⟩

/-- Its tokens are those that it is written of, however they are spaced. -/
theorem items_text (chain : Chain) (gaps : Nat → Nat) (broken : Bool) (tabWidth : Nat) :
    ∃ tokens : List Token, tokens.map Token.lexeme = chain.lexemes ++ [layout .endOfInput] ∧
      (Lexer.ofSource tabWidth (chain.text gaps broken)).items false = tokens.map .token := by
  obtain ⟨name, isLast⟩ := chain.getLast?_lexemes
  have stands : ∀ last ∈ chain.lexemes.getLast?, last.Stands (lineEnd broken) := by
    rw [isLast]
    rintro last member
    obtain rfl := Option.some.inj member
    exact stands_word name.isIdentifier.isName (ended_lineEnd broken)
  have nonempty : chain.lexemes ≠ [] := by
    intro empty
    rw [empty] at isLast
    contradiction
  obtain ⟨first, others, split⟩ := List.exists_cons_of_ne_nil nonempty
  have opens : Scan.Opens (chain.text gaps broken) := by
    have coded := chain.coded
    rw [split] at coded stands
    rw [text, split]
    exact opens_line gaps coded stands
  exact LexState.items_of_flows tabWidth opens fun code rest atLine inLine _ =>
    LexState.flows_line chain.coded stands nonempty gaps code atLine inLine rest

end Chain

/-! ## Its tree -/

variable {settings : Settings} {state : ParserState} {next : Lexeme} {others : List Lexeme}

/-- Assignments are read to their end, each with all that is on the right of it as its value. -/
theorem Sees.around {grouping : Grouping} (tiered : grouping.Tiered)
    (ends : next.kind.endsExpression = true) (targets : List (Name × AssignOp)) {minimum : Nat}
    (loose : minimum ≤ 2)
    (sees : Sees settings
      (Chain.targetLexemes targets ++ (grouping.lexemes ++ next :: others)) state) :
    Delivers settings (fun fuel => Grammar.expression fuel minimum) state
      (fun value => value.erase = Chain.around targets grouping.expr) (next :: others) := by
  have noInfix := Kind.ofKind?_of_endsExpression ends
  induction targets generalizing minimum state with
  | nil =>
    refine grouping.reads tiered (fun top _ => ?_) (Kind.suffix?_of_endsExpression ends)
      (fun _ _ => Kind.bindsBelow_of_none noInfix) sees fun value _ same sees => ?_
    · have positive : 1 ≤ top.level := by cases top <;> decide
      omega
    · exact (sees.climb_stop noInfix minimum value).mono fun _ unchanged => unchanged ▸ same
  | cons target targets inductionHypothesis =>
    obtain ⟨name, op⟩ := target
    have isInfix := Expr.ofKind?_assignOp op
    refine sees.expression_on (fun _ sees =>
      name.readable.operand sees (Kind.suffix?_of_ofKind? isInfix)) fun value _ same sees => ?_
    have noLayout : value.endsWithLayout = false := by
      rw [← value.endsWithLayout_erase, same]
      rfl
    have assignable : value.isAssignable = true := by
      rw [← value.isAssignable_erase, same]
      rfl
    have applied : ∀ span after, Sees settings
        (Chain.targetLexemes targets ++ (grouping.lexemes ++ next :: others)) after →
        Delivers settings (fun fuel => Grammar.applyInfix fuel (.assign op) span value) after
          (fun longer => longer.erase =
            .assignment op name.expr (Chain.around targets grouping.expr) ()) (next :: others) := by
      intro span after sees
      apply Delivers.succ
      simp only [Grammar.applyInfix, if_pos assignable]
      refine (inductionHypothesis (Nat.le_refl 2) sees).bind fun right _ sameRight sees =>
        Delivers.pure sees ?_
      rw [Expr.erase, same, sameRight]
    exact sees.climb_on isInfix loose noLayout applied fun longer _ same sees =>
      (sees.climb_stop noInfix minimum longer).mono fun _ unchanged => unchanged ▸ same

/-- Every chain is read as the assignments in it around the only grouping of its operands by
tiers. -/
theorem expr_chain (settings : Settings) (chain : Chain) (gaps : Nat → Nat) (broken : Bool) :
    ∃ grouping, (chain.Groups grouping ∧ ∀ other, chain.Groups other → other = grouping) ∧
      ∃ value after,
        Parser.expr (.ofSource settings false (chain.text gaps broken)) = .ok value after ∧
          value.erase = Chain.around chain.targets grouping.expr ∧
            Sees settings [layout .endOfInput] after := by
  obtain ⟨grouping, groups⟩ := chain.exists_groups
  refine ⟨grouping, ⟨groups, fun other others => groups.unique others⟩, ?_⟩
  obtain ⟨tokens, same, items⟩ := chain.items_text gaps broken settings.tabWidth
  have written : chain.lexemes ++ [layout .endOfInput] =
      Chain.targetLexemes chain.targets ++ (grouping.lexemes ++ [layout .endOfInput]) := by
    rw [Chain.lexemes, Grouping.lexemes, groups.first, groups.links, List.append_assoc]
  have reads : Delivers settings (fun _ => Parser.expr)
      (.ofSource settings false (chain.text gaps broken))
      (fun value => value.erase = Chain.around chain.targets grouping.expr)
      [layout .endOfInput] := by
    refine Delivers.within (Sees.ofSource items) fun named sees => Delivers.fueled ?_
    rw [same, written] at sees
    exact (Sees.around groups.tiered rfl chain.targets (Nat.zero_le 2) sees).enough_expression
      sees.ready
  obtain ⟨enough, value, after, reads, erased, sees⟩ := reads
  exact ⟨value, after, reads enough (Nat.le_refl enough), erased, sees⟩

end Offside
