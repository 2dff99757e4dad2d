import Offside.Proofs.Parser.DerivedWalk
import Offside.Proofs.Parser.OpenStrings
import Offside.Proofs.Parser.SpanStarts

/-!
Statements and strings. A statement of a tree starts inside of a string only behind a place in that
string where statements went on after one that was wrong.
-/

namespace Offside

open LexStream

/-- A token that starts behind the start of a string and before its end is one of the tokens
between, or the end. -/
theorem InOrder.between {before inside after past rest : List Token} {start last token : Token}
    (inOrder : InOrder (before ++ start :: (inside ++ last :: after)))
    (split : before ++ start :: (inside ++ last :: after) = past ++ token :: rest)
    (later : start.span.first < token.span.first) (earlier : token.span.first < last.span.last) :
    ∃ behind, past = before ++ start :: behind ∧
      ((∃ more, inside = behind ++ token :: more) ∨ (inside = behind ∧ token = last)) := by
  rcases List.append_eq_append_iff.mp split with ⟨between, rfl, found⟩ | ⟨between, rfl, found⟩
  · cases between with
    | nil =>
      obtain ⟨rfl, _⟩ := List.cons.inj found
      exact absurd (Position.le_refl _) later
    | cons first behind =>
      obtain ⟨rfl, interior⟩ : start = first ∧ inside ++ last :: after = behind ++ token :: rest :=
        List.cons.inj found
      refine ⟨behind, rfl, ?_⟩
      rcases List.append_eq_append_iff.mp interior with ⟨more, rfl, others⟩ | ⟨more, rfl, others⟩
      · cases more with
        | nil =>
          obtain ⟨rfl, _⟩ := List.cons.inj others
          exact Or.inr ⟨(List.append_nil _).symm, rfl⟩
        | cons second more =>
          obtain ⟨rfl, rfl⟩ := List.cons.inj others
          have suffix : last :: (more ++ token :: rest) <:+
              before ++ start :: (inside ++ last :: (more ++ token :: rest)) :=
            ⟨before ++ start :: inside, by simp⟩
          have ordered := (List.pairwise_cons.mp (inOrder.of_suffix suffix).ordered).1
          have behindLast := ordered token (by simp)
          exact absurd behindLast earlier
      · cases more with
        | nil =>
          obtain ⟨rfl, _⟩ := List.cons.inj others
          exact Or.inr ⟨List.append_nil _, rfl⟩
        | cons second more =>
          obtain ⟨rfl, rfl⟩ := List.cons.inj others
          exact Or.inl ⟨more, rfl⟩
  · cases between with
    | nil =>
      obtain ⟨rfl, _⟩ := List.cons.inj found
      exact absurd (Position.le_refl _) later
    | cons first between =>
      obtain ⟨rfl, rfl⟩ := List.cons.inj found
      have suffix : token :: (between ++ start :: (inside ++ last :: after)) <:+
          past ++ token :: between ++ start :: (inside ++ last :: after) :=
        ⟨past, by simp⟩
      have first := (inOrder.of_suffix suffix).first_le start (by simp)
      exact absurd first later

variable {input : Input} {file : File Span} {event : Event Span} {span : Span}

theorem Statement.mem_walkAll {statement : Statement Span} {statements : List (Statement Span)}
    (member : statement ∈ statements) (met : event ∈ statement.walk) :
    event ∈ Statement.walkAll statements := by
  induction statements with
  | nil => exact absurd member List.not_mem_nil
  | cons first statements inductionHypothesis =>
    rw [Statement.walkAll]
    rcases List.mem_cons.mp member with rfl | others
    · exact List.mem_append_left _ met
    · exact List.mem_append_right _ (inductionHypothesis others)

/-- What is done in a file is done in its statements. -/
theorem File.mem_acts_of_walk (met : event ∈ file.walk) (isAct : event.act? = some span) :
    span ∈ Event.acts (Statement.walkAll file.statements) := by
  refine List.mem_filterMap.mpr ⟨event, ?_, isAct⟩
  rw [File.walk] at met
  rcases List.mem_cons.mp met with rfl | met
  · contradiction
  · obtain ⟨statement, member, met⟩ := List.mem_flatMap.mp met
    rcases List.mem_cons.mp met with rfl | met
    · contradiction
    · exact Statement.mem_walkAll member met

/-- A string of a text: its start, the tokens between, and its end. -/
structure Input.HasString (input : Input) (start : Token) (inside : List Token) (last : Token) :
    Prop where
  found : ∃ before after, input.tokens = before ++ start :: (inside ++ last :: after)
  isStart : start.kind = .stringStart
  isEnd : last.kind = .stringEnd
  balanced : Balanced inside

theorem Input.HasString.notEndOfInput {start last token : Token} {inside : List Token}
    (string : input.HasString start inside last) (member : token ∈ inside) :
    token.kind ≠ .endOfInput := by
  intro isEnd
  obtain ⟨before, after, found⟩ := string.found
  obtain ⟨left, right, rfl⟩ := List.append_of_mem member
  have split : input.tokens = (before ++ start :: left) ++ token :: (right ++ last :: after) := by
    simp [found]
  exact List.append_ne_nil_of_right_ne_nil _ (List.cons_ne_nil _ _)
    (Input.nil_of_endOfInput split isEnd)

theorem Phrase.begins {phrase : Phrase} {before after : List Token}
    (starts : phrase.Starts before after) (isAct : phrase.act? = some span) :
    Begins before after span.first := by
  cases phrase <;> first | contradiction | skip
  all_goals
    obtain rfl := Option.some.inj isAct
    exact starts

/-- What comes behind an element that is in the first part starts in that part. -/
theorem split_behind {α : Type} {first : α} {left right before behind : List α}
    (whole : left ++ right = before ++ first :: behind) (notIn : first ∉ right) :
    ∃ opened, left = before ++ first :: opened ∧ behind = opened ++ right := by
  rcases List.append_eq_append_iff.mp whole with ⟨more, _, split⟩ | ⟨more, rfl, split⟩
  · exact absurd (split ▸ List.mem_append_right _ List.mem_cons_self) notIn
  · cases more with
    | nil =>
      rw [List.nil_append] at split
      exact absurd (split ▸ List.mem_cons_self) notIn
    | cons second opened =>
      obtain ⟨rfl, rfl⟩ : first = second ∧ behind = opened ++ right := List.cons.inj split
      exact ⟨opened, rfl, rfl⟩

/-- Something that is done inside of a string is read behind a token of that string where
statements went on. -/
theorem ReadClear.resumes {settings : Settings} {failed : Nat} {start last : Token}
    {inside : List Token} (read : ReadClear settings failed input.tokens span)
    (string : input.HasString start inside last) (later : start.span.first < span.first)
    (earlier : span.first < last.span.last) :
    0 < failed ∧ ∃ token ∈ inside, token.span.first ≤ span.first ∧
      (token.kind.endsSkipped = true ∨ token.kind.stopsSkipping = true) := by
  obtain ⟨past, ahead, after, phrase, count, whole, clear, derives, isAct⟩ := read
  obtain ⟨before, behind, found⟩ := string.found
  have inOrder := inOrder_ofSource input.settings input.cancelled input.source
  change InOrder input.tokens at inOrder
  have suffix : ahead <:+ input.tokens := ⟨past, whole.symm⟩
  obtain ⟨_, starts⟩ := derives.starts (inOrder.of_suffix suffix)
  obtain ⟨parens, first, rest, rfl, _, areParens, notParen, isFirst⟩ := Phrase.begins starts isAct
  rw [isFirst] at later earlier ⊢
  rw [← List.append_assoc] at whole
  obtain ⟨taken, isPast, place⟩ :=
    InOrder.between (found ▸ inOrder) (found.symm.trans whole) later earlier
  -- The string is open already before the parentheses that leave no trace.
  have startNotParen : start ∉ parens := fun member => by
    have isParen := areParens start member
    rw [string.isStart] at isParen
    contradiction
  obtain ⟨opened, rfl, rfl⟩ := split_behind isPast startNotParen
  obtain ⟨interior, isInside⟩ : ∃ interior, inside = opened ++ interior := by
    rcases place with ⟨more, rfl⟩ | ⟨rfl, _⟩
    · exact ⟨parens ++ first :: more, List.append_assoc _ _ _⟩
    · exact ⟨parens, rfl⟩
  obtain ⟨positive, token, member, resumes⟩ :=
    clear rfl string.isStart (isInside ▸ string.balanced).isSome_of_append
  have within : token ∈ inside ∧ token.span.first ≤ first.span.first := by
    rcases List.mem_append.mp member with inOpened | isNext
    · refine ⟨isInside ▸ List.mem_append_left _ inOpened, ?_⟩
      obtain ⟨left, right, rfl⟩ := List.append_of_mem inOpened
      have suffix : token :: (right ++ parens ++ first :: rest) <:+ input.tokens :=
        ⟨before ++ start :: left, by simp [whole]⟩
      exact (inOrder.of_suffix suffix).first_le first (by simp)
    · cases parens with
      | cons paren parens =>
        obtain rfl : token = paren := by simpa using isNext
        have isParen := areParens token List.mem_cons_self
        rw [Kind.Resumes, isParen] at resumes
        rcases resumes with ends | stops | isEnd <;> contradiction
      | nil =>
        obtain rfl : token = first := by simpa using isNext
        refine ⟨?_, Position.le_refl _⟩
        rcases place with ⟨more, rfl⟩ | ⟨_, rfl⟩
        · exact List.mem_append_right _ List.mem_cons_self
        · rw [Kind.Resumes, string.isEnd] at resumes
          rcases resumes with ends | stops | isEnd <;> contradiction
  refine ⟨positive, token, within.1, within.2, ?_⟩
  rcases resumes with ends | stops | isEnd
  · exact Or.inl ends
  · exact Or.inr stops
  · exact absurd isEnd (string.notEndOfInput within.1)

end Offside
