import Mathlib.Data.List.Chain
import Offside.Proofs.Lexer.Interpolations
import Offside.Proofs.Scan.Cut
import Offside.Proofs.Syntax.Spelling

/-!
What tokens are spelled by. The text of an identifier is a name that is no reserved word, and the
text of a string is one fragment from each interpolation to the next.
-/

namespace Offside

open LexStream LexMode

/-! ## Names -/

/-- The text of an identifier is a name that is no reserved word. -/
def Token.Named (token : Token) : Prop :=
  token.kind = .identifier → IsIdentifier token.text

theorem Token.named_of_ne {token : Token} (different : token.kind ≠ .identifier) : token.Named :=
  fun isIdentifier => absurd isIdentifier different

theorem Kind.evaluate_ne_identifier (numeral : Scan.Numeral) :
    numeral.evaluate.1 ≠ .identifier := by
  unfold Scan.Numeral.evaluate
  split
  · exact Kind.noConfusion
  · split
    · exact Kind.noConfusion
    · exact Kind.noConfusion

namespace LexState

variable {state after middle : LexState} {step : LexStep} {kind : Kind} {split : Scan.Split}
  {errors : List LexError} {token : Token}

theorem isIdentifier_of_word? {input : List Char} {word : Scan.Scanned Kind}
    (found : Scan.word? input = some word) (isIdentifier : word.value = .identifier) :
    IsIdentifier (String.ofList word.text) := by
  have isName := (Scan.word?_cut found Scan.ended_nil).2
  obtain ⟨split, _, rfl⟩ := Option.map_eq_some_iff.mp found
  refine ⟨?_, isIdentifier⟩
  rwa [String.toList_ofList]

theorem isIdentifier_takesCode (takes : TakesCode state kind split errors after)
    (isIdentifier : kind = .identifier) : IsIdentifier (String.ofList split.text) := by
  cases takes with
  | stringStart => contradiction
  | character => contradiction
  | wrongCharacter => contradiction
  | number => exact absurd isIdentifier (Kind.evaluate_ne_identifier _)
  | word _ found => exact isIdentifier_of_word? found isIdentifier
  | @symbol symbol =>
    rcases bracket_modes state symbol.value with ⟨_, _, isEnd, _⟩ | ⟨isSymbol, _⟩
    · exact absurd (isEnd.symm.trans isIdentifier) Kind.noConfusion
    · exact absurd (isSymbol.symm.trans isIdentifier) Kind.noConfusion

theorem named_yield (spelled : kind = .identifier → IsIdentifier (String.ofList split.text))
    (member : token ∈ tokens (state.yield kind split errors).1) : token.Named := by
  rw [yield, tokenOf, tokens_token, tokens_map_error] at member
  obtain rfl := List.mem_singleton.mp member
  exact spelled

theorem named_finish (member : token ∈ tokens state.finish.1) : token.Named := by
  refine Token.named_of_ne fun isIdentifier => ?_
  have structural := kinds_finish state token.kind (List.mem_map_of_mem member)
  rw [isIdentifier] at structural
  contradiction

theorem named_reads (reads : Reads state step) (member : token ∈ tokens step.1) : token.Named := by
  cases reads with
  | code _ takes => exact named_yield (isIdentifier_takesCode takes) member
  | part _ takes =>
    refine named_yield (fun isIdentifier => ?_) member
    cases takes <;> contradiction
  | unexpected => exact absurd member List.not_mem_nil
  | ends => exact named_finish member
  | fails => exact absurd member List.not_mem_nil

theorem named_stepped (stepped : Stepped state step) (member : token ∈ tokens step.1) :
    token.Named := by
  cases stepped with
  | inString _ reads => exact named_reads reads member
  | inBrackets _ _ reads => exact named_reads reads member
  | inLine _ _ _ _ reads => exact named_reads reads member
  | blank _ _ _ reads => exact named_reads reads member
  | @line line _ _ _ _ _ reads =>
    rw [tokens_append] at member
    rcases List.mem_append.mp member with inLayout | inCode
    · refine Token.named_of_ne fun isIdentifier => ?_
      have inKinds : token.kind ∈ kinds line.pastBlank.indentation.1 :=
        List.mem_map_of_mem inLayout
      rw [isIdentifier] at inKinds
      rcases kinds_indentation _ inKinds with isLayout | isLayout | isLayout <;> contradiction
    · exact named_reads reads inCode

/-- The identifiers of every text are names. -/
theorem named_stream (cancelled : Bool) (state : LexState) :
    ∀ token ∈ tokens (state.stream cancelled), token.Named := by
  refine stream_induction cancelled
    (motive := fun _ items => ∀ token ∈ tokens items, token.Named)
    (fun _ _ _ member => absurd member List.not_mem_nil) (fun state items _ _ later => ?_) state
  intro token member
  rw [tokens_append] at member
  rcases List.mem_append.mp member with inStep | inItems
  · cases cancelled with
    | true => exact absurd inStep List.not_mem_nil
    | false => exact named_stepped (stepped state) inStep
  · exact later token inItems

end LexState

/-! ## Fragments -/

def Kind.isFragment : Kind → Bool
  | .stringFragment _ => true
  | _ => false

/-- Not both of two kinds are fragments. -/
def Kind.Apart (first second : Kind) : Prop :=
  first.isFragment = false ∨ second.isFragment = false

theorem Kind.isFragment_of_code {kind : Kind} (ofCode : kind.isOfString = false) :
    kind.isFragment = false := by
  cases kind <;> first | rfl | contradiction

theorem Kind.isChain_cons {kind : Kind} {word : List Kind} (noFragment : kind.isFragment = false)
    (chain : word.IsChain Kind.Apart) : (kind :: word).IsChain Kind.Apart :=
  List.isChain_cons.mpr ⟨fun _ _ => Or.inl noFragment, chain⟩

/-- A token that is no fragment, between two words. -/
theorem Kind.isChain_around {kind : Kind} {left right : List Kind}
    (noFragment : kind.isFragment = false) (chain : left.IsChain Kind.Apart)
    (others : right.IsChain Kind.Apart) : (left ++ kind :: right).IsChain Kind.Apart :=
  List.isChain_append.mpr ⟨chain, Kind.isChain_cons noFragment others,
    fun _ _ _ isNext => Or.inr (Option.some.inj isNext ▸ noFragment)⟩

mutual

/-- No two fragments are next to each other. -/
theorem CodeWord.isChain {word : List Kind} (code : CodeWord word) : word.IsChain Kind.Apart := by
  match code with
  | .nil => exact .nil
  | .cons ofCode code => exact Kind.isChain_cons (Kind.isFragment_of_code ofCode) code.isChain
  | .string inside code =>
    exact Kind.isChain_cons rfl (Kind.isChain_around rfl inside.isChain.1 code.isChain)

theorem StringWord.isChain {afterFragment : Bool} {parts : List Kind}
    (inside : StringWord afterFragment parts) :
    parts.IsChain Kind.Apart ∧
      (afterFragment = true → ∀ kind ∈ parts.head?, kind.isFragment = false) := by
  match inside with
  | .nil _ => exact ⟨.nil, fun _ _ isHead => nomatch isHead⟩
  | .fragment _ inside =>
    obtain ⟨chain, apart⟩ := inside.isChain
    exact ⟨List.isChain_cons.mpr ⟨fun kind isNext => Or.inr (apart rfl kind isNext), chain⟩,
      Bool.noConfusion⟩
  | .interpolation _ code inside =>
    exact ⟨Kind.isChain_cons rfl (Kind.isChain_around rfl code.isChain inside.isChain.1),
      fun _ _ isHead => Option.some.inj isHead ▸ rfl⟩

end

namespace LexState

/-- Whatever a lexer yields is the start of a word that completes the strings that are open. -/
theorem exists_completes_stream (cancelled : Bool) (state : LexState) (fits : state.Fits) :
    ∃ more, state.Completes (kinds (state.stream cancelled) ++ more) := by
  refine stream_induction cancelled
    (motive := fun state items => state.Fits → ∃ more, state.Completes (kinds items ++ more))
    (fun state _ _ => ?_) (fun state items running _ later fits => ?_) state fits
  · obtain ⟨word, completes⟩ := exists_completes state.modes
    exact ⟨word, completes _⟩
  · have into := fitsInto_proceed cancelled fits running
    obtain ⟨more, completes⟩ := later into.fits
    refine ⟨more, ?_⟩
    rw [kinds_append, List.append_assoc]
    exact into.word _ completes

/-- The fragments among the tokens of a text are apart. -/
theorem isChain_stream (cancelled : Bool) {state : LexState} (fits : state.Fits)
    (outside : state.modes = []) :
    (kinds (state.stream cancelled)).IsChain Kind.Apart := by
  obtain ⟨more, completes⟩ := exists_completes_stream cancelled state fits
  unfold LexState.Completes at completes
  rw [outside] at completes
  have code : CodeWord (kinds (state.stream cancelled) ++ more) := completes
  exact code.isChain.left_of_append

end LexState

end Offside
