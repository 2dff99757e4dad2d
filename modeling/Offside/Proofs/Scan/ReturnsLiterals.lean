import Offside.Proofs.Scan.Returns

/-!
Literals of texts whose line breaks differ by carriage returns. A literal that is closed has the same
value, since only a line break after a backslash can stand in it. One that comes to the end of its line
is closed in neither text, and a carriage return there is one more character of what was begun.
-/

namespace Offside.Scan

open Text (WithReturns AtFeed)

variable {left right : List Char}

/-! ## Codes of characters -/

theorem hexChar?_same (count : Nat) (returns : WithReturns left right) :
    Option.Rel Scanned.Same (hexChar? count left) (hexChar? count right) := by
  have same := @upTo_same _ _ Text.isHexDigit rfl rfl count returns
  rw [hexChar?, hexChar?, same.same]
  split
  next =>
    cases charOfCode? _ with
    | none => exact .none
    | some value => exact .some ⟨same, rfl⟩
  next => exact .none

theorem bracedChar?_same (returns : WithReturns left right) :
    Option.Rel Scanned.Same (bracedChar? left) (bracedChar? right) := by
  cases returns with
  | nil => exact .none
  | feed => exact .none
  | returned => exact .none
  | @plain c left right noFeed noReturn rest =>
    by_cases opens : c = '\x7b'
    · subst opens
      have same := @upTo_same _ _ Text.isHexDigit rfl rfl 6 rest
      rw [bracedChar?, bracedChar?]
      generalize upTo Text.isHexDigit 6 left = digits at same ⊢
      generalize upTo Text.isHexDigit 6 right = digits' at same ⊢
      obtain ⟨text, after⟩ := digits
      obtain ⟨text', after'⟩ := digits'
      obtain rfl : text' = text := same.same
      have behind : WithReturns after after' := same.rest
      dsimp only
      by_cases closes : after.head? = some '\x7d'
      · obtain ⟨others, others', rfl, rfl, later⟩ := behind.starts closes (by decide)
        by_cases empty : text' = []
        · simp only [empty, ↓reduceIte]
          exact .none
        · simp only [empty, ↓reduceIte]
          cases charOfCode? (Text.numberOf 16 text') with
          | none => exact .none
          | some value =>
            have brace : WithReturns ['\x7b'] ['\x7b'] := .single (by decide) (by decide)
            have close : WithReturns ['\x7d'] ['\x7d'] := .single (by decide) (by decide)
            exact .some ⟨⟨⟨(brace.append same.text).append close, later⟩, rfl⟩, rfl⟩
      · have open' : after'.head? ≠ some '\x7d' :=
          (not_congr (behind.head?_iff (by decide) (by decide))).mpr closes
        split
        next => exact absurd rfl closes
        next =>
          split
          next => exact absurd rfl open'
          next => exact .none
    · rw [bracedChar?_of_ne opens, bracedChar?_of_ne opens]
      exact .none

/-- Splits that are the same, or that both end in front of a line feed. -/
def Split.Cuts (left right : Split) : Prop :=
  left.Same right ∨ AtFeed left.rest ∧ AtFeed right.rest

theorem Split.Passes.cuts {left right : Split} (passes : left.Passes right)
    (noFeed : '\n' ∉ left.text) : left.Cuts right := by
  cases passes with
  | level level => exact Or.inl ⟨level, level.text.eq_of_noFeed noFeed⟩
  | carriage level =>
    obtain ⟨_, _, feed, rfl, _⟩ := level.rest.return_inv
    exact Or.inr ⟨congrArg List.head? feed, rfl⟩

theorem Split.Cuts.after {left right : Split} {text : List Char} (cuts : left.Cuts right)
    (before : WithReturns text text) : (left.after text).Cuts (right.after text) :=
  cuts.imp_left fun same => same.after before

theorem run_cuts {test : Char → Bool} (feed : test '\n' = false) (returns : WithReturns left right) :
    (run test left).Cuts (run test right) := by
  refine (run_passes feed returns).cuts fun member => ?_
  have passes := List.mem_takeWhile_imp member
  rw [feed] at passes
  contradiction

theorem brokenCode_cuts (returns : WithReturns left right) :
    (brokenCode left).Cuts (brokenCode right) := by
  have digits := @upTo_same _ _ Text.isHexDigit rfl rfl 4 returns
  cases returns with
  | nil => exact Or.inl digits
  | feed => exact Or.inl digits
  | returned => exact Or.inl digits
  | @plain c left right noFeed noReturn rest =>
    by_cases opens : c = '\x7b'
    · subst opens
      have brace : WithReturns ['\x7b'] ['\x7b'] := .single (by decide) (by decide)
      have cuts := @run_cuts _ _ (fun c => c ≠ '\x7d' && c ≠ '"' && c ≠ '\'' && c ≠ '\n') rfl rest
      rw [brokenCode, brokenCode]
      generalize run _ left = body at cuts ⊢
      generalize run _ right = body' at cuts ⊢
      obtain ⟨text, after⟩ := body
      obtain ⟨text', after'⟩ := body'
      rcases cuts with same | ⟨atFeed, atFeed'⟩
      · obtain rfl : text' = text := same.same
        have behind : WithReturns after after' := same.rest
        by_cases closes : after.head? = some '\x7d'
        · obtain ⟨others, others', rfl, rfl, later⟩ := behind.starts closes (by decide)
          have close : WithReturns ['\x7d'] ['\x7d'] := .single (by decide) (by decide)
          exact Or.inl ⟨⟨(brace.append same.text).append close, later⟩, rfl⟩
        · have open' : after'.head? ≠ some '\x7d' :=
            (not_congr (behind.head?_iff (by decide) (by decide))).mpr closes
          split
          next found => exact absurd (congrArg List.head? found) closes
          next =>
            split
            next found => exact absurd (congrArg List.head? found) open'
            next => exact Or.inl (same.after brace)
      · obtain ⟨others, rfl⟩ := List.head?_eq_some_iff.mp atFeed
        obtain ⟨others', rfl⟩ := List.head?_eq_some_iff.mp atFeed'
        exact Or.inr ⟨rfl, rfl⟩
    · rw [brokenCode_of_ne opens, brokenCode_of_ne opens]
      exact Or.inl digits

/-! ## Pieces -/

/-- A piece that can not be decoded. -/
def Piece.isBroken : Piece → Bool
  | .invalid _ => true
  | _ => false

/-- Pieces of literals that are the same up to carriage returns, or that both end in front of a line
feed. -/
inductive PieceAlike (left right : Scanned Piece) : Prop
  | level (level : left.toSplit.Level right.toSplit) (value : right.value = left.value)
  | cut (atFeed : AtFeed left.rest) (atFeed' : AtFeed right.rest)
    (isBroken : right.value.isBroken = left.value.isBroken)

namespace PieceAlike

theorem of_char {lead : List Char} {scanned scanned' : Scanned Char} (same : scanned.Same scanned')
    (before : WithReturns lead lead) :
    PieceAlike ⟨scanned.toSplit.after lead, .char scanned.value⟩
      ⟨scanned'.toSplit.after lead, .char scanned'.value⟩ :=
  .level (same.toLevel.after before) (congrArg Piece.char same.value)

theorem of_broken {lead : List Char} {split split' : Split} (cuts : split.Cuts split')
    (before : WithReturns lead lead) :
    PieceAlike ⟨split.after lead, .invalid (lead ++ split.text)⟩
      ⟨split'.after lead, .invalid (lead ++ split'.text)⟩ := by
  rcases cuts with same | ⟨atFeed, atFeed'⟩
  · exact .level (same.toLevel.after before) (by rw [same.same])
  · exact .cut atFeed atFeed' rfl

end PieceAlike

theorem escape_code_alike (returns : WithReturns left right) :
    PieceAlike (escape ('u' :: left)) (escape ('u' :: right)) := by
  have lead : WithReturns ['\\', 'u'] ['\\', 'u'] := returns_self (by decide) (by decide)
  have codes := rel_or (bracedChar?_same returns) (hexChar?_same 4 returns)
  generalize found : (bracedChar? left).or (hexChar? 4 left) = code at codes
  generalize found' : (bracedChar? right).or (hexChar? 4 right) = code' at codes
  cases codes with
  | none =>
    rw [escape_code_of_none found, escape_code_of_none found']
    exact .of_broken (brokenCode_cuts returns) lead
  | some same =>
    rw [escape_code_of_some found, escape_code_of_some found']
    exact .of_char same lead

theorem escape_byte_alike (returns : WithReturns left right) :
    PieceAlike (escape ('x' :: left)) (escape ('x' :: right)) := by
  have lead : WithReturns ['\\', 'x'] ['\\', 'x'] := returns_self (by decide) (by decide)
  have codes := hexChar?_same 2 returns
  generalize found : hexChar? 2 left = code at codes
  generalize found' : hexChar? 2 right = code' at codes
  cases codes with
  | none =>
    rw [escape_byte_of_none found, escape_byte_of_none found']
    exact .of_broken (Or.inl (upTo_same rfl rfl 2 returns)) lead
  | some same =>
    rw [escape_byte_of_some found, escape_byte_of_some found']
    exact .of_char same lead

theorem escape_alike (returns : WithReturns left right) : PieceAlike (escape left) (escape right) := by
  have lead : WithReturns ['\\'] ['\\'] := .single (by decide) (by decide)
  have breaks := lineBreak?_level returns
  generalize found : lineBreak? left = lineBreak at breaks
  generalize found' : lineBreak? right = lineBreak' at breaks
  cases breaks with
  | some level =>
    rw [escape_of_joined found, escape_of_joined found']
    exact .level (level.after lead) rfl
  | none =>
    cases returns with
    | nil => exact .of_broken (Or.inl (Split.same_nothing .nil)) lead
    | feed => contradiction
    | returned => contradiction
    | @plain c left right noFeed noReturn rest =>
      by_cases isCode : c = 'u'
      · exact isCode ▸ escape_code_alike rest
      · by_cases isByte : c = 'x'
        · exact isByte ▸ escape_byte_alike rest
        · rw [escape_of_other found noReturn isCode isByte, escape_of_other found' noReturn isCode isByte]
          by_cases octal : Text.isOctalDigit c = true
          · have same := @upTo_same _ _ Text.isOctalDigit rfl rfl 3
              (.plain noFeed noReturn rest)
            rw [if_pos octal, if_pos octal]
            exact .level (same.toLevel.after lead)
              (congrArg (fun digits => Piece.char (Char.ofNat (Text.numberOf 8 digits))) same.same)
          · rw [if_neg octal, if_neg octal]
            exact .level ⟨lead.append (.single noFeed noReturn), rest⟩ rfl

/-- A piece of a string that starts with some character, which is not the end of the line. -/
theorem stringPiece?_alike {c : Char} (noFeed : c ≠ '\n') (noReturn : c ≠ '\r')
    (returns : WithReturns left right) :
    Option.Rel PieceAlike (stringPiece? (c :: left)) (stringPiece? (c :: right)) := by
  rw [stringPiece?, stringPiece?]
  split
  next => exact .some (escape_alike returns)
  next =>
    split
    next => exact .none
    next =>
      have cuts := @run_cuts _ _ (fun other => !endsText other) rfl returns
      rcases cuts.after (.single noFeed noReturn) with same | ⟨atFeed, atFeed'⟩
      · exact .some (.level same.toLevel (congrArg Piece.text same.same))
      · exact .some (.cut atFeed atFeed' rfl)

theorem charPiece?_alike {c : Char} (noFeed : c ≠ '\n') (noReturn : c ≠ '\r')
    (returns : WithReturns left right) :
    Option.Rel PieceAlike (charPiece? (c :: left)) (charPiece? (c :: right)) := by
  rw [charPiece?, charPiece?]
  split
  next => exact .some (escape_alike returns)
  next =>
    split
    next => exact .none
    next => exact .some (.level ⟨.single noFeed noReturn, returns⟩ rfl)

/-! ## Bodies -/

structure Spelled.Alike (left right : Spelled) : Prop where
  text : WithReturns left.text right.text
  piece : right.piece = left.piece

/-- Pieces with the same faults: those that differ come last. -/
inductive Faults : List Spelled → List Spelled → Prop
  | nil : Faults [] []
  | cons {first first' : Spelled} {others others' : List Spelled} (alike : first.Alike first')
    (more : Faults others others') : Faults (first :: others) (first' :: others')
  | last {piece piece' : Spelled} (isBroken : piece'.piece.isBroken = piece.piece.isBroken) :
    Faults [piece] [piece']
  | extra {piece : Spelled} (sound : piece.piece.isBroken = false) : Faults [] [piece]

/-- Bodies of literals that are the same up to carriage returns, or that both end with their line. -/
structure BodyAlike (left right : Scanned (List Spelled)) : Prop where
  faults : Faults left.value right.value
  cut : AtFeed left.rest → AtFeed right.rest
  level : ¬ AtFeed left.rest → left.toSplit.Level right.toSplit
  pieces : ¬ AtFeed left.rest → List.Forall₂ Spelled.Alike left.value right.value

namespace BodyAlike

theorem nothing (returns : WithReturns left right) (cut : AtFeed left → AtFeed right) :
    BodyAlike ⟨.nothing left, []⟩ ⟨.nothing right, []⟩ :=
  ⟨.nil, cut, fun _ => Split.level_nothing returns, fun _ => .nil⟩

/-- Bodies that start with pieces that are alike, where no piece starts at a line feed. -/
theorem cons {piece piece' : Scanned Piece} {body body' : Scanned (List Spelled)}
    (alike : PieceAlike piece piece')
    (ends : AtFeed piece.rest → body = ⟨.nothing piece.rest, []⟩)
    (ends' : AtFeed piece'.rest → body' = ⟨.nothing piece'.rest, []⟩)
    (later : WithReturns piece.rest piece'.rest → BodyAlike body body') :
    BodyAlike ⟨body.toSplit.after piece.text, ⟨piece.text, piece.value⟩ :: body.value⟩
      ⟨body'.toSplit.after piece'.text, ⟨piece'.text, piece'.value⟩ :: body'.value⟩ := by
  cases alike with
  | level level value =>
    have alike : Spelled.Alike ⟨piece.text, piece.value⟩ ⟨piece'.text, piece'.value⟩ :=
      ⟨level.text, value⟩
    obtain ⟨faults, cut, levels, pieces⟩ := later level.rest
    exact ⟨.cons alike faults, cut, fun calm => (levels calm).after level.text,
      fun calm => .cons alike (pieces calm)⟩
  | cut atFeed atFeed' isBroken =>
    rw [ends atFeed, ends' atFeed']
    exact ⟨.last isBroken, fun _ => atFeed', absurd atFeed, absurd atFeed⟩

end BodyAlike

/-- Bodies made up of pieces, none of which starts at a line feed. A carriage return is a piece of
its own there. -/
structure MadeUp (piece? : List Char → Option (Scanned Piece))
    (body : List Char → Scanned (List Spelled)) : Prop where
  of_none : ∀ {input}, piece? input = none → body input = ⟨.nothing input, []⟩
  of_some : ∀ {input piece}, piece? input = some piece →
    body input = ⟨(body piece.rest).toSplit.after piece.text,
      ⟨piece.text, piece.value⟩ :: (body piece.rest).value⟩
  takes : ∀ {input piece}, piece? input = some piece → piece.toSplit.Takes input
  empty : piece? [] = none
  feed : ∀ rest, piece? ('\n' :: rest) = none
  carriage : ∀ rest, ∃ value, piece? ('\r' :: '\n' :: rest) = some ⟨⟨['\r'], '\n' :: rest⟩, value⟩ ∧
    value.isBroken = false
  alike : ∀ {c left right}, c ≠ '\n' → c ≠ '\r' → WithReturns left right →
    Option.Rel PieceAlike (piece? (c :: left)) (piece? (c :: right))

namespace MadeUp

variable {piece? : List Char → Option (Scanned Piece)} {body : List Char → Scanned (List Spelled)}
  (madeUp : MadeUp piece? body)

include madeUp

theorem of_atFeed {input : List Char} (atFeed : AtFeed input) :
    body input = ⟨.nothing input, []⟩ := by
  obtain ⟨rest, rfl⟩ := List.head?_eq_some_iff.mp atFeed
  exact madeUp.of_none (madeUp.feed rest)

theorem body_alike {left right : List Char} (returns : WithReturns left right) :
    BodyAlike (body left) (body right) := by
  cases returns with
  | nil =>
    rw [madeUp.of_none madeUp.empty]
    exact .nothing .nil id
  | feed rest =>
    rw [madeUp.of_none (madeUp.feed _), madeUp.of_none (madeUp.feed _)]
    exact .nothing (.feed rest) fun _ => rfl
  | @returned left right rest =>
    obtain ⟨value, found, sound⟩ := madeUp.carriage right
    have nothing : body ('\n' :: right) = ⟨.nothing ('\n' :: right), []⟩ :=
      madeUp.of_none (madeUp.feed right)
    rw [madeUp.of_none (madeUp.feed left), madeUp.of_some found, nothing]
    exact ⟨.extra sound, fun _ => rfl, absurd rfl, absurd rfl⟩
  | @plain c left right noFeed noReturn rest =>
    have pieces := madeUp.alike noFeed noReturn rest
    generalize found : piece? (c :: left) = piece at pieces
    generalize found' : piece? (c :: right) = piece' at pieces
    cases pieces with
    | none =>
      rw [madeUp.of_none found, madeUp.of_none found']
      exact .nothing (.plain noFeed noReturn rest) fun atFeed => absurd (Option.some.inj atFeed) noFeed
    | @some piece piece' alike =>
      have shorter : piece.rest.length < (c :: left).length := (madeUp.takes found).length_lt
      rw [madeUp.of_some found, madeUp.of_some found']
      exact .cons alike madeUp.of_atFeed madeUp.of_atFeed fun later => body_alike later
termination_by left.length
decreasing_by exact shorter

end MadeUp

theorem madeUp_stringBody : MadeUp stringPiece? stringBody where
  of_none := stringBody_of_none
  of_some := stringBody_of_some
  takes := takes_of_stringPiece?
  empty := rfl
  feed _ := rfl
  carriage _ := ⟨_, rfl, rfl⟩
  alike := stringPiece?_alike

theorem madeUp_charBody : MadeUp charPiece? charBody where
  of_none := charBody_of_none
  of_some := charBody_of_some
  takes := takes_of_charPiece?
  empty := rfl
  feed _ := rfl
  carriage _ := ⟨_, rfl, rfl⟩
  alike := charPiece?_alike

theorem stringBody_alike (returns : WithReturns left right) :
    BodyAlike (stringBody left) (stringBody right) :=
  madeUp_stringBody.body_alike returns

theorem charBody_alike (returns : WithReturns left right) :
    BodyAlike (charBody left) (charBody right) :=
  madeUp_charBody.body_alike returns

end Offside.Scan
