import Offside.Proofs.Lexer.SourceOrder
import Offside.Proofs.Parser.Nesting
import Offside.Proofs.Parser.Visited

/-!
Strings that are open where a statement starts. What is read as part of a tree closes every string
that it opens, so that a statement can only be inside of a string where statements went on inside of
that string after one that was wrong.
-/

namespace Offside

open LexStream

namespace Kind

/-- The strings open after a token, if it closes none where none was open. -/
def stringsAfter? (depth : Nat) (kind : Kind) : Option Nat :=
  if kind = .stringStart then some (depth + 1)
  else if kind = .stringEnd then
    if depth = 0 then none else some (depth - 1)
  else some depth

/-- Kinds of tokens where statements go on after one that was wrong. -/
def Resumes (kind : Kind) : Prop :=
  kind.endsSkipped = true ∨ kind.stopsSkipping = true ∨ kind = .endOfInput

theorem stringsAfter?_add {kind : Kind} {depth later : Nat} (base : Nat)
    (counted : kind.stringsAfter? depth = some later) :
    kind.stringsAfter? (depth + base) = some (later + base) := by
  unfold stringsAfter? at counted ⊢
  grind

theorem stringsAfter?_of_isSingle {kind : Kind} (isSingle : kind.IsSingle) (depth : Nat) :
    kind.stringsAfter? depth = some depth := by
  rw [stringsAfter?, if_neg isSingle.noStart, if_neg isSingle.noEnd]

end Kind

/-! ## Counting strings -/

/-- The strings open after some tokens, if none of them closes one where none was open. -/
def stringsAfter? (depth : Nat) (found : List Token) : Option Nat :=
  found.foldlM (fun depth token => token.kind.stringsAfter? depth) depth

/-- Every string that is opened is closed, and no other. -/
def Balanced (found : List Token) : Prop :=
  stringsAfter? 0 found = some 0

section Counting

variable {found left right : List Token} {token : Token} {depth later : Nat}

theorem stringsAfter?_cons :
    stringsAfter? depth (token :: found) =
      (token.kind.stringsAfter? depth).bind (stringsAfter? · found) :=
  rfl

theorem stringsAfter?_append :
    stringsAfter? depth (left ++ right) =
      (stringsAfter? depth left).bind (stringsAfter? · right) :=
  List.foldlM_append

/-- Strings that were open before stay open. -/
theorem stringsAfter?_add (base : Nat) (counted : stringsAfter? depth found = some later) :
    stringsAfter? (depth + base) found = some (later + base) := by
  induction found generalizing depth with
  | nil => exact congrArg (some <| · + base) (Option.some.inj counted)
  | cons token found inductionHypothesis =>
    rw [stringsAfter?_cons] at counted ⊢
    obtain ⟨middle, first, others⟩ := Option.bind_eq_some_iff.mp counted
    rw [Kind.stringsAfter?_add base first]
    exact inductionHypothesis others

namespace Balanced

theorem nil : Balanced [] :=
  rfl

theorem at_depth (balanced : Balanced found) (depth : Nat) :
    stringsAfter? depth found = some depth := by
  have counted := stringsAfter?_add depth balanced
  rwa [Nat.zero_add] at counted

theorem append (balanced : Balanced left) (others : Balanced right) : Balanced (left ++ right) := by
  rw [Balanced, stringsAfter?_append, balanced]
  exact others

theorem single (isSingle : ∀ depth, token.kind.stringsAfter? depth = some depth) :
    Balanced [token] := by
  rw [Balanced, stringsAfter?_cons, isSingle]
  rfl

/-- A string around what is balanced. -/
theorem string {start last : Token} (isStart : start.kind = .stringStart)
    (balanced : Balanced found) (isEnd : last.kind = .stringEnd) :
    Balanced (start :: found ++ [last]) := by
  have opened : start.kind.stringsAfter? 0 = some 1 := by rw [isStart]; rfl
  have closed : last.kind.stringsAfter? 1 = some 0 := by rw [isEnd]; rfl
  have inside : stringsAfter? 1 (found ++ [last]) = some 0 := by
    rw [stringsAfter?_append, balanced.at_depth 1]
    exact (stringsAfter?_cons).trans (congrArg (Option.bind · _) closed)
  rw [Balanced, List.cons_append, stringsAfter?_cons, opened]
  exact inside

/-- A string that starts within what is balanced ends there. -/
theorem closes {start : Token} (balanced : Balanced (left ++ start :: right))
    (isStart : start.kind = .stringStart) : stringsAfter? 0 right = none := by
  rw [Balanced, stringsAfter?_append] at balanced
  obtain ⟨depth, _, others⟩ := Option.bind_eq_some_iff.mp balanced
  rw [stringsAfter?_cons, isStart] at others
  cases counted : stringsAfter? 0 right with
  | none => rfl
  | some open_ =>
    have raised := stringsAfter?_add (depth + 1) counted
    rw [Nat.zero_add] at raised
    have same : some (open_ + (depth + 1)) = some 0 := raised.symm.trans others
    have zero := Option.some.inj same
    omega

/-- What is within a string does not close it before its end. -/
theorem isSome_of_append (balanced : Balanced (left ++ right)) :
    (stringsAfter? 0 left).isSome = true := by
  rw [Balanced, stringsAfter?_append] at balanced
  obtain ⟨depth, counted, _⟩ := Option.bind_eq_some_iff.mp balanced
  rw [counted]
  rfl

end Balanced

end Counting

/-! ## Layout -/

/-- Layout comes where no bracket is open, but for what comes at the end of all tokens. -/
def LayoutOutside (found : List Token) : Prop :=
  ∃ ordinary ending, found = ordinary ++ ending ∧
    Kind.LayoutOutside 0 (ordinary.map Token.kind) ∧ ∀ token ∈ ending, token.kind.isStructural = true

/-- The brackets open after some tokens. -/
def bracketsOf (brackets : Nat) (found : List Token) : Nat :=
  Kind.bracketsOf brackets (found.map Token.kind)

theorem layoutOutside_tokens (input : Input) : LayoutOutside input.tokens := by
  obtain ⟨ordinary, ending, whole, outside, structural⟩ :=
    layoutOutside_ofSource input.settings input.cancelled input.source
  obtain ⟨first, last, split, rfl, rfl⟩ := List.map_eq_append_iff.mp whole
  exact ⟨first, last, split, outside, fun token member =>
    structural _ (List.mem_map_of_mem member)⟩

/-- Before a token that stands for text the layout is outside of brackets. -/
theorem LayoutOutside.before {past taken after : List Token} {closing : Token}
    (outside : LayoutOutside (past ++ (taken ++ closing :: after)))
    (isText : closing.kind.isStructural = false) :
    Kind.LayoutOutside (bracketsOf 0 past) (taken.map Token.kind) := by
  obtain ⟨ordinary, ending, whole, outside, structural⟩ := outside
  have split : (past ++ taken ++ [closing]) ++ after = ordinary ++ ending := by
    rw [← whole]
    simp
  rcases List.append_eq_append_iff.mp split with ⟨more, rfl, _⟩ | ⟨more, isPast, rfl⟩
  · rw [List.append_assoc, List.append_assoc, List.map_append, Kind.layoutOutside_append,
      List.map_append, Kind.layoutOutside_append] at outside
    exact outside.2.1
  · cases more using List.reverseRecOn with
    | nil =>
      rw [List.append_nil] at isPast
      rw [← isPast, List.append_assoc, List.map_append, Kind.layoutOutside_append,
        List.map_append, Kind.layoutOutside_append] at outside
      exact outside.2.1
    | append_singleton more last _ =>
      rw [← List.append_assoc] at isPast
      obtain ⟨_, same⟩ := List.append_inj' isPast rfl
      obtain rfl := List.singleton_inj.mp same
      have layout := structural closing (by simp)
      exact absurd (isText.symm.trans layout) Bool.false_ne_true

/-! ## What is read as part of a tree -/

/-- Tokens that are not directly in a block change nothing that counts: no bracket or string is left
open, and nothing is done. -/
structure Plain (brackets : Nat) (taken : List Token) (acts : List Span) : Prop where
  counted : bracketsOf brackets taken = brackets
  balanced : Balanced taken
  nothing : acts = []

variable {settings : Settings} {around : Surroundings} {failed : Nat}
  {before after : List Token} {acts : List Span}

theorem bracketsOf_append {brackets : Nat} {left right : List Token} :
    bracketsOf brackets (left ++ right) = bracketsOf (bracketsOf brackets left) right := by
  rw [bracketsOf, List.map_append, Kind.bracketsOf_append]
  rfl

theorem Plain.append {brackets : Nat} {taken more : List Token} {others : List Span}
    (first : Plain brackets taken acts) (second : Plain brackets more others) :
    Plain brackets (taken ++ more) (acts ++ others) where
  counted := by rw [bracketsOf_append, first.counted, second.counted]
  balanced := first.balanced.append second.balanced
  nothing := by rw [first.nothing, second.nothing, List.append_nil]

theorem Kind.Encloses.opens {opening closing : Kind} (encloses : Encloses opening closing) :
    ∀ brackets, opening.bracketsAfter brackets = brackets + 1 := by
  cases encloses <;> exact fun _ => rfl

theorem Kind.Encloses.closes {opening closing : Kind} (encloses : Encloses opening closing) :
    ∀ brackets, closing.bracketsAfter (brackets + 1) = brackets := by
  cases encloses <;> exact fun _ => rfl

theorem Kind.Encloses.isText {opening closing : Kind} (encloses : Encloses opening closing) :
    closing.isStructural = false := by
  cases encloses <;> rfl

theorem Kind.Encloses.keepsStrings {opening closing : Kind} (encloses : Encloses opening closing) :
    (∀ depth, opening.stringsAfter? depth = some depth) ∧
      ∀ depth, closing.stringsAfter? depth = some depth := by
  cases encloses <;> exact ⟨fun _ => rfl, fun _ => rfl⟩

theorem Plain.enclosed {brackets : Nat} {opening closing : Token} {inside : List Token}
    (encloses : Kind.Encloses opening.kind closing.kind)
    (plain : Plain (brackets + 1) inside acts) :
    Plain brackets (opening :: inside ++ [closing]) acts where
  counted := by
    have opened : bracketsOf brackets [opening] = brackets + 1 := encloses.opens brackets
    rw [show opening :: inside ++ [closing] = [opening] ++ inside ++ [closing] from rfl,
      bracketsOf_append, bracketsOf_append, opened, plain.counted]
    exact encloses.closes brackets
  balanced := by
    have opens := Balanced.single encloses.keepsStrings.1
    have closes := Balanced.single encloses.keepsStrings.2
    exact (opens.append plain.balanced).append closes
  nothing := plain.nothing

theorem Plain.string {brackets : Nat} {start last : Token} {inside : List Token}
    (isStart : start.kind = .stringStart) (plain : Plain brackets inside acts)
    (isEnd : last.kind = .stringEnd) : Plain brackets (start :: inside ++ [last]) acts where
  counted := by
    have opened : bracketsOf brackets [start] = brackets :=
      congrArg (·.bracketsAfter brackets) isStart
    rw [show start :: inside ++ [last] = [start] ++ inside ++ [last] from rfl,
      bracketsOf_append, bracketsOf_append, opened, plain.counted]
    exact congrArg (·.bracketsAfter brackets) isEnd
  balanced := plain.balanced.string isStart isEnd
  nothing := plain.nothing

theorem Nests.suffix (nests : Nests settings around failed before after acts) :
    after <:+ before := by
  induction nests with
  | nil => exact List.suffix_rfl
  | append _ _ first second => exact second.trans first
  | single => exact List.suffix_cons _ _
  | line => exact List.suffix_cons _ _
  | enclosed _ _ inside => exact ((List.suffix_cons _ _).trans inside).trans (List.suffix_cons _ _)
  | string _ _ _ inside => exact ((List.suffix_cons _ _).trans inside).trans (List.suffix_cons _ _)
  | block _ _ _ _ inside => exact ((List.suffix_cons _ _).trans inside).trans (List.suffix_cons _ _)
  | act _ _ _ inside => exact inside
  | skipped => exact List.suffix_append _ _

/-- Where a bracket is open, and directly inside of a string, there is no block. -/
theorem Nests.plain (nests : Nests settings around failed before after acts)
    (notBlock : around ≠ .block) :
    ∃ taken, before = taken ++ after ∧ ∀ brackets, (around = .code → 0 < brackets) →
      Kind.LayoutOutside brackets (taken.map Token.kind) → Plain brackets taken acts := by
  induction nests with
  | nil => exact ⟨[], rfl, fun _ _ _ => ⟨rfl, .nil, rfl⟩⟩
  | append _ _ first second =>
    obtain ⟨taken, rfl, plain⟩ := first notBlock
    obtain ⟨more, rfl, plainMore⟩ := second notBlock
    refine ⟨taken ++ more, (List.append_assoc _ _ _).symm, fun brackets positive outside => ?_⟩
    rw [List.map_append, Kind.layoutOutside_append] at outside
    have firstPlain := plain brackets positive outside.1
    have counted : Kind.bracketsOf brackets (taken.map Token.kind) = brackets := firstPlain.counted
    exact firstPlain.append (plainMore brackets positive (counted ▸ outside.2))
  | @single _ token _ isSingle =>
    refine ⟨[token], rfl, fun brackets _ _ => ⟨isSingle.brackets brackets, ?_, rfl⟩⟩
    exact .single (Kind.stringsAfter?_of_isSingle isSingle)
  | @line around token _ isLine outside =>
    refine ⟨[token], rfl, fun brackets positive layout => ?_⟩
    have isCode : around = .code := by cases around <;> first | rfl | contradiction
    have none := layout.1 (isLine ▸ rfl)
    exact absurd none (Nat.ne_of_gt (positive isCode))
  | @enclosed _ _ opening closing _ _ _ encloses _ inside =>
    obtain ⟨taken, rfl, plain⟩ := inside Surroundings.noConfusion
    refine ⟨opening :: taken ++ [closing], by simp, fun brackets _ outside => ?_⟩
    rw [List.map_append, Kind.layoutOutside_append] at outside
    refine .enclosed encloses (plain (brackets + 1) (fun _ => Nat.succ_pos _) ?_)
    exact encloses.opens brackets ▸ outside.1.2
  | @string _ _ start last _ _ _ isStart _ isEnd inside =>
    obtain ⟨taken, rfl, plain⟩ := inside Surroundings.noConfusion
    refine ⟨start :: taken ++ [last], by simp, fun brackets _ outside => ?_⟩
    rw [List.map_append, Kind.layoutOutside_append] at outside
    refine .string isStart (plain brackets Surroundings.noConfusion ?_) isEnd
    have same : start.kind.bracketsAfter brackets = brackets :=
      congrArg (·.bracketsAfter brackets) isStart
    exact same ▸ outside.1.2
  | @block around _ first last _ _ _ isIndent inside _ outside =>
    obtain ⟨taken, rfl⟩ := inside.suffix
    refine ⟨first :: taken ++ [last], by simp, fun brackets positive layout => ?_⟩
    have isCode : around = .code := by cases around <;> first | rfl | contradiction
    have none := layout.1 (isIndent ▸ rfl)
    exact absurd none (Nat.ne_of_gt (positive isCode))
  | act => contradiction
  | skipped => contradiction

/-! ## Open strings -/

/-- In every string that is open behind some tokens, statements went on after one that was wrong:
where they did, a token of the string shows, or the next one. -/
def Clear (failed : Nat) (past ahead : List Token) : Prop :=
  ∀ ⦃before start inside⦄, past = before ++ start :: inside → start.kind = .stringStart →
    (stringsAfter? 0 inside).isSome = true →
      0 < failed ∧ ∃ token ∈ inside ++ ahead.take 1, token.kind.Resumes

namespace Clear

variable {past taken : List Token}

theorem nil (failed : Nat) (ahead : List Token) : Clear failed [] ahead :=
  fun _ _ _ whole => absurd whole.symm (List.append_ne_nil_of_right_ne_nil _ (List.cons_ne_nil _ _))

theorem mono {more : Nat} (clear : Clear failed past after) (le : failed ≤ more) :
    Clear more past after := by
  intro before start inside whole isStart opened
  obtain ⟨positive, resumes⟩ := clear whole isStart opened
  exact ⟨Nat.lt_of_lt_of_le positive le, resumes⟩

/-- Tokens that close every string that they open leave the same strings open. -/
theorem append (clear : Clear failed past (taken ++ after)) (balanced : Balanced taken) :
    Clear failed (past ++ taken) after := by
  intro before start inside whole isStart opened
  -- A string that starts in the tokens is closed in them.
  have closed (left right : List Token) (split : taken = left ++ start :: right) :
      stringsAfter? 0 right = none := by
    rw [split] at balanced
    exact balanced.closes isStart
  rcases List.append_eq_append_iff.mp whole with ⟨left, _, split⟩ | ⟨older, rfl, split⟩
  · rw [closed left inside split] at opened
    contradiction
  · cases older with
    | nil =>
      rw [closed [] inside split.symm] at opened
      contradiction
    | cons first older =>
      obtain ⟨rfl, rfl⟩ : start = first ∧ inside = older ++ taken := List.cons.inj split
      rw [stringsAfter?_append] at opened
      obtain ⟨depth, counted⟩ := Option.isSome_iff_exists.mp opened
      obtain ⟨middle, earlier, _⟩ := Option.bind_eq_some_iff.mp counted
      obtain ⟨positive, token, member, resumes⟩ :=
        clear rfl isStart (Option.isSome_iff_exists.mpr ⟨middle, earlier⟩)
      refine ⟨positive, token, ?_, resumes⟩
      cases taken with
      | nil => simpa using member
      | cons next others => simp at member ⊢; tauto

/-- Behind a statement that was wrong, statements go on. -/
theorem of_resumes {skipped : List Token} (positive : 0 < failed)
    (resumes : ResumesAt skipped after) : Clear failed (past ++ skipped) after := by
  intro before start inside whole isStart _
  refine ⟨positive, ?_⟩
  rcases resumes with ⟨earlier, last, rfl, ends⟩ | ⟨token, rest, rfl, stops⟩
  · refine ⟨last, List.mem_append_left _ ?_, Or.inl ends⟩
    cases inside using List.reverseRecOn with
    | nil =>
      rw [← List.append_assoc] at whole
      obtain ⟨_, same⟩ := List.append_inj' whole rfl
      obtain rfl := List.singleton_inj.mp same
      rw [isStart] at ends
      contradiction
    | append_singleton inside final _ =>
      rw [← List.append_assoc, ← List.cons_append, ← List.append_assoc] at whole
      obtain ⟨_, same⟩ := List.append_inj' whole rfl
      obtain rfl := List.singleton_inj.mp same
      simp
  · exact ⟨token, by simp, Or.inr stops⟩

end Clear

/-- Something that is done is read from a place among the tokens where every string that is open is
one in which statements went on. -/
def ReadClear (settings : Settings) (failed : Nat) (found : List Token) (span : Span) : Prop :=
  ∃ past ahead after phrase count, found = past ++ ahead ∧ Clear failed past ahead ∧
    Derives settings count ahead phrase after ∧ phrase.act? = some span

theorem ReadClear.mono {found : List Token} {span : Span} {more : Nat}
    (read : ReadClear settings failed found span) (le : failed ≤ more) :
    ReadClear settings more found span := by
  obtain ⟨past, ahead, after, phrase, count, whole, clear, others⟩ := read
  exact ⟨past, ahead, after, phrase, count, whole, clear.mono le, others⟩

theorem Clear.plain {earlier brackets : Nat} {past taken rest : List Token}
    (clear : Clear earlier past (taken ++ rest)) (plain : Plain brackets taken acts) :
    Clear earlier (past ++ taken) rest ∧
      ∀ span ∈ acts, ReadClear settings earlier (past ++ (taken ++ rest)) span := by
  refine ⟨clear.append plain.balanced, fun span member => ?_⟩
  rw [plain.nothing] at member
  exact absurd member List.not_mem_nil

theorem Nests.clear (nests : Nests settings around failed before after acts)
    (outside : around ≠ .string) :
    ∃ taken, before = taken ++ after ∧ ∀ earlier past, LayoutOutside (past ++ before) →
      Clear earlier past before → Clear (earlier + failed) (past ++ taken) after ∧
        ∀ span ∈ acts, ReadClear settings (earlier + failed) (past ++ before) span := by
  induction nests with
  | nil =>
    refine ⟨[], rfl, fun earlier past _ clear => ⟨?_, fun _ member => absurd member List.not_mem_nil⟩⟩
    rwa [List.append_nil]
  | append _ _ first second =>
    obtain ⟨taken, rfl, clears⟩ := first outside
    obtain ⟨more, rfl, clearsMore⟩ := second outside
    refine ⟨taken ++ more, (List.append_assoc _ _ _).symm, fun earlier past layout clear => ?_⟩
    obtain ⟨middle, acts⟩ := clears earlier past layout clear
    rw [← List.append_assoc] at layout
    obtain ⟨last, others⟩ := clearsMore _ _ layout middle
    rw [← List.append_assoc, ← Nat.add_assoc]
    refine ⟨last, fun span member => ?_⟩
    rcases List.mem_append.mp member with inFirst | inSecond
    · exact (acts span inFirst).mono (Nat.le_add_right _ _)
    · rw [← List.append_assoc]
      exact others span inSecond
  | @single _ token _ isSingle =>
    refine ⟨[token], rfl, fun earlier past _ clear =>
      ⟨?_, fun _ member => absurd member List.not_mem_nil⟩⟩
    exact clear.append (.single (Kind.stringsAfter?_of_isSingle isSingle))
  | @line _ token _ isLine =>
    refine ⟨[token], rfl, fun earlier past _ clear =>
      ⟨?_, fun _ member => absurd member List.not_mem_nil⟩⟩
    exact clear.append (.single (isLine ▸ fun _ => rfl))
  | @enclosed _ _ opening closing _ rest _ encloses inside _ =>
    obtain ⟨taken, rfl, plain⟩ := inside.plain Surroundings.noConfusion
    refine ⟨opening :: taken ++ [closing], by simp, fun earlier past layout clear => ?_⟩
    have opened : Kind.LayoutOutside (bracketsOf 0 past) ((opening :: taken).map Token.kind) :=
      layout.before encloses.isText
    have within := plain _ (fun _ => Nat.succ_pos _) (encloses.opens _ ▸ opened.2)
    have split : opening :: (taken ++ closing :: rest) = opening :: taken ++ [closing] ++ rest := by
      simp
    rw [split] at clear ⊢
    exact (clear.mono (Nat.le_add_right _ _)).plain (.enclosed encloses within)
  | @string _ _ start last _ rest _ isStart inside isEnd _ =>
    obtain ⟨taken, rfl, plain⟩ := inside.plain Surroundings.noConfusion
    refine ⟨start :: taken ++ [last], by simp, fun earlier past layout clear => ?_⟩
    have opened : Kind.LayoutOutside (bracketsOf 0 past) ((start :: taken).map Token.kind) :=
      layout.before (isEnd ▸ rfl)
    have within := plain _ Surroundings.noConfusion opened.2
    have split : start :: (taken ++ last :: rest) = start :: taken ++ [last] ++ rest := by simp
    rw [split] at clear ⊢
    exact (clear.mono (Nat.le_add_right _ _)).plain (.string isStart within isEnd)
  | @block _ _ first last _ rest _ isIndent _ isDedent _ inside =>
    obtain ⟨taken, rfl, clears⟩ := inside Surroundings.noConfusion
    refine ⟨first :: taken ++ [last], by simp, fun earlier past layout clear => ?_⟩
    have opened : Clear earlier (past ++ [first]) (taken ++ last :: rest) :=
      clear.append (.single (isIndent ▸ fun _ => rfl))
    have split : past ++ first :: (taken ++ last :: rest) =
        past ++ [first] ++ (taken ++ last :: rest) := by simp
    rw [split] at layout ⊢
    obtain ⟨closed, acts⟩ := clears earlier _ layout opened
    refine ⟨?_, acts⟩
    have behind : Clear _ (past ++ [first] ++ taken ++ [last]) rest :=
      closed.append (.single (isDedent ▸ fun _ => rfl))
    simpa using behind
  | @act n before after phrase span acts derives isAct _ inside =>
    obtain ⟨taken, rfl, clears⟩ := inside outside
    refine ⟨taken, rfl, fun earlier past layout clear => ?_⟩
    obtain ⟨closed, acts⟩ := clears earlier past layout clear
    refine ⟨closed, List.forall_mem_cons.mpr ⟨?_, acts⟩⟩
    exact ⟨past, _, _, phrase, n, rfl, clear.mono (Nat.le_add_right _ _), derives, isAct⟩
  | @skipped _ skipped rest resumes =>
    refine ⟨skipped, rfl, fun earlier past _ _ =>
      ⟨?_, fun _ member => absurd member List.not_mem_nil⟩⟩
    exact .of_resumes (Nat.succ_pos _) resumes

end Offside
