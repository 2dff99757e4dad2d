import Offside.Proofs.Text.Quoted

/-!
Symbolic expressions, which trees are printed as. What is printed of one tells the expression and
its own end, so that no text is printed of two.
-/

namespace Offside

/-- The brackets around a list. -/
inductive Bracket
  | round
  | square
  | curly
deriving DecidableEq, Repr

namespace Bracket

def opening : Bracket → Char
  | round => '('
  | square => '['
  | curly => '\x7b'

def closing : Bracket → Char
  | round => ')'
  | square => ']'
  | curly => '\x7d'

end Bracket

mutual

inductive Sexp
  | word (text : List Char)
  | char (value : Char)
  | string (parts : List SexpPart)
  | list (bracket : Bracket) (items : List Sexp)

/-- A part of a string: a run of text or a value in braces. -/
inductive SexpPart
  | text (text : List Char)
  | value (value : Sexp)

end

mutual

def Sexp.render : Sexp → List Char
  | .word text => text
  | .char value => '\'' :: (Text.Quoted.encodeChar Text.Quoted.singleStyle value ++ ['\''])
  | .string parts => '"' :: (SexpPart.renderAll parts ++ ['"'])
  | .list bracket items =>
    bracket.opening :: ((Sexp.renderAll items).tail ++ [bracket.closing])

/-- Expressions with a space before each. -/
def Sexp.renderAll : List Sexp → List Char
  | [] => []
  | item :: items => ' ' :: (item.render ++ Sexp.renderAll items)

def SexpPart.renderAll : List SexpPart → List Char
  | [] => []
  | .text text :: parts => Text.Quoted.inside text ++ SexpPart.renderAll parts
  | .value value :: parts => '\x7b' :: (value.render ++ '\x7d' :: SexpPart.renderAll parts)

end

/-- Expressions with one on each line. -/
def Sexp.renderLines : List Sexp → List Char
  | [] => []
  | item :: items => item.render ++ '\n' :: Sexp.renderLines items

/-! ## Expressions that can be read back -/

/-- What a printed expression is, by its first character. -/
inductive Sexp.Shape
  | word
  | char
  | string
  | list (bracket : Bracket)
deriving DecidableEq, Repr

namespace Sexp

/-- The shape that a character starts, unless it ends what is before it. -/
def Shape.of? : Char → Option Shape
  | '\'' => some .char
  | '"' => some .string
  | '(' => some (.list .round)
  | '[' => some (.list .square)
  | '\x7b' => some (.list .curly)
  | ' ' | '\n' | ')' | ']' | '\x7d' => none
  | _ => some .word

def shape : Sexp → Shape
  | word _ => .word
  | char _ => .char
  | string _ => .string
  | list bracket _ => .list bracket

/-- The one word with brackets in it. -/
def groupWord : List Char :=
  ['.', '(', ')']

def IsWord (text : List Char) : Prop :=
  text = groupWord ∨ text ≠ [] ∧ ∀ c ∈ text, Shape.of? c = some .word

/-- What may follow a printed expression: something that ends it. -/
def Ends (follow : List Char) : Prop :=
  ∃ c rest, follow = c :: rest ∧ Shape.of? c = none

end Sexp

mutual

def Sexp.Legible : Sexp → Prop
  | .word text => Sexp.IsWord text
  | .char _ => True
  | .string parts => SexpPart.LegibleAll false parts
  | .list _ items => Sexp.LegibleAll items

def Sexp.LegibleAll : List Sexp → Prop
  | [] => True
  | item :: items => item.Legible ∧ Sexp.LegibleAll items

/-- No run of text is empty, has an opening brace in it or follows another one, which is what the
flag is for. -/
def SexpPart.LegibleAll : Bool → List SexpPart → Prop
  | _, [] => True
  | afterText, .text text :: parts =>
    afterText = false ∧ text ≠ [] ∧ '\x7b' ∉ text ∧ SexpPart.LegibleAll true parts
  | _, .value value :: parts => value.Legible ∧ SexpPart.LegibleAll false parts

end

namespace Sexp

variable {text other follow after : List Char} {item : Sexp} {items others : List Sexp}

theorem ends_closing (bracket : Bracket) (follow : List Char) : Ends (bracket.closing :: follow) :=
  ⟨_, follow, rfl, by cases bracket <;> rfl⟩

theorem ends_renderAll (items : List Sexp) (ends : Ends follow) :
    Ends (renderAll items ++ follow) := by
  cases items with
  | nil => exact ends
  | cons item items => exact ⟨' ', _, rfl, rfl⟩

/-- An expression shows by its first character what it is. -/
theorem exists_render_eq_cons (legible : item.Legible) :
    ∃ c rest, item.render = c :: rest ∧ Shape.of? c = some item.shape := by
  cases item with
  | word text =>
    rcases legible with rfl | ⟨nonempty, inWord⟩
    · exact ⟨'.', _, rfl, rfl⟩
    · obtain ⟨c, rest, rfl⟩ := List.exists_cons_of_ne_nil nonempty
      exact ⟨c, rest, rfl, inWord c List.mem_cons_self⟩
  | char value => exact ⟨'\'', _, rfl, rfl⟩
  | string parts => exact ⟨'"', _, rfl, rfl⟩
  | list bracket items => exact ⟨_, _, rfl, by cases bracket <;> rfl⟩

theorem not_ends_render (legible : item.Legible) (follow : List Char) :
    ¬ Ends (item.render ++ follow) := by
  rintro ⟨first, others, equality, ends⟩
  obtain ⟨c, rest, rendered, starts⟩ := exists_render_eq_cons legible
  rw [rendered, List.cons_append] at equality
  obtain ⟨rfl, _⟩ := List.cons.inj equality
  exact absurd (starts.symm.trans ends) (Option.some_ne_none _)

theorem shape_eq {left right : Sexp} (legible : left.Legible) (legibleRight : right.Legible)
    (same : left.render ++ follow = right.render ++ after) : left.shape = right.shape := by
  obtain ⟨c, rest, rendered, starts⟩ := exists_render_eq_cons legible
  obtain ⟨d, others, renderedRight, startsRight⟩ := exists_render_eq_cons legibleRight
  rw [rendered, renderedRight, List.cons_append, List.cons_append] at same
  obtain ⟨rfl, _⟩ := List.cons.inj same
  exact Option.some.inj (starts.symm.trans startsRight)

/-! ## Words -/

/-- A run of characters that a word is made of stops where the word ends. -/
theorem run_word (inWord : ∀ c ∈ text, Shape.of? c = some .word)
    (stops : follow.head?.any (fun c => decide (Shape.of? c = some .word)) = false) :
    Scan.run (fun c => decide (Shape.of? c = some .word)) (text ++ follow) = ⟨text, follow⟩ :=
  Scan.run_append (fun c member => decide_eq_true (inWord c member)) stops

theorem Ends.stops (ends : Ends follow) :
    follow.head?.any (fun c => decide (Shape.of? c = some .word)) = false := by
  obtain ⟨c, rest, rfl, isEnd⟩ := ends
  simp [isEnd]

/-- A word whose characters are all those of words is not the one with brackets in it. -/
theorem append_ne_groupWord (inWord : ∀ c ∈ text, Shape.of? c = some .word) (ends : Ends follow) :
    text ++ follow ≠ groupWord ++ after := by
  intro same
  have split := run_word inWord ends.stops
  have splitGroup : Scan.run (fun c => decide (Shape.of? c = some .word)) (groupWord ++ after) =
      ⟨['.'], '(' :: ')' :: after⟩ :=
    @run_word ['.'] _ (List.forall_mem_singleton.mpr rfl) rfl
  rw [same, splitGroup] at split
  obtain ⟨c, rest, rfl, isEnd⟩ := ends
  obtain ⟨_, rests⟩ := Scan.Split.mk.inj split
  obtain ⟨rfl, _⟩ := List.cons.inj rests
  exact absurd isEnd (by decide)

theorem word_append_inj (isWord : IsWord text) (isWordOther : IsWord other) (ends : Ends follow)
    (endsOther : Ends after) (same : text ++ follow = other ++ after) :
    text = other ∧ follow = after := by
  rcases isWord with rfl | ⟨_, inWord⟩
  · rcases isWordOther with rfl | ⟨_, inOther⟩
    · exact ⟨rfl, List.append_cancel_left same⟩
    · exact absurd same.symm (append_ne_groupWord inOther endsOther)
  · rcases isWordOther with rfl | ⟨_, inOther⟩
    · exact absurd same (append_ne_groupWord inWord ends)
    · have split := run_word inWord ends.stops
      rw [same, run_word inOther endsOther.stops] at split
      obtain ⟨rfl, rfl⟩ := Scan.Split.mk.inj split
      exact ⟨rfl, rfl⟩

/-! ## Lists and strings -/

/-- The space before the first item of a list may be left out. -/
theorem renderAll_append_of_tail {bracket : Bracket} (legible : LegibleAll items)
    (legibleOthers : LegibleAll others)
    (same : (renderAll items).tail ++ bracket.closing :: follow =
      (renderAll others).tail ++ bracket.closing :: after) :
    renderAll items ++ bracket.closing :: follow =
      renderAll others ++ bracket.closing :: after := by
  have first {item : Sexp} {items : List Sexp} {follow after : List Char}
      (legible : LegibleAll (item :: items)) :
      (renderAll (item :: items)).tail ++ follow ≠ bracket.closing :: after := by
    intro equality
    rw [renderAll, List.tail_cons, List.append_assoc] at equality
    exact not_ends_render legible.1 _ (equality ▸ ends_closing bracket after)
  cases items with
  | nil =>
    cases others with
    | nil => exact same
    | cons item others => exact absurd same.symm (first legibleOthers)
  | cons item items =>
    cases others with
    | nil => exact absurd same (first legible)
    | cons other others => exact congrArg (' ' :: ·) same

end Sexp

/-- What comes behind a run of text in a string stops it. -/
theorem SexpPart.stops_renderAll {parts : List SexpPart} (legible : SexpPart.LegibleAll true parts)
    (follow : List Char) : Text.Quoted.Stops (SexpPart.renderAll parts ++ '"' :: follow) := by
  cases parts with
  | nil => exact ⟨'"', follow, rfl, Or.inl rfl⟩
  | cons part parts =>
    cases part with
    | text text => exact absurd legible.1 Bool.noConfusion
    | value value => exact ⟨'\x7b', _, rfl, Or.inr rfl⟩

/-! ## Reading back -/

mutual

/-- What is printed of an expression tells the expression and its end. -/
theorem Sexp.render_append_inj (left right : Sexp) {follow after : List Char}
    (legible : left.Legible) (legibleRight : right.Legible) (ends : Sexp.Ends follow)
    (endsRight : Sexp.Ends after) (same : left.render ++ follow = right.render ++ after) :
    left = right ∧ follow = after := by
  have shapes := Sexp.shape_eq legible legibleRight same
  match left with
  | .word text =>
    cases right with
    | word other =>
      obtain ⟨rfl, rfl⟩ := Sexp.word_append_inj legible legibleRight ends endsRight same
      exact ⟨rfl, rfl⟩
    | _ => contradiction
  | .char value =>
    cases right with
    | char other =>
      rw [Sexp.render, Sexp.render, List.cons_append, List.cons_append, List.append_assoc,
        List.append_assoc] at same
      obtain ⟨rfl, quotes⟩ := Text.Quoted.encodeChar_append_inj (List.cons.inj same).2
      exact ⟨rfl, (List.cons.inj quotes).2⟩
    | _ => contradiction
  | .string parts =>
    cases right with
    | string others =>
      rw [Sexp.render, Sexp.render, List.cons_append, List.cons_append, List.append_assoc,
        List.append_assoc] at same
      obtain ⟨rfl, rfl⟩ :=
        SexpPart.renderAll_append_inj parts others false legible legibleRight (List.cons.inj same).2
      exact ⟨rfl, rfl⟩
    | _ => contradiction
  | .list bracket items =>
    cases right with
    | list other others =>
      obtain rfl := Sexp.Shape.list.inj shapes
      rw [Sexp.render, Sexp.render, List.cons_append, List.cons_append, List.append_assoc,
        List.append_assoc] at same
      obtain ⟨rfl, rfl⟩ := Sexp.renderAll_append_inj items others bracket legible legibleRight
        (Sexp.renderAll_append_of_tail legible legibleRight (List.cons.inj same).2)
      exact ⟨rfl, rfl⟩
    | _ => contradiction

theorem Sexp.renderAll_append_inj (items others : List Sexp) (bracket : Bracket)
    {follow after : List Char} (legible : Sexp.LegibleAll items)
    (legibleOthers : Sexp.LegibleAll others)
    (same : Sexp.renderAll items ++ bracket.closing :: follow =
      Sexp.renderAll others ++ bracket.closing :: after) :
    items = others ∧ follow = after := by
  have notSpace : ' ' ≠ bracket.closing := by cases bracket <;> decide
  match items with
  | [] =>
    cases others with
    | nil => exact ⟨rfl, (List.cons.inj same).2⟩
    | cons other others => exact absurd (List.cons.inj same).1.symm notSpace
  | item :: items =>
    cases others with
    | nil => exact absurd (List.cons.inj same).1 notSpace
    | cons other others =>
      have ends := Sexp.ends_closing bracket
      rw [Sexp.renderAll, Sexp.renderAll, List.cons_append, List.cons_append, List.append_assoc,
        List.append_assoc] at same
      obtain ⟨rfl, later⟩ := item.render_append_inj other legible.1 legibleOthers.1
        (Sexp.ends_renderAll items (ends _)) (Sexp.ends_renderAll others (ends _))
        (List.cons.inj same).2
      obtain ⟨rfl, rfl⟩ :=
        Sexp.renderAll_append_inj items others bracket legible.2 legibleOthers.2 later
      exact ⟨rfl, rfl⟩

theorem SexpPart.renderAll_append_inj (parts others : List SexpPart) (afterText : Bool)
    {follow after : List Char} (legible : SexpPart.LegibleAll afterText parts)
    (legibleOthers : SexpPart.LegibleAll afterText others)
    (same : SexpPart.renderAll parts ++ '"' :: follow = SexpPart.renderAll others ++ '"' :: after) :
    parts = others ∧ follow = after := by
  have quoteStops (follow : List Char) : Text.Quoted.Stops ('"' :: follow) :=
    ⟨'"', follow, rfl, Or.inl rfl⟩
  have braceStops (follow : List Char) : Text.Quoted.Stops ('\x7b' :: follow) :=
    ⟨'\x7b', follow, rfl, Or.inr rfl⟩
  match parts with
  | [] =>
    match others with
    | [] => exact ⟨rfl, (List.cons.inj same).2⟩
    | .text other :: others =>
      obtain ⟨_, nonempty, noBrace, _⟩ := legibleOthers
      rw [SexpPart.renderAll, SexpPart.renderAll, List.append_assoc] at same
      exact absurd same.symm (Text.Quoted.inside_append_ne nonempty noBrace (quoteStops follow))
    | .value value :: others => exact absurd (List.cons.inj same).1 (by decide)
  | .text text :: parts =>
    obtain ⟨_, nonempty, noBrace, legible⟩ := legible
    rw [SexpPart.renderAll, List.append_assoc] at same
    match others with
    | [] =>
      exact absurd same (Text.Quoted.inside_append_ne nonempty noBrace (quoteStops after))
    | .text other :: others =>
      obtain ⟨_, nonemptyOther, noBraceOther, legibleOthers⟩ := legibleOthers
      rw [SexpPart.renderAll, List.append_assoc] at same
      obtain ⟨rfl, later⟩ := Text.Quoted.inside_append_inj nonempty nonemptyOther noBrace
        noBraceOther (SexpPart.stops_renderAll legible _)
        (SexpPart.stops_renderAll legibleOthers _) same
      obtain ⟨rfl, rfl⟩ :=
        SexpPart.renderAll_append_inj parts others true legible legibleOthers later
      exact ⟨rfl, rfl⟩
    | .value value :: others =>
      exact absurd same (Text.Quoted.inside_append_ne nonempty noBrace (braceStops _))
  | .value value :: parts =>
    match others with
    | [] => exact absurd (List.cons.inj same).1 (by decide)
    | .text other :: others =>
      obtain ⟨_, nonempty, noBrace, _⟩ := legibleOthers
      rw [SexpPart.renderAll, SexpPart.renderAll, List.append_assoc] at same
      exact absurd same.symm (Text.Quoted.inside_append_ne nonempty noBrace (braceStops _))
    | .value other :: others =>
      rw [SexpPart.renderAll, SexpPart.renderAll, List.cons_append, List.cons_append,
        List.append_assoc, List.append_assoc] at same
      obtain ⟨rfl, later⟩ := value.render_append_inj other legible.1 legibleOthers.1
        (Sexp.ends_closing .curly _) (Sexp.ends_closing .curly _) (List.cons.inj same).2
      obtain ⟨rfl, rfl⟩ := SexpPart.renderAll_append_inj parts others false legible.2
        legibleOthers.2 (List.cons.inj later).2
      exact ⟨rfl, rfl⟩

end

/-- What is printed of expressions on lines tells the expressions. -/
theorem Sexp.renderLines_inj {items others : List Sexp} (legible : Sexp.LegibleAll items)
    (legibleOthers : Sexp.LegibleAll others)
    (same : Sexp.renderLines items = Sexp.renderLines others) : items = others := by
  have nonempty (item : Sexp) (items : List Sexp) :
      [] ≠ item.render ++ '\n' :: Sexp.renderLines items :=
    (List.append_ne_nil_of_right_ne_nil _ (List.cons_ne_nil _ _)).symm
  induction items generalizing others with
  | nil =>
    cases others with
    | nil => rfl
    | cons other others => exact absurd same (nonempty other others)
  | cons item items inductionHypothesis =>
    cases others with
    | nil => exact absurd same.symm (nonempty item items)
    | cons other others =>
      obtain ⟨rfl, later⟩ := item.render_append_inj other legible.1 legibleOthers.1
        ⟨'\n', _, rfl, rfl⟩ ⟨'\n', _, rfl, rfl⟩ same
      rw [inductionHypothesis legible.2 legibleOthers.2 (List.cons.inj later).2]

end Offside
