import Offside.Scan.Split
import Offside.Token.Kind

/-!
Words and symbols.
-/

namespace Offside.Scan

/-- A name: a character that may start one, and all that continue it. -/
def name? : List Char → Option Split
  | c :: rest =>
    if Text.isNameStart c then some ((run Text.isNameContinue rest).after [c]) else none
  | [] => none

def word? (input : List Char) : Option (Scanned Kind) :=
  (name? input).map fun split => { split with value := Kind.ofWord (String.ofList split.text) }

/-- The rest of `input` after the given characters, if it starts with them. -/
def strip? : List Char → List Char → Option (List Char)
  | [], input => some input
  | c :: characters, first :: input => if c = first then strip? characters input else none
  | _ :: _, [] => none

/-- The longest symbol at the start of a text: those of two characters are tried first. -/
def symbol? (input : List Char) : Option (Scanned Symbol) :=
  Symbol.all.findSome? fun symbol =>
    (strip? symbol.characters input).map fun rest => ⟨⟨symbol.characters, rest⟩, symbol⟩

theorem takes_of_name? {input : List Char} {split : Split} (found : name? input = some split) :
    split.Takes input := by
  unfold name? at found
  split at found
  · split at found
    · simp at found; subst found
      exact ⟨by simp [Split.after], Split.of_after _ (of_run _ _)⟩
    · simp at found
  · simp at found

theorem takes_of_word? {input : List Char} {scanned : Scanned Kind}
    (found : word? input = some scanned) : scanned.toSplit.Takes input := by
  obtain ⟨split, splitFound, rfl⟩ := Option.map_eq_some_iff.mp found
  exact takes_of_name? splitFound

theorem append_of_strip? {characters input rest : List Char}
    (found : strip? characters input = some rest) : characters ++ rest = input := by
  induction characters generalizing input with
  | nil => simpa [strip?] using found.symm
  | cons c characters inductionHypothesis =>
    cases input with
    | nil => simp [strip?] at found
    | cons first input =>
      rw [strip?] at found
      split at found
      next same => subst same; simp [inductionHypothesis found]
      next => simp at found

theorem strip?_append (characters rest : List Char) :
    strip? characters (characters ++ rest) = some rest := by
  induction characters with
  | nil => rfl
  | cons c characters inductionHypothesis => simpa [strip?] using inductionHypothesis

theorem takes_of_symbol? {input : List Char} {scanned : Scanned Symbol}
    (found : symbol? input = some scanned) : scanned.toSplit.Takes input := by
  obtain ⟨symbol, _, symbolFound⟩ := List.exists_of_findSome?_eq_some found
  obtain ⟨rest, stripped, rfl⟩ := Option.map_eq_some_iff.mp symbolFound
  exact ⟨symbol.characters_ne_nil, append_of_strip? stripped⟩

end Offside.Scan
