import Offside.Proofs.Parser.TandemText

/-!
Names of types are hints. They decide whether what is called by a name is read as a cast, an
initializer, a new array or a call, and nothing else: the same statements are read, and the same is
wrong in the others.
-/

namespace Offside

open ParserState

/-- The settings without the names of types. -/
def Settings.unhinted (settings : Settings) : Settings :=
  { settings with typeNames := [] }

namespace Tandem

/-- A text with and without hints. -/
def ofHints (settings : Settings) (cancelled : Bool) (source : List Char) : Tandem where
  left := ⟨settings, cancelled, source⟩
  right := ⟨settings.unhinted, cancelled, source⟩
  spans := Eq
  tells := Eq
  spelled := True
  inStep := True
  hinted := true
  join := Tandem.join_congr
  syntactic := Tandem.syntactic_congr
  types _ := rfl
  lineBreaks := rfl

end Tandem

/-- With hints and without, a text has the same diagnostics, and the tree without hints, if there is
one, is that with hints up to spans once casts, initializers and new arrays are calls. -/
theorem hints_relabel (settings : Settings) (cancelled : Bool) (source : List Char) :
    (parse settings.unhinted cancelled source).diagnostics =
        (parse settings cancelled source).diagnostics ∧
      (parse settings.unhinted cancelled source).file?.map File.erase =
        (parse settings cancelled source).file?.map fun file => file.unhinted.erase := by
  let pair := Tandem.ofHints settings cancelled source
  have answers : pair.Answers := Tandem.answers (.refl (fun _ => rfl) (fun _ => rfl) _)
  obtain ⟨trees, _, diagnostics⟩ := answers
  constructor
  · obtain ⟨reported, reported', same, same', all⟩ := diagnostics trivial
    obtain rfl : reported = reported' := List.forall₂_eq_eq_eq ▸ all
    exact same'.trans same.symm
  · change pair.right.parsed.file?.map _ = pair.left.parsed.file?.map _
    generalize pair.left.parsed.file? = hinted at trees ⊢
    generalize pair.right.parsed.file? = unhinted at trees ⊢
    cases trees with
    | none => rfl
    | some all =>
      have same := (Tandem.statements_same all).1
      simp only [Option.map_some, File.erase, File.unhinted, same]
      rfl

end Offside
