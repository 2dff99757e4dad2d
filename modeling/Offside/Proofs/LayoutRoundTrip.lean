import Offside.Proofs.Lexer.OutlineLines
import Offside.Proofs.Parser.ReadOutline

/-!
Statements are read back as they were laid out.
-/

namespace Offside

open Lexeme

/-- The lines of statements are read as these statements, however far the lines inside of them are
indented, and nothing is reported. A width is counted in a word of 64 bits, which is enough for any
text that fits into memory. -/
theorem parse_outlines (settings : Settings) {outlines : List Outline}
    (fits : Outline.FitAll 0 outlines)
    (short : (Outline.text outlines).length < Layout.widthCount) :
    ∃ file, parse settings false (Outline.text outlines) = ⟨some file, []⟩ ∧
      file.erase = ⟨Outline.statements outlines, ()⟩ := by
  obtain ⟨tokens, same, items⟩ := Outline.items_text fits short settings.tabWidth
  refine parse_of_reads items fun sees => ?_
  rw [same] at sees
  exact Outline.readsAll outlines fits (Or.inr rfl) sees

/-- A block with a switch in it, one arm of which is a block, between two lines without
indentation. -/
def Outline.nested : List Outline :=
  let name (text : String) (isIdentifier : IsIdentifier text) : Name := ⟨text, isIdentifier⟩
  let a := name "a" ⟨by decide +kernel, by decide⟩
  let b := name "b" ⟨by decide +kernel, by decide⟩
  [.name a,
    .block 2 [.switch a [b] 5 [.throw a b, .block b 6 [.empty, .name a]], .name b],
    .empty]

theorem parse_outlines_nested :
    Outline.FitAll 0 Outline.nested ∧
      Outline.text Outline.nested =
        "a\n  switch a , b :\n     a -> throw b\n     b ->\n      ;\n      a\n  b\n;\n".toList ∧
      ∃ file, parse {} false (Outline.text Outline.nested) = ⟨some file, []⟩ ∧
        file.erase = ⟨Outline.statements Outline.nested, ()⟩ := by
  have fits : Outline.FitAll 0 Outline.nested := by
    simp [Outline.nested, Outline.FitAll, Outline.Fits, OutlineArm.FitAll, OutlineArm.Fits,
      Outline.startsBlock, Outline.allows, Outline.isBlock]
  have text : Outline.text Outline.nested =
      "a\n  switch a , b :\n     a -> throw b\n     b ->\n      ;\n      a\n  b\n;\n".toList := by
    decide
  have short : (Outline.text Outline.nested).length < Layout.widthCount := by
    rw [text]
    decide
  exact ⟨fits, text, parse_outlines {} fits short⟩

end Offside
