/-!
Slices of a text by byte offsets of its UTF-8 form. A slice exists only if both ends fall
between characters.
-/

namespace Offside.Text

/-- What is left of `text` after its first `count` bytes, if they end between characters. -/
def dropBytes? : Nat → List Char → Option (List Char)
  | 0, text => some text
  | _ + 1, [] => none
  | count + 1, c :: text =>
    if c.utf8Size ≤ count + 1 then dropBytes? (count + 1 - c.utf8Size) text else none

/-- The first `count` bytes of `text`, if they end between characters. -/
def takeBytes? : Nat → List Char → Option (List Char)
  | 0, _ => some []
  | _ + 1, [] => none
  | count + 1, c :: text =>
    if c.utf8Size ≤ count + 1 then (takeBytes? (count + 1 - c.utf8Size) text).map (c :: ·)
    else none

/-- The part of `text` between two byte offsets. -/
def slice? (text : List Char) (first last : Nat) : Option (List Char) :=
  if first ≤ last then (dropBytes? first text).bind (takeBytes? (last - first)) else none

def byteLength : List Char → Nat
  | [] => 0
  | c :: text => c.utf8Size + byteLength text

theorem dropBytes?_byteLength_append (left right : List Char) :
    dropBytes? (byteLength left) (left ++ right) = some right := by
  induction left with
  | nil => simp [byteLength, dropBytes?]
  | cons c left inductionHypothesis =>
    obtain ⟨size, sizeEquality⟩ : ∃ size, c.utf8Size = size + 1 :=
      ⟨c.utf8Size - 1, by have := c.utf8Size_pos; omega⟩
    have total : byteLength (c :: left) = byteLength left + size + 1 := by
      simp [byteLength, sizeEquality]; omega
    rw [total, List.cons_append, dropBytes?, if_pos (by omega)]
    rw [show byteLength left + size + 1 - c.utf8Size = byteLength left by omega]
    exact inductionHypothesis

theorem takeBytes?_byteLength_append (left right : List Char) :
    takeBytes? (byteLength left) (left ++ right) = some left := by
  induction left with
  | nil => simp [byteLength, takeBytes?]
  | cons c left inductionHypothesis =>
    obtain ⟨size, sizeEquality⟩ : ∃ size, c.utf8Size = size + 1 :=
      ⟨c.utf8Size - 1, by have := c.utf8Size_pos; omega⟩
    have total : byteLength (c :: left) = byteLength left + size + 1 := by
      simp [byteLength, sizeEquality]; omega
    rw [total, List.cons_append, takeBytes?, if_pos (by omega)]
    rw [show byteLength left + size + 1 - c.utf8Size = byteLength left by omega]
    simp [inductionHypothesis]

end Offside.Text
