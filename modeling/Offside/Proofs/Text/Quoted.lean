import Offside.Proofs.Scan.Literals
import Offside.Text.Quoted
import Mathlib.Tactic.SplitIfs

/-!
Quoted text as it is read back. Whatever the style, what is written of a character tells the
character and where what follows it starts. So quoted text tells what it is made of, up to where it
stops.
-/

namespace Offside.Text.Quoted

/-- The character that a letter behind a backslash stands for. -/
def escapedBy : Char → Char
  | '0' => '\x00'
  | 't' => '\t'
  | 'r' => '\r'
  | 'n' => '\n'
  | c => c

/-- The character that is written behind a backslash, and what follows it. -/
def decodeEscape? : List Char → Option (Char × List Char)
  | 'u' :: follow => (Scan.bracedChar? follow).map fun braced => (braced.value, braced.rest)
  | c :: follow => some (escapedBy c, follow)
  | [] => none

/-- The first character of quoted text, and what follows it. -/
def decodeChar? : List Char → Option (Char × List Char)
  | c :: follow => if c = '\\' then decodeEscape? follow else some (c, follow)
  | [] => none

theorem decodeChar?_byCode (c : Char) (follow : List Char) :
    decodeChar? (byCode c ++ follow) = some (c, follow) := by
  have written : byCode c ++ follow =
      '\\' :: 'u' :: '\x7b' :: (Nat.toDigits 16 c.toNat ++ '\x7d' :: follow) := by
    simp [byCode]
  rw [written, decodeChar?, if_pos rfl, decodeEscape?, Scan.bracedChar?_escaped]
  rfl

/-- What is written of a character reads back, in every style. -/
theorem decodeChar?_encodeChar (style : Style) (c : Char) (follow : List Char) :
    decodeChar? (encodeChar style c ++ follow) = some (c, follow) := by
  unfold encodeChar
  split_ifs with isNul isTab isReturn isFeed isBackslash isDouble isSingle
  · rw [isNul]
    rfl
  · rw [isTab]
    rfl
  · rw [isReturn]
    rfl
  · rw [isFeed]
    rfl
  · rw [isBackslash]
    rfl
  · rw [of_decide_eq_true (Bool.and_eq_true_iff.mp isDouble).1]
    rfl
  · rw [of_decide_eq_true (Bool.and_eq_true_iff.mp isSingle).1]
    rfl
  · exact decodeChar?_byCode c follow
  · exact if_neg isBackslash
  · exact decodeChar?_byCode c follow

/-- A written character tells the character and its own end. -/
theorem encodeChar_append_inj {style : Style} {c d : Char} {follow after : List Char}
    (same : encodeChar style c ++ follow = encodeChar style d ++ after) :
    c = d ∧ follow = after := by
  have decoded := congrArg decodeChar? same
  rw [decodeChar?_encodeChar, decodeChar?_encodeChar] at decoded
  exact Prod.mk.inj (Option.some.inj decoded)

/-- What is written of a character starts with a backslash or is the character. -/
theorem encodeChar_cases (style : Style) (c : Char) :
    (∃ others, encodeChar style c = '\\' :: others) ∨
      encodeChar style c = [c] ∧ (c = '"' → style.double = false) := by
  unfold encodeChar
  split_ifs with isNul isTab isReturn isFeed isBackslash isDouble isSingle
  all_goals first
    | exact Or.inl ⟨_, rfl⟩
    | exact Or.inr ⟨rfl, fun quote => by simpa [quote] using isDouble⟩

/-! ## The inside of a text -/

/-- Where a run of quoted text stops: at the closing quote or at an opening brace. -/
def Stops (follow : List Char) : Prop :=
  ∃ c rest, follow = c :: rest ∧ (c = '"' ∨ c = '\x7b')

/-- Text that has no opening brace never looks as if it stopped. -/
theorem not_stops_encodeChar {style : Style} {c : Char} (double : style.double = true)
    (noBrace : c ≠ '\x7b') (follow : List Char) : ¬ Stops (encodeChar style c ++ follow) := by
  rintro ⟨first, rest, equality, stops⟩
  rcases encodeChar_cases style c with ⟨others, written⟩ | ⟨written, unquoted⟩
  · rw [written, List.cons_append] at equality
    obtain ⟨rfl, _⟩ := List.cons.inj equality
    exact absurd stops (by decide)
  · rw [written, List.singleton_append] at equality
    obtain ⟨rfl, _⟩ := List.cons.inj equality
    rcases stops with quote | brace
    · exact absurd ((unquoted quote).symm.trans double) Bool.false_ne_true
    · exact noBrace brace

theorem encode_append_inj {style : Style} (double : style.double = true) {text other : List Char}
    {follow after : List Char} (noBrace : '\x7b' ∉ text) (noBraceOther : '\x7b' ∉ other)
    (stops : Stops follow) (stopsOther : Stops after)
    (same : encode style text ++ follow = encode style other ++ after) :
    text = other ∧ follow = after := by
  induction text generalizing other with
  | nil =>
    cases other with
    | nil => exact ⟨rfl, same⟩
    | cons d other =>
      rw [List.mem_cons, not_or] at noBraceOther
      rw [encode, encode, List.flatMap_nil, List.nil_append, List.flatMap_cons,
        List.append_assoc] at same
      exact absurd (same ▸ stops) (not_stops_encodeChar double (Ne.symm noBraceOther.1) _)
  | cons c text inductionHypothesis =>
    rw [List.mem_cons, not_or] at noBrace
    cases other with
    | nil =>
      rw [encode, encode, List.flatMap_nil, List.nil_append, List.flatMap_cons,
        List.append_assoc] at same
      exact absurd (same ▸ stopsOther) (not_stops_encodeChar double (Ne.symm noBrace.1) _)
    | cons d other =>
      rw [List.mem_cons, not_or] at noBraceOther
      rw [encode, encode, List.flatMap_cons, List.flatMap_cons, List.append_assoc,
        List.append_assoc] at same
      obtain ⟨rfl, later⟩ := encodeChar_append_inj same
      obtain ⟨rfl, rfl⟩ := inductionHypothesis noBrace.2 noBraceOther.2 later
      exact ⟨rfl, rfl⟩

/-- The inside of a text tells the text, up to where it stops. -/
theorem inside_append_inj {text other follow after : List Char} (nonempty : text ≠ [])
    (nonemptyOther : other ≠ []) (noBrace : '\x7b' ∉ text) (noBraceOther : '\x7b' ∉ other)
    (stops : Stops follow) (stopsOther : Stops after)
    (same : inside text ++ follow = inside other ++ after) : text = other ∧ follow = after := by
  obtain ⟨c, text, rfl⟩ := List.exists_cons_of_ne_nil nonempty
  obtain ⟨d, other, rfl⟩ := List.exists_cons_of_ne_nil nonemptyOther
  rw [List.mem_cons, not_or] at noBrace noBraceOther
  rw [inside, inside, List.append_assoc, List.append_assoc] at same
  obtain ⟨rfl, later⟩ := encodeChar_append_inj same
  obtain ⟨rfl, rfl⟩ :=
    encode_append_inj rfl noBrace.2 noBraceOther.2 stops stopsOther later
  exact ⟨rfl, rfl⟩

/-- What is written inside of a text does not look as if it stopped. -/
theorem inside_append_ne {text follow after : List Char} (nonempty : text ≠ [])
    (noBrace : '\x7b' ∉ text) (stops : Stops after) : inside text ++ follow ≠ after := by
  rintro rfl
  obtain ⟨c, text, rfl⟩ := List.exists_cons_of_ne_nil nonempty
  rw [List.mem_cons, not_or] at noBrace
  rw [inside, List.append_assoc] at stops
  exact not_stops_encodeChar rfl (Ne.symm noBrace.1) _ stops

end Offside.Text.Quoted
