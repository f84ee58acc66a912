import NoteRoll.Proofs.JsonLayouts
import NoteRoll.Proofs.WholeNumbers

/-!
# Numbers that keep their kind

A number of a value is whole or a decimal, and a field may take the one and reject the
other. Its text keeps them apart: a decimal is written with a point or with an exponent,
always, and what is read as a whole number has neither. So a whole number of 64 bits is
legible without more ado, and a decimal is if its digits are read as the number that
they are.
-/

namespace NoteRoll

namespace Decimal

theorem mem_positional (digits : String) (point : Int) :
    '.' ∈ (positional digits point true).toList := by
  simp only [positional]
  split
  · simp
  · split <;> simp [pointed]

theorem mem_scientific (digits : String) (point : Int) (plus : String) :
    'e' ∈ (scientific digits point plus).toList := by
  simp [scientific]

/-- The stored text of a decimal shows that it is one. -/
theorem mem_stored (d : Decimal) (plus : String) :
    '.' ∈ (d.stored plus).toList ∨ 'e' ∈ (d.stored plus).toList := by
  simp only [stored, String.toList_append, List.mem_append]
  split
  · exact .inl (.inr (by decide))
  · split
    · exact .inl (.inr (mem_positional _ _))
    · exact .inr (.inr (mem_scientific _ _ _))

end Decimal

namespace Json

variable {purpose : Purpose} {cs r : List Char}

theorem readWhole_ok {ds : List Char} (h : readWhole purpose cs = .ok (ds, r)) :
    r = cs.dropWhile isDigit := by
  have hdigits : readDigits purpose cs = .ok (ds, r) := by
    rw [readWhole] at h
    split at h
    · cases h
    · exact h
  rw [readDigits] at hdigits
  split at hdigits <;> cases hdigits
  rfl

theorem readFraction_none (h : readFraction purpose cs = .ok (none, r)) : r = cs := by
  rw [readFraction.eq_def] at h
  split at h
  · next cs' =>
      cases hdigits : readDigits purpose cs' with
      | error fault =>
          rw [hdigits] at h
          cases h
      | ok read =>
          rw [hdigits] at h
          cases h
  · cases h
    rfl

theorem readSigned_ne_none {negative : Bool} (h : readSigned purpose negative cs = .ok (none, r)) :
    False := by
  rw [readSigned] at h
  cases hdigits : readDigits purpose cs with
  | error fault =>
      rw [hdigits] at h
      cases h
  | ok read =>
      rw [hdigits] at h
      cases h

theorem readExponent_none (h : readExponent purpose cs = .ok (none, r)) : r = cs := by
  rw [readExponent.eq_def] at h
  split at h
  all_goals first
    | exact (readSigned_ne_none h).elim
    | (cases h
       rfl)

/-- What is read as a whole number to its end is digits. -/
theorem isDigit_of_readUnsigned {negative : Bool} {n : Int}
    (h : readUnsigned purpose negative cs = .ok (.integer n, [])) : ∀ c ∈ cs, isDigit c = true := by
  obtain ⟨whole, cs₁, fraction, cs₂, exponent, hwhole, hfraction, hexponent, hliteral⟩ :=
    readUnsigned_ok_iff.1 h
  cases fraction with
  | some ds => cases exponent <;> cases hliteral
  | none =>
      cases exponent with
      | some e => cases hliteral
      | none =>
          rw [← readExponent_none hexponent] at hfraction
          rw [← readFraction_none hfraction] at hwhole
          exact List.dropWhile_eq_nil_iff.1 (readWhole_ok hwhole).symm

theorem isDigit_of_readNumber {n : Int} (h : readNumber purpose cs = .ok (.integer n, [])) :
    ∀ c ∈ cs, c = '-' ∨ isDigit c = true := by
  rcases readNumber_ok_iff.1 h with ⟨ds, rfl, hread⟩ | ⟨-, hread⟩
  · exact List.forall_mem_cons.2
      ⟨.inl rfl, fun c hmem => .inr (isDigit_of_readUnsigned hread c hmem)⟩
  · exact fun c hmem => .inr (isDigit_of_readUnsigned hread c hmem)

namespace Literal

/-- The text of a decimal is never read as a whole number. -/
theorem decimal_of_read {d : Decimal} {l : Literal}
    (h : readNumber .wanted (Literal.decimal d).text.toList = .ok (l, [])) :
    ∃ d', l = .decimal d' := by
  cases l with
  | decimal d' => exact ⟨d', rfl⟩
  | integer n =>
      have hdigit := isDigit_of_readNumber h
      rcases d.mem_stored "+" with hmem | hmem
      · exact absurd (hdigit '.' hmem) (by decide)
      · exact absurd (hdigit 'e' hmem) (by decide)

/-- A whole number of 64 bits, with a sign or without; or a decimal that is in range and
whose text is read as the number that the decimal is. -/
def RoundTrips : Literal → Prop
  | .integer n => -9223372036854775808 ≤ n ∧ n ≤ 18446744073709551615
  | .decimal d => ∃ l x, readNumber .wanted (Literal.decimal d).text.toList = .ok (l, []) ∧
      l.value? = some x ∧ ((Literal.decimal d).value? : Option Float) = some x

/-- Whether the text of a decimal is read as the number that the decimal is. -/
def isReadAlike (d : Decimal) : Bool :=
  match readNumber .wanted (Literal.decimal d).text.toList with
  | .ok (l, []) =>
    let x : Option Float := l.value?
    x.isSome && decide (x = (Literal.decimal d).value?)
  | _ => false

theorem isReadAlike_iff {d : Decimal} : isReadAlike d = true ↔ (Literal.decimal d).RoundTrips := by
  rw [isReadAlike, RoundTrips]
  constructor
  · intro h
    split at h
    · next l hread =>
        simp only [Bool.and_eq_true, decide_eq_true_eq] at h
        obtain ⟨x, hx⟩ := Option.isSome_iff_exists.1 h.1
        exact ⟨l, x, hread, hx, h.2 ▸ hx⟩
    · cases h
  · rintro ⟨l, x, hread, hx, hd⟩
    simp only [hread, hx, hd, Option.isSome_some, decide_true, Bool.and_self]

instance instDecidableRoundTrips : DecidablePred RoundTrips
  | .integer _ => inferInstanceAs (Decidable (_ ∧ _))
  | .decimal _ => decidable_of_iff _ isReadAlike_iff

theorem RoundTrips.legible {l : Literal} (h : l.RoundTrips) : l.Legible Float := by
  cases l with
  | integer n =>
      have hvalue : ((Literal.integer n).value? : Option Float).isSome = true :=
        value?_integer (by rw [RoundTrips] at h; omega)
      exact ⟨.integer n, readNumber_toString .wanted h.1 h.2, rfl, hvalue, fun _ => Iff.rfl⟩
  | decimal d =>
      obtain ⟨l, x, hread, hx, hd⟩ := h
      obtain ⟨d', rfl⟩ := decimal_of_read hread
      exact ⟨.decimal d', hread, hx.trans hd.symm, by rw [hd]; rfl, fun n => by simp⟩

end Literal

end Json

end NoteRoll
