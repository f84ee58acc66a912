import NoteRoll.Proofs.JsonLayouts

/-!
# What is written can be passed over

A record skips the members that it does not know. Reading past a value is looser than
reading it: an escape is four digits whatever they mean, and a number has no range. So
what is read where it is wanted is also read where it is skipped, lexeme by lexeme, and
both stop at the same place.

From there it is an induction over the value. This is the one place where a value is
followed to its leaves without a decoder that says what to expect there.
-/

namespace NoteRoll.Json

open Decoder (number_ahead)

/-! ## Strings -/

/-- Where a reader that only skips stands while the other one is in a phase. It takes the
two halves of a surrogate pair for two characters. -/
def Phase.skipping : Phase → Phase
  | .plain => .plain
  | .escape => .escape
  | .hex _ count value => .hex none count value
  | .afterLead _ => .plain
  | .afterSlash _ => .escape

theorem readStringFrom_skipped {phase : Phase} {done done' cs rest : List Char} {s : String}
    (h : readStringFrom .wanted phase done cs = .ok (s, rest)) :
    ∃ s', readStringFrom .skipped phase.skipping done' cs = .ok (s', rest) := by
  induction cs generalizing phase done done' with
  | nil => cases phase <;> cases h
  | cons c cs ih =>
      cases phase with
      | plain =>
          simp only [Phase.skipping, readStringFrom] at h ⊢
          split at h
          · next hquote =>
              cases h
              exact ⟨_, by rw [if_pos hquote]⟩
          · next hquote =>
              rw [if_neg hquote]
              split at h
              · next hslash =>
                  rw [if_pos hslash]
                  exact ih h
              · next hslash =>
                  rw [if_neg hslash]
                  split at h
                  · cases h
                  · next hcontrol =>
                      rw [if_neg hcontrol]
                      exact ih h
      | escape =>
          simp only [Phase.skipping, readStringFrom] at h ⊢
          split at h
          · next hu =>
              rw [if_pos hu]
              exact ih h
          · next hu =>
              rw [if_neg hu]
              split at h
              · exact ih h
              · cases h
      | hex lead count value =>
          simp only [Phase.skipping, readStringFrom] at h ⊢
          split at h
          · split at h <;> cases h
          · next digit hdigit =>
              split at h
              · next hcount =>
                  rw [if_pos hcount]
                  exact ih h
              · next hcount =>
                  rw [if_neg hcount]
                  split at h
                  · cases h
                  · exact ih h
                  · exact ih h
      | afterLead high =>
          simp only [Phase.skipping, readStringFrom] at h ⊢
          split at h
          · next hslash =>
              subst hslash
              exact ih h
          · cases h
      | afterSlash high =>
          simp only [Phase.skipping, readStringFrom] at h ⊢
          split at h
          · next hu =>
              rw [if_pos hu]
              exact ih h
          · cases h

theorem readString_skipped {cs rest : List Char} {s : String}
    (h : readString .wanted cs = .ok (s, rest)) : ∃ s', readString .skipped cs = .ok (s', rest) :=
  readStringFrom_skipped h

/-! ## Numbers -/

section Numbers

variable {cs r : List Char}

theorem readDigits_skipped {ds : List Char} (h : readDigits .wanted cs = .ok (ds, r)) :
    readDigits .skipped cs = .ok (ds, r) := by
  rw [readDigits] at h ⊢
  split at h
  · cases h
  · exact h

theorem readWhole_skipped {ds : List Char} (h : readWhole .wanted cs = .ok (ds, r)) :
    readWhole .skipped cs = .ok (ds, r) := by
  rw [readWhole] at h ⊢
  split at h
  · cases h
  · next hother =>
      rw [readDigits_skipped h]
      split
      · next hzero =>
          cases hzero
          exact absurd h (hother _ _ _)
      · rfl

theorem readFraction_skipped {ds : Option (List Char)}
    (h : readFraction .wanted cs = .ok (ds, r)) : readFraction .skipped cs = .ok (ds, r) := by
  rw [readFraction.eq_def] at h ⊢
  split at h
  · next cs' =>
      cases hdigits : readDigits .wanted cs' with
      | error fault =>
          rw [hdigits] at h
          cases h
      | ok read =>
          rw [hdigits] at h
          simp only [readDigits_skipped hdigits]
          exact h
  · exact h

theorem readSigned_skipped {negative : Bool} {n : Option Int}
    (h : readSigned .wanted negative cs = .ok (n, r)) :
    readSigned .skipped negative cs = .ok (n, r) := by
  rw [readSigned] at h ⊢
  cases hdigits : readDigits .wanted cs with
  | error fault =>
      rw [hdigits] at h
      cases h
  | ok read =>
      rw [hdigits] at h
      rw [readDigits_skipped hdigits]
      exact h

theorem readExponent_skipped {n : Option Int} (h : readExponent .wanted cs = .ok (n, r)) :
    readExponent .skipped cs = .ok (n, r) := by
  rw [readExponent.eq_def] at h ⊢
  split at h
  all_goals first
    | exact readSigned_skipped h
    | exact h

theorem readUnsigned_skipped {negative : Bool} {l : Literal}
    (h : readUnsigned .wanted negative cs = .ok (l, r)) :
    readUnsigned .skipped negative cs = .ok (l, r) := by
  obtain ⟨whole, cs₁, fraction, cs₂, exponent, hwhole, hfraction, hexponent, rfl⟩ :=
    readUnsigned_ok_iff.1 h
  exact readUnsigned_ok_iff.2 ⟨whole, _, fraction, _, exponent, readWhole_skipped hwhole,
    readFraction_skipped hfraction, readExponent_skipped hexponent, rfl⟩

theorem readNumber_skipped {l : Literal} (h : readNumber .wanted cs = .ok (l, r)) :
    readNumber .skipped cs = .ok (l, r) := by
  rcases readNumber_ok_iff.1 h with ⟨ds, hcs, hread⟩ | ⟨hhead, hread⟩
  · exact readNumber_ok_iff.2 (.inl ⟨ds, hcs, readUnsigned_skipped hread⟩)
  · exact readNumber_ok_iff.2 (.inr ⟨hhead, readUnsigned_skipped hread⟩)

end Numbers

/-! ## Values -/

namespace Layout

variable {α : Type} [NumberText α]

/-- Where a number stands, a reader that skips reads a number. -/
theorem readValue_number {fuel : Nat} {c : Char} {cs cs' : List Char}
    (hskip : skipBlanks cs = c :: cs') (hstart : (c == '-' || isDigit c) = true) :
    readValue α .skipped (fuel + 1) cs =
      (readNumber .skipped (c :: cs')).map fun (l, rest) => (.number l, rest) := by
  simp only [readValue, hskip]
  split
  all_goals first
    | (next heq =>
        obtain ⟨rfl, rfl⟩ := List.cons.inj heq
        simp only [hstart, if_true])
    | (next heq =>
        obtain ⟨rfl, -⟩ := List.cons.inj heq
        cases hstart)
    | (next heq => cases heq)

mutual

/-- What is written can be passed over, by a reader that may descend twice as often as
the text has characters. -/
theorem readValue_spell (y : Layout) : ∀ (v : Json) (level fuel : Nat) {cs rest : List Char},
    v.Legible α → 2 * (y.spell level v).length ≤ fuel + 1 →
    skipBlanks cs = y.spell level v ++ rest → Stops rest →
    ∃ w, readValue α .skipped (fuel + 1) cs = .ok (w, rest)
  | .null, level, fuel, cs, rest, _, _, hskip, _ => by
      rw [spell] at hskip
      simp only [readValue, hskip]
      exact ⟨_, rfl⟩
  | .flag true, level, fuel, cs, rest, _, _, hskip, _ => by
      rw [spell] at hskip
      simp only [readValue, hskip]
      exact ⟨_, rfl⟩
  | .flag false, level, fuel, cs, rest, _, _, hskip, _ => by
      rw [spell] at hskip
      simp only [readValue, hskip]
      exact ⟨_, rfl⟩
  | .number l, level, fuel, cs, rest, hv, _, hskip, hrest => by
      obtain ⟨l', hl⟩ := legible_number.1 hv
      obtain ⟨c, cs', hahead, hstart, hread⟩ := number_ahead hl.read hskip hrest
      rw [readValue_number hahead hstart, readNumber_skipped hread]
      exact ⟨_, rfl⟩
  | .text s, level, fuel, cs, rest, _, _, hskip, _ => by
      obtain ⟨cs', htext, hread⟩ := readString_quoted s rest
      obtain ⟨s', hpassed⟩ := readString_skipped hread
      rw [spell, htext] at hskip
      simp only [readValue, hskip, hpassed]
      exact ⟨_, rfl⟩
  | .list [], level, fuel, cs, rest, _, _, hskip, _ => by
      rw [spell, List.cons_append] at hskip
      simp only [readValue, hskip, skipBlanks_items_nil]
      exact ⟨_, rfl⟩
  | .list (v :: vs), level, fuel, cs, rest, hv, hfuel, hskip, _ => by
      have hvs := legible_list.1 hv
      rw [spell, List.length_cons] at hfuel
      rw [spell, List.cons_append] at hskip
      have hitems := y.skipBlanks_items_cons level (legibleItems_cons.1 hvs).1 vs rest
      obtain ⟨c, cs', htext, hc⟩ := y.spell_head (level + 1) (legibleItems_cons.1 hvs).1
      rw [htext, List.cons_append] at hitems
      have hahead := hitems.trans (skipBlanks_of_head (Bool.eq_false_iff.1 hc.opens.1) _).symm
      obtain ⟨ws, hread⟩ := readItems_spell y (v :: vs) level fuel (List.cons_ne_nil v vs) hvs
        (by omega) hahead.symm
      simp only [readValue, hskip, hitems]
      split
      · next heq => cases heq
      · next heq => exact absurd (List.cons.inj heq).1 hc.opens.2.2.1
      · rw [hread]
        exact ⟨_, rfl⟩
  | .table [], level, fuel, cs, rest, _, _, hskip, _ => by
      rw [spell, List.cons_append] at hskip
      simp only [readValue, hskip, skipBlanks_entries_nil]
      exact ⟨_, rfl⟩
  | .table ((k, v) :: es), level, fuel, cs, rest, hv, hfuel, hskip, _ => by
      have hes := legible_table.1 hv
      rw [spell, List.length_cons] at hfuel
      rw [spell, List.cons_append] at hskip
      obtain ⟨cs', hentries, -⟩ := y.key_ahead level k v es rest
      have hahead := hentries.trans (skipBlanks_of_head (by decide : ¬ isBlank '"' = true) _).symm
      obtain ⟨es', hread⟩ := readEntries_spell y ((k, v) :: es) level fuel (List.cons_ne_nil _ es)
        hes (by omega) hahead.symm
      simp only [readValue, hskip, hentries]
      split
      · next heq => cases heq
      · next heq => cases heq
      · rw [hread]
        exact ⟨_, rfl⟩

theorem readItems_spell (y : Layout) : ∀ (vs : List Json) (level fuel : Nat) {cs rest : List Char},
    vs ≠ [] → LegibleItems α vs → 2 * (y.items true level vs).length < fuel →
    skipBlanks cs = skipBlanks (y.items true level vs ++ rest) →
    ∃ ws, readItems α .skipped fuel cs = .ok (ws, rest)
  | [], _, _, _, _, hne, _, _, _ => absurd rfl hne
  | v :: vs, level, fuel, cs, rest, _, hvs, hfuel, hskip => by
      obtain ⟨hv, hvs⟩ := legibleItems_cons.1 hvs
      rw [y.skipBlanks_items_cons level hv] at hskip
      simp only [items, if_true, List.nil_append, List.length_append] at hfuel
      have hlength := length_lt_items y level vs
      -- One step for the item and one for the value in it, so each character pays for two.
      obtain ⟨fuel, rfl⟩ : ∃ m, fuel = m + 1 + 1 := ⟨fuel - 2, by omega⟩
      obtain ⟨v', hread⟩ := readValue_spell y v (level + 1) fuel hv (by omega) hskip
        (y.stops_items level vs rest)
      rw [readItems, hread]
      cases vs with
      | nil =>
          simp only [skipBlanks_items_nil]
          exact ⟨_, rfl⟩
      | cons w ws =>
          rw [items_comma, List.length_cons] at hfuel
          obtain ⟨ws', hothers⟩ : ∃ ws', readItems α .skipped (fuel + 1)
              (y.items true level (w :: ws) ++ rest) = .ok (ws', rest) :=
            readItems_spell y (w :: ws) level (fuel + 1) (List.cons_ne_nil w ws) hvs (by omega) rfl
          simp only [items_comma, List.cons_append, skipBlanks_comma, hothers]
          exact ⟨_, rfl⟩

theorem readEntries_spell (y : Layout) : ∀ (es : List (String × Json)) (level fuel : Nat)
    {cs rest : List Char}, es ≠ [] → LegibleEntries α es →
    2 * (y.entries true level es).length < fuel →
    skipBlanks cs = skipBlanks (y.entries true level es ++ rest) →
    ∃ es', readEntries α .skipped fuel cs = .ok (es', rest)
  | [], _, _, _, _, hne, _, _, _ => absurd rfl hne
  | (k, v) :: es, level, fuel, cs, rest, _, hes, hfuel, hskip => by
      obtain ⟨hv, hes⟩ := legibleEntries_cons.1 hes
      obtain ⟨cs', hkey, hread⟩ := y.key_ahead level k v es rest
      obtain ⟨k', hpassed⟩ := readString_skipped hread
      rw [hkey] at hskip
      simp only [entries, if_true, List.nil_append, List.length_append, List.length_cons] at hfuel
      have hlength := length_lt_entries y level es
      obtain ⟨fuel, rfl⟩ : ∃ m, fuel = m + 1 + 1 := ⟨fuel - 2, by omega⟩
      have hgap := (y.skipBlanks_gap _).trans (y.skipBlanks_spell (level + 1) hv
        (y.entries false level es ++ rest))
      obtain ⟨v', hvalue⟩ := readValue_spell y v (level + 1) fuel hv (by omega) hgap
        (y.stops_entries level es rest)
      rw [readEntries]
      simp only [hskip, hpassed, skipBlanks_colon, hvalue]
      cases es with
      | nil =>
          simp only [skipBlanks_entries_nil]
          exact ⟨_, rfl⟩
      | cons e es =>
          rw [entries_comma, List.length_cons] at hfuel
          obtain ⟨es', hothers⟩ : ∃ es', readEntries α .skipped (fuel + 1)
              (y.entries true level (e :: es) ++ rest) = .ok (es', rest) :=
            readEntries_spell y (e :: es) level (fuel + 1) (List.cons_ne_nil e es) hes (by omega) rfl
          simp only [entries_comma, List.cons_append, skipBlanks_comma, hothers]
          exact ⟨_, rfl⟩

end

/-- Reading past a value ends where the value ends. -/
theorem skipValue_spell (y : Layout) (level : Nat) {v : Json} (hv : v.Legible α)
    {cs rest : List Char} (hskip : skipBlanks cs = y.spell level v ++ rest) (hrest : Stops rest) :
    skipValue α cs = .ok ((), rest) := by
  have hlength : (y.spell level v ++ rest).length ≤ cs.length := by
    rw [← hskip]
    exact (List.dropWhile_sublist _).length_le
  rw [List.length_append] at hlength
  obtain ⟨w, hread⟩ := readValue_spell y v level (2 * cs.length + 1) hv (by omega) hskip hrest
  rw [skipValue, hread]
  rfl

end Layout

end NoteRoll.Json
