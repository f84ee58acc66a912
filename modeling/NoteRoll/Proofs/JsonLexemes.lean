import Mathlib.Data.List.TakeWhile
import NoteRoll.Json.Lexeme
import NoteRoll.Json.Printer

/-!
# What is written as a lexeme is read as it was

A lexeme is read from the front of a text, so that it is read back is said for any
rest that may follow it. For a string that is every rest, because it has its closing
quote. A number has no end of its own: what follows it must not continue it, which
is what `Stops` says, and then the number is read as it is read alone.
-/

namespace NoteRoll.Json

/-! ## Blanks -/

theorem skipBlanks_append {front : List Char} (h : ∀ c ∈ front, isBlank c = true)
    (cs : List Char) : skipBlanks (front ++ cs) = skipBlanks cs :=
  List.dropWhile_append_of_pos h

theorem skipBlanks_of_head {c : Char} (h : ¬ isBlank c = true) (cs : List Char) :
    skipBlanks (c :: cs) = c :: cs := List.dropWhile_cons_of_neg h

theorem isBlank_of_mem_newLine (level : Nat) : ∀ c ∈ (newLine level).toList, isBlank c = true := by
  intro c hc
  simp only [newLine, blanks, String.toList_append, String.toList_ofList] at hc
  rcases List.mem_append.1 hc with hc | hc
  · rw [List.mem_singleton.1 hc]
    rfl
  · rw [(List.mem_replicate.1 hc).2]
    rfl

/-! ## Strings -/

theorem hexValue?_hexDigits : ∀ n < 0x20, (hexDigits 4 n).toList.map hexValue? =
    [some 0, some 0, some (n / 16), some (n % 16)] := by
  decide +kernel

/-- Four digits behind `\u` are read as the control character that they stand for. -/
theorem readStringFrom_hexDigits {n : Nat} (h : n < 0x20) (done cs : List Char) :
    readStringFrom .wanted (.hex none 0 0) done ((hexDigits 4 n).toList ++ cs) =
      readStringFrom .wanted .plain (Char.ofNat n :: done) cs := by
  have hvalues := hexValue?_hexDigits n h
  obtain ⟨a, as, hlist, ha, has⟩ := List.map_eq_cons_iff.1 hvalues
  obtain ⟨b, bs, rfl, hb, hbs⟩ := List.map_eq_cons_iff.1 has
  obtain ⟨c, cs', rfl, hc, hcs⟩ := List.map_eq_cons_iff.1 hbs
  obtain ⟨d, ds, rfl, hd, hds⟩ := List.map_eq_cons_iff.1 hcs
  obtain rfl := List.map_eq_nil_iff.1 hds
  have hvalue : 16 * (16 * (16 * (16 * 0 + 0) + 0) + n / 16) + n % 16 = n := by omega
  have hunit : codeUnit .wanted none n = .ok (.inl (Char.ofNat n)) := by
    rw [codeUnit, if_neg (by omega), if_neg (by omega)]
  rw [hlist]
  simp only [List.cons_append, List.nil_append, readStringFrom, ha, hb, hc, hd, Nat.zero_add,
    Nat.lt_irrefl, Nat.reduceAdd, Nat.reduceLT, if_true, if_false, hvalue, hunit]

/-- The characters that a letter or a mark behind a backslash is written for. -/
def lettered : List (Char × Char) :=
  [('"', '"'), ('\\', '\\'), ('\x08', 'b'), ('\x0c', 'f'), ('\n', 'n'), ('\r', 'r'), ('\t', 't')]

theorem escaped_of_mem_lettered : ∀ d ∈ lettered,
    escaped d.1 = ['\\', d.2] ∧ d.2 ≠ 'u' ∧ escapeChar? d.2 = some d.1 := by
  decide

theorem escaped_of_not_lettered {c : Char} (h : ∀ d ∈ lettered, c ≠ d.1) :
    escaped c =
      if c.toNat < 0x20 then '\\' :: 'u' :: (hexDigits 4 c.toNat).toList else [c] := by
  simp only [lettered, List.forall_mem_cons] at h
  simp only [escaped, h, if_false]

/-- How a character stands in a string: by a letter that means it, by its code, or as itself. -/
theorem escaped_cases (c : Char) :
    (∃ e, escaped c = ['\\', e] ∧ e ≠ 'u' ∧ escapeChar? e = some c) ∨
    (escaped c = '\\' :: 'u' :: (hexDigits 4 c.toNat).toList ∧ c.toNat < 0x20) ∨
    (escaped c = [c] ∧ c ≠ '"' ∧ c ≠ '\\' ∧ ¬ c.toNat < 0x20) := by
  by_cases hmem : ∀ d ∈ lettered, c ≠ d.1
  · rw [escaped_of_not_lettered hmem]
    split
    · next hcontrol => exact .inr (.inl ⟨rfl, hcontrol⟩)
    · next hplain =>
        exact .inr (.inr ⟨rfl, hmem ('"', '"') (by decide), hmem ('\\', '\\') (by decide), hplain⟩)
  · simp only [not_forall, not_not] at hmem
    obtain ⟨d, hd, rfl⟩ := hmem
    exact .inl ⟨d.2, escaped_of_mem_lettered d hd⟩

/-- A character of a string is read back from however it was written. -/
theorem readStringFrom_escaped (c : Char) (done cs : List Char) :
    readStringFrom .wanted .plain done (escaped c ++ cs) =
      readStringFrom .wanted .plain (c :: done) cs := by
  rcases escaped_cases c with ⟨e, htext, hu, he⟩ | ⟨htext, hcontrol⟩ |
    ⟨htext, hquote, hslash, hplain⟩
  · rw [htext, List.cons_append, List.singleton_append, readStringFrom, if_neg (by decide),
      if_pos rfl, readStringFrom, if_neg hu]
    simp only [he]
  · have hhex := readStringFrom_hexDigits hcontrol done cs
    rw [Char.ofNat_toNat] at hhex
    rw [htext, ← hhex, List.cons_append, List.cons_append, readStringFrom, if_neg (by decide),
      if_pos rfl, readStringFrom, if_pos rfl]
  · rw [htext, List.singleton_append, readStringFrom, if_neg hquote, if_neg hslash,
      if_neg hplain]

theorem readStringFrom_flatMap (cs done rest : List Char) :
    readStringFrom .wanted .plain done (cs.flatMap escaped ++ '"' :: rest) =
      .ok (String.ofList (done.reverse ++ cs), rest) := by
  induction cs generalizing done with
  | nil =>
      rw [List.append_nil, List.flatMap_nil, List.nil_append, readStringFrom, if_pos rfl]
  | cons c cs ih =>
      rw [List.flatMap_cons, List.append_assoc, readStringFrom_escaped, ih,
        List.reverse_cons, List.append_assoc, List.singleton_append]

theorem toList_quoted (s : String) :
    (quoted s).toList = '"' :: (s.toList.flatMap escaped ++ ['"']) := by
  simp only [quoted, String.toList_append, String.toList_ofList]
  rfl

/-- A string is read back, whatever is in it. -/
theorem readString_quoted (s : String) (rest : List Char) :
    ∃ cs, (quoted s).toList ++ rest = '"' :: cs ∧ readString .wanted cs = .ok (s, rest) := by
  refine ⟨s.toList.flatMap escaped ++ '"' :: rest, ?_, ?_⟩
  · rw [toList_quoted, List.cons_append, List.append_assoc, List.singleton_append]
  · rw [readString, readStringFrom_flatMap, List.reverse_nil, List.nil_append,
      String.ofList_toList]

/-! ## Numbers -/

/-- What may stand behind a number: nothing that continues it. -/
def Stops (rest : List Char) : Prop :=
  ∀ c ∈ rest.head?, isDigit c = false ∧ c ≠ '.' ∧ c ≠ 'e' ∧ c ≠ 'E'

theorem stops_nil : Stops [] := fun _ h => absurd h (Option.not_mem_none _)

theorem stops_cons {c : Char} (h : isDigit c = false ∧ c ≠ '.' ∧ c ≠ 'e' ∧ c ≠ 'E')
    (cs : List Char) : Stops (c :: cs) := by
  intro d hd
  obtain rfl := Option.some.inj hd
  exact h

section Behind

variable {purpose : Purpose} {cs r rest : List Char}

theorem takeWhile_isDigit_append (hrest : Stops rest) (cs : List Char) :
    (cs ++ rest).takeWhile isDigit = cs.takeWhile isDigit ∧
      (cs ++ rest).dropWhile isDigit = cs.dropWhile isDigit ++ rest := by
  induction cs with
  | nil =>
      cases rest with
      | nil => exact ⟨rfl, rfl⟩
      | cons c rest =>
          have hc : ¬ isDigit c = true := Bool.eq_false_iff.1 (hrest c rfl).1
          exact ⟨List.takeWhile_cons_of_neg hc, List.dropWhile_cons_of_neg hc⟩
  | cons c cs ih =>
      by_cases hc : isDigit c = true
      · rw [List.cons_append, List.takeWhile_cons_of_pos hc, List.takeWhile_cons_of_pos hc,
          List.dropWhile_cons_of_pos hc, List.dropWhile_cons_of_pos hc, ih.1, ih.2]
        exact ⟨rfl, rfl⟩
      · rw [List.cons_append, List.takeWhile_cons_of_neg hc, List.takeWhile_cons_of_neg hc,
          List.dropWhile_cons_of_neg hc, List.dropWhile_cons_of_neg hc]
        exact ⟨rfl, rfl⟩

theorem readDigits_append (hrest : Stops rest) {ds : List Char}
    (h : readDigits purpose cs = .ok (ds, r)) :
    readDigits purpose (cs ++ rest) = .ok (ds, r ++ rest) := by
  rw [readDigits] at h ⊢
  rw [(takeWhile_isDigit_append hrest cs).1, (takeWhile_isDigit_append hrest cs).2]
  split at h
  · cases h
  · next hsome =>
      cases h
      rfl

theorem readWhole_append (hrest : Stops rest) {ds : List Char}
    (h : readWhole purpose cs = .ok (ds, r)) :
    readWhole purpose (cs ++ rest) = .ok (ds, r ++ rest) := by
  rw [readWhole] at h ⊢
  split at h
  · cases h
  · next hother =>
      rw [readDigits_append hrest h]
      split
      · next hzero =>
          cases hzero
          exact absurd h (hother _ _ _)
      · rfl

theorem readFraction_of_not_point {c : Char} (h : c ≠ '.') (cs : List Char) :
    readFraction purpose (c :: cs) = .ok (none, c :: cs) := by
  rw [readFraction.eq_def]
  split
  · next heq => exact absurd (List.cons.inj heq).1 h
  · rfl

theorem readFraction_append (hrest : Stops rest) {ds : Option (List Char)}
    (h : readFraction purpose cs = .ok (ds, r)) :
    readFraction purpose (cs ++ rest) = .ok (ds, r ++ rest) := by
  cases cs with
  | nil =>
      cases h
      cases rest with
      | nil => rfl
      | cons c rest => exact readFraction_of_not_point (hrest c rfl).2.1 rest
  | cons c cs =>
      by_cases hc : c = '.'
      · subst hc
        rw [List.cons_append, readFraction] at *
        cases hdigits : readDigits purpose cs with
        | error fault =>
            rw [hdigits] at h
            cases h
        | ok read =>
            rw [hdigits] at h
            cases h
            rw [readDigits_append hrest hdigits]
            rfl
      · rw [readFraction_of_not_point hc] at h
        cases h
        exact readFraction_of_not_point hc (cs ++ rest)

/-- The digits of an exponent, with the sign that was read before them. -/
def readSigned (purpose : Purpose) (negative : Bool) (cs : List Char) : Reading (Option Int) :=
  (readDigits purpose cs).map fun (ds, rest) =>
    (some (if negative then -(digitsValue ds : Int) else digitsValue ds), rest)

theorem readSigned_append (hrest : Stops rest) {negative : Bool} {n : Option Int}
    (h : readSigned purpose negative cs = .ok (n, r)) :
    readSigned purpose negative (cs ++ rest) = .ok (n, r ++ rest) := by
  rw [readSigned] at h ⊢
  cases hdigits : readDigits purpose cs with
  | error fault =>
      rw [hdigits] at h
      cases h
  | ok read =>
      rw [hdigits] at h
      cases h
      rw [readDigits_append hrest hdigits]
      rfl

theorem readExponent_of_not_letter {c : Char} (h : c ≠ 'e' ∧ c ≠ 'E') (cs : List Char) :
    readExponent purpose (c :: cs) = .ok (none, c :: cs) := by
  rw [readExponent.eq_def]
  split
  all_goals first
    | rfl
    | (next heq => exact absurd (List.cons.inj heq).1 h.1)
    | (next heq => exact absurd (List.cons.inj heq).1 h.2)

theorem readExponent_minus {c : Char} (h : c = 'e' ∨ c = 'E') (cs : List Char) :
    readExponent purpose (c :: '-' :: cs) = readSigned purpose true cs := by
  rcases h with rfl | rfl <;> rfl

theorem readExponent_plus {c : Char} (h : c = 'e' ∨ c = 'E') (cs : List Char) :
    readExponent purpose (c :: '+' :: cs) = readSigned purpose false cs := by
  rcases h with rfl | rfl <;> rfl

theorem readExponent_unsigned {c d : Char} (h : c = 'e' ∨ c = 'E') (hd : d ≠ '-' ∧ d ≠ '+')
    (cs : List Char) :
    readExponent purpose (c :: d :: cs) = readSigned purpose false (d :: cs) := by
  rw [readExponent.eq_def]
  rcases h with rfl | rfl <;> split <;> simp_all [readSigned]

theorem readExponent_append (hrest : Stops rest) {n : Option Int}
    (h : readExponent purpose cs = .ok (n, r)) :
    readExponent purpose (cs ++ rest) = .ok (n, r ++ rest) := by
  cases cs with
  | nil =>
      cases h
      cases rest with
      | nil => rfl
      | cons c rest => exact readExponent_of_not_letter (hrest c rfl).2.2 rest
  | cons c cs =>
      by_cases hletter : c = 'e' ∨ c = 'E'
      · cases cs with
        | nil => rcases hletter with rfl | rfl <;> cases h
        | cons d cs =>
            by_cases hminus : d = '-'
            · subst hminus
              rw [readExponent_minus hletter] at h
              rw [List.cons_append, List.cons_append, readExponent_minus hletter]
              exact readSigned_append hrest h
            · by_cases hplus : d = '+'
              · subst hplus
                rw [readExponent_plus hletter] at h
                rw [List.cons_append, List.cons_append, readExponent_plus hletter]
                exact readSigned_append hrest h
              · rw [readExponent_unsigned hletter ⟨hminus, hplus⟩] at h
                rw [List.cons_append, List.cons_append,
                  readExponent_unsigned hletter ⟨hminus, hplus⟩]
                exact readSigned_append hrest h
      · rw [readExponent_of_not_letter (not_or.1 hletter)] at h
        cases h
        exact readExponent_of_not_letter (not_or.1 hletter) (cs ++ rest)

/-- A number behind its sign. -/
def readUnsigned (purpose : Purpose) (negative : Bool) (cs : List Char) : Reading Literal :=
  match readWhole purpose cs with
  | .error fault => .error fault
  | .ok (whole, cs) =>
    match readFraction purpose cs with
    | .error fault => .error fault
    | .ok (fraction, cs) =>
      match readExponent purpose cs with
      | .error fault => .error fault
      | .ok (exponent, cs) =>
        match fraction, exponent with
        | none, none => .ok (wholeLiteral negative whole, cs)
        | _, _ => .ok (.decimal (decimalOf negative whole (fraction.getD []) (exponent.getD 0)), cs)

/-- The number that its parts make. -/
def literalOf (negative : Bool) (whole : List Char) :
    (fraction : Option (List Char)) → (exponent : Option Int) → Literal
  | none, none => wholeLiteral negative whole
  | fraction, exponent =>
    .decimal (decimalOf negative whole (fraction.getD []) (exponent.getD 0))

/-- A number is read where its parts are read one behind the other. -/
theorem readUnsigned_ok_iff {negative : Bool} {l : Literal} :
    readUnsigned purpose negative cs = .ok (l, r) ↔ ∃ whole cs₁ fraction cs₂ exponent,
      readWhole purpose cs = .ok (whole, cs₁) ∧ readFraction purpose cs₁ = .ok (fraction, cs₂) ∧
      readExponent purpose cs₂ = .ok (exponent, r) ∧
      l = literalOf negative whole fraction exponent := by
  rw [readUnsigned]
  constructor
  · intro h
    split at h
    · cases h
    · next whole cs₁ hwhole =>
        split at h
        · cases h
        · next fraction cs₂ hfraction =>
            split at h
            · cases h
            · next exponent cs₃ hexponent =>
                refine ⟨whole, cs₁, fraction, cs₂, exponent, hwhole, hfraction, ?_⟩
                cases fraction <;> cases exponent <;> cases h <;> exact ⟨hexponent, rfl⟩
  · rintro ⟨whole, cs₁, fraction, cs₂, exponent, hwhole, hfraction, hexponent, rfl⟩
    simp only [hwhole, hfraction, hexponent]
    cases fraction <;> cases exponent <;> rfl

theorem readNumber_minus (cs : List Char) :
    readNumber purpose ('-' :: cs) = readUnsigned purpose true cs := rfl

theorem readNumber_unsigned {c : Char} (h : c ≠ '-') (cs : List Char) :
    readNumber purpose (c :: cs) = readUnsigned purpose false (c :: cs) := by
  have hsign : ∀ cs', c :: cs = '-' :: cs' → False := fun cs' heq => h (List.cons.inj heq).1
  rw [readNumber]
  · rfl
  · exact hsign

/-- A number has a minus sign in front or none. -/
theorem readNumber_ok_iff {x : Literal × List Char} :
    readNumber purpose cs = .ok x ↔
      (∃ ds, cs = '-' :: ds ∧ readUnsigned purpose true ds = .ok x) ∨
        cs.head? ≠ some '-' ∧ readUnsigned purpose false cs = .ok x := by
  cases cs with
  | nil =>
      refine ⟨fun h => .inr ⟨nofun, h⟩, ?_⟩
      rintro (⟨ds, hcs, -⟩ | ⟨-, h⟩)
      · cases hcs
      · exact h
  | cons c cs =>
      by_cases hc : c = '-'
      · subst hc
        refine ⟨fun h => .inl ⟨cs, rfl, h⟩, ?_⟩
        rintro (⟨ds, hcs, h⟩ | ⟨hhead, -⟩)
        · cases hcs
          exact h
        · exact absurd rfl hhead
      · rw [readNumber_unsigned hc]
        refine ⟨fun h => .inr ⟨fun hhead => hc (Option.some.inj hhead), h⟩, ?_⟩
        rintro (⟨ds, hcs, -⟩ | ⟨-, h⟩)
        · exact absurd (List.cons.inj hcs).1 hc
        · exact h

theorem readUnsigned_append (hrest : Stops rest) {negative : Bool} {l : Literal}
    (h : readUnsigned purpose negative cs = .ok (l, r)) :
    readUnsigned purpose negative (cs ++ rest) = .ok (l, r ++ rest) := by
  obtain ⟨whole, cs₁, fraction, cs₂, exponent, hwhole, hfraction, hexponent, rfl⟩ :=
    readUnsigned_ok_iff.1 h
  exact readUnsigned_ok_iff.2 ⟨whole, _, fraction, _, exponent, readWhole_append hrest hwhole,
    readFraction_append hrest hfraction, readExponent_append hrest hexponent, rfl⟩

/-- A number is read with anything behind it that stops it as it is read alone. -/
theorem readNumber_append (hrest : Stops rest) {l : Literal}
    (h : readNumber purpose cs = .ok (l, r)) :
    readNumber purpose (cs ++ rest) = .ok (l, r ++ rest) := by
  rcases readNumber_ok_iff.1 h with ⟨ds, rfl, hread⟩ | ⟨hhead, hread⟩
  · exact readUnsigned_append hrest hread
  · refine readNumber_ok_iff.2 (.inr ⟨?_, readUnsigned_append hrest hread⟩)
    cases cs with
    | nil => cases h
    | cons c cs => exact hhead

end Behind

/-! ### Whole numbers -/

theorem isDigit_of_mem_toDigits {n : Nat} {c : Char} (h : c ∈ Nat.toDigits 10 n) :
    isDigit c = true := by
  have hdigit := Nat.isDigit_of_mem_toDigits (by decide) (by decide) h
  exact hdigit

theorem digitsValue_toDigits (n : Nat) : digitsValue (Nat.toDigits 10 n) = n :=
  Nat.ofDigitChars_ten_toDigits

/-- The digits of a number begin with a zero only where it is zero. -/
theorem toDigits_head (n : Nat) :
    ∃ c cs, Nat.toDigits 10 n = c :: cs ∧ (n ≠ 0 → c ≠ '0') := by
  have hsmall : ∀ m < 10, m ≠ 0 → Nat.digitChar m ≠ '0' := by decide
  induction n using Nat.strongRecOn with
  | ind n ih =>
      by_cases hn : n < 10
      · rw [Nat.toDigits_of_lt_base hn]
        exact ⟨_, [], rfl, hsmall n hn⟩
      · obtain ⟨c, cs, hdigits, hhead⟩ := ih (n / 10) (by omega)
        rw [Nat.toDigits_of_base_le (by decide) (Nat.le_of_not_lt hn), hdigits]
        exact ⟨c, _, rfl, fun _ => hhead (by omega)⟩

theorem readWhole_toDigits (purpose : Purpose) (n : Nat) :
    readWhole purpose (Nat.toDigits 10 n) = .ok (Nat.toDigits 10 n, []) := by
  have hall : ∀ c ∈ Nat.toDigits 10 n, isDigit c = true := fun c => isDigit_of_mem_toDigits
  have htake : (Nat.toDigits 10 n).takeWhile isDigit = Nat.toDigits 10 n :=
    List.takeWhile_eq_self_iff.2 hall
  have hdrop : (Nat.toDigits 10 n).dropWhile isDigit = [] := List.dropWhile_eq_nil_iff.2 hall
  obtain ⟨c, cs, hdigits, hhead⟩ := toDigits_head n
  have hread : readDigits purpose (Nat.toDigits 10 n) = .ok (Nat.toDigits 10 n, []) := by
    rw [readDigits, htake, hdrop, hdigits]
  rw [readWhole, hread]
  split
  · next heq =>
      rw [hdigits] at heq
      cases heq
      have hn : n = 0 := Decidable.byContradiction fun hn => hhead hn rfl
      subst hn
      cases hdigits
  · rfl

theorem readUnsigned_toDigits (purpose : Purpose) (negative : Bool) (n : Nat) :
    readUnsigned purpose negative (Nat.toDigits 10 n) =
      .ok (wholeLiteral negative (Nat.toDigits 10 n), []) := by
  rw [readUnsigned, readWhole_toDigits]
  rfl

/-- A whole number of at most 64 bits is read back. -/
theorem readNumber_toString (purpose : Purpose) {n : Int} (hlo : -9223372036854775808 ≤ n)
    (hhi : n ≤ 18446744073709551615) :
    readNumber purpose (toString n).toList = .ok (.integer n, []) := by
  cases n with
  | ofNat m =>
      have htext : (toString (Int.ofNat m)).toList = Nat.toDigits 10 m := Nat.toList_repr
      obtain ⟨c, cs, hdigits, -⟩ := toDigits_head m
      have hc : c ≠ '-' := by
        rintro rfl
        have hminus : isDigit '-' = true :=
          isDigit_of_mem_toDigits (n := m) (hdigits ▸ List.mem_cons_self)
        cases hminus
      rw [htext, hdigits, readNumber_unsigned hc, ← hdigits, readUnsigned_toDigits, wholeLiteral,
        digitsValue_toDigits, if_neg (by simp), if_pos ⟨rfl, Int.ofNat_le.1 hhi⟩]
      rfl
  | negSucc m =>
      have htext : (toString (Int.negSucc m)).toList = '-' :: Nat.toDigits 10 (m + 1) := by
        show ("-" ++ Nat.repr (m + 1)).toList = _
        rw [String.toList_append, Nat.toList_repr]
        rfl
      rw [htext, readNumber_minus, readUnsigned_toDigits, wholeLiteral, digitsValue_toDigits,
        if_pos ⟨rfl, by omega, by omega⟩]
      rfl

end NoteRoll.Json
