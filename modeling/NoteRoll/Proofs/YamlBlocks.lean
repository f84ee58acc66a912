import Mathlib.Data.List.TakeWhile
import NoteRoll.Proofs.YamlScalars

/-!
# Literal blocks are read as they were written

The lines of a literal block are its text, but for their indentation. A text may begin with
blanks, and then its indentation is given in front because it cannot be seen. It may end with
any number of line breaks, of which the reader drops all, all but one or none, as the mark in
front says.

The reader goes line by line and keeps the last character first. `BlockText.Holds` says what
it has when a part of the text is read: the line breaks at the end of that part on one side,
and all before them on the other. What becomes of the end can be seen from these alone.
-/

namespace NoteRoll.Yaml

/-! ## Indentation -/

section Indentation

variable {indent : Nat} {breaks : List Char} {widest : Nat} {p : Place}

theorem skipIndentation_blanks {n : Nat} (h : indent = 0 ∨ p.column + n ≤ indent)
    (cs : List Char) :
    skipIndentation indent breaks widest p (List.replicate n ' ' ++ cs) =
      skipIndentation indent breaks widest (p.afterAll (List.replicate n ' ')) cs := by
  induction n generalizing p with
  | zero => rfl
  | succ n ih =>
      have hcol := p.column_after (c := ' ') rfl
      have hwithin : (decide (indent = 0) || decide (p.column < indent)) = true := by
        rw [Bool.or_eq_true, decide_eq_true_iff, decide_eq_true_iff]
        omega
      rw [List.replicate_succ, List.cons_append, skipIndentation, hwithin, Place.afterAll_cons]
      exact ih (by omega)

theorem skipIndentation_break {c : Char} (hc : isBreak c = true) (cs : List Char) :
    skipIndentation indent breaks widest p (c :: cs) =
      skipIndentation indent (c :: breaks) (max widest p.column) (p.after c) cs := by
  have hblank : (c == ' ') = false ∧ (c == '\t') = false := by
    simp only [isBreak, Bool.or_eq_true, beq_iff_eq] at hc
    rcases hc with (rfl | rfl) | rfl <;> decide
  rw [skipIndentation, hblank.1, hblank.2, hc]
  rfl

theorem skipIndentation_stop {c : Char} (hbreak : isBreak c = false)
    (hblank : isBlank c = true → indent ≠ 0 ∧ indent ≤ p.column) (cs : List Char) :
    skipIndentation indent breaks widest p (c :: cs) =
      some (breaks, max widest p.column, ⟨p, c :: cs⟩) := by
  have hwithin : isBlank c = true →
      (decide (indent = 0) || decide (p.column < indent)) = false := fun h => by
    obtain ⟨hzero, hle⟩ := hblank h
    simp [hzero, hle]
  have hspace : ((c == ' ') && (decide (indent = 0) || decide (p.column < indent))) = false := by
    rw [Bool.and_eq_false_imp]
    exact fun h => hwithin (by rw [isBlank, h, Bool.true_or])
  have htab : ((c == '\t') && (decide (indent = 0) || decide (p.column < indent))) = false := by
    rw [Bool.and_eq_false_imp]
    exact fun h => hwithin (by rw [isBlank, h, Bool.or_true])
  rw [skipIndentation]
  simp only [hspace, htab, hbreak, Bool.false_eq_true, if_false]

theorem skipIndentation_resumes {next : List Char} (h : Resumes next) :
    skipIndentation indent breaks widest p next =
      some (breaks, max widest p.column, ⟨p, next⟩) := by
  cases next with
  | nil => rfl
  | cons c cs =>
      obtain ⟨hblank, hbreak, -⟩ := h c rfl
      exact skipIndentation_stop hbreak (fun hc => by rw [hblank] at hc; cases hc) cs

end Indentation

/-! ## Lines -/

theorem indentLines_append_lineBreak (level : Nat) (atStart : Bool) (cs : List Char) :
    indentLines level atStart (cs ++ ['\n']) = indentLines level atStart cs ++ ['\n'] := by
  induction cs generalizing atStart with
  | nil => rfl
  | cons c cs ih =>
      rw [List.cons_append, indentLines, indentLines]
      split
      · rw [ih, List.cons_append]
      · rw [ih, List.append_assoc, List.cons_append]

theorem indentLines_line (level : Nat) {line : List Char} (h : ∀ c ∈ line, isBreak c = false)
    {c : Char} (hc : isBreak c = true) (cs : List Char) :
    indentLines level false (line ++ c :: cs) = line ++ c :: indentLines level true cs := by
  induction line with
  | nil => rw [List.nil_append, indentLines, if_pos hc, List.nil_append]
  | cons d line ih =>
      obtain ⟨hd, hline⟩ := List.forall_mem_cons.1 h
      rw [List.cons_append, indentLines, hd, if_neg Bool.false_ne_true, ih hline]
      rfl

theorem indentLines_start (level : Nat) {c : Char} (hc : isBreak c = false) (cs : List Char) :
    indentLines level true (c :: cs) =
      List.replicate (2 * level) ' ' ++ indentLines level false (c :: cs) := by
  rw [indentLines, indentLines, hc, if_neg Bool.false_ne_true, if_neg Bool.false_ne_true,
    if_pos rfl, toList_indentation]
  rfl

/-- Where the reader is at the lines of a text: behind the indentation of the first one, or
behind the blanks of what follows where no line is left. -/
def AtLines (level k : Nat) (next lines : List Char) (x : Cursor) : Prop :=
  (lines = [] ∧ x.rest = next ∧ x.place.column = k) ∨
    ((∃ c ∈ lines.head?, isBreak c = false) ∧ x.place.column = 2 * level ∧
      x.rest = indentLines level false lines ++ (List.replicate k ' ' ++ next))

theorem length_le_indentLines (level : Nat) (atStart : Bool) (cs : List Char) :
    cs.length ≤ (indentLines level atStart cs).length := by
  induction cs generalizing atStart with
  | nil => exact Nat.zero_le _
  | cons c cs ih =>
      rw [indentLines]
      split
      · exact Nat.succ_le_succ (ih true)
      · rw [List.length_append, List.length_cons, List.length_cons]
        have := ih false
        omega

theorem AtLines.length_le {level k : Nat} {next lines : List Char} {x : Cursor}
    (h : AtLines level k next lines x) : lines.length ≤ x.rest.length := by
  rcases h with ⟨rfl, -, -⟩ | ⟨-, -, hrest⟩
  · exact Nat.zero_le _
  · rw [hrest, List.length_append]
    exact Nat.le_add_right_of_le (length_le_indentLines level false lines)

section Lines

variable {level k : Nat} {next : List Char}

theorem skipIndentation_lines (hk : k < 2 * level) (hnext : Resumes next)
    {breaks lines : List Char} (hbreaks : ∀ c ∈ breaks, isBreak c = true)
    (hlines : ∀ c ∈ lines.head?, isBreak c = false) (before : List Char) (widest : Nat) {p : Place}
    (hcol : p.column = 0) :
    ∃ widest' x, skipIndentation (2 * level) before widest p
        (indentLines level true (breaks ++ lines) ++ (List.replicate k ' ' ++ next)) =
          some (breaks.reverse ++ before, widest', x) ∧ AtLines level k next lines x := by
  induction breaks generalizing before widest p with
  | nil =>
      rw [List.nil_append]
      cases lines with
      | nil =>
          rw [indentLines, List.nil_append, skipIndentation_blanks (.inr (by omega)),
            skipIndentation_resumes hnext]
          exact ⟨_, _, rfl, .inl ⟨rfl, rfl, by
            rw [Place.column_afterAll_blanks, hcol, Nat.zero_add]⟩⟩
      | cons c cs =>
          have hc := hlines c rfl
          have hwithin : (p.afterAll (List.replicate (2 * level) ' ')).column = 2 * level := by
            rw [Place.column_afterAll_blanks, hcol, Nat.zero_add]
          have hstop : ∀ rest, ∃ widest', skipIndentation (2 * level) before widest
              (p.afterAll (List.replicate (2 * level) ' ')) (c :: rest) =
                some (before, widest', ⟨p.afterAll (List.replicate (2 * level) ' '), c :: rest⟩) :=
            fun rest => ⟨_, skipIndentation_stop hc
              (fun _ => ⟨by omega, Nat.le_of_eq hwithin.symm⟩) rest⟩
          have hhead : indentLines level false (c :: cs) = c :: indentLines level false cs := by
            rw [indentLines, if_neg (by rw [hc]; exact Bool.false_ne_true)]
            rfl
          obtain ⟨widest', hstop⟩ :=
            hstop (indentLines level false cs ++ (List.replicate k ' ' ++ next))
          rw [indentLines_start level hc, List.append_assoc,
            skipIndentation_blanks (.inr (by omega)), hhead, List.cons_append, hstop]
          refine ⟨_, _, rfl, .inr ⟨⟨c, rfl, hc⟩, hwithin, ?_⟩⟩
          rw [hhead, List.cons_append]
  | cons c breaks ih =>
      obtain ⟨hc, hbreaks'⟩ := List.forall_mem_cons.1 hbreaks
      rw [List.cons_append, indentLines, if_pos hc, List.cons_append, skipIndentation_break hc,
        List.reverse_cons, List.append_assoc]
      exact ih hbreaks' _ _ (p.column_after_break hc)

end Lines

/-! ## The text as far as it is read -/

/-- What the reader has of a text, with the last character first: the line breaks at the end, and
what stands before them. -/
structure BlockText.Holds (b : BlockText) (done : List Char) : Prop where
  whole : (b.more ++ b.first.toList) ++ b.done = done
  breaks : ∀ c ∈ b.more ++ b.first.toList, isBreak c = true
  text : ∀ c ∈ b.done.head?, isBreak c = false
  broken : b.done ≠ [] → b.first ≠ none

namespace BlockText.Holds

variable {b : BlockText} {done : List Char}

theorem of_breaks {breaks : List Char} (h : ∀ c ∈ breaks, isBreak c = true) :
    BlockText.Holds { more := breaks } breaks where
  whole := by simp
  breaks := by simpa using h
  text := fun c h => absurd h (Option.not_mem_none c)
  broken := absurd rfl

/-- A further line, with its line break and those of the empty lines behind it. -/
theorem addLine (hb : b.Holds done) {line : List Char} (hline : line ≠ [])
    (hin : ∀ c ∈ line, isBreak c = false) {e : Char} (he : isBreak e = true) {breaks : List Char}
    (hbreaks : ∀ c ∈ breaks, isBreak c = true) :
    BlockText.Holds { b.addLine true line with first := some e, more := breaks }
      (breaks ++ e :: (line.reverse ++ done)) where
  whole := by
    rw [← hb.whole]
    simp [BlockText.addLine]
  breaks := by
    intro c hc
    rcases List.mem_append.1 hc with hc | hc
    · exact hbreaks c hc
    · rwa [List.mem_singleton.1 hc]
  text := by
    intro c hc
    refine hin c (List.mem_reverse.1 ?_)
    have hhead : (line.reverse ++ ((b.more ++ b.first.toList) ++ b.done)).head? =
        line.reverse.head? := List.head?_append_of_ne_nil _ (mt List.reverse_eq_nil_iff.1 hline)
    have hmem : c ∈ (line.reverse ++ ((b.more ++ b.first.toList) ++ b.done)).head? := hc
    rw [hhead] at hmem
    exact List.mem_of_mem_head? hmem
  broken := fun _ => Option.some_ne_none e

/-- What stands before the line breaks at the end is told by the text. -/
theorem unique (hb : b.Holds done) (breaks text : List Char)
    (hbreaks : ∀ c ∈ breaks, isBreak c = true) (htext : ∀ c ∈ text.head?, isBreak c = false)
    (h : done = breaks ++ text) : b.more ++ b.first.toList = breaks ∧ b.done = text := by
  have hsplit : ∀ {breaks text : List Char}, (∀ c ∈ breaks, isBreak c = true) →
      (∀ c ∈ text.head?, isBreak c = false) → (breaks ++ text).takeWhile isBreak = breaks := by
    intro breaks text hbreaks htext
    rw [List.takeWhile_append_of_pos hbreaks]
    cases text with
    | nil => rw [List.takeWhile_nil, List.append_nil]
    | cons c cs =>
        rw [List.takeWhile_cons_of_neg (by rw [htext c rfl]; exact Bool.false_ne_true),
          List.append_nil]
  have hwhole : (b.more ++ b.first.toList) ++ b.done = breaks ++ text := hb.whole.trans h
  have hsame : b.more ++ b.first.toList = breaks := by
    rw [← hsplit hb.breaks hb.text, hwhole, hsplit hbreaks htext]
  rw [hsame] at hwhole
  exact ⟨hsame, List.append_cancel_left hwhole⟩

end BlockText.Holds

section Lines

variable {level k : Nat} {next : List Char}

theorem exists_split (f : Char → Bool) (cs : List Char) :
    ∃ front rest, cs = front ++ rest ∧ (∀ c ∈ front, f c = true) ∧
      ∀ c ∈ rest.head?, f c = false := by
  refine ⟨cs.takeWhile f, cs.dropWhile f, List.takeWhile_append_dropWhile.symm,
    fun c hc => List.mem_takeWhile_imp hc, fun c hc => ?_⟩
  have hhead := List.head?_dropWhile_not f cs
  rw [Option.mem_def.1 hc] at hhead
  simpa using hhead

/-- Lines that end with a line break begin with one that does, and with the empty ones behind it. -/
theorem exists_first_line {lines : List Char} (hhead : ∃ c ∈ lines.head?, isBreak c = false)
    (hend : ∀ c ∈ lines.getLast?, isBreak c = true) :
    ∃ line e breaks rest, lines = line ++ e :: (breaks ++ rest) ∧
      (line ≠ [] ∧ ∀ c ∈ line, isBreak c = false) ∧ isBreak e = true ∧
      (∀ c ∈ breaks, isBreak c = true) ∧ ∀ c ∈ rest.head?, isBreak c = false := by
  obtain ⟨line, more, rfl, hline, hmore⟩ := exists_split (!isBreak ·) lines
  replace hline : ∀ c ∈ line, isBreak c = false := by simpa using hline
  cases more with
  | nil =>
      -- without a line break there is no line that ends with one
      rw [List.append_nil] at hhead hend
      obtain ⟨c, hc, -⟩ := hhead
      have hne : line ≠ [] := List.ne_nil_of_mem (List.mem_of_mem_head? hc)
      have hlast := hend _ (List.getLast?_eq_getLast_of_ne_nil hne)
      rw [hline _ (List.getLast_mem hne)] at hlast
      cases hlast
  | cons e more =>
      obtain ⟨breaks, rest, rfl, hbreaks, hrest⟩ := exists_split isBreak more
      have he : isBreak e = true := by simpa using hmore e rfl
      refine ⟨line, e, breaks, rest, rfl, ⟨?_, hline⟩, he, hbreaks, hrest⟩
      rintro rfl
      obtain ⟨c, hc, hcbreak⟩ := hhead
      obtain rfl := Option.some.inj hc
      rw [he] at hcbreak
      cases hcbreak

/-- Each round takes one line, with the empty lines behind it. -/
theorem readBlockLines_lines (hk : k < 2 * level) (hnext : Resumes next) {fuel : Nat}
    {lines done : List Char} (hfuel : lines.length ≤ fuel)
    (hend : ∀ c ∈ lines.getLast?, isBreak c = true) {b : BlockText} (hb : b.Holds done)
    {x : Cursor} (hx : AtLines level k next lines x) :
    ∃ b' q, readBlockLines true (2 * level) fuel b x = some (b', ⟨q, next⟩) ∧
      b'.Holds (lines.reverse ++ done) ∧ q.column = k := by
  induction fuel generalizing lines done b x with
  | zero =>
      obtain rfl := List.length_eq_zero_iff.1 (Nat.le_zero.1 hfuel)
      rcases hx with ⟨-, hrest, hcol⟩ | ⟨⟨c, hc, -⟩, -⟩
      · exact ⟨b, x.place, by rw [readBlockLines, ← hrest], hb, hcol⟩
      · exact absurd hc (Option.not_mem_none c)
  | succ fuel ih =>
      rcases hx with ⟨rfl, hrest, hcol⟩ | ⟨⟨c, hc, hcbreak⟩, hcol, hrest⟩
      · exact ⟨b, x.place, by rw [readBlockLines, if_pos (.inl (by omega)), ← hrest], hb, hcol⟩
      · obtain ⟨line, e, breaks, rest, rfl, ⟨hne, hline⟩, he, hbreaks, hhead⟩ :=
          exists_first_line ⟨c, hc, hcbreak⟩ hend
        obtain ⟨p, cs⟩ := x
        obtain rfl := hrest
        obtain ⟨widest, x, hskip, hx⟩ := skipIndentation_lines hk hnext hbreaks hhead [] 0
          (Place.column_after_break (p.afterAll line) he)
        have hspan := Cursor.span_append (!isBreak ·) line
          (e :: (indentLines level true (breaks ++ rest) ++ (List.replicate k ' ' ++ next)))
          (fun d hd => by simp [hline d hd]) (fun d hd => by simp_all) p
        have hlast : ∀ d ∈ rest.getLast?, isBreak d = true := fun d hd => hend d (by
          rw [← List.cons_append, List.getLast?_append, List.getLast?_append, Option.mem_def.1 hd]
          rfl)
        have hshort : rest.length ≤ fuel := by
          simp at hfuel
          omega
        have hreversed : ∀ d ∈ breaks.reverse, isBreak d = true := by simpa using hbreaks
        obtain ⟨b', q, hread, hb', hq⟩ := ih hshort hlast
          (hb.addLine hne hline he hreversed) hx
        refine ⟨b', q, ?_, ?_, hq⟩
        · rw [readBlockLines, if_neg, indentLines_line level hline he, List.append_assoc,
            List.cons_append]
          · simp only [hspan, Cursor.drop, List.head?_cons]
            rw [hskip, List.append_nil]
            exact hread
          · rintro (h | h)
            · exact h hcol
            · cases line with
              | nil => exact hne rfl
              | cons d line => simp [indentLines, hline d] at h
        · convert hb' using 1
          simp

end Lines

/-! ## The whole block -/

/-- The lines of a text: a last one that is not empty has a line break behind it. -/
def blockLines (cs : List Char) : List Char :=
  if cs.getLast?.any isBreak then cs else cs ++ ['\n']

theorem isBreak_of_mem_getLast?_blockLines {cs : List Char} {c : Char}
    (h : c ∈ (blockLines cs).getLast?) : isBreak c = true := by
  rw [blockLines] at h
  split at h
  · next hlast => simpa [Option.mem_def.1 h] using hlast
  · rw [List.getLast?_concat] at h
    rw [← Option.some.inj h]
    rfl

/-- The mark asks for all line breaks at the end, for one of them or for none, whichever gives the
text. -/
theorem BlockText.Holds.chomped {b : BlockText} {cs : List Char}
    (hb : b.Holds (blockLines cs).reverse) (hcs : cs ≠ []) :
    b.chomped (chomping cs) = String.ofList cs := by
  obtain ⟨r, rfl⟩ : ∃ r, cs = r.reverse := ⟨cs.reverse, cs.reverse_reverse.symm⟩
  have hlines : (blockLines r.reverse).reverse = if r.head?.any isBreak then r else '\n' :: r := by
    rw [blockLines, List.getLast?_reverse]
    split
    · rw [List.reverse_reverse]
    · rw [List.reverse_append, List.reverse_reverse]
      rfl
  rw [hlines] at hb
  rw [chomping, List.reverse_reverse]
  cases r with
  | nil => exact absurd rfl hcs
  | cons c r =>
      cases hc : isBreak c with
      | false =>
          rw [List.head?_cons, Option.any_some, hc, if_neg Bool.false_ne_true] at hb
          obtain ⟨-, hdone⟩ := hb.unique ['\n'] (c :: r)
            (fun d hd => by rw [List.mem_singleton.1 hd]; rfl)
            (fun d hd => by rwa [← Option.some.inj hd]) rfl
          have hstrip : b.chomped .strip = String.ofList (c :: r).reverse := by
            rw [BlockText.chomped, hdone]
          cases r <;> simpa [hc] using hstrip
      | true =>
          rw [List.head?_cons, Option.any_some, hc, if_pos rfl] at hb
          have hkeep : b.chomped .keep = String.ofList (c :: r).reverse := by
            rw [BlockText.chomped, hb.whole]
          cases r with
          | nil => simpa [hc] using hkeep
          | cons d r =>
              cases hd : isBreak d with
              | true => simpa [hc, hd] using hkeep
              | false =>
                  obtain ⟨hbreaks, hdone⟩ := hb.unique [c] (d :: r)
                    (fun e he => by rwa [List.mem_singleton.1 he])
                    (fun e he => by rwa [← Option.some.inj he]) rfl
                  have hclip : b.chomped .clip = String.ofList (c :: d :: r).reverse := by
                    obtain ⟨e, he⟩ := Option.ne_none_iff_exists'.1
                      (hb.broken (by rw [hdone]; exact List.cons_ne_nil d r))
                    rw [he] at hbreaks
                    have hbreaks' : b.more ++ (some e).toList = [] ++ [c] := hbreaks
                    obtain ⟨-, hec⟩ := List.append_inj' hbreaks' rfl
                    rw [BlockText.chomped, hdone, he, hec]
                    rfl
                  simpa [hc, hd] using hclip

theorem endLine?_break (p : Place) (cs : List Char) :
    Cursor.endLine? ⟨p, '\n' :: cs⟩ = some ⟨p.after '\n', cs⟩ := rfl

/-- Whether the first line of a text would hide its indentation. -/
def hidesIndent (cs : List Char) : Bool := cs.head?.any fun c => c == ' ' || isBreak c

/-- What stands between the bar of a literal block and the end of its line. -/
def literalHeader (cs : List Char) : List Char :=
  (if hidesIndent cs then ['2'] else []) ++ (chomping cs).mark

/-- What the header of a literal block says, and how long it is. -/
theorem blockHeader?_literalHeader (cs rest : List Char) :
    blockHeader? (literalHeader cs ++ '\n' :: rest) =
      some (chomping cs, if hidesIndent cs then 2 else 0, (literalHeader cs).length) := by
  rw [literalHeader]
  cases hidesIndent cs <;> cases chomping cs <;> rfl

/-- A literal block is a header and lines, which end in a line break that the text may have
already. -/
theorem literal_tail_append (level : Nat) (cs rest : List Char) :
    (literal level cs).tail ++ ((if cs.getLast?.any isBreak then [] else ['\n']) ++ rest) =
      literalHeader cs ++ '\n' :: (indentLines level true (blockLines cs) ++ rest) := by
  have hlines : indentLines level true (blockLines cs) ++ rest = indentLines level true cs ++
      ((if cs.getLast?.any isBreak then [] else ['\n']) ++ rest) := by
    rw [blockLines]
    split
    · rfl
    · rw [indentLines_append_lineBreak, List.append_assoc]
  rw [hlines, literal, List.tail_cons, literalHeader]
  simp only [hidesIndent, List.append_assoc, List.cons_append]
  rfl

section

variable {level k : Nat} {next : List Char} (hk : k ≤ 2 * level) (hnext : Resumes next)

variable (level k next) in
/-- Where no indentation is given, it is that of a line that does not begin with a blank. -/
theorem skipIndentation_detects {c : Char} (hblank : isBlank c = false) (hbreak : isBreak c = false)
    (cs : List Char) {p : Place} (hcol : p.column = 0) :
    ∃ x, skipIndentation 0 [] 0 p
        (indentLines level true (c :: cs) ++ (List.replicate k ' ' ++ next)) =
          some ([], 2 * level, x) ∧ AtLines level k next (c :: cs) x := by
  have hwithin : (p.afterAll (List.replicate (2 * level) ' ')).column = 2 * level := by
    rw [Place.column_afterAll_blanks, hcol, Nat.zero_add]
  have hhead : indentLines level false (c :: cs) = c :: indentLines level false cs := by
    rw [indentLines, if_neg (by rw [hbreak]; exact Bool.false_ne_true)]
    rfl
  refine ⟨⟨_, indentLines level false (c :: cs) ++ (List.replicate k ' ' ++ next)⟩, ?_,
    .inr ⟨⟨c, rfl, hbreak⟩, hwithin, rfl⟩⟩
  rw [indentLines_start level hbreak, List.append_assoc, skipIndentation_blanks (.inl rfl), hhead,
    List.cons_append, skipIndentation_stop hbreak (fun h => by rw [hblank] at h; cases h), hwithin,
    Nat.zero_max]
  rfl

include hk hnext

/-- The reader comes to the first line that is not empty, and then has the indentation, given or
found. -/
theorem skipIndentation_block {cs : List Char} (hcs : cs ≠ [])
    (hprint : ∀ c ∈ cs, isPrintable c = true) {p : Place} (hcol : p.column = 0) :
    ∃ breaks lines widest x, blockLines cs = breaks ++ lines ∧
      (∀ c ∈ breaks, isBreak c = true) ∧ AtLines (level + 1) k next lines x ∧
      (hidesIndent cs = false → widest = 2 * (level + 1)) ∧
      skipIndentation (if hidesIndent cs then 2 * (level + 1) else 0) [] 0 p
        (indentLines (level + 1) true (blockLines cs) ++ (List.replicate k ' ' ++ next)) =
          some (breaks.reverse, widest, x) := by
  cases hhides : hidesIndent cs with
  | true =>
      obtain ⟨breaks, lines, hsplit, hbreaks, hhead⟩ := exists_split isBreak (blockLines cs)
      have hwithin : k < 2 * (level + 1) := by omega
      obtain ⟨widest, x, hskip, hx⟩ :=
        skipIndentation_lines hwithin hnext hbreaks hhead [] 0 hcol
      refine ⟨breaks, lines, widest, x, hsplit, hbreaks, hx, fun h => (by cases h), ?_⟩
      rw [if_pos rfl, hsplit, hskip, List.append_nil]
  | false =>
      obtain ⟨c, ds, rfl⟩ := List.exists_cons_of_ne_nil hcs
      have hlines : ∃ es, blockLines (c :: ds) = c :: es := by
        rw [blockLines]
        split
        · exact ⟨ds, rfl⟩
        · exact ⟨ds ++ ['\n'], rfl⟩
      obtain ⟨es, hes⟩ := hlines
      obtain ⟨hc, hbreak⟩ : (c == ' ') = false ∧ isBreak c = false := Bool.or_eq_false_iff.1 hhides
      have hblank : isBlank c = false := Bool.eq_false_iff.2 fun h =>
        beq_eq_false_iff_ne.1 hc (eq_blank_of_isPrintable (hprint c List.mem_cons_self) h)
      obtain ⟨x, hskip, hx⟩ := skipIndentation_detects (level + 1) k next hblank hbreak es hcol
      refine ⟨[], c :: es, _, x, hes, List.forall_mem_nil _, hx, fun _ => rfl, ?_⟩
      rw [hes]
      exact hskip

/-- A literal block of a line at a level, up to what stands in the line behind it. -/
theorem readBlockScalar_literal {cs : List Char} (hfits : fitsLiteral cs = true) (p : Place) :
    ∃ q, readBlockScalar true (2 * level + 1) ⟨p, (literal (level + 1) cs).tail ++
        ((if cs.getLast?.any isBreak then [] else ['\n']) ++ (List.replicate k ' ' ++ next))⟩ =
          some (String.ofList cs, ⟨q, next⟩) ∧ q.column = k := by
  simp only [fitsLiteral, Bool.and_eq_true, List.all_eq_true] at hfits
  obtain ⟨⟨⟨hnl, hprint⟩, -⟩, -⟩ := hfits
  have hcs : cs ≠ [] := by
    rintro rfl
    cases hnl
  obtain ⟨breaks, lines, widest, x, hsplit, hbreaks, hx, hwidest, hskip⟩ :=
    skipIndentation_block hk hnext hcs hprint (p := (p.afterAll (literalHeader cs)).after '\n')
      (Place.column_after_break _ rfl)
  have hend : ∀ c ∈ lines.getLast?, isBreak c = true := by
    intro c hc
    have hmem : c ∈ (blockLines cs).getLast? := by
      rw [hsplit, List.getLast?_append, Option.mem_def.1 hc]
      rfl
    exact isBreak_of_mem_getLast?_blockLines hmem
  have hwithin : k < 2 * (level + 1) := by omega
  have hreversed : ∀ c ∈ breaks.reverse, isBreak c = true := by simpa using hbreaks
  obtain ⟨b, q, hread, hb, hq⟩ := readBlockLines_lines hwithin hnext
    (Nat.le_succ_of_le hx.length_le) hend (BlockText.Holds.of_breaks hreversed) hx
  rw [← List.reverse_append, ← hsplit] at hb
  refine ⟨q, ?_, hq⟩
  rw [literal_tail_append, readBlockScalar]
  simp only [blockHeader?_literalHeader, Cursor.drop_append, endLine?_break, bind,
    Option.bind_some]
  have hread' : readBlockLines true (2 * level + 2) (x.rest.length + 1) { more := breaks.reverse }
      x = some (b, ⟨q, next⟩) := hread
  cases hhides : hidesIndent cs with
  | true =>
      rw [hhides, if_pos rfl, Nat.mul_succ] at hskip
      have hgiven : ¬2 = 0 := by decide
      have hindent : ¬2 * level + 2 = 0 := by omega
      simp only [if_true, Nat.add_sub_cancel, hgiven, hindent, if_false, hskip, Option.bind_some,
        hread', hb.chomped hcs, pure]
  | false =>
      rw [hhides, if_neg Bool.false_ne_true, hwidest hhides] at hskip
      have hwide : max (2 * (level + 1)) (max (2 * level + 1) 1) = 2 * level + 2 := by omega
      simp only [Bool.false_eq_true, if_false, if_true, hskip, Option.bind_some, hwide, hread',
        hb.chomped hcs, pure]

end

end NoteRoll.Yaml
