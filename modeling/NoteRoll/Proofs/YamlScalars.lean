import Mathlib.Algebra.Group.Nat.Defs
import Mathlib.Data.List.Basic
import NoteRoll.Yaml.Printer

/-!
# Scalars that stand in a line are read as they were written

A plain scalar has no end of its own. It goes on over a line break, and what ends it is that
the next line is indented by less than the node that it belongs to. So its reader has gone
past the line break and the blanks of the next line when it stops, and `Resumes` says what
may stand there.

A quoted scalar is in one line, but for the two line breaks that are characters of their own.
In double quotes these are escaped. In single quotes they stand as they are, the next line is
indented, and the reader drops its indentation. What the reader keeps between two characters
is a gap: either blanks, or line breaks whose blanks count for nothing. The printer takes
double quotes wherever a text has both at once.
-/

namespace NoteRoll.Yaml

/-! ## Places -/

namespace Place

/-- The place behind some characters. -/
def afterAll (p : Place) (cs : List Char) : Place := cs.foldl after p

theorem afterAll_cons (p : Place) (c : Char) (cs : List Char) :
    p.afterAll (c :: cs) = (p.after c).afterAll cs := rfl

theorem afterAll_append (p : Place) (cs ds : List Char) :
    p.afterAll (cs ++ ds) = (p.afterAll cs).afterAll ds := List.foldl_append

theorem column_after (p : Place) {c : Char} (h : isBreak c = false) :
    (p.after c).column = p.column + 1 := by
  simp only [after, h]
  rfl

theorem column_after_break (p : Place) {c : Char} (h : isBreak c = true) :
    (p.after c).column = 0 := by
  simp only [after, h, if_true]

theorem column_afterAll (p : Place) {cs : List Char} (h : ∀ c ∈ cs, isBreak c = false) :
    (p.afterAll cs).column = p.column + cs.length := by
  induction cs generalizing p with
  | nil => rfl
  | cons c cs ih =>
      obtain ⟨hc, hcs⟩ := List.forall_mem_cons.1 h
      rw [afterAll_cons, ih _ hcs, p.column_after hc, List.length_cons, Nat.add_assoc,
        Nat.add_comm 1]

theorem column_afterAll_blanks (p : Place) (k : Nat) :
    (p.afterAll (List.replicate k ' ')).column = p.column + k := by
  rw [column_afterAll p fun c hc => (List.eq_of_mem_replicate hc) ▸ rfl, List.length_replicate]

end Place

theorem Cursor.drop_append (p : Place) (cs rest : List Char) :
    Cursor.drop cs.length ⟨p, cs ++ rest⟩ = ⟨p.afterAll cs, rest⟩ := by
  induction cs generalizing p with
  | nil => rfl
  | cons c cs ih => exact ih (p.after c)

theorem Cursor.span_append (f : Char → Bool) (cs rest : List Char) (hcs : ∀ c ∈ cs, f c = true)
    (hrest : ∀ c ∈ rest.head?, f c = false) (p : Place) :
    Cursor.span f ⟨p, cs ++ rest⟩ = (cs, ⟨p.afterAll cs, rest⟩) := by
  have htaken : (cs ++ rest).takeWhile f = cs := by
    rw [List.takeWhile_append_of_pos hcs]
    cases rest with
    | nil => rw [List.takeWhile_nil, List.append_nil]
    | cons c rest =>
        rw [List.takeWhile_cons_of_neg (by rw [hrest c rfl]; exact Bool.false_ne_true),
          List.append_nil]
  rw [Cursor.span, htaken, Cursor.drop_append]

/-! ## Characters -/

theorem eq_blank_of_isPrintable {c : Char} (hc : isPrintable c = true) (h : isBlank c = true) :
    c = ' ' := by
  simp only [isBlank, Bool.or_eq_true, beq_iff_eq] at h
  refine h.resolve_right ?_
  rintro rfl
  cases hc

/-- What stands where a token begins: the end of the text, or a character that is neither
passed over nor begins a comment. -/
def Resumes (next : List Char) : Prop :=
  ∀ c ∈ next.head?, isBlank c = false ∧ isBreak c = false ∧ c ≠ '#' ∧ c ≠ '\ufeff'

theorem resumes_nil : Resumes [] := fun _ h => absurd h (Option.not_mem_none _)

theorem resumes_cons {c : Char}
    (h : isBlank c = false ∧ isBreak c = false ∧ c ≠ '#' ∧ c ≠ '\ufeff') (cs : List Char) :
    Resumes (c :: cs) := by
  intro d hd
  obtain rfl := Option.some.inj hd
  exact h

theorem atGap_append {cs : List Char} (h : cs ≠ []) (tail : List Char) :
    atGap (cs ++ tail) = atGap cs := by
  cases cs with
  | nil => exact absurd rfl h
  | cons c cs => rfl

/-! ## Plain scalars -/

theorem startsPlain_cons {c : Char} {cs : List Char} (h : startsPlain false (c :: cs) = true) :
    (isBlank c = false ∧ isBreak c = false ∧ ∀ d ∈ indicators, (c == d) = false) ∧
      (c = '-' ∨ c = '?' ∨ c = ':' → atGap cs = false) := by
  by_cases hc : c = '-' ∨ c = '?' ∨ c = ':'
  · have hgap : atGap cs = false := by
      rcases hc with rfl | rfl | rfl <;> simpa [startsPlain] using h
    refine ⟨?_, fun _ => hgap⟩
    have hmem : c ∉ indicators := by rcases hc with rfl | rfl | rfl <;> decide
    have hinLine : isBlank c = false ∧ isBreak c = false := by
      rcases hc with rfl | rfl | rfl <;> decide
    exact ⟨hinLine.1, hinLine.2, fun d hd => beq_eq_false_iff_ne.2 fun h => hmem (h ▸ hd)⟩
  · simp only [not_or] at hc
    obtain ⟨⟨hblank, hbreak⟩, hmem⟩ : (isBlank c = false ∧ isBreak c = false) ∧ c ∉ indicators := by
      simpa [startsPlain, hc] using h
    exact ⟨⟨hblank, hbreak, fun d hd => beq_eq_false_iff_ne.2 fun h => hmem (h ▸ hd)⟩,
      fun h => absurd h (by simpa using hc)⟩

theorem startsPlain_append {cs : List Char} (h : startsPlain false cs = true) (tail : List Char) :
    startsPlain false (cs ++ tail) = true := by
  cases cs with
  | nil => cases h
  | cons c cs =>
      obtain ⟨-, hgap⟩ := startsPlain_cons h
      rw [List.cons_append]
      rw [startsPlain] at h ⊢
      by_cases hc : c = '-' ∨ c = '?' ∨ c = ':'
      · have hne : cs ≠ [] := by
          rintro rfl
          cases hgap hc
        rwa [atGap_append hne]
      · simpa [not_or.1 hc, (not_or.1 (not_or.1 hc).2)] using h

section Plain

variable {least : Nat} {gap : Gap} {done : List Char} {p : Place}

theorem readPlainFrom_blank (cs : List Char) :
    readPlainFrom false least gap done p (' ' :: cs) =
      readPlainFrom false least (gap.addBlank ' ') done (p.after ' ') cs := rfl

theorem readPlainFrom_break {c : Char} (hblank : isBlank c = false) (hbreak : isBreak c = true)
    (cs : List Char) :
    readPlainFrom false least gap done p (c :: cs) =
      readPlainFrom false least (gap.addBreak c) done (p.after c) cs := by
  rw [readPlainFrom, hblank, hbreak, if_neg Bool.false_ne_true, if_pos rfl]

/-- A character that is neither a blank nor a break, in a line that is far enough in. -/
theorem readPlainFrom_char {c : Char} {cs : List Char} (hblank : isBlank c = false)
    (hbreak : isBreak c = false) (hcomment : gap.isEmpty = false → c ≠ '#')
    (hleast : gap.isEmpty = false → least ≤ p.column ∧ 0 < p.column)
    (hcolon : c = ':' → atGap cs = false) :
    readPlainFrom false least gap done p (c :: cs) =
      readPlainFrom false least {} (c :: (gap.text ++ done)) (p.after c) cs := by
  have hgoes : (!gap.isEmpty && (c == '#' || (!false && decide (p.column < least)) ||
      (decide (p.column = 0) && (documentMark? (c :: cs)).isSome))) = false := by
    cases hempty : gap.isEmpty with
    | true => rfl
    | false =>
        obtain ⟨hfar, hpos⟩ := hleast hempty
        simp [hcomment hempty, hfar, Nat.ne_of_gt hpos]
  have hcolon' : (c == ':' && atGap cs) = false := by
    rw [Bool.and_eq_false_imp, beq_iff_eq]
    exact hcolon
  rw [readPlainFrom, hblank, hbreak, hgoes, hcolon']
  rfl

theorem readPlainFrom_text {cs tail blanks : List Char}
    (hprint : ∀ c ∈ cs, isPrintable c = true ∧ isBreak c = false)
    (hbreaks : breaksPlain (!blanks.isEmpty) cs = false) (hlast : cs.getLast? ≠ some ' ')
    (hend : cs = [] → blanks = []) (hleast : least ≤ p.column) (hcol : 0 < p.column) :
    readPlainFrom false least { blanks } done p (cs ++ tail) =
      readPlainFrom false least {} (cs.reverse ++ (blanks ++ done)) (p.afterAll cs) tail := by
  induction cs generalizing blanks done p with
  | nil =>
      obtain rfl := hend rfl
      rfl
  | cons c cs ih =>
      obtain ⟨⟨hc, hbreak⟩, hcs⟩ := List.forall_mem_cons.1 hprint
      have hcolumn := p.column_after hbreak
      have hempty : ({ blanks } : Gap).isEmpty = blanks.isEmpty := by
        rw [Gap.isEmpty, Gap.isBroken]
        exact Bool.and_true _
      rw [breaksPlain, Bool.or_eq_false_iff, Bool.or_eq_false_iff] at hbreaks
      obtain ⟨⟨hcolon, hcomment⟩, hrest⟩ := hbreaks
      have hlast' : cs.getLast? ≠ some ' ' := fun h => by
        rw [List.getLast?_cons, h] at hlast
        exact hlast rfl
      rw [List.cons_append, List.reverse_cons, List.append_assoc, Place.afterAll_cons]
      by_cases hblank : isBlank c = true
      · obtain rfl := eq_blank_of_isPrintable hc hblank
        have hne : cs ≠ [] := by
          rintro rfl
          exact hlast rfl
        rw [readPlainFrom_blank]
        exact ih hcs hrest hlast' (absurd · hne) (by omega) (by omega)
      · rw [Bool.not_eq_true] at hblank
        rw [hblank] at hrest
        rw [readPlainFrom_char hblank hbreak]
        · exact ih hcs hrest hlast' (fun _ => rfl) (by omega) (by omega)
        · rintro hgap rfl
          rw [hempty] at hgap
          rw [hgap] at hcomment
          cases hcomment
        · exact fun _ => ⟨hleast, hcol⟩
        · rintro rfl
          have hgap : atGap cs = false := hcolon
          cases cs with
          | nil => cases hgap
          | cons d ds => exact hgap

/-- Behind the last line of a plain scalar the reader goes on to the next one, which ends the
scalar by its indentation. -/
theorem readPlainFrom_lineBreak {k : Nat} {next : List Char} (hk : k < least)
    (hnext : Resumes next) :
    readPlainFrom false least {} done p ('\n' :: (List.replicate k ' ' ++ next)) =
      some (done, { first := some '\n' },
        ⟨p.afterAll ('\n' :: List.replicate k ' '), next⟩) := by
  have hblanks : ∀ (k : Nat) (p : Place),
      readPlainFrom false least { first := some '\n' } done p (List.replicate k ' ' ++ next) =
        readPlainFrom false least { first := some '\n' } done
          (p.afterAll (List.replicate k ' ')) next := by
    intro k
    induction k with
    | zero => exact fun _ => rfl
    | succ k ih =>
        intro p
        rw [List.replicate_succ, List.cons_append, readPlainFrom_blank, Place.afterAll_cons]
        exact ih (p.after ' ')
  rw [readPlainFrom_break rfl rfl, Place.afterAll_cons]
  show readPlainFrom false least { first := some '\n' } done _ _ = _
  rw [hblanks]
  have hcol : ((p.after '\n').afterAll (List.replicate k ' ')).column < least := by
    rw [Place.column_afterAll_blanks, Place.column_after_break _ rfl]
    omega
  cases next with
  | nil => rfl
  | cons c cs =>
      obtain ⟨hblank, hbreak, -, -⟩ := hnext c rfl
      rw [readPlainFrom, hblank, hbreak]
      simp [Gap.isEmpty, Gap.isBroken, hcol]

/-- A plain scalar up to what stands in the line behind it. -/
theorem readPlain_line {text : String} (hfits : fitsPlain text = true) (hleast : least ≤ p.column)
    (hcol : 0 < p.column) {k : Nat} (hk : k < least) {next : List Char} (hnext : Resumes next) :
    readPlain false least ⟨p, text.toList ++ '\n' :: (List.replicate k ' ' ++ next)⟩ =
      some (text, true,
        ⟨(p.afterAll text.toList).afterAll ('\n' :: List.replicate k ' '), next⟩) := by
  simp only [fitsPlain, Bool.and_eq_true, List.all_eq_true, Bool.not_eq_true', bne_iff_ne] at hfits
  obtain ⟨⟨⟨⟨⟨-, hprint⟩, hlast⟩, hbreaks⟩, -⟩, -⟩ := hfits
  have hstart : breaksPlain (!([] : List Char).isEmpty) text.toList = false := hbreaks
  rw [readPlain, readPlainFrom_text hprint hstart hlast (fun _ => rfl) hleast hcol,
    readPlainFrom_lineBreak hk hnext, Option.map_some]
  simp only [List.append_nil, List.reverse_reverse, String.ofList_toList]
  rfl

/-- A key that holds no blanks, up to its colon. -/
theorem readPlain_key {cs : List Char}
    (hcs : ∀ c ∈ cs, isBlank c = false ∧ isBreak c = false ∧ c ≠ ':') {rest : List Char}
    (hrest : atGap rest = true) :
    readPlain false least ⟨p, cs ++ ':' :: rest⟩ =
      some (String.ofList cs, false, ⟨p.afterAll cs, ':' :: rest⟩) := by
  have hread (done : List Char) : readPlainFrom false least {} done p (cs ++ ':' :: rest) =
      some (cs.reverse ++ done, {}, ⟨p.afterAll cs, ':' :: rest⟩) := by
    induction cs generalizing done p with
    | nil =>
        rw [List.nil_append, readPlainFrom]
        simp [isBlank, isBreak, Gap.isEmpty, Gap.isBroken, hrest]
        rfl
    | cons c cs ih =>
        obtain ⟨⟨hblank, hbreak, hc⟩, hcs⟩ := List.forall_mem_cons.1 hcs
        have hempty : ({} : Gap).isEmpty ≠ false := fun h => Bool.noConfusion h
        rw [List.cons_append, readPlainFrom_char hblank hbreak (absurd · hempty)
          (absurd · hempty) (absurd · hc), ih hcs, Place.afterAll_cons, List.reverse_cons,
          List.append_assoc]
        rfl
  rw [readPlain, hread, Option.map_some]
  simp only [List.append_nil, List.reverse_reverse]
  rfl

end Plain

/-! ## Quoted scalars -/

section Quoted

variable {double : Bool} {gap : Gap} {done : List Char} {p : Place}

theorem readQuotedFrom_blank (cs : List Char) :
    readQuotedFrom double (.text gap) done p (' ' :: cs) =
      readQuotedFrom double (.text (gap.addBlank ' ')) done (p.after ' ') cs := by
  rw [readQuotedFrom]
  rfl

theorem readQuotedFrom_break {c : Char} (hblank : isBlank c = false) (hbreak : isBreak c = true)
    (cs : List Char) :
    readQuotedFrom double (.text gap) done p (c :: cs) =
      readQuotedFrom double (.text (gap.addBreak c)) done (p.after c) cs := by
  rw [readQuotedFrom, hblank, hbreak, if_neg Bool.false_ne_true, if_pos rfl]

/-- The blanks in front of a further line count for nothing. -/
theorem readQuotedFrom_indentation (hgap : gap.isBroken = true) (k : Nat) (cs : List Char) :
    readQuotedFrom double (.text gap) done p (List.replicate k ' ' ++ cs) =
      readQuotedFrom double (.text gap) done (p.afterAll (List.replicate k ' ')) cs := by
  induction k generalizing p with
  | zero => rfl
  | succ k ih =>
      have hkeep : gap.addBlank ' ' = gap := by rw [Gap.addBlank, if_pos hgap]
      rw [List.replicate_succ, List.cons_append, readQuotedFrom_blank, hkeep, Place.afterAll_cons]
      exact ih

section InLine

variable {c : Char} (hblank : isBlank c = false) (hbreak : isBreak c = false) (hcol : 0 < p.column)
include hblank hbreak hcol

theorem readQuotedFrom_single_char (hc : c ≠ '\'') (cs : List Char) :
    readQuotedFrom false (.text gap) done p (c :: cs) =
      readQuotedFrom false (.text {}) (c :: (gap.text ++ done)) (p.after c) cs := by
  have hquote : (c == '\'') = false := beq_eq_false_iff_ne.2 hc
  rw [readQuotedFrom.eq_def]
  simp only [hblank, hbreak, Nat.ne_of_gt hcol, hquote, decide_false, Bool.false_and,
    Bool.false_eq_true, if_false]

theorem readQuotedFrom_double_char (hc : c ≠ '"') (hslash : c ≠ '\\') (cs : List Char) :
    readQuotedFrom true (.text gap) done p (c :: cs) =
      readQuotedFrom true (.text {}) (c :: (gap.text ++ done)) (p.after c) cs := by
  have hquote : (c == '"') = false := beq_eq_false_iff_ne.2 hc
  have hslash' : (c == '\\') = false := beq_eq_false_iff_ne.2 hslash
  rw [readQuotedFrom]
  simp only [hblank, hbreak, Nat.ne_of_gt hcol, hquote, hslash', decide_false, Bool.false_and,
    Bool.false_eq_true, if_false, if_true]

end InLine

variable (hcol : 0 < p.column)
include hcol

theorem readQuotedFrom_twoQuotes (cs : List Char) :
    readQuotedFrom false (.text gap) done p ('\'' :: '\'' :: cs) =
      readQuotedFrom false (.text {}) ('\'' :: (gap.text ++ done)) ((p.after '\'').after '\'')
        cs := by
  rw [readQuotedFrom.eq_def]
  simp [isBlank, isBreak, Nat.ne_of_gt hcol]

theorem readQuotedFrom_single_end {tail : List Char} (htail : tail.head? ≠ some '\'') :
    readQuotedFrom false (.text gap) done p ('\'' :: tail) =
      some (String.ofList (gap.text ++ done).reverse, ⟨p.after '\'', tail⟩) := by
  rw [readQuotedFrom.eq_def]
  cases tail with
  | nil => simp [isBlank, isBreak, Nat.ne_of_gt hcol]
  | cons c cs =>
      have hc : c ≠ '\'' := fun h => htail (congrArg some h)
      simp [isBlank, isBreak, Nat.ne_of_gt hcol, hc]

theorem readQuotedFrom_double_end (tail : List Char) :
    readQuotedFrom true (.text gap) done p ('"' :: tail) =
      some (String.ofList (gap.text ++ done).reverse, ⟨p.after '"', tail⟩) := by
  rw [readQuotedFrom]
  simp [isBlank, isBreak, Nat.ne_of_gt hcol]

theorem readQuotedFrom_backslash (cs : List Char) :
    readQuotedFrom true (.text gap) done p ('\\' :: cs) =
      readQuotedFrom true .escape (gap.text ++ done) (p.after '\\') cs := by
  rw [readQuotedFrom]
  simp [isBlank, isBreak, Nat.ne_of_gt hcol]

end Quoted

/-! ### Single quotes -/

theorem toList_indentation (level : Nat) :
    (indentation level).toList = List.replicate (2 * level) ' ' := String.toList_ofList

theorem hasBlankBeforeBreak_cons {c : Char} {cs : List Char}
    (h : hasBlankBeforeBreak (c :: cs) = false) :
    (c = ' ' → ∀ d ∈ cs.head?, isBreak d = false) ∧ hasBlankBeforeBreak cs = false := by
  cases cs with
  | nil => exact ⟨fun _ d hd => absurd hd (Option.not_mem_none d), rfl⟩
  | cons d ds =>
      rw [hasBlankBeforeBreak, Bool.or_eq_false_iff, Bool.and_eq_false_imp, beq_iff_eq] at h
      refine ⟨fun hc e he => ?_, h.2⟩
      obtain rfl := Option.some.inj he
      exact h.1 hc

theorem hasBlankAfterBreak_cons {c : Char} {cs : List Char}
    (h : hasBlankAfterBreak (c :: cs) = false) :
    (isBreak c = true → cs.head? ≠ some ' ') ∧ hasBlankAfterBreak cs = false := by
  cases cs with
  | nil => exact ⟨fun _ hd => Option.some_ne_none _ hd.symm, rfl⟩
  | cons d ds =>
      rw [hasBlankAfterBreak, Bool.or_eq_false_iff, Bool.and_eq_false_imp,
        beq_eq_false_iff_ne] at h
      exact ⟨fun hc hd => h.1 hc (Option.some.inj hd), h.2⟩

/-- What stands between single quotes, character by character; `atStart` says whether a line
break is in front. -/
def singleBody (level : Nat) : (atStart : Bool) → List Char → List Char
  | atStart, [] => if atStart then List.replicate (2 * level) ' ' else []
  | atStart, c :: cs =>
    if isBreak c then c :: singleBody level true cs
    else (if atStart then List.replicate (2 * level) ' ' else []) ++
      ((if c == '\'' then ['\'', '\''] else [c]) ++ singleBody level false cs)

theorem singleQuoted_eq (level : Nat) (cs : List Char) :
    singleQuoted level cs = '\'' :: (singleBody level false cs ++ ['\'']) := by
  have hbody : ∀ (atStart : Bool) (cs : List Char),
      indentLines level atStart (cs.flatMap fun c => if c == '\'' then ['\'', '\''] else [c]) ++
        (if (cs.getLast?.map isBreak).getD atStart then (indentation level).toList else []) =
      singleBody level atStart cs := by
    intro atStart cs
    induction cs generalizing atStart with
    | nil => rw [toList_indentation]; rfl
    | cons c cs ih =>
        have hlast : ((c :: cs).getLast?.map isBreak).getD atStart =
            (cs.getLast?.map isBreak).getD (isBreak c) := by
          rw [List.getLast?_cons]
          cases cs.getLast? <;> rfl
        rw [hlast, List.flatMap_cons, singleBody]
        by_cases hbreak : isBreak c = true
        · have hquote : (c == '\'') = false :=
            beq_eq_false_iff_ne.2 fun h => absurd (h ▸ hbreak) (by decide)
          rw [hquote, if_neg Bool.false_ne_true, List.singleton_append, indentLines, hbreak,
            if_pos rfl, if_pos rfl, List.cons_append, ih]
        · rw [Bool.not_eq_true] at hbreak
          rw [hbreak, if_neg Bool.false_ne_true, ← ih, ← toList_indentation]
          by_cases hc : c = '\''
          · subst hc
            simp [indentLines, isBreak]
          · simp [indentLines, hbreak, hc]
  have hend : (if cs.getLast?.any isBreak then (indentation level).toList else []) =
      if (cs.getLast?.map isBreak).getD false then (indentation level).toList else [] := by
    cases cs.getLast? <;> rfl
  simp only [singleQuoted]
  rw [hend, hbody]

/-- A gap between two characters of a text in single quotes. -/
inductive Spaced : Gap → Prop where
  | blanks (blanks : List Char) : Spaced { blanks }
  | breaks (c : Char) (more : List Char) : c ≠ '\n' → Spaced { first := some c, more }

theorem Spaced.empty : Spaced {} := .blanks []

theorem text_breaks {c : Char} (h : c ≠ '\n') (more : List Char) :
    ({ first := some c, more } : Gap).text = more ++ [c] := by
  rw [Gap.text]
  split
  · next heq => exact absurd (Option.some.inj heq) h
  · next heq => rw [Option.some.inj heq]
  · next heq => cases heq

/-- A line break that no blank stands in front of is kept. -/
theorem Spaced.addBreak {gap : Gap} (h : Spaced gap) (hblanks : gap.blanks = []) {c : Char}
    (hc : c ≠ '\n') : Spaced (gap.addBreak c) ∧ (gap.addBreak c).isBroken = true ∧
      (gap.addBreak c).blanks = [] ∧ (gap.addBreak c).text = c :: gap.text := by
  cases h with
  | blanks blanks =>
      obtain rfl : blanks = [] := hblanks
      exact ⟨.breaks c [] hc, rfl, rfl, text_breaks hc []⟩
  | breaks d more hd =>
      refine ⟨.breaks d (c :: more) hd, rfl, rfl, ?_⟩
      rw [text_breaks hd]
      exact text_breaks hd (c :: more)

theorem Spaced.addBlank {gap : Gap} (h : Spaced gap) (hgap : gap.isBroken = false) :
    Spaced (gap.addBlank ' ') ∧ (gap.addBlank ' ').isBroken = false ∧
      (gap.addBlank ' ').text = ' ' :: gap.text := by
  cases h with
  | blanks blanks => exact ⟨.blanks (' ' :: blanks), rfl, rfl⟩
  | breaks d more _ => cases hgap

/-- What stands between a gap and the next character, which is not at the beginning of its
line. -/
theorem readQuotedFrom_lead (double : Bool) {level : Nat} (hlevel : 0 < level) {gap : Gap}
    (done : List Char) {p : Place} (hcol : gap.isBroken = false → 0 < p.column) :
    ∃ lead, (if gap.isBroken then List.replicate (2 * level) ' ' else []) = lead ∧
      0 < (p.afterAll lead).column ∧
      ∀ cs, readQuotedFrom double (.text gap) done p (lead ++ cs) =
        readQuotedFrom double (.text gap) done (p.afterAll lead) cs := by
  cases hgap : gap.isBroken with
  | false => exact ⟨[], rfl, hcol hgap, fun _ => rfl⟩
  | true =>
      refine ⟨_, rfl, ?_, readQuotedFrom_indentation hgap _⟩
      rw [if_pos rfl, Place.column_afterAll_blanks]
      omega

/-- Where a text in single quotes is read on: the gap that was read last does not run into
what is left, and without a line break it is inside of a line. -/
structure Awaits (gap : Gap) (p : Place) (left : List Char) : Prop where
  spaced : Spaced gap
  beforeBreak : gap.blanks ≠ [] → ∀ c ∈ left.head?, isBreak c = false
  afterBreak : gap.isBroken = true → left.head? ≠ some ' '
  column : gap.isBroken = false → 0 < p.column

theorem Awaits.empty {p : Place} (hcol : 0 < p.column) (left : List Char) :
    Awaits {} p left :=
  ⟨.empty, fun h => absurd rfl h, fun h => Bool.noConfusion h, fun _ => hcol⟩

/-- A character of a text in single quotes is read, and reading goes on behind it. -/
def ReadsOn (level : Nat) (gap : Gap) (done : List Char) (p : Place) (c : Char)
    (cs : List Char) : Prop :=
  ∃ gap' done' p', Awaits gap' p' cs ∧ gap'.text ++ done' = c :: (gap.text ++ done) ∧
    p.afterAll (singleBody level gap.isBroken (c :: cs)) =
      p'.afterAll (singleBody level gap'.isBroken cs) ∧
    ∀ tail, readQuotedFrom false (.text gap) done p
        (singleBody level gap.isBroken (c :: cs) ++ '\'' :: tail) =
      readQuotedFrom false (.text gap') done' p' (singleBody level gap'.isBroken cs ++ '\'' :: tail)

section Steps

variable {level : Nat} {gap : Gap} {p : Place} {c : Char} {cs : List Char}

theorem Awaits.readsOn_break (h : Awaits gap p (c :: cs)) (hbreak : isBreak c = true)
    (hnl : c ≠ '\n') (hafter : cs.head? ≠ some ' ') (done : List Char) :
    ReadsOn level gap done p c cs := by
  have hblank : isBlank c = false := by
    simp only [isBreak, Bool.or_eq_true, beq_iff_eq] at hbreak
    rcases hbreak with (rfl | rfl) | rfl <;> rfl
  have hempty : gap.blanks = [] := not_not.1 fun hblanks => by
    rw [h.beforeBreak hblanks c rfl] at hbreak
    cases hbreak
  obtain ⟨hspaced, hbroken, hblanks, htext⟩ := h.spaced.addBreak hempty hnl
  refine ⟨gap.addBreak c, done, p.after c, ⟨hspaced, fun h => absurd hblanks h, fun _ => hafter,
    fun h => ?_⟩, by rw [htext, List.cons_append], ?_, fun tail => ?_⟩
  · rw [hbroken] at h
    cases h
  · rw [singleBody, if_pos hbreak, hbroken]
    rfl
  · rw [singleBody, if_pos hbreak, List.cons_append, readQuotedFrom_break hblank hbreak, hbroken]

/-- What is read of a character that is no break, in front of the others. -/
theorem Awaits.readsOn_of_read (h : Awaits gap p (c :: cs)) (hlevel : 0 < level)
    (hbreak : isBreak c = false) (written done : List Char)
    (hwritten : (if c == '\'' then ['\'', '\''] else [c]) = written)
    (hread : ∀ q : Place, 0 < q.column → ∃ gap' done', Awaits gap' (q.afterAll written) cs ∧
      gap'.isBroken = false ∧ gap'.text ++ done' = c :: (gap.text ++ done) ∧
      ∀ text, readQuotedFrom false (.text gap) done q (written ++ text) =
        readQuotedFrom false (.text gap') done' (q.afterAll written) text) :
    ReadsOn level gap done p c cs := by
  obtain ⟨lead, hlead, hleadcol, hskip⟩ := readQuotedFrom_lead false hlevel done h.column
  obtain ⟨gap', done', hawaits, hunbroken, htext, hgoes⟩ := hread _ hleadcol
  have hbody : singleBody level gap.isBroken (c :: cs) =
      lead ++ (written ++ singleBody level false cs) := by
    rw [singleBody, if_neg (by rw [hbreak]; exact Bool.false_ne_true), hlead, hwritten]
  refine ⟨gap', done', _, hawaits, htext, ?_, fun tail => ?_⟩
  · rw [hbody, hunbroken, Place.afterAll_append, Place.afterAll_append]
  · rw [hbody, hunbroken, List.append_assoc, List.append_assoc, hskip, hgoes]

theorem Awaits.readsOn (h : Awaits gap p (c :: cs)) (hlevel : 0 < level)
    (hprint : isPrintable c = true) (hnl : c ≠ '\n')
    (hbefore : c = ' ' → ∀ d ∈ cs.head?, isBreak d = false)
    (hafter : isBreak c = true → cs.head? ≠ some ' ') (done : List Char) :
    ReadsOn level gap done p c cs := by
  by_cases hbreak : isBreak c = true
  · exact h.readsOn_break hbreak hnl (hafter hbreak) done
  rw [Bool.not_eq_true] at hbreak
  have hinside (q : Place) (hq : 0 < q.column) : 0 < (q.after c).column := by
    rw [Place.column_after _ hbreak]
    omega
  by_cases hquote : c = '\''
  · subst hquote
    refine h.readsOn_of_read hlevel hbreak ['\'', '\''] done rfl fun q hq => ?_
    exact ⟨{}, _, .empty (hinside _ (hinside q hq)) cs, rfl, rfl, readQuotedFrom_twoQuotes hq⟩
  have hone : (if c == '\'' then ['\'', '\''] else [c]) = [c] := if_neg (by simpa using hquote)
  refine h.readsOn_of_read hlevel hbreak [c] done hone fun q hq => ?_
  by_cases hblank : isBlank c = true
  · obtain rfl := eq_blank_of_isPrintable hprint hblank
    have hunbroken : gap.isBroken = false :=
      Bool.eq_false_iff.2 fun hbroken => h.afterBreak hbroken rfl
    obtain ⟨hspaced, hunbroken', htext⟩ := h.spaced.addBlank hunbroken
    refine ⟨gap.addBlank ' ', done, ⟨hspaced, fun _ => hbefore rfl, fun h => ?_,
      fun _ => hinside q hq⟩, hunbroken', by rw [htext, List.cons_append], readQuotedFrom_blank⟩
    rw [hunbroken'] at h
    cases h
  · rw [Bool.not_eq_true] at hblank
    exact ⟨{}, _, .empty (hinside q hq) cs, rfl, rfl,
      readQuotedFrom_single_char hblank hbreak hq hquote⟩

end Steps

/-- A text in single quotes is read back. A gap is behind it already: the one at the front is
empty. -/
theorem readQuotedFrom_singleBody {level : Nat} (hlevel : 0 < level) {tail : List Char}
    (htail : tail.head? ≠ some '\'') (cs : List Char) {gap : Gap} {done : List Char} {p : Place}
    (hawaits : Awaits gap p cs) (hprint : ∀ c ∈ cs, isPrintable c = true ∧ c ≠ '\n')
    (hbefore : hasBlankBeforeBreak cs = false) (hafter : hasBlankAfterBreak cs = false) :
    readQuotedFrom false (.text gap) done p
        (singleBody level gap.isBroken cs ++ '\'' :: tail) =
      some (String.ofList ((gap.text ++ done).reverse ++ cs),
        ⟨p.afterAll (singleBody level gap.isBroken cs ++ ['\'']), tail⟩) := by
  induction cs generalizing gap done p with
  | nil =>
      obtain ⟨lead, hlead, hleadcol, hskip⟩ :=
        readQuotedFrom_lead false hlevel done hawaits.column
      rw [singleBody, hlead, hskip, readQuotedFrom_single_end hleadcol htail, List.append_nil,
        Place.afterAll_append]
      rfl
  | cons c cs ih =>
      obtain ⟨⟨hc, hnl⟩, hprint'⟩ := List.forall_mem_cons.1 hprint
      obtain ⟨hbefore₁, hbefore'⟩ := hasBlankBeforeBreak_cons hbefore
      obtain ⟨hafter₁, hafter'⟩ := hasBlankAfterBreak_cons hafter
      obtain ⟨gap', done', p', hawaits', htext, hplace, hread⟩ :=
        hawaits.readsOn hlevel hc hnl hbefore₁ hafter₁ done
      rw [hread, ih hawaits' hprint' hbefore' hafter', htext, List.reverse_cons,
        List.append_assoc, List.singleton_append, Place.afterAll_append, Place.afterAll_append,
        hplace]

theorem readQuoted_single {level : Nat} (hlevel : 0 < level) {cs tail : List Char} {p : Place}
    (hfits : fitsSingle cs = true) (hcol : 0 < p.column) (htail : tail.head? ≠ some '\'') :
    readQuoted false ⟨p, singleBody level false cs ++ '\'' :: tail⟩ =
      some (String.ofList cs, ⟨p.afterAll (singleBody level false cs ++ ['\'']), tail⟩) := by
  simp only [fitsSingle, Bool.and_eq_true, Bool.not_eq_true', List.all_eq_true] at hfits
  obtain ⟨⟨⟨hlines, hprint⟩, hbefore⟩, hafter⟩ := hfits
  have hnl : ∀ c ∈ cs, isPrintable c = true ∧ c ≠ '\n' := by
    refine fun c hc => ⟨hprint c hc, ?_⟩
    rintro rfl
    rw [List.contains_iff_mem.2 hc] at hlines
    cases hlines
  exact readQuotedFrom_singleBody hlevel htail cs (.empty hcol cs) hnl hbefore hafter

/-! ### Double quotes -/

/-- The number that hexadecimal digits write, behind others that write `value`. -/
def hexValueFrom (value : Nat) (ds : List Char) : Option Nat :=
  ds.foldlM (fun value c => (hexValue? c).map (16 * value + ·)) value

theorem hexValueFrom_append (value : Nat) (ds ds' : List Char) :
    hexValueFrom value (ds ++ ds') =
      (hexValueFrom value ds).bind fun value => hexValueFrom value ds' :=
  List.foldlM_append

theorem hexValue?_upper : ∀ d < 16, hexValue? (Nat.digitChar d).toUpper = some d := by decide

theorem hexValueFrom_toDigits (n : Nat) :
    hexValueFrom 0 ((Nat.toDigits 16 n).map Char.toUpper) = some n := by
  have hone (value d : Nat) (hd : d < 16) :
      hexValueFrom value [(Nat.digitChar d).toUpper] = some (16 * value + d) := by
    rw [hexValueFrom, List.foldlM_cons, hexValue?_upper d hd]
    rfl
  induction n using Nat.strongRecOn with
  | ind n ih =>
      by_cases hn : n < 16
      · rw [Nat.toDigits_of_lt_base hn, List.map_singleton, hone 0 n hn, Nat.mul_zero,
          Nat.zero_add]
      · have hdiv : 16 * (n / 16) + n % 16 = n := by omega
        rw [Nat.toDigits_of_base_le (by decide) (Nat.le_of_not_lt hn), List.map_append,
          hexValueFrom_append, ih (n / 16) (by omega), Option.bind_some, List.map_singleton,
          hone _ _ (Nat.mod_lt n (by decide)), hdiv]

theorem hexValueFrom_upperHex (width n : Nat) : hexValueFrom 0 (upperHex width n) = some n := by
  have hzeros : ∀ k, hexValueFrom 0 (List.replicate k '0'.toUpper) = some 0 := by
    intro k
    induction k with
    | zero => rfl
    | succ k ih => exact ih
  rw [upperHex, hexDigits, String.toList_ofList, List.map_append, List.map_replicate,
    hexValueFrom_append, hzeros, Option.bind_some, hexValueFrom_toDigits]

theorem length_upperHex {width n : Nat} (hwidth : 0 < width) (hn : n < 16 ^ width) :
    (upperHex width n).length = width := by
  have hlen := (Nat.length_toDigits_le_iff (by decide) hwidth).2 hn
  rw [upperHex, hexDigits, String.toList_ofList, List.length_map, List.length_append,
    List.length_replicate]
  omega

theorem mem_toDigits {n : Nat} {c : Char} (h : c ∈ Nat.toDigits 16 n) :
    ∃ d < 16, c = Nat.digitChar d := by
  induction n using Nat.strongRecOn with
  | ind n ih =>
      by_cases hn : n < 16
      · rw [Nat.toDigits_of_lt_base hn, List.mem_singleton] at h
        exact ⟨n, hn, h⟩
      · rw [Nat.toDigits_of_base_le (by decide) (Nat.le_of_not_lt hn), List.mem_append,
          List.mem_singleton] at h
        rcases h with h | h
        · exact ih (n / 16) (by omega) h
        · exact ⟨n % 16, Nat.mod_lt n (by decide), h⟩

theorem isPrintable_of_mem_upperHex {width n : Nat} {c : Char} (h : c ∈ upperHex width n) :
    isPrintable c = true ∧ isBreak c = false := by
  have hdigit : ∀ d < 16, isPrintable (Nat.digitChar d).toUpper = true ∧
      isBreak (Nat.digitChar d).toUpper = false := by decide
  rw [upperHex, hexDigits, String.toList_ofList, List.mem_map] at h
  obtain ⟨d, hd, rfl⟩ := h
  rcases List.mem_append.1 hd with hd | hd
  · rw [List.eq_of_mem_replicate hd]
    decide
  · obtain ⟨k, hk, rfl⟩ := mem_toDigits hd
    exact hdigit k hk

theorem readQuotedFrom_hex {double : Bool} {done : List Char} {p : Place} {c : Char}
    {ds : List Char} (hds : ds ≠ []) {value : Nat} (hvalue : hexValueFrom value ds = some c.toNat)
    (cs : List Char) :
    readQuotedFrom double (.hex ds.length value) done p (ds ++ cs) =
      readQuotedFrom double (.text {}) (c :: done) (p.afterAll ds) cs := by
  induction ds generalizing value p with
  | nil => exact absurd rfl hds
  | cons d ds ih =>
      rw [hexValueFrom, List.foldlM_cons] at hvalue
      cases hd : hexValue? d with
      | none =>
          rw [hd] at hvalue
          cases hvalue
      | some digit =>
          rw [hd] at hvalue
          rw [List.cons_append, readQuotedFrom, hd, Place.afterAll_cons]
          cases ds with
          | nil =>
              obtain hchar : 16 * value + digit = c.toNat := Option.some.inj hvalue
              simp only [hchar, List.length_singleton, Nat.lt_irrefl, if_false]
              rw [if_pos (show c.toNat.isValidChar from c.valid), Char.ofNat_toNat]
              rfl
          | cons d' ds =>
              have hmore : 1 < (d :: d' :: ds).length := Nat.lt_add_of_pos_left (Nat.succ_pos _)
              simp only [hmore, if_true]
              exact ih (List.cons_ne_nil _ _) hvalue

/-- The characters that a letter or a mark behind a backslash is written for. -/
def lettered : List (Char × Char) :=
  [('\x00', '0'), ('\x07', 'a'), ('\x08', 'b'), ('\t', 't'), ('\n', 'n'), ('\x0b', 'v'),
    ('\x0c', 'f'), ('\r', 'r'), ('\x1b', 'e'), ('"', '"'), ('\\', '\\'), ('\u0085', 'N'),
    ('\u2028', 'L'), ('\u2029', 'P')]

theorem escaped_of_mem_lettered : ∀ d ∈ lettered, escaped d.1 = ['\\', d.2] ∧
    (isPrintable d.2 = true ∧ isBreak d.2 = false) ∧ escapeDigits? d.2 = none ∧
      escapes.lookup d.2 = some d.1 := by
  decide +kernel

theorem escaped_of_not_lettered {c : Char} (h : ∀ d ∈ lettered, c ≠ d.1) :
    escaped c = if isPrintable c then [c]
      else if c.toNat ≤ 0xff then '\\' :: 'x' :: upperHex 2 c.toNat
      else if c.toNat ≤ 0xffff then '\\' :: 'u' :: upperHex 4 c.toNat
      else '\\' :: 'U' :: upperHex 8 c.toNat := by
  simp only [lettered, List.forall_mem_cons, ← beq_eq_false_iff_ne] at h
  simp only [escaped, h, Bool.false_eq_true, if_false]

/-- How a character stands in double quotes: by a letter that means it, as itself, or by its
code. -/
theorem escaped_cases (c : Char) :
    (∃ e, escaped c = ['\\', e] ∧ (isPrintable e = true ∧ isBreak e = false) ∧
      escapeDigits? e = none ∧ escapes.lookup e = some c) ∨
    (escaped c = [c] ∧ (isPrintable c = true ∧ isBreak c = false) ∧ c ≠ '"' ∧ c ≠ '\\') ∨
    ∃ x width, escaped c = '\\' :: x :: upperHex width c.toNat ∧
      (isPrintable x = true ∧ isBreak x = false) ∧ escapeDigits? x = some width ∧ 0 < width ∧
      c.toNat < 16 ^ width := by
  by_cases hmem : ∀ d ∈ lettered, c ≠ d.1
  · have hne (d : Char × Char) (hd : d ∈ lettered) : c ≠ d.1 := hmem d hd
    rw [escaped_of_not_lettered hmem]
    split
    · next hprint =>
        refine .inr (.inl ⟨rfl, ⟨hprint, ?_⟩, hne ('"', '"') (by decide),
          hne ('\\', '\\') (by decide)⟩)
        simp only [isBreak, Bool.or_eq_false_iff, beq_eq_false_iff_ne]
        exact ⟨⟨hne ('\n', 'n') (by decide), hne ('\u2028', 'L') (by decide)⟩,
          hne ('\u2029', 'P') (by decide)⟩
    · have hcode : c.toNat < 2 ^ 32 := c.val.toNat_lt
      refine .inr (.inr ?_)
      split
      · exact ⟨'x', 2, rfl, by decide, rfl, by decide, by omega⟩
      · split
        · exact ⟨'u', 4, rfl, by decide, rfl, by decide, by omega⟩
        · exact ⟨'U', 8, rfl, by decide, rfl, by decide, by omega⟩
  · simp only [not_forall, not_not] at hmem
    obtain ⟨d, hd, rfl⟩ := hmem
    exact .inl ⟨d.2, escaped_of_mem_lettered d hd⟩

/-- A character that is not a blank is read back, with the blanks in front of it. -/
theorem readQuotedFrom_escaped {c : Char} (hc : c ≠ ' ') {blanks done : List Char} {p : Place}
    (hcol : 0 < p.column) (cs : List Char) :
    readQuotedFrom true (.text { blanks }) done p (escaped c ++ cs) =
      readQuotedFrom true (.text {}) (c :: (blanks ++ done)) (p.afterAll (escaped c)) cs := by
  rcases escaped_cases c with ⟨e, htext, ⟨-, hbreak⟩, hdigits, hletter⟩ |
    ⟨htext, ⟨hprint, hbreak⟩, hquote, hslash⟩ |
    ⟨x, width, htext, ⟨-, hbreak⟩, hdigits, hwidth, hcode⟩
  · rw [htext]
    show readQuotedFrom true _ done p ('\\' :: e :: cs) = _
    rw [readQuotedFrom_backslash hcol, readQuotedFrom, hbreak, if_neg Bool.false_ne_true, hdigits,
      hletter]
    rfl
  · have hblank : isBlank c = false :=
      Bool.eq_false_iff.2 fun h => hc (eq_blank_of_isPrintable hprint h)
    rw [htext]
    exact readQuotedFrom_double_char hblank hbreak hcol hquote hslash cs
  · have hlen := length_upperHex hwidth hcode
    have hne : upperHex width c.toNat ≠ [] := by
      intro h
      rw [h, List.length_nil] at hlen
      omega
    rw [htext]
    show readQuotedFrom true _ done p ('\\' :: x :: (upperHex width c.toNat ++ cs)) = _
    rw [readQuotedFrom_backslash hcol, readQuotedFrom, hbreak, if_neg Bool.false_ne_true, hdigits]
    have hhex (p : Place) :
        readQuotedFrom true (.hex (upperHex width c.toNat).length 0) (blanks ++ done) p
            (upperHex width c.toNat ++ cs) =
          readQuotedFrom true (.text {}) (c :: (blanks ++ done))
            (p.afterAll (upperHex width c.toNat)) cs :=
      readQuotedFrom_hex hne (hexValueFrom_upperHex width c.toNat) cs
    rw [hlen] at hhex
    exact hhex _

theorem isPrintable_of_mem_escaped {c d : Char} (h : d ∈ escaped c) :
    isPrintable d = true ∧ isBreak d = false := by
  rcases escaped_cases c with ⟨e, htext, he, -⟩ | ⟨htext, hc, -⟩ | ⟨x, width, htext, hx, -⟩
  · rw [htext, List.mem_pair] at h
    rcases h with rfl | rfl
    · decide
    · exact he
  · rw [htext, List.mem_singleton] at h
    rwa [h]
  · rw [htext, List.mem_cons, List.mem_cons] at h
    rcases h with rfl | rfl | h
    · decide
    · exact hx
    · exact isPrintable_of_mem_upperHex h

theorem readQuoted_double {cs tail : List Char} {p : Place} (hcol : 0 < p.column) :
    readQuoted true ⟨p, cs.flatMap escaped ++ '"' :: tail⟩ =
      some (String.ofList cs, ⟨p.afterAll (cs.flatMap escaped ++ ['"']), tail⟩) := by
  have hread : ∀ (cs : List Char) {blanks done : List Char} {p : Place}, 0 < p.column →
      readQuotedFrom true (.text { blanks }) done p (cs.flatMap escaped ++ '"' :: tail) =
        some (String.ofList ((blanks ++ done).reverse ++ cs),
          ⟨p.afterAll (cs.flatMap escaped ++ ['"']), tail⟩) := by
    intro cs
    induction cs with
    | nil =>
        intro blanks done p hcol
        rw [List.append_nil]
        exact readQuotedFrom_double_end hcol tail
    | cons c cs ih =>
        intro blanks done p hcol
        have hcol' : 0 < (p.afterAll (escaped c)).column := by
          rw [Place.column_afterAll _ fun d hd => (isPrintable_of_mem_escaped hd).2]
          omega
        rw [List.flatMap_cons, List.append_assoc, List.append_assoc, Place.afterAll_append]
        by_cases hc : c = ' '
        · subst hc
          show readQuotedFrom true _ done p (' ' :: (cs.flatMap escaped ++ '"' :: tail)) = _
          rw [readQuotedFrom_blank]
          refine (ih hcol').trans ?_
          rw [List.cons_append, List.reverse_cons, List.append_assoc]
          rfl
        · rw [readQuotedFrom_escaped hc hcol, ih hcol']
          simp only [List.nil_append, List.reverse_cons, List.append_assoc, List.cons_append]
  exact hread cs hcol

end NoteRoll.Yaml
