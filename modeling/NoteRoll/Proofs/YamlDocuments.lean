import NoteRoll.Proofs.YamlTokens
import NoteRoll.Yaml.Reader

/-!
# Tables are read as they were written

The text of a table of tables is read as this table, where a quoted scalar may come back as a
literal block, which means the same. One half is that its tokens make the table again; the
other is that nothing happens to the text before it is taken apart: all of its characters may
stand in a text, and none of them is another way to write a line break.
-/

namespace NoteRoll.Yaml

mutual

/-- A value as it is read from its own text. -/
def asRead : Yaml → Yaml
  | .scalar style text => .scalar (style.asRead text) text
  | .table es => .table (asReadEntries es)
  | v => v

/-- The entries of a table as they are read from its text. -/
def asReadEntries : List (Yaml × Yaml) → List (Yaml × Yaml)
  | [] => []
  | (k, v) :: es => (k, v.asRead) :: asReadEntries es

end

/-! ## From tokens to values -/

section Reading

variable {ts : Tokens} {rest : List Token} {belowKey : Bool} {fuel : Nat}

theorem readNode_scalar {style : Style} {text : String}
    (hts : ts.rest = .scalar style text :: rest) :
    readNode true belowKey (fuel + 1) ts = some (.scalar style text, { ts with rest }) := by
  obtain ⟨_, shortTags, anchors⟩ := ts
  obtain rfl := hts
  rfl

theorem readNode_table {es : List (Yaml × Yaml)} (hts : ts.rest = .entriesBegin :: rest)
    {ts' : Tokens} (hes : readEntries fuel { ts with rest } = some (es, ts')) :
    readNode true belowKey (fuel + 1) ts = some (.table es, ts') := by
  obtain ⟨_, shortTags, anchors⟩ := ts
  obtain rfl := hts
  show ((readEntries fuel { rest, shortTags, anchors }).map _).bind _ = _
  rw [hes]
  rfl

theorem readEntries_key {name : String} {v : Yaml} {es : List (Yaml × Yaml)} (ts' : Tokens)
    {ts'' : Tokens} (hts : ts.rest = .key :: .scalar .plain name :: .value :: rest)
    (hv : readNodeOrEmpty true true [.key, .value, .blockEnd] (fuel + 2) { ts with rest } =
      some (v, ts'))
    (hes : readEntries (fuel + 2) ts' = some (es, ts'')) :
    readEntries (fuel + 3) ts = some ((.scalar .plain name, v) :: es, ts'') := by
  obtain ⟨_, shortTags, anchors⟩ := ts
  obtain rfl := hts
  show ((readNodeOrEmpty true true _ (fuel + 2) { rest, shortTags, anchors }).bind fun x =>
    (readEntries (fuel + 2) x.2).map fun y => ((.scalar .plain name, x.1) :: y.1, y.2)) = _
  rw [hv, Option.bind_some, hes]
  rfl

end Reading

/-- What begins a value is not what stands where none is written. -/
theorem readNodeOrEmpty_lexemes {v : Yaml} (h : v.isTabular = true) {ts : Tokens}
    {rest : List Token} (hts : ts.rest = v.lexemes ++ rest) (fuel : Nat) :
    readNodeOrEmpty true true [.key, .value, .blockEnd] (fuel + 1) ts =
      readNode true true fuel ts := by
  have hstarts : ts.startsWith [.key, .value, .blockEnd] = false := by
    rw [Tokens.startsWith, Tokens.head?, hts]
    cases v with
    | scalar style text => rfl
    | table es => rfl
    | list vs => cases h
    | tagged tag v => cases h
  rw [readNodeOrEmpty, hstarts, if_neg Bool.false_ne_true]

mutual

theorem readNode_lexemes : ∀ (v : Yaml) {belowKey : Bool} {fuel : Nat} {ts : Tokens}
    {rest : List Token}, v.isTabular = true → 2 * v.lexemes.length ≤ fuel →
    ts.rest = v.lexemes ++ rest → readNode true belowKey fuel ts = some (v.asRead, { ts with rest })
  | .scalar style text, belowKey, fuel, ts, rest, h, hfuel, hts => by
      obtain ⟨fuel, rfl⟩ : ∃ n, fuel = n + 1 :=
        Nat.exists_eq_add_of_le' (Nat.le_of_succ_le hfuel)
      rw [asRead]
      exact readNode_scalar (by rw [hts, lexemes]; rfl)
  | .table es, belowKey, fuel, ts, rest, h, hfuel, hts => by
      rw [lexemes, List.length_cons, List.length_append, List.length_singleton] at hfuel
      obtain ⟨fuel, rfl⟩ : ∃ n, fuel = n + 1 := Nat.exists_eq_add_of_le' (by omega)
      rw [lexemes, List.cons_append, List.append_assoc] at hts
      rw [asRead]
      have hes : areTabular es = true := by
        cases es with
        | nil => rfl
        | cons e es => exact h
      exact readNode_table hts (readEntries_lexemes es hes (by omega) rfl)
  | .list _, _, _, _, _, h, _, _ => by cases h
  | .tagged _ _, _, _, _, _, h, _, _ => by cases h

theorem readEntries_lexemes : ∀ (es : List (Yaml × Yaml)) {fuel : Nat} {ts : Tokens}
    {rest : List Token}, areTabular es = true → 2 * (entryLexemes es).length < fuel →
    ts.rest = entryLexemes es ++ .blockEnd :: rest →
    readEntries fuel ts = some (asReadEntries es, { ts with rest })
  | [], fuel, ts, rest, _, hfuel, hts => by
      obtain ⟨fuel, rfl⟩ : ∃ n, fuel = n + 1 := Nat.exists_eq_add_of_le' hfuel
      obtain ⟨_, shortTags, anchors⟩ := ts
      obtain rfl := hts
      rfl
  | (key, v) :: es, fuel, ts, rest, h, hfuel, hts => by
      obtain ⟨name, rfl, hname, hv, hes⟩ := areTabular_cons h
      rw [entryLexemes] at hfuel hts
      simp only [List.length_cons, List.length_append] at hfuel
      obtain ⟨fuel, rfl⟩ : ∃ n, fuel = n + 3 := Nat.exists_eq_add_of_le' (by omega)
      rw [asReadEntries]
      refine readEntries_key { ts with rest := entryLexemes es ++ .blockEnd :: rest } hts ?_ ?_
      · rw [readNodeOrEmpty_lexemes hv (List.append_assoc _ _ _)]
        exact readNode_lexemes v hv (by omega) (List.append_assoc _ _ _)
      · exact readEntries_lexemes es hes (by omega) rfl

end

/-- A table comes back from its tokens, whether or not a mark ends its document. -/
theorem ofTokens?_lexemes {es : List (Yaml × Yaml)} (h : (Yaml.table es).isTabular = true)
    {ends : List Token} (hends : ∀ t ∈ ends, t = .documentStop) :
    ofTokens? ((Yaml.table es).lexemes ++ ends) = some (Yaml.table es).asRead := by
  have hread : readNode true false (2 * ((Yaml.table es).lexemes ++ ends).length + 2)
      { rest := (Yaml.table es).lexemes ++ ends } =
        some ((Yaml.table es).asRead, { rest := ends }) :=
    readNode_lexemes (.table es) h (by simp; omega) rfl
  have hall : ends.all (· == .documentStop) = true :=
    List.all_eq_true.2 fun t ht => beq_iff_eq.2 (hends t ht)
  have hcons : (Yaml.table es).lexemes ++ ends =
    .entriesBegin :: (entryLexemes es ++ [.blockEnd] ++ ends) := by rw [lexemes, List.cons_append]
  rw [hcons] at hread ⊢
  show ((readNode true false _ _).bind fun x => if x.2.rest.all _ then some x.1 else none) = _
  rw [hread, Option.bind_some]
  exact if_pos hall

/-! ## Characters of a text -/

/-- Whether some characters may stand in a text as they are. -/
def Admitted (cs : List Char) : Prop := ∀ c ∈ cs, isAdmitted c = true

instance (cs : List Char) : Decidable (Admitted cs) :=
  decidable_of_iff (cs.all isAdmitted = true) List.all_eq_true

theorem Admitted.append {cs ds : List Char} (hcs : Admitted cs) (hds : Admitted ds) :
    Admitted (cs ++ ds) := fun c hc => (List.mem_append.1 hc).elim (hcs c) (hds c)

theorem Admitted.of_printable {cs : List Char} (h : ∀ c ∈ cs, isPrintable c = true) :
    Admitted cs := fun c hc => by
  have hprint := h c hc
  simp only [isPrintable, Bool.and_eq_true] at hprint
  exact hprint.1.1

theorem admitted_indentation (level : Nat) : Admitted (indentation level).toList := by
  intro c hc
  rw [toList_indentation] at hc
  rw [List.eq_of_mem_replicate hc]
  decide

theorem Admitted.indentLines {cs : List Char} (h : Admitted cs) (level : Nat) (atStart : Bool) :
    Admitted (indentLines level atStart cs) := by
  induction cs generalizing atStart with
  | nil => exact List.forall_mem_nil _
  | cons c cs ih =>
      obtain ⟨hc, hcs⟩ := List.forall_mem_cons.1 h
      rw [Yaml.indentLines]
      split
      · exact List.forall_mem_cons.2 ⟨hc, ih hcs true⟩
      · refine Admitted.append ?_ (List.forall_mem_cons.2 ⟨hc, ih hcs false⟩)
        split
        · exact admitted_indentation level
        · exact List.forall_mem_nil _

theorem admitted_singleQuoted {cs : List Char} (h : Admitted cs) (level : Nat) :
    Admitted (singleQuoted level cs) := by
  have hdoubled : Admitted (cs.flatMap fun c => if c == '\'' then ['\'', '\''] else [c]) := by
    intro c hc
    obtain ⟨d, hd, hc⟩ := List.mem_flatMap.1 hc
    split at hc
    · rw [List.mem_pair, or_self] at hc
      rw [hc]
      decide
    · rw [List.mem_singleton.1 hc]
      exact h d hd
  refine List.forall_mem_cons.2 ⟨by decide, ((hdoubled.indentLines level false).append ?_).append
    (by decide)⟩
  split
  · exact admitted_indentation level
  · exact List.forall_mem_nil _

theorem admitted_doubleQuoted (cs : List Char) : Admitted (doubleQuoted cs) := by
  refine List.forall_mem_cons.2 ⟨by decide, Admitted.append (.of_printable fun c hc => ?_)
    (by decide)⟩
  obtain ⟨d, -, hc⟩ := List.mem_flatMap.1 hc
  exact (isPrintable_of_mem_escaped hc).1

theorem admitted_literal {cs : List Char} (h : Admitted cs) (level : Nat) :
    Admitted (literal level cs) := by
  have hheader : Admitted ((if hidesIndent cs then ['2'] else []) ++ (chomping cs).mark) := by
    cases hidesIndent cs <;> cases chomping cs <;> decide
  have htext : literal level cs = '|' :: ((if hidesIndent cs then ['2'] else []) ++
      (chomping cs).mark ++ '\n' :: indentLines level true cs) := rfl
  rw [htext]
  exact List.forall_mem_cons.2 ⟨by decide,
    hheader.append (List.forall_mem_cons.2 ⟨by decide, h.indentLines level true⟩)⟩

theorem admitted_scalarLine (level : Nat) {style : Style} {text : String}
    (h : style = .plain → fitsPlain text = true) :
    Admitted (scalarLine level style text).toList := by
  by_cases hstyle : style = .plain
  · subst hstyle
    have hfits := h rfl
    simp only [fitsPlain, Bool.and_eq_true, List.all_eq_true] at hfits
    rw [scalarLine, String.toList_append]
    exact (Admitted.of_printable fun c hc => (hfits.1.1.1.1.2 c hc).1).append (by decide)
  · rw [scalarLine_of_ne_plain level hstyle]
    split
    · next hfits =>
        simp only [fitsLiteral, Bool.and_eq_true, List.all_eq_true] at hfits
        refine (admitted_literal (.of_printable hfits.1.1.2) _).append ?_
        split
        · exact List.forall_mem_nil _
        · decide
    · split
      · next hfits =>
          simp only [fitsSingle, Bool.and_eq_true, List.all_eq_true] at hfits
          exact (admitted_singleQuoted (.of_printable hfits.1.1.2) _).append (by decide)
      · exact (admitted_doubleQuoted _).append (by decide)

theorem admitted_name {name : String} (h : isName name = true) : Admitted name.toList := by
  obtain ⟨-, -, -, -, hletters⟩ := exists_of_isName h
  exact .of_printable fun c hc => isPrintable_of_isNameLetter (hletters c hc)

theorem admitted_entry {level : Nat} {name : String} {v : Yaml} (hname : isName name = true)
    (hv : Admitted (valueText level v).toList) : Admitted
      (indentation level ++ keyText (.scalar .plain name) ++ ":" ++ valueText level v).toList := by
  simp only [String.toList_append]
  have hcolon : Admitted ":".toList := by decide
  exact (((admitted_indentation level).append (admitted_name hname)).append hcolon).append hv

mutual

theorem admitted_valueText : ∀ (v : Yaml) (level : Nat), v.isTabular = true →
    Admitted (valueText level v).toList
  | .scalar style text, level, h => by
      rw [valueText, String.toList_append]
      refine Admitted.append (by decide) (admitted_scalarLine level ?_)
      rintro rfl
      exact h
  | .table ((key, v) :: es), level, h => by
      obtain ⟨name, rfl, hname, hv, hes⟩ := areTabular_cons h
      have hentry := admitted_entry hname (admitted_valueText v (level + 1) hv)
      have hmore := admitted_entriesText es (level + 1) hes
      rw [valueText]
      simp only [String.toList_append] at hentry ⊢
      simp only [List.append_assoc] at hentry ⊢
      refine Admitted.append (by decide) ?_
      simpa only [List.append_assoc] using hentry.append hmore
  | .table [], _, h => by cases h
  | .list _, _, h => by cases h
  | .tagged _ _, _, h => by cases h

theorem admitted_entriesText : ∀ (es : List (Yaml × Yaml)) (level : Nat), areTabular es = true →
    Admitted (entriesText level es).toList
  | [], level, _ => by
      rw [entriesText]
      decide
  | (key, v) :: es, level, h => by
      obtain ⟨name, rfl, hname, hv, hes⟩ := areTabular_cons h
      rw [entriesText, String.toList_append]
      exact (admitted_entry hname (admitted_valueText v level hv)).append
        (admitted_entriesText es level hes)

end

/-- A text whose characters may all stand in it has one kind of line break. -/
theorem unifyBreaks_admitted {cs : List Char} (h : Admitted cs) : unifyBreaks cs = cs := by
  induction cs with
  | nil => rfl
  | cons c cs ih =>
      obtain ⟨hc, hcs⟩ := List.forall_mem_cons.1 h
      rw [unifyBreaks, ih hcs]
      · rintro ds rfl
        cases hc
      · rintro rfl
        cases hc
      · rintro rfl
        cases hc

/-! ## The whole way -/

theorem documentText_table {name : String} {v : Yaml} {es : List (Yaml × Yaml)} :
    (documentText (.table ((.scalar .plain name, v) :: es))).toList = name.toList ++
      (":" ++ valueText 0 v ++ entriesText 0 es ++
        endMark (.table ((.scalar .plain name, v) :: es))).toList := by
  have htext : documentText (.table ((.scalar .plain name, v) :: es)) =
      entriesText 0 ((.scalar .plain name, v) :: es) ++
        endMark (.table ((.scalar .plain name, v) :: es)) := rfl
  rw [htext, entriesText]
  simp [toList_indentation, keyText]

theorem admitted_documentText {es : List (Yaml × Yaml)} (h : (Yaml.table es).isTabular = true) :
    Admitted (documentText (.table es)).toList := by
  cases es with
  | nil => cases h
  | cons e es =>
      have htext : documentText (.table (e :: es)) =
          entriesText 0 (e :: es) ++ endMark (.table (e :: es)) := rfl
      rw [htext, String.toList_append]
      refine (admitted_entriesText _ 0 h).append ?_
      rw [endMark]
      split <;> decide

/-- A table of scalars and tables is read from its text as it was written. -/
theorem ofText?_documentText {es : List (Yaml × Yaml)} (h : (Yaml.table es).isTabular = true) :
    ofText? (documentText (.table es)) = some (Yaml.table es).asRead := by
  have hadmitted := admitted_documentText h
  have htokens := tokens_documentText h
  have hmark : dropByteOrderMark (documentText (.table es)).toList =
      (documentText (.table es)).toList := by
    obtain ⟨name, v, more, rfl, hname, -⟩ := areTabular_of_isTabular h
    obtain ⟨c, cs, hcs, hc, -⟩ := exists_of_isName hname
    rw [documentText_table, hcs, List.cons_append, dropByteOrderMark]
    intro ds hds
    exact ne_of_isNameLetter hc (by decide) (List.cons.inj hds).1
  have hall : (documentText (.table es)).toList.all isAdmitted = true :=
    List.all_eq_true.2 hadmitted
  rw [ofText?, hmark, unifyBreaks_admitted hadmitted, if_pos hall, htokens, Option.bind_some]
  refine ofTokens?_lexemes h fun t ht => ?_
  split at ht
  · exact List.mem_singleton.1 ht
  · cases ht

end NoteRoll.Yaml
