import NoteRoll.Proofs.YamlBlocks
import NoteRoll.Yaml.Token

/-!
# Tables are read as the tokens that they are written as

A table is a line for each of its entries, and the lines of a table within it stand further in.
The reader sees neither entries nor tables: it sees a scalar, a colon behind it that makes the
scalar a key, and the columns at which lines begin. So a block is begun by the first key that
stands further in than the last one, and ended by whatever stands further out.

`Leads` says that reading one text comes to reading another. What a value leads to depends on
the line behind it, which may hold a further entry, or one of a table around it, or the end.
All that matters of it is the column at which it begins, and that something begins there.
-/

namespace NoteRoll.Yaml

namespace Lexer

/-! ## Steps -/

/-- What is left of a text is read like what is left of another, some tokens later. Each of them
takes a character at least. -/
def Leads (l l' : Lexer) : Prop :=
  ∃ n, n + l'.cursor.rest.length ≤ l.cursor.rest.length ∧
    ∀ fuel, run? (fuel + n) l = run? fuel l'

theorem Leads.refl (l : Lexer) : Leads l l := ⟨0, Nat.le_of_eq (Nat.zero_add _), fun _ => rfl⟩

theorem Leads.trans {l₁ l₂ l₃ : Lexer} (h : Leads l₁ l₂) (h' : Leads l₂ l₃) : Leads l₁ l₃ := by
  obtain ⟨n, hn, hrun⟩ := h
  obtain ⟨m, hm, hrun'⟩ := h'
  exact ⟨m + n, by omega, fun fuel => by rw [← Nat.add_assoc, hrun, hrun']⟩

/-- There is fuel enough for both. -/
theorem Leads.run? {l l' : Lexer} (h : Leads l l') {tokens : Array Token}
    (hrun : ∀ fuel, Lexer.run? (fuel + l'.cursor.rest.length + 1) l' = some tokens) :
    Lexer.run? (l.cursor.rest.length + 1) l = some tokens := by
  obtain ⟨n, hn, hleads⟩ := h
  obtain ⟨fuel, hfuel⟩ := Nat.exists_eq_add_of_le' hn
  rw [hfuel, ← hrun fuel, ← hleads]
  congr 1
  omega

/-- A text outside of brackets, where no key has begun. -/
def outside (p : Place) (rest : List Char) (tokens : List Token) (indent : Int) (outer : List Int)
    (keyAllowed : Bool) : Lexer :=
  { cursor := ⟨p, rest⟩, tokens := tokens.toArray, indent, outer, keyAllowed }

theorem closeBlocks_of_le {l : Lexer} {column : Int} (h : l.indent ≤ column) :
    l.closeBlocks column = l := by
  have hclose : ∀ (outer : List Int) (tokens : Array Token),
      closeFrom column l.indent outer tokens = (l.indent, outer, tokens) := by
    intro outer tokens
    cases outer with
    | nil => rfl
    | cons next outer => rw [closeFrom, if_neg (Int.not_lt.2 h)]
  rw [closeBlocks, hclose]
  split <;> rfl

theorem token?_eq_of_closed {l l' : Lexer} {c : Char} {cs : List Char}
    (h : l.cursor.rest = c :: cs) (h' : l'.cursor.rest = c :: cs)
    (hclosed : l.closeBlocks l.column = l'.closeBlocks l'.column) : l.token? = l'.token? := by
  unfold token?
  simp -zeta only [h, h']
  rw [hclosed]

section Outside

variable {p : Place} {rest next : List Char} {tokens : List Token} {indent : Int}
  {outer : List Int} {keyAllowed : Bool}

theorem dropFarKeys?_outside : (outside p rest tokens indent outer keyAllowed).dropFarKeys? =
    some (outside p rest tokens indent outer keyAllowed) := rfl

theorem skipSpace_outside (h : Resumes next) :
    (outside p next tokens indent outer keyAllowed).skipSpace =
      outside p next tokens indent outer keyAllowed := by
  cases next with
  | nil => rfl
  | cons c cs =>
      obtain ⟨hblank, hbreak, hcomment, hmark⟩ := h c rfl
      simp only [isBlank, Bool.or_eq_false_iff] at hblank
      simp [skipSpace, outside, skipSpaceFrom, hbreak, hblank, hcomment, hmark]

theorem leads_blank : Leads (outside p (' ' :: rest) tokens indent outer keyAllowed)
    (outside (p.after ' ') rest tokens indent outer keyAllowed) := by
  refine ⟨0, ?_, fun fuel => ?_⟩
  · simp [outside]
  · cases fuel <;> rfl

theorem leads_blanks (k : Nat) :
    Leads (outside p (List.replicate k ' ' ++ rest) tokens indent outer keyAllowed)
      (outside (p.afterAll (List.replicate k ' ')) rest tokens indent outer keyAllowed) := by
  induction k generalizing p with
  | zero => exact .refl _
  | succ k ih => exact leads_blank.trans ih

/-- A new line may begin with a key. -/
theorem leads_lineBreak : Leads (outside p ('\n' :: rest) tokens indent outer keyAllowed)
    (outside (p.after '\n') rest tokens indent outer true) := by
  refine ⟨0, ?_, fun fuel => ?_⟩
  · simp [outside]
  · cases fuel <;> cases keyAllowed <;> rfl

/-- A block is ended by what stands further out. -/
theorem leads_close {around : Int} (hnext : Resumes next) (h : (p.column : Int) < indent) :
    Leads (outside p next tokens indent (around :: outer) keyAllowed)
      (outside p next (tokens ++ [.blockEnd]) around outer keyAllowed) := by
  have hclose : ∀ column : Int, column ≤ p.column →
      (outside p next tokens indent (around :: outer) keyAllowed).closeBlocks column =
        (outside p next (tokens ++ [.blockEnd]) around outer keyAllowed).closeBlocks column := by
    intro column hcolumn
    simp only [closeBlocks, outside, closeFrom, if_pos (Int.lt_of_le_of_lt hcolumn h),
      List.push_toArray]
    rfl
  refine ⟨0, Nat.le_of_eq (Nat.zero_add _), fun fuel => ?_⟩
  cases fuel with
  | zero => rfl
  | succ fuel =>
      rw [Nat.add_zero, run?, run?, skipSpace_outside hnext, skipSpace_outside hnext,
        dropFarKeys?_outside, dropFarKeys?_outside]
      cases next with
      | nil =>
          show (((outside _ [] _ _ _ _).closeBlocks (-1)).dropKey?.bind fun l => some l.tokens) = _
          rw [hclose (-1) (by omega)]
          rfl
      | cons c cs =>
          have htoken : (outside p (c :: cs) tokens indent (around :: outer) keyAllowed).token? =
              (outside p (c :: cs) (tokens ++ [.blockEnd]) around outer keyAllowed).token? := by
            exact token?_eq_of_closed rfl rfl (hclose p.column (Int.le_refl _))
          show (outside _ (c :: cs) _ _ _ _).token?.bind _ =
            (outside _ (c :: cs) _ _ _ _).token?.bind _
          rw [htoken]

/-- One token, where something begins that is no space. -/
theorem leads_token {l l' : Lexer} (hskip : l.skipSpace = l) (hfar : l.dropFarKeys? = some l)
    (htoken : l.token? = some l') (hlength : l'.cursor.rest.length < l.cursor.rest.length) :
    Leads l l' := by
  have hrest : l.cursor.rest.isEmpty = false := by
    cases h : l.cursor.rest with
    | nil => simp [h] at hlength
    | cons c cs => rfl
  refine ⟨1, by omega, fun fuel => ?_⟩
  rw [run?, hskip, hfar]
  simp only [bind, Option.bind_some, hrest, htoken, Bool.false_eq_true, if_false]

section Marks

variable {l : Lexer} {cs : List Char} (hclosed : l.closeBlocks l.column = l)
  (hcolumn : l.column ≠ 0)
include hclosed hcolumn

theorem token?_colon (hrest : l.cursor.rest = ':' :: cs) (hgap : atGap cs = true) :
    l.token? = l.colon? := by
  unfold token?
  simp [hrest, hclosed, hcolumn, hgap]

theorem token?_quoted {double : Bool}
    (hrest : l.cursor.rest = (if double then '"' else '\'') :: cs) :
    l.token? = l.quoted? double := by
  unfold token?
  cases double <;> simp [hrest, hclosed, hcolumn]

theorem token?_literal (hrest : l.cursor.rest = '|' :: cs) (hbrackets : l.inBrackets = false) :
    l.token? = l.block? true := by
  unfold token?
  simp [hrest, hclosed, hcolumn, hbrackets]

end Marks

/-- A plain scalar begins with none of the marks of other tokens. -/
theorem token?_plain {l : Lexer} (hbrackets : l.inBrackets = false)
    (hclosed : l.closeBlocks l.column = l) (hstarts : startsPlain false l.cursor.rest = true)
    (hmark : l.column = 0 → documentMark? l.cursor.rest = none) : l.token? = l.plain? := by
  obtain ⟨c, cs, hrest⟩ : ∃ c cs, l.cursor.rest = c :: cs := by
    cases h : l.cursor.rest with
    | nil => rw [h] at hstarts; cases hstarts
    | cons c cs => exact ⟨c, cs, rfl⟩
  have hnone : (if l.column = 0 then documentMark? (c :: cs) else none) = none := by
    split
    · next h => rw [← hrest, hmark h]
    · rfl
  rw [hrest] at hstarts
  unfold token?
  simp only [hrest, hclosed, hnone, hbrackets, hstarts]
  obtain ⟨⟨-, -, hindicators⟩, hgap⟩ := startsPlain_cons hstarts
  simp only [indicators, List.forall_mem_cons] at hindicators
  have hmarks : ∀ d, d = '-' ∨ d = '?' ∨ d = ':' → (c == d && atGap cs) = false := by
    intro d hd
    rw [Bool.and_eq_false_imp, beq_iff_eq]
    rintro rfl
    exact hgap hd
  simp only [hindicators, hmarks, Bool.false_or, Bool.and_false, Bool.false_and, Bool.or_self,
    Bool.false_eq_true, if_false, if_true, true_or, or_true]

end Outside

/-! ## Keys -/

end Lexer

/-- Characters of names that are written as they are. -/
def isNameLetter (c : Char) : Bool := ('a' ≤ c && c ≤ 'z') || c == '_'

/-- Names that may stand as keys without quotes. -/
def isName (text : String) : Bool :=
  !text.toList.isEmpty && text.toList.all isNameLetter && text.toList.length ≤ Lexer.maxKeyBytes

theorem ne_of_isNameLetter {c d : Char} (h : isNameLetter c = true) (hd : isNameLetter d = false) :
    c ≠ d := by
  rintro rfl
  rw [h] at hd
  cases hd

theorem toNat_of_isNameLetter {c : Char} (h : isNameLetter c = true) :
    95 ≤ c.toNat ∧ c.toNat ≤ 122 := by
  simp only [isNameLetter, Bool.or_eq_true, Bool.and_eq_true, decide_eq_true_eq, beq_iff_eq] at h
  rcases h with ⟨ha, hz⟩ | rfl
  · exact ⟨Nat.le_trans (by decide) (Char.le_def.1 ha), Char.le_def.1 hz⟩
  · decide

theorem isNameLetter_inLine {c : Char} (h : isNameLetter c = true) :
    isBlank c = false ∧ isBreak c = false := by
  simp only [isBlank, isBreak, Bool.or_eq_false_iff, beq_eq_false_iff_ne]
  exact ⟨⟨ne_of_isNameLetter h (by decide), ne_of_isNameLetter h (by decide)⟩,
    ⟨ne_of_isNameLetter h (by decide), ne_of_isNameLetter h (by decide)⟩,
    ne_of_isNameLetter h (by decide)⟩

theorem isPrintable_of_isNameLetter {c : Char} (h : isNameLetter c = true) :
    isPrintable c = true := by
  obtain ⟨hlow, hhigh⟩ := toNat_of_isNameLetter h
  have hadmitted : isAdmitted c = true := by
    simp only [isAdmitted, Bool.or_eq_true, Bool.and_eq_true, decide_eq_true_eq]
    omega
  rw [isPrintable, hadmitted, bne_iff_ne.2 (ne_of_isNameLetter h (by decide)),
    bne_iff_ne.2 (ne_of_isNameLetter h (by decide))]
  rfl

theorem utf8Size_of_isNameLetter {c : Char} (h : isNameLetter c = true) : c.utf8Size = 1 := by
  obtain ⟨-, hhigh⟩ := toNat_of_isNameLetter h
  rw [Char.utf8Size_eq_one_iff, UInt32.le_iff_toNat_le]
  exact Nat.le_trans hhigh (by decide)

theorem startsPlain_name {c : Char} (h : isNameLetter c = true) (cs : List Char) :
    startsPlain false (c :: cs) = true := by
  obtain ⟨hblank, hbreak⟩ := isNameLetter_inLine h
  have hindicator : c ∉ indicators := fun hmem => by
    have hall : (indicators.all fun d => !isNameLetter d) = true := by decide
    have hnot := List.all_eq_true.1 hall c hmem
    rw [h] at hnot
    cases hnot
  have hmark : ∀ d, isNameLetter d = false → (c == d) = false := fun d hd =>
    beq_eq_false_iff_ne.2 (ne_of_isNameLetter h hd)
  simp [startsPlain, hmark '-' (by decide), hmark '?' (by decide), hmark ':' (by decide), hblank,
    hbreak, hindicator]

theorem exists_of_isName {name : String} (h : isName name = true) : ∃ c cs, name.toList = c :: cs ∧
    isNameLetter c = true ∧ ∀ d ∈ name.toList, isNameLetter d = true := by
  simp only [isName, Bool.and_eq_true, Bool.not_eq_true', List.isEmpty_eq_false_iff,
    List.all_eq_true] at h
  obtain ⟨⟨hne, hletters⟩, -⟩ := h
  obtain ⟨c, cs, hcs⟩ := List.exists_cons_of_ne_nil hne
  exact ⟨c, cs, hcs, hletters c (by rw [hcs]; exact List.mem_cons_self), hletters⟩

theorem resumes_name {name : String} (h : isName name = true) (rest : List Char) :
    Resumes (name.toList ++ rest) := by
  obtain ⟨c, cs, hcs, hc, -⟩ := exists_of_isName h
  rw [hcs]
  exact resumes_cons ⟨(isNameLetter_inLine hc).1, (isNameLetter_inLine hc).2,
    ne_of_isNameLetter hc (by decide), ne_of_isNameLetter hc (by decide)⟩ _

theorem documentMark?_of_ne {c : Char} (hdash : c ≠ '-') (hpoint : c ≠ '.') (cs : List Char) :
    documentMark? (c :: cs) = none := by
  rw [documentMark?.eq_def]
  split
  · next hcs => exact absurd (List.cons.inj hcs).1 hdash
  · next hcs => exact absurd (List.cons.inj hcs).1 hpoint
  · rfl

theorem afterAll_name (p : Place) {cs : List Char} (h : ∀ c ∈ cs, isNameLetter c = true) :
    p.afterAll cs = ⟨p.bytes + cs.length, p.line, p.column + cs.length⟩ := by
  induction cs generalizing p with
  | nil => rfl
  | cons c cs ih =>
      obtain ⟨hc, hcs⟩ := List.forall_mem_cons.1 h
      rw [Place.afterAll_cons, ih _ hcs, Place.after, (isNameLetter_inLine hc).2,
        utf8Size_of_isNameLetter hc]
      simp only [Bool.false_eq_true, if_false, List.length_cons, Place.mk.injEq, true_and]
      exact ⟨by omega, by omega⟩

namespace Lexer

section Outside

variable {p : Place} {rest next : List Char} {tokens : List Token} {indent : Int}
  {outer : List Int} {keyAllowed : Bool}

/-- A text behind the name of an entry that begins at a place, before its colon. -/
def behindName (start : Place) (name : String) (rest : List Char) (tokens : List Token)
    (indent : Int) (outer : List Int) : Lexer :=
  { outside (start.afterAll name.toList) (':' :: rest) (tokens ++ [.scalar .plain name]) indent
      outer false with
    keys := [some ⟨start, tokens.length, indent == (start.column : Int)⟩] }

theorem leads_name {name : String} (hname : isName name = true) (hrest : atGap rest = true)
    (hindent : indent ≤ p.column) :
    Leads (outside p (name.toList ++ ':' :: rest) tokens indent outer true)
      (behindName p name rest tokens indent outer) := by
  obtain ⟨c, cs, hcs, hc, hletters⟩ := exists_of_isName hname
  refine leads_token (skipSpace_outside (resumes_name hname _)) rfl ?_ ?_
  · rw [token?_plain rfl (closeBlocks_of_le hindent)]
    · have hread : readPlain false (indent + 1).toNat ⟨p, name.toList ++ ':' :: rest⟩ =
          some (String.ofList name.toList, false, ⟨p.afterAll name.toList, ':' :: rest⟩) :=
        readPlain_key (fun d hd => ⟨(isNameLetter_inLine (hletters d hd)).1,
          (isNameLetter_inLine (hletters d hd)).2,
          ne_of_isNameLetter (hletters d hd) (by decide)⟩) hrest
      rw [String.ofList_toList] at hread
      have hsave : (outside p (name.toList ++ ':' :: rest) tokens indent outer true).saveKey? =
          some { outside p (name.toList ++ ':' :: rest) tokens indent outer true with
            keys := [some ⟨p, tokens.length, indent == (p.column : Int)⟩] } := rfl
      rw [plain?, hsave]
      show (readPlain false (indent + 1).toNat ⟨p, name.toList ++ ':' :: rest⟩).bind _ = _
      rw [hread]
      simp [behindName, outside, push]
    · show startsPlain false (name.toList ++ ':' :: rest) = true
      rw [hcs]
      exact startsPlain_name hc _
    · intro _
      show documentMark? (name.toList ++ ':' :: rest) = none
      rw [hcs, List.cons_append]
      exact documentMark?_of_ne (ne_of_isNameLetter hc (by decide))
        (ne_of_isNameLetter hc (by decide)) _
  · show (':' :: rest).length < (name.toList ++ ':' :: rest).length
    rw [hcs]
    simp only [List.cons_append, List.length_cons, List.length_append]
    omega

theorem column_lt_behindName {name : String} (hname : isName name = true) :
    p.column < ((p.afterAll name.toList).after ':').column := by
  simp only [isName, Bool.and_eq_true, List.all_eq_true] at hname
  rw [Place.column_after _ rfl, afterAll_name p hname.1.2]
  exact Nat.lt_succ_of_le (Nat.le_add_right _ _)

theorem insertIdx_between (tokens more : List Token) (t : Token) :
    (tokens ++ more).toArray.insertIdxIfInBounds tokens.length t =
      (tokens ++ t :: more).toArray := by
  rw [List.insertIdxIfInBounds_toArray]
  congr 1
  induction tokens with
  | nil => rfl
  | cons u tokens ih => rw [List.cons_append, List.length_cons, List.insertIdx_succ_cons, ih]; rfl

theorem openBlock_outside (more : List Token) {column : Nat} (h : indent < column) (t : Token) :
    (outside p rest (tokens ++ more) indent outer keyAllowed).openBlock column tokens.length t =
      outside p rest (tokens ++ t :: more) column (indent :: outer) keyAllowed := by
  have hopens : ((outside p rest (tokens ++ more) indent outer keyAllowed).inBrackets ||
      decide ((column : Int) ≤ indent)) = false := by
    rw [Bool.or_eq_false_iff]
    exact ⟨rfl, decide_eq_false (Int.not_le.2 h)⟩
  rw [openBlock]
  show (if (_ || decide ((column : Int) ≤ indent)) = true then _ else _) = _
  rw [hopens, if_neg Bool.false_ne_true]
  simp only [outside, insertIdx_between]

/-- What the colon makes of a name: a key, whose token goes in front of it. -/
theorem colon?_behindName (name : String) : (behindName p name rest tokens indent outer).colon? =
    some { ((outside (p.afterAll name.toList) (':' :: rest)
        (tokens ++ [.key, .scalar .plain name]) indent outer false).openBlock p.column tokens.length
          .entriesBegin).take 1 .value with keyAllowed := false } := by
  rw [colon?, behindName]
  simp only [outside, insertIdx_between]

/-- The colon comes soon enough for the name to be a key. -/
theorem leads_colon {name : String} (hname : isName name = true) (hrest : atGap rest = true)
    (hindent : indent ≤ p.column) {l : Lexer}
    (hcolon : (behindName p name rest tokens indent outer).colon? = some l)
    (hlength : l.cursor.rest = rest) :
    Leads (outside p (name.toList ++ ':' :: rest) tokens indent outer true) l := by
  refine (leads_name hname hrest hindent).trans ?_
  simp only [isName, Bool.and_eq_true, List.all_eq_true, decide_eq_true_eq, Bool.not_eq_true',
    List.isEmpty_eq_false_iff] at hname
  obtain ⟨⟨hne, hletters⟩, hbytes⟩ := hname
  have hplace := afterAll_name p hletters
  have hpos := List.length_pos_iff.2 hne
  have hcolumn : (p.afterAll name.toList).column = p.column + name.toList.length := by rw [hplace]
  refine leads_token rfl ?_ ?_ ?_
  · have hnear : isFarFrom (p.afterAll name.toList) ⟨p, tokens.length, indent == (p.column : Int)⟩ =
        false := by
      rw [hplace]
      simp [isFarFrom]
      omega
    simp [dropFarKeys?, behindName, outside, hnear]
  · rw [← hcolon]
    refine token?_colon (closeBlocks_of_le ?_) ?_ rfl hrest
    · show indent ≤ ((p.afterAll name.toList).column : Int)
      omega
    · show (p.afterAll name.toList).column ≠ 0
      omega
  · rw [hlength]
    exact Nat.lt_succ_self _

variable (tokens outer) in
theorem leads_key {name : String} (hname : isName name = true) (hrest : atGap rest = true)
    (hindent : indent = p.column) :
    ∃ q, p.column < q.column ∧ Leads
      (outside p (name.toList ++ ':' :: rest) tokens indent outer true)
      (outside q rest (tokens ++ [.key, .scalar .plain name, .value]) indent outer false) := by
  refine ⟨(p.afterAll name.toList).after ':', column_lt_behindName hname,
    leads_colon hname hrest (Int.le_of_eq hindent) ?_ rfl⟩
  rw [colon?_behindName, openBlock, if_pos]
  · simp [outside, take, Cursor.drop]
  · simp [outside, hindent]

variable (tokens outer) in
/-- The first key of a table begins a block at its column. -/
theorem leads_firstKey {name : String} (hname : isName name = true) (hrest : atGap rest = true)
    (hindent : indent < p.column) :
    ∃ q, p.column < q.column ∧ Leads
      (outside p (name.toList ++ ':' :: rest) tokens indent outer true)
      (outside q rest (tokens ++ [.entriesBegin, .key, .scalar .plain name, .value]) p.column
        (indent :: outer) false) := by
  refine ⟨(p.afterAll name.toList).after ':', column_lt_behindName hname,
    leads_colon hname hrest (Int.le_of_lt hindent) ?_ rfl⟩
  rw [colon?_behindName, openBlock_outside _ hindent]
  simp [outside, take, Cursor.drop]

end Outside

/-! ## Scalars -/

end Lexer

/-- How a scalar is read: what is quoted may have been written as a literal block. -/
def Style.asRead (style : Style) (text : String) : Style :=
  match style with
  | .plain => .plain
  | .quoted | .literal => if fitsLiteral text.toList then .literal else .quoted

theorem Style.asRead_of_ne_plain {style : Style} (h : style ≠ .plain) (text : String) :
    style.asRead text = if fitsLiteral text.toList then .literal else .quoted := by
  cases style with
  | plain => exact absurd rfl h
  | quoted => rfl
  | literal => rfl

theorem scalarLine_of_ne_plain (level : Nat) {style : Style} (h : style ≠ .plain) (text : String) :
    (scalarLine level style text).toList =
      if fitsLiteral text.toList then literal (level + 1) text.toList ++
        (if text.toList.getLast?.any isBreak then [] else ['\n'])
      else if fitsSingle text.toList then singleQuoted (level + 1) text.toList ++ ['\n']
      else doubleQuoted text.toList ++ ['\n'] := by
  cases style with
  | plain => exact absurd rfl h
  | quoted | literal =>
      simp only [scalarLine]
      split
      · split <;> simp
      · split <;> simp

namespace Lexer

section Scalars

variable {p : Place} {next : List Char} {tokens : List Token} {outer : List Int} {level k : Nat}
  (hk : k ≤ 2 * level) (hnext : Resumes next) (hp : 2 * level < p.column)
include hk hnext hp

theorem leads_plain {text : String} (hfits : fitsPlain text = true) :
    ∃ q, q.column = k ∧ Leads
      (outside p (text.toList ++ '\n' :: (List.replicate k ' ' ++ next)) tokens (2 * level : Nat)
        outer false)
      (outside q next (tokens ++ [.scalar .plain text]) (2 * level : Nat) outer true) := by
  have hleast : 2 * level + 1 ≤ p.column := hp
  have hread := readPlain_line hfits hleast (Nat.zero_lt_of_lt hp) (Nat.lt_succ_of_le hk) hnext
  simp only [fitsPlain, Bool.and_eq_true, List.all_eq_true] at hfits
  obtain ⟨⟨⟨⟨⟨hstarts, hprint⟩, -⟩, -⟩, -⟩, -⟩ := hfits
  have hstarts' := startsPlain_append hstarts ('\n' :: (List.replicate k ' ' ++ next))
  refine ⟨(p.afterAll text.toList).afterAll ('\n' :: List.replicate k ' '), ?_,
    leads_token (skipSpace_outside ?_) rfl ?_ ?_⟩
  · rw [Place.afterAll_cons, Place.column_afterAll_blanks, Place.column_after_break _ rfl,
      Nat.zero_add]
  · cases hcs : text.toList with
    | nil =>
        rw [hcs] at hstarts
        cases hstarts
    | cons c cs =>
        rw [hcs] at hstarts hprint
        obtain ⟨⟨hblank, hbreak, hindicators⟩, -⟩ := startsPlain_cons hstarts
        refine resumes_cons ⟨hblank, hbreak,
          beq_eq_false_iff_ne.1 (hindicators '#' (by decide)), ?_⟩ _
        rintro rfl
        exact absurd (hprint '\ufeff' List.mem_cons_self).1 (by decide)
  · rw [token?_plain rfl (closeBlocks_of_le ?_) hstarts' ?_]
    · show (readPlain false (2 * level + 1)
        ⟨p, text.toList ++ '\n' :: (List.replicate k ' ' ++ next)⟩).bind _ = _
      rw [hread]
      simp [outside, push]
    · show ((2 * level : Nat) : Int) ≤ p.column
      omega
    · intro h
      exact absurd (show p.column = 0 from h) (Nat.ne_of_gt (Nat.zero_lt_of_lt hp))
  · show next.length < (text.toList ++ '\n' :: (List.replicate k ' ' ++ next)).length
    simp only [List.length_append, List.length_cons, List.length_replicate]
    omega

omit hk hnext in
/-- A quoted scalar ends within a line, and the line is still to be ended behind it. -/
theorem leads_quoted (double : Bool) {body : List Char} {text : String}
    (hread : ∀ {p : Place}, 0 < p.column → ∃ q,
      readQuoted double ⟨p, body ++ '\n' :: (List.replicate k ' ' ++ next)⟩ =
        some (text, ⟨q, '\n' :: (List.replicate k ' ' ++ next)⟩)) :
    ∃ q, q.column = k ∧ Leads
      (outside p ((if double then '"' else '\'') ::
        (body ++ '\n' :: (List.replicate k ' ' ++ next))) tokens (2 * level : Nat) outer false)
      (outside q next (tokens ++ [.scalar .quoted text]) (2 * level : Nat) outer true) := by
  obtain ⟨q, hread⟩ := hread (p := p.after (if double then '"' else '\'')) (by
    rw [Place.column_after _ (by cases double <;> rfl)]
    exact Nat.succ_pos _)
  have hscalar : Leads
      (outside p ((if double then '"' else '\'') ::
        (body ++ '\n' :: (List.replicate k ' ' ++ next))) tokens (2 * level : Nat) outer false)
      (outside q ('\n' :: (List.replicate k ' ' ++ next)) (tokens ++ [.scalar .quoted text])
        (2 * level : Nat) outer false) := by
    refine leads_token (skipSpace_outside (resumes_cons ?_ _)) rfl ?_ ?_
    · cases double <;> decide
    · rw [token?_quoted (closeBlocks_of_le ?_) ?_ rfl]
      · show (readQuoted double ⟨p.after (if double then '"' else '\''), _⟩).bind _ = _
        rw [hread]
        simp [outside, push]
      · show ((2 * level : Nat) : Int) ≤ p.column
        omega
      · exact Nat.ne_of_gt (Nat.zero_lt_of_lt hp)
    · simp only [outside, List.length_append, List.length_cons]
      omega
  refine ⟨(q.after '\n').afterAll (List.replicate k ' '), ?_,
    hscalar.trans (leads_lineBreak.trans (leads_blanks k))⟩
  rw [Place.column_afterAll_blanks, Place.column_after_break _ rfl, Nat.zero_add]

variable (tokens outer) in
theorem leads_literal {cs : List Char} (hfits : fitsLiteral cs = true) :
    ∃ q, q.column = k ∧ Leads
      (outside p (literal (level + 1) cs ++
        ((if cs.getLast?.any isBreak then [] else ['\n']) ++ (List.replicate k ' ' ++ next)))
          tokens (2 * level : Nat) outer false)
      (outside q next (tokens ++ [.scalar .literal (String.ofList cs)]) (2 * level : Nat) outer
        true) := by
  obtain ⟨q, hread, hq⟩ := readBlockScalar_literal hk hnext hfits (p.after '|')
  refine ⟨q, hq, leads_token (skipSpace_outside (resumes_cons ?_ _)) rfl ?_ ?_⟩
  · decide
  · rw [token?_literal (closeBlocks_of_le ?_) ?_ rfl rfl]
    · show (readBlockScalar true (2 * level + 1) ⟨p.after '|', _⟩).bind _ = _
      erw [hread]
      simp [outside, push]
    · show ((2 * level : Nat) : Int) ≤ p.column
      omega
    · exact Nat.ne_of_gt (Nat.zero_lt_of_lt hp)
  · show next.length < (_ :: (_ ++ ((if cs.getLast?.any isBreak then [] else ['\n']) ++
      (List.replicate k ' ' ++ next)))).length
    simp only [List.length_append, List.length_cons]
    omega

variable (tokens outer) in
/-- A scalar behind a colon, up to what stands in the line behind it. -/
theorem leads_scalar {style : Style} {text : String}
    (hfits : style = .plain → fitsPlain text = true) :
    ∃ q, q.column = k ∧ Leads
      (outside p ((scalarLine level style text).toList ++ (List.replicate k ' ' ++ next)) tokens
        (2 * level : Nat) outer false)
      (outside q next (tokens ++ [.scalar (style.asRead text) text]) (2 * level : Nat) outer
        true) := by
  by_cases hstyle : style = .plain
  · subst hstyle
    have htext : (scalarLine level .plain text).toList = text.toList ++ ['\n'] :=
      String.toList_append
    rw [htext, List.append_assoc]
    exact leads_plain hk hnext hp (hfits rfl)
  · rw [scalarLine_of_ne_plain level hstyle, Style.asRead_of_ne_plain hstyle]
    split
    · next hliteral =>
        have hleads := leads_literal tokens outer hk hnext hp hliteral
        rw [String.ofList_toList] at hleads
        rw [List.append_assoc]
        exact hleads
    · split
      · next hsingle =>
          have htext : singleQuoted (level + 1) text.toList ++ ['\n'] ++
              (List.replicate k ' ' ++ next) = '\'' :: ((singleBody (level + 1) false text.toList ++
                ['\'']) ++ '\n' :: (List.replicate k ' ' ++ next)) := by
            rw [singleQuoted_eq]
            simp
          rw [htext]
          refine leads_quoted hp false fun {p} hcol => ?_
          rw [List.append_assoc, List.singleton_append,
            readQuoted_single (Nat.succ_pos level) hsingle hcol (by simp), String.ofList_toList]
          exact ⟨_, rfl⟩
      · have htext : doubleQuoted text.toList ++ ['\n'] ++ (List.replicate k ' ' ++ next) =
            '"' :: ((text.toList.flatMap escaped ++ ['"']) ++
              '\n' :: (List.replicate k ' ' ++ next)) := by
          rw [doubleQuoted]
          simp
        rw [htext]
        refine leads_quoted hp true fun {p} hcol => ?_
        rw [List.append_assoc, List.singleton_append, readQuoted_double hcol,
          String.ofList_toList]
        exact ⟨_, rfl⟩

end Scalars

end Lexer

/-! ## Tables -/

mutual

/-- Whether a value is a scalar, or a table of such values that is not empty and has names as
keys. -/
def isTabular : Yaml → Bool
  | .scalar .plain text => fitsPlain text
  | .scalar _ _ => true
  | .table (e :: es) => areTabular (e :: es)
  | _ => false

/-- Whether the keys of some entries are names and their values are tables or scalars. -/
def areTabular : List (Yaml × Yaml) → Bool
  | [] => true
  | (.scalar .plain name, v) :: es => isName name && v.isTabular && areTabular es
  | _ => false

end

mutual

/-- The tokens of a value. -/
def lexemes : Yaml → List Token
  | .scalar style text => [.scalar (style.asRead text) text]
  | .table es => .entriesBegin :: (entryLexemes es ++ [.blockEnd])
  | _ => []

/-- The tokens of the entries of a table. -/
def entryLexemes : List (Yaml × Yaml) → List Token
  | [] => []
  | (k, v) :: es => .key :: .scalar .plain (keyText k) :: .value :: (v.lexemes ++ entryLexemes es)

end

theorem areTabular_cons {key v : Yaml} {es : List (Yaml × Yaml)}
    (h : areTabular ((key, v) :: es) = true) :
    ∃ name, key = .scalar .plain name ∧ isName name = true ∧ v.isTabular = true ∧
      areTabular es = true := by
  cases key with
  | scalar style name =>
      cases style with
      | plain =>
          simp only [areTabular, Bool.and_eq_true] at h
          exact ⟨name, rfl, h.1.1, h.1.2, h.2⟩
      | quoted => cases h
      | literal => cases h
  | list vs => cases h
  | table es => cases h
  | tagged tag v => cases h

theorem atGap_valueText (level : Nat) {v : Yaml} (h : v.isTabular = true) (rest : List Char) :
    atGap ((valueText level v).toList ++ rest) = true := by
  cases v with
  | scalar style text => rw [valueText, String.toList_append]; rfl
  | list vs => cases h
  | tagged tag v => cases h
  | table es =>
      cases es with
      | nil => cases h
      | cons e es => simp only [valueText, String.toList_append]; rfl

namespace Lexer

/-- A value is read as its tokens, up to what stands in the line behind it. -/
def ReadsValue (level : Nat) (v : Yaml) : Prop :=
  ∀ {k : Nat} {p : Place} {next : List Char} (tokens : List Token) (outer : List Int),
    k ≤ 2 * level → Resumes next → 2 * level < p.column → ∃ q, q.column = k ∧ Leads
      (outside p ((valueText level v).toList ++ (List.replicate k ' ' ++ next)) tokens
        (2 * level : Nat) outer false)
      (outside q next (tokens ++ v.lexemes) (2 * level : Nat) outer true)

/-- Entries are read as their tokens, from the beginning of what stands in the first line up to
what stands in the line behind them. -/
def ReadsEntries (level : Nat) (es : List (Yaml × Yaml)) : Prop :=
  ∀ {k : Nat} {next : List Char}, k ≤ 2 * level → Resumes next → ∃ k' first,
    (k' ≤ 2 * level ∧ Resumes first ∧ (entriesText level es).toList ++
      (List.replicate k ' ' ++ next) = List.replicate k' ' ' ++ first) ∧
    ∀ {p : Place} (tokens : List Token) (outer : List Int), p.column = k' → ∃ q, q.column = k ∧
      Leads (outside p first tokens (2 * level : Nat) outer true)
        (outside q next (tokens ++ entryLexemes es) (2 * level : Nat) outer true)

section Tables

variable {level : Nat} {name : String} {v : Yaml} {es : List (Yaml × Yaml)}

theorem readsValue_scalar {style : Style} {text : String} (level : Nat)
    (h : (Yaml.scalar style text).isTabular = true) : ReadsValue level (.scalar style text) := by
  intro k p next tokens outer hk hnext hp
  have hfits : style = .plain → fitsPlain text = true := by
    rintro rfl
    exact h
  obtain ⟨q, hq, hscalar⟩ := leads_scalar (p := p.after ' ') tokens outer hk
    hnext (by rw [Place.column_after _ rfl]; omega) hfits
  refine ⟨q, hq, ?_⟩
  rw [valueText, String.toList_append, List.append_assoc]
  exact leads_blank.trans hscalar

theorem readsEntries_nil (level : Nat) : ReadsEntries level [] := by
  intro k next hk hnext
  refine ⟨k, next, ⟨hk, hnext, by rw [entriesText]; rfl⟩, fun tokens outer hp => ⟨_, hp, ?_⟩⟩
  rw [entryLexemes, List.append_nil]
  exact .refl _

theorem readsEntries_cons (hname : isName name = true) (htabular : v.isTabular = true)
    (hv : ReadsValue level v) (hes : ReadsEntries level es) :
    ReadsEntries level ((.scalar .plain name, v) :: es) := by
  intro k next hk hnext
  obtain ⟨k', first, ⟨hk', hfirst, htext⟩, hreads⟩ := hes hk hnext
  refine ⟨2 * level, name.toList ++ ':' :: ((valueText level v).toList ++
    (List.replicate k' ' ' ++ first)), ⟨Nat.le_refl _, resumes_name hname _, ?_⟩, ?_⟩
  · rw [entriesText, ← htext]
    simp [toList_indentation, keyText]
  · intro p tokens outer hp
    obtain ⟨q₁, hq₁, hkey⟩ := leads_key (p := p) tokens outer hname
      (atGap_valueText level htabular (List.replicate k' ' ' ++ first))
      (congrArg Nat.cast hp.symm)
    obtain ⟨q₂, hq₂, hvalue⟩ := hv (tokens ++ [.key, .scalar .plain name, .value]) outer hk' hfirst
      (hp ▸ hq₁)
    obtain ⟨q₃, hq₃, hentries⟩ := hreads
      (tokens ++ [.key, .scalar .plain name, .value] ++ v.lexemes) outer hq₂
    refine ⟨q₃, hq₃, hkey.trans (hvalue.trans ?_)⟩
    rw [entryLexemes]
    simpa [keyText] using hentries

/-- A table from its first key on, at a column further in than what is around it. -/
theorem leads_table (hname : isName name = true) (htabular : v.isTabular = true)
    (hv : ReadsValue level v) (hes : ReadsEntries level es) {k : Nat} {p : Place}
    {next : List Char} (tokens : List Token) (indent : Int) (outer : List Int)
    (hk : k ≤ 2 * level) (hnext : Resumes next) (hp : p.column = 2 * level)
    (hindent : indent < p.column) :
    ∃ q, q.column = k ∧ Leads
      (outside p (name.toList ++ ':' :: ((valueText level v).toList ++
        ((entriesText level es).toList ++ (List.replicate k ' ' ++ next)))) tokens indent outer
          true)
      (outside q next (tokens ++ .entriesBegin :: entryLexemes ((.scalar .plain name, v) :: es))
        (2 * level : Nat) (indent :: outer) true) := by
  obtain ⟨k', first, ⟨hk', hfirst, htext⟩, hreads⟩ := hes hk hnext
  obtain ⟨q₁, hq₁, hkey⟩ := leads_firstKey tokens outer hname
    (atGap_valueText level htabular (List.replicate k' ' ' ++ first)) hindent
  rw [hp] at hq₁ hkey
  obtain ⟨q₂, hq₂, hvalue⟩ := hv (tokens ++ [.entriesBegin, .key, .scalar .plain name, .value])
    (indent :: outer) hk' hfirst hq₁
  obtain ⟨q₃, hq₃, hentries⟩ := hreads
    (tokens ++ [.entriesBegin, .key, .scalar .plain name, .value] ++ v.lexemes) (indent :: outer)
    hq₂
  refine ⟨q₃, hq₃, ?_⟩
  rw [htext, entryLexemes]
  refine hkey.trans (hvalue.trans ?_)
  simpa [keyText] using hentries

theorem readsValue_table (hname : isName name = true) (htabular : v.isTabular = true)
    (hv : ReadsValue (level + 1) v) (hes : ReadsEntries (level + 1) es) :
    ReadsValue level (.table ((.scalar .plain name, v) :: es)) := by
  intro k p next tokens outer hk hnext _
  have hcolumn : ((p.after '\n').afterAll (List.replicate (2 * (level + 1)) ' ')).column =
      2 * (level + 1) := by
    rw [Place.column_afterAll_blanks, Place.column_after_break _ rfl, Nat.zero_add]
  obtain ⟨q, hq, htable⟩ := leads_table hname htabular hv hes tokens (2 * level : Nat)
    outer (Nat.le_trans hk (by omega)) hnext hcolumn (by rw [hcolumn]; omega)
  refine ⟨q, hq, ?_⟩
  have htext : (valueText level (.table ((.scalar .plain name, v) :: es))).toList ++
      (List.replicate k ' ' ++ next) =
        '\n' :: (List.replicate (2 * (level + 1)) ' ' ++ (name.toList ++ ':' ::
          ((valueText (level + 1) v).toList ++ ((entriesText (level + 1) es).toList ++
            (List.replicate k ' ' ++ next))))) := by
    rw [valueText]
    simp [toList_indentation, keyText]
  rw [htext]
  refine leads_lineBreak.trans ((leads_blanks _).trans (htable.trans ?_))
  have hclose (tokens : List Token) :
      Leads (outside q next tokens (2 * (level + 1) : Nat) ((2 * level : Nat) :: outer) true)
        (outside q next (tokens ++ [.blockEnd]) (2 * level : Nat) outer true) :=
    leads_close hnext (by omega)
  rw [lexemes]
  simpa using hclose (tokens ++ .entriesBegin :: entryLexemes ((.scalar .plain name, v) :: es))

end Tables

mutual

theorem readsValue : ∀ (v : Yaml) (level : Nat), v.isTabular = true → ReadsValue level v
  | .scalar _ _, level, h => readsValue_scalar level h
  | .table ((key, v) :: es), level, h => by
      obtain ⟨name, rfl, hname, hv, hes⟩ := areTabular_cons h
      exact readsValue_table hname hv (readsValue v (level + 1) hv)
        (readsEntries es (level + 1) hes)
  | .table [], _, h => by cases h
  | .list _, _, h => by cases h
  | .tagged _ _, _, h => by cases h

theorem readsEntries : ∀ (es : List (Yaml × Yaml)) (level : Nat), areTabular es = true →
    ReadsEntries level es
  | [], level, _ => readsEntries_nil level
  | (key, v) :: es, level, h => by
      obtain ⟨name, rfl, hname, hv, hes⟩ := areTabular_cons h
      exact readsEntries_cons hname hv (readsValue v level hv) (readsEntries es level hes)

end

/-! ## Documents -/

/-- The end of a text ends the table that holds all others. -/
theorem run?_end (p : Place) (tokens : List Token) (fuel : Nat) :
    run? (fuel + 1) (outside p [] tokens 0 [-1] true) =
      some (tokens ++ [Token.blockEnd]).toArray := by
  have hrun : run? (fuel + 1) (outside p [] tokens 0 [-1] true) =
      some (tokens.toArray.push .blockEnd) := rfl
  rw [hrun, List.push_toArray]

theorem run?_endMark {p : Place} (hp : p.column = 0) (tokens : List Token) (fuel : Nat) :
    run? (fuel + 2) (outside p ['.', '.', '.', '\n'] tokens 0 [-1] true) =
      some (tokens ++ [Token.blockEnd, Token.documentStop]).toArray := by
  obtain ⟨bytes, line, column⟩ := p
  obtain rfl : column = 0 := hp
  have hrun : run? (fuel + 2) (outside ⟨bytes, line, 0⟩ ['.', '.', '.', '\n'] tokens 0 [-1] true) =
      some ((tokens.toArray.push .blockEnd).push .documentStop) := rfl
  rw [hrun, List.push_toArray, List.push_toArray, List.append_assoc]
  rfl

end Lexer

theorem areTabular_of_isTabular {es : List (Yaml × Yaml)}
    (h : (Yaml.table es).isTabular = true) : ∃ name v more, es = (.scalar .plain name, v) :: more ∧
      isName name = true ∧ v.isTabular = true ∧ areTabular more = true := by
  cases es with
  | nil => cases h
  | cons e es =>
      obtain ⟨name, hkey, hname, hv, hes⟩ := areTabular_cons h
      exact ⟨name, e.2, es, by rw [← hkey], hname, hv, hes⟩

open Lexer in
/-- A table is read as its tokens, with one for the mark at its end. -/
theorem tokens_documentText {es : List (Yaml × Yaml)} (h : (Yaml.table es).isTabular = true) :
    Token.ofText? (documentText (.table es)).toList = some ((Yaml.table es).lexemes ++
      if (blockEnds (.table es)).getLast? = some .keep then [Token.documentStop] else []) := by
  obtain ⟨name, v, more, rfl, hname, hv, hmore⟩ := areTabular_of_isTabular h
  have htext : ∀ mark : List Char,
      (entriesText 0 ((.scalar .plain name, v) :: more)).toList ++ mark =
        name.toList ++ ':' :: ((valueText 0 v).toList ++ ((entriesText 0 more).toList ++
          (List.replicate 0 ' ' ++ mark))) := by
    intro mark
    rw [entriesText]
    simp [toList_indentation, keyText]
  have hleads : ∀ mark, Resumes mark → ∃ q, q.column = 0 ∧
      Leads { cursor := ⟨{}, (entriesText 0 ((.scalar .plain name, v) :: more)).toList ++ mark⟩ }
        (outside q mark (.entriesBegin :: entryLexemes ((.scalar .plain name, v) :: more)) 0 [-1]
          true) := by
    intro mark hmark
    rw [htext]
    exact leads_table (p := {}) hname hv (readsValue v 0 hv) (readsEntries more 0 hmore) []
      _ [] (Nat.le_refl _) hmark rfl (by decide)
  have hdocument : documentText (.table ((.scalar .plain name, v) :: more)) =
      entriesText 0 ((.scalar .plain name, v) :: more) ++
        endMark (.table ((.scalar .plain name, v) :: more)) := rfl
  rw [hdocument, String.toList_append, endMark, Token.ofText?]
  split
  · obtain ⟨q, hq, hleads⟩ := hleads "...\n".toList (resumes_cons (by decide) _)
    rw [hleads.run? fun fuel => run?_endMark hq _ (fuel + 3), lexemes]
    simp
  · obtain ⟨q, -, hleads⟩ := hleads "".toList resumes_nil
    rw [hleads.run? fun fuel => run?_end q _ fuel, lexemes]
    simp

end NoteRoll.Yaml
