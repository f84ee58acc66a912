import NoteRoll.Proofs.PartialSettings
import NoteRoll.Proofs.PlainNumbers
import NoteRoll.Proofs.YamlDocuments

/-!
# Stored settings are read back

Saved settings are read as they were, and a table with some of them is filled up with the
defaults. A saved file is such a table that gives all settings, so the second is the first but
for one thing: what the settings are written as has to be read as what they are.

A file that is blank stands for the defaults, before anything of the notation is looked at.
That could hide a table only if a table could be written in white space, and it cannot: white
space that is neither a blank nor a line break makes plain scalars, and nothing else.
-/

namespace NoteRoll

/-! ## Blank texts -/

namespace Yaml

namespace Lexer

/-- Reading a text that is blank: no block is begun, and what was read are scalars. -/
structure IsBlank (l : Lexer) : Prop where
  outer : l.outer = []
  keys : l.keys.length = 1
  tokens : ∀ t ∈ l.tokens, ∃ style text, t = .scalar style text
  rest : ∀ c ∈ l.cursor.rest, isWhiteSpace c = true

theorem skipSpaceFrom_subset (inBrackets inComment keyAllowed : Bool) (p : Place) (cs : List Char) :
    ∀ c ∈ (skipSpaceFrom inBrackets inComment keyAllowed p cs).2.rest, c ∈ cs := by
  induction cs generalizing inComment keyAllowed p with
  | nil => exact fun c hc => hc
  | cons d cs ih =>
      intro c hc
      rw [skipSpaceFrom] at hc
      split at hc
      · exact List.mem_cons_of_mem d (ih _ _ _ c hc)
      · split at hc
        · exact List.mem_cons_of_mem d (ih _ _ _ c hc)
        · split at hc
          · exact List.mem_cons_of_mem d (ih _ _ _ c hc)
          · exact hc

theorem readPlainFrom_subset {inBrackets : Bool} {least : Nat} {gap : Gap} {done : List Char}
    {p : Place} {cs : List Char} {read : List Char × Gap × Cursor}
    (h : readPlainFrom inBrackets least gap done p cs = some read) :
    ∀ c ∈ read.2.2.rest, c ∈ cs := by
  induction cs generalizing gap done p with
  | nil =>
      obtain rfl := Option.some.inj h
      exact fun c hc => hc
  | cons d cs ih =>
      rw [readPlainFrom] at h
      intro c hc
      split at h
      · split at h
        · cases h
        · exact List.mem_cons_of_mem d (ih h c hc)
      · split at h
        · exact List.mem_cons_of_mem d (ih h c hc)
        · split at h
          · obtain rfl := Option.some.inj h
            exact hc
          · split at h
            · cases h
            · split at h
              · obtain rfl := Option.some.inj h
                exact hc
              · exact List.mem_cons_of_mem d (ih h c hc)

namespace IsBlank

variable {l l' : Lexer}

theorem skipSpace (h : l.IsBlank) : l.skipSpace.IsBlank where
  outer := h.outer
  keys := h.keys
  tokens := h.tokens
  rest c hc := h.rest c (skipSpaceFrom_subset _ _ _ _ _ c hc)

theorem closeBlocks (h : l.IsBlank) (column : Int) : l.closeBlocks column = l := by
  obtain ⟨cursor, tokens, indent, outer, keys, keyAllowed⟩ := l
  obtain rfl : outer = [] := h.outer
  rw [Lexer.closeBlocks]
  split <;> rfl

theorem dropFarKeys? (h : l.IsBlank) (hl : l.dropFarKeys? = some l') : l'.IsBlank := by
  obtain ⟨key, hkey⟩ := List.length_eq_one_iff.1 h.keys
  rw [Lexer.dropFarKeys?, hkey, List.mapM_cons, List.mapM_nil] at hl
  obtain ⟨keys, hkeys, rfl⟩ := Option.map_eq_some_iff.1 hl
  obtain ⟨key, -, hkeys⟩ := Option.bind_eq_some_iff.1 hkeys
  obtain rfl := Option.some.inj hkeys
  exact ⟨h.outer, rfl, h.tokens, h.rest⟩

theorem dropKey? (h : l.IsBlank) (hl : l.dropKey? = some l') : l'.IsBlank := by
  obtain ⟨key, hkey⟩ := List.length_eq_one_iff.1 h.keys
  rw [Lexer.dropKey?, hkey] at hl
  obtain ⟨key, -, rfl⟩ := Option.map_eq_some_iff.1 hl
  exact ⟨h.outer, rfl, h.tokens, h.rest⟩

theorem saveKey? (h : l.IsBlank) (hl : l.saveKey? = some l') : l'.IsBlank := by
  rw [Lexer.saveKey?] at hl
  split at hl
  · obtain rfl := Option.some.inj hl
    exact h
  · obtain ⟨l₁, hdrop, rfl⟩ := Option.map_eq_some_iff.1 hl
    have h₁ := h.dropKey? hdrop
    refine ⟨h₁.outer, ?_, h₁.tokens, h₁.rest⟩
    rw [List.length_cons, List.length_drop, h₁.keys]

theorem plain? (h : l.IsBlank) (hl : l.plain? = some l') : l'.IsBlank := by
  rw [Lexer.plain?] at hl
  obtain ⟨l₁, hsave, hl⟩ := Option.bind_eq_some_iff.1 hl
  have h₁ := h.saveKey? hsave
  obtain ⟨⟨text, isBroken, x⟩, hread, hl⟩ := Option.bind_eq_some_iff.1 hl
  obtain rfl := Option.some.inj hl
  rw [readPlain] at hread
  obtain ⟨⟨done, gap, y⟩, hfrom, hx⟩ := Option.map_eq_some_iff.1 hread
  obtain rfl : y = x := congrArg (fun read => read.2.2) hx
  refine ⟨h₁.outer, h₁.keys, fun t ht => ?_, fun c hc => h₁.rest c ?_⟩
  · rcases Array.mem_push.1 ht with ht | rfl
    · exact h₁.tokens t ht
    · exact ⟨_, _, rfl⟩
  · exact readPlainFrom_subset hfrom c hc

theorem token? (h : l.IsBlank) (hl : l.token? = some l') : l'.IsBlank := by
  unfold Lexer.token? at hl
  split at hl
  · obtain rfl := Option.some.inj hl
    exact h
  · next c cs hrest =>
      have hc : isWhiteSpace c = true := h.rest c (by rw [hrest]; exact List.mem_cons_self)
      have hmark : ∀ d, isWhiteSpace d = false → (c == d) = false := fun d hd =>
        beq_eq_false_iff_ne.2 fun hcd => by
          rw [hcd, hd] at hc
          cases hc
      have hdocument : documentMark? (c :: cs) = none :=
        documentMark?_of_ne (beq_eq_false_iff_ne.1 (hmark '-' rfl))
          (beq_eq_false_iff_ne.1 (hmark '.' rfl)) cs
      simp only [h.closeBlocks, hdocument, ite_self, hmark '%' rfl, hmark '[' rfl, hmark '\x7b' rfl,
        hmark ']' rfl, hmark '\x7d' rfl, hmark ',' rfl, hmark '-' rfl, hmark '?' rfl, hmark ':' rfl,
        hmark '*' rfl, hmark '&' rfl, hmark '!' rfl, hmark '|' rfl, hmark '>' rfl, hmark '\'' rfl,
        hmark '"' rfl, Bool.and_false, Bool.false_and, Bool.or_self, Bool.false_eq_true,
        if_false] at hl
      split at hl
      · exact h.plain? hl
      · cases hl

end IsBlank

theorem run?_isBlank {l : Lexer} (h : l.IsBlank) {fuel : Nat} {tokens : Array Token}
    (hrun : run? fuel l = some tokens) : ∀ t ∈ tokens, ∃ style text, t = .scalar style text := by
  induction fuel generalizing l with
  | zero => cases hrun
  | succ fuel ih =>
      rw [run?] at hrun
      obtain ⟨l₁, hl₁, hrun⟩ := Option.bind_eq_some_iff.1 hrun
      have h₁ := h.skipSpace.dropFarKeys? hl₁
      split at hrun
      · obtain ⟨l₂, hl₂, hrun⟩ := Option.bind_eq_some_iff.1 hrun
        obtain rfl := Option.some.inj hrun
        rw [h₁.closeBlocks] at hl₂
        exact (h₁.dropKey? hl₂).tokens
      · obtain ⟨l₂, hl₂, hrun⟩ := Option.bind_eq_some_iff.1 hrun
        exact ih (h₁.token? hl₂) hrun

end Lexer

/-- Scalars alone make no table. -/
theorem ofTokens?_scalars {tokens : List Token}
    (h : ∀ t ∈ tokens, ∃ style text, t = .scalar style text) (es : List (Yaml × Yaml)) :
    ofTokens? tokens ≠ some (.table es) := by
  cases tokens with
  | nil =>
      intro hread
      cases hread
  | cons t ts =>
      obtain ⟨style, text, rfl⟩ := h t List.mem_cons_self
      intro hread
      have hnode : readNode true false (2 * (Token.scalar style text :: ts).length + 2)
          { rest := .scalar style text :: ts } = some (.scalar style text, { rest := ts }) :=
        readNode_scalar rfl
      have hdocument : ofTokens? (.scalar style text :: ts) =
          (readNode true false (2 * (Token.scalar style text :: ts).length + 2)
            { rest := .scalar style text :: ts }).bind fun x =>
              if x.2.rest.all (· == .documentStop) then some x.1 else none := rfl
      rw [hdocument, hnode, Option.bind_some] at hread
      split at hread <;> cases hread

theorem mem_unifyBreaks {cs : List Char} {c : Char} (h : c ∈ unifyBreaks cs) :
    c = '\n' ∨ c ∈ cs := by
  fun_induction unifyBreaks cs with
  | case1 cs ih | case2 cs _ ih | case3 cs ih | case4 d cs _ _ _ ih =>
      rcases List.mem_cons.1 h with rfl | h
      · simp
      · rcases ih h with rfl | h <;> simp [*]
  | case5 => cases h

theorem mem_dropByteOrderMark {cs : List Char} {c : Char} (h : c ∈ dropByteOrderMark cs) :
    c ∈ cs := by
  rw [dropByteOrderMark.eq_def] at h
  split at h
  · exact List.mem_cons_of_mem _ h
  · exact h

/-- No table is written in white space. -/
theorem ofText?_blank {text : String} (h : ∀ c ∈ text.toList, isWhiteSpace c = true)
    (es : List (Yaml × Yaml)) : ofText? text ≠ some (.table es) := by
  have hblank : ∀ c ∈ unifyBreaks (dropByteOrderMark text.toList), isWhiteSpace c = true := by
    intro c hc
    rcases mem_unifyBreaks hc with rfl | hc
    · rfl
    · exact h c (mem_dropByteOrderMark hc)
  intro hread
  rw [ofText?] at hread
  split at hread
  · obtain ⟨ts, hts, hread⟩ := Option.bind_eq_some_iff.1 hread
    rw [Token.ofText?] at hts
    obtain ⟨tokens, hrun, rfl⟩ := Option.map_eq_some_iff.1 hts
    refine ofTokens?_scalars (fun t ht => ?_) es hread
    exact Lexer.run?_isBlank ⟨rfl, rfl, fun t ht => absurd ht (Array.not_mem_empty t), hblank⟩
      hrun t (Array.mem_toList_iff.1 ht)
  · cases hread

/-! ## Records -/

/-- Names of settings, which nobody would take for anything else. -/
def isPlainName (text : String) : Bool :=
  isName text && fitsPlain text && !isNull text && !isFlag text && !isWhole text &&
    !isPaddedNumber text && (nonFinite? text).isNone && (Decimal.ofText? text.toList).isNone

section Records

variable {α : Type} [NumberText α]

theorem ofString_plainName {name : String} (h : isPlainName name = true) :
    ofString α name = .scalar .plain name ∧ isName name = true := by
  simp only [isPlainName, Bool.and_eq_true, Bool.not_eq_true', Option.isNone_iff_eq_none] at h
  obtain ⟨⟨⟨⟨⟨⟨⟨hname, hfits⟩, hnull⟩, hflag⟩, hwhole⟩, hpadded⟩, hfinite⟩, hdecimal⟩ := h
  refine ⟨?_, hname⟩
  have hnumber : (number? name : Option α) = none := by
    rw [number?, hfinite, hdecimal]
    rfl
  rw [ofString, isAmbiguous, hfits, hnull, hflag, hwhole, hpadded, hnumber]
  rfl

theorem isTabular_ofString (text : String) : (ofString α text).isTabular = true := by
  rw [ofString]
  split
  · next h =>
      rw [Bool.and_eq_true] at h
      exact h.1
  · rfl

theorem areTabular_record {entries : List (String × Yaml)}
    (h : ∀ e ∈ entries, isPlainName e.1 = true ∧ e.2.isTabular = true) :
    areTabular (entries.map fun e => (ofString α e.1, e.2)) = true := by
  induction entries with
  | nil => rfl
  | cons e entries ih =>
      obtain ⟨⟨hname, hv⟩, hentries⟩ := List.forall_mem_cons.1 h
      obtain ⟨hplain, hname⟩ := ofString_plainName (α := α) hname
      rw [List.map_cons, hplain, areTabular, hname, hv, ih hentries]
      rfl

theorem isTabular_record {entries : List (String × Yaml)} (hne : entries ≠ [])
    (h : ∀ e ∈ entries, isPlainName e.1 = true ∧ e.2.isTabular = true) :
    (record α entries).isTabular = true := by
  have hall := areTabular_record (α := α) h
  obtain ⟨e, more, rfl⟩ := List.exists_cons_of_ne_nil hne
  exact hall

theorem asRead_record (entries : List (String × Yaml)) : (record α entries).asRead =
    .table (entries.map fun e => (ofString α e.1, e.2.asRead)) := by
  rw [record, asRead]
  congr 1
  induction entries with
  | nil => rfl
  | cons e entries ih => rw [List.map_cons, asReadEntries, ih, List.map_cons]

theorem valuesAt_record_absent {entries : List (String × Yaml)} {name : String}
    (h : name ∉ entries.map (·.1)) :
    valuesAt (entries.map fun e => (ofString α e.1, e.2.asRead)) name = [] := by
  induction entries with
  | nil => rfl
  | cons e entries ih =>
      rw [List.map_cons, List.mem_cons, not_or] at h
      rw [List.map_cons, valuesAt_cons (n := e.1) rfl, if_neg (Ne.symm h.1), ih h.2]

/-- A record gives what stands in it, once. -/
theorem gives_record {entries : List (String × Yaml)} (hnames : (entries.map (·.1)).Nodup)
    {name : String} {v : Yaml} (hmem : (name, v) ∈ entries) {β : Type}
    {Writes : Yaml → β → Prop} {x : β} (hx : Writes v.asRead x) :
    Gives (entries.map fun e => (ofString α e.1, e.2.asRead)) name Writes (some x) := by
  refine ⟨v.asRead, ?_, hx⟩
  induction entries with
  | nil => cases hmem
  | cons e entries ih =>
      rw [List.map_cons, List.nodup_cons] at hnames
      rw [List.map_cons, valuesAt_cons (n := e.1) rfl]
      rcases List.mem_cons.1 hmem with rfl | hmem
      · rw [if_pos rfl, valuesAt_record_absent hnames.1]
      · have hne : e.1 ≠ name := fun h => hnames.1 (h ▸ List.mem_map_of_mem hmem)
        rw [if_neg hne, ih hnames.2 hmem]

theorem keys_record (entries : List (String × Yaml)) :
    ∀ e ∈ entries.map (fun e => (ofString α e.1, e.2.asRead)), e.1.text?.isSome = true := by
  intro e he
  obtain ⟨e, -, rfl⟩ := List.mem_map.1 he
  rfl

/-! ### Values -/

theorem text?_ofString (text : String) : (ofString α text).asRead.text? = some text := rfl

theorem optionalText?_ofString (file : Option String) :
    Config.optionalText? ((file.map (ofString α)).getD null).asRead = some file := by
  cases file with
  | none => rfl
  | some text =>
      show Config.optionalText? (ofString α text).asRead = some (some text)
      rw [ofString]
      split
      · next h =>
          have hnull : isNull text = false := by
            simp only [isAmbiguous, Bool.and_eq_true, Bool.not_eq_true', Bool.or_eq_false_iff] at h
            exact h.2.1.1.1.1
          show some (if isNull text = true then none else some text) = _
          rw [hnull, if_neg Bool.false_ne_true]
      · rw [asRead, Style.asRead_of_ne_plain (by decide)]
        split <;> rfl

end Records

theorem natural?_ofNat {n : Nat} (h : n < 2 ^ 64) : Config.natural? (ofNat n).asRead = some n := by
  show (natural? (toString n)).filter _ = some n
  rw [natural?_toString, Option.filter_some]
  exact if_pos (decide_eq_true h)

theorem number?_ofNumber {x : Float} (hx : (x == x) = true) (h : RoundTrips x) :
    Config.number? (ofNumber x).asRead = some x ∧ (ofNumber x).isTabular = true := by
  obtain ⟨text, htext, hfits, hnumber⟩ := exists_ofNumber hx h
  rw [htext]
  exact ⟨hnumber, hfits⟩

end Yaml

/-! ## Settings -/

namespace Config

variable {α : Type}

/-- The numbers of the settings. -/
def numbers (c : Config α) : List α :=
  [c.bpm, c.snap, c.grid.beatWidth, c.grid.rowHeight, c.grid.edgeMargin, c.playback.endMargin]

/-- The whole numbers of the settings. -/
def wholeNumbers (c : Config α) : List Nat :=
  [c.playback.tickMillis, c.playback.lookaheadMillis, c.remote.timeoutSeconds]

/-- All of the settings. -/
def given (c : Config α) : PartialConfig α where
  bpm := some c.bpm
  snap := some c.snap
  grid := some ⟨some c.grid.beatWidth, some c.grid.rowHeight, some c.grid.edgeMargin⟩
  playback := some ⟨some c.playback.tickMillis, some c.playback.lookaheadMillis,
    some c.playback.endMargin⟩
  remote := some ⟨some c.remote.baseUrl, some c.remote.timeoutSeconds⟩
  log := some ⟨some c.log.level, some c.log.file⟩

theorem filled_given [Scalar α] (c : Config α) : c.given.filled = c := rfl

/-- The entries that the settings are written as. -/
def entries [Scalar α] [NumberText α] (c : Config α) : List (String × Yaml) :=
  [("bpm", .ofNumber c.bpm), ("snap", .ofNumber c.snap),
    ("grid", .record α [("beat_width", .ofNumber c.grid.beatWidth),
      ("row_height", .ofNumber c.grid.rowHeight), ("edge_margin", .ofNumber c.grid.edgeMargin)]),
    ("playback", .record α [("tick_ms", .ofNat c.playback.tickMillis),
      ("lookahead_ms", .ofNat c.playback.lookaheadMillis),
      ("end_margin_beats", .ofNumber c.playback.endMargin)]),
    ("remote", .record α [("base_url", .ofString α c.remote.baseUrl),
      ("timeout_secs", .ofNat c.remote.timeoutSeconds)]),
    ("log", .record α [("level", .ofString α c.log.level),
      ("file", (c.log.file.map (Yaml.ofString α)).getD .null)])]

section Stored

variable {c : Config Float} (hnumbers : ∀ x ∈ c.numbers, (x == x) = true ∧ Yaml.RoundTrips x)
include hnumbers

theorem writtenBy_toYaml (hwhole : ∀ n ∈ c.wholeNumbers, n < 2 ^ 64) :
    c.given.WrittenBy (c.entries.map fun e => (Yaml.ofString Float e.1, e.2.asRead)) := by
  have hnumber : ∀ x ∈ c.numbers, number? (Yaml.ofNumber x).asRead = some x := fun x hx =>
    (Yaml.number?_ofNumber (hnumbers x hx).1 (hnumbers x hx).2).1
  have hnatural : ∀ n ∈ c.wholeNumbers, natural? (Yaml.ofNat n).asRead = some n := fun n hn =>
    Yaml.natural?_ofNat (hwhole n hn)
  simp only [numbers, wholeNumbers, List.forall_mem_cons] at hnumber hnatural
  obtain ⟨hbpm, hsnap, hbeatWidth, hrowHeight, hedgeMargin, hendMargin, -⟩ := hnumber
  obtain ⟨htick, hlookahead, htimeout, -⟩ := hnatural
  have hdistinct : ["bpm", "snap", "grid", "playback", "remote", "log"].Nodup := by decide
  refine ⟨Yaml.keys_record _, Yaml.gives_record (by exact hdistinct) (.head _) hbpm,
    Yaml.gives_record (by exact hdistinct) (.tail _ (.head _)) hsnap, ?grid, ?playback, ?remote,
    ?log⟩
  case grid =>
    have hdistinct' : ["beat_width", "row_height", "edge_margin"].Nodup := by decide
    refine Yaml.gives_record (by exact hdistinct) (.tail _ (.tail _ (.head _)))
      ⟨_, Yaml.asRead_record _, Yaml.keys_record _, ?_, ?_, ?_⟩
    · exact Yaml.gives_record (by exact hdistinct') (.head _) hbeatWidth
    · exact Yaml.gives_record (by exact hdistinct') (.tail _ (.head _)) hrowHeight
    · exact Yaml.gives_record (by exact hdistinct') (.tail _ (.tail _ (.head _))) hedgeMargin
  case playback =>
    have hdistinct' : ["tick_ms", "lookahead_ms", "end_margin_beats"].Nodup := by decide
    refine Yaml.gives_record (by exact hdistinct) (.tail _ (.tail _ (.tail _ (.head _))))
      ⟨_, Yaml.asRead_record _, Yaml.keys_record _, ?_, ?_, ?_⟩
    · exact Yaml.gives_record (by exact hdistinct') (.head _) htick
    · exact Yaml.gives_record (by exact hdistinct') (.tail _ (.head _)) hlookahead
    · exact Yaml.gives_record (by exact hdistinct') (.tail _ (.tail _ (.head _))) hendMargin
  case remote =>
    have hdistinct' : ["base_url", "timeout_secs"].Nodup := by decide
    refine Yaml.gives_record (by exact hdistinct) (.tail _ (.tail _ (.tail _ (.tail _ (.head _)))))
      ⟨_, Yaml.asRead_record _, Yaml.keys_record _, ?_, ?_⟩
    · exact Yaml.gives_record (by exact hdistinct') (.head _) (Yaml.text?_ofString _)
    · exact Yaml.gives_record (by exact hdistinct') (.tail _ (.head _)) htimeout
  case log =>
    have hdistinct' : ["level", "file"].Nodup := by decide
    refine Yaml.gives_record (by exact hdistinct)
      (.tail _ (.tail _ (.tail _ (.tail _ (.tail _ (.head _))))))
      ⟨_, Yaml.asRead_record _, Yaml.keys_record _, ?_, ?_⟩
    · exact Yaml.gives_record (by exact hdistinct') (.head _) (Yaml.text?_ofString _)
    · exact Yaml.gives_record (by exact hdistinct') (.tail _ (.head _))
        (Yaml.optionalText?_ofString _)

theorem isTabular_toYaml : c.toYaml.isTabular = true := by
  have hnumber : ∀ x ∈ c.numbers, (Yaml.ofNumber x).isTabular = true := fun x hx =>
    (Yaml.number?_ofNumber (hnumbers x hx).1 (hnumbers x hx).2).2
  simp only [numbers, List.forall_mem_cons] at hnumber
  obtain ⟨hbpm, hsnap, hbeatWidth, hrowHeight, hedgeMargin, hendMargin, -⟩ := hnumber
  have hnatural : ∀ n, (Yaml.ofNat n).isTabular = true := Yaml.plain_toString
  have hfile : ((c.log.file.map (Yaml.ofString Float)).getD .null).isTabular = true := by
    cases c.log.file with
    | none => decide +kernel
    | some text => exact Yaml.isTabular_ofString text
  refine Yaml.isTabular_record (List.cons_ne_nil _ _) ?_
  simp only [List.forall_mem_cons]
  refine ⟨⟨by decide +kernel, hbpm⟩, ⟨by decide +kernel, hsnap⟩, ⟨by decide +kernel, ?_⟩,
    ⟨by decide +kernel, ?_⟩, ⟨by decide +kernel, ?_⟩, ⟨by decide +kernel, ?_⟩,
    List.forall_mem_nil _⟩
  all_goals
    refine Yaml.isTabular_record (List.cons_ne_nil _ _) ?_
    simp only [List.forall_mem_cons]
  · exact ⟨⟨by decide +kernel, hbeatWidth⟩, ⟨by decide +kernel, hrowHeight⟩,
      ⟨by decide +kernel, hedgeMargin⟩, List.forall_mem_nil _⟩
  · exact ⟨⟨by decide +kernel, hnatural _⟩, ⟨by decide +kernel, hnatural _⟩,
      ⟨by decide +kernel, hendMargin⟩, List.forall_mem_nil _⟩
  · exact ⟨⟨by decide +kernel, Yaml.isTabular_ofString _⟩, ⟨by decide +kernel, hnatural _⟩,
      List.forall_mem_nil _⟩
  · exact ⟨⟨by decide +kernel, Yaml.isTabular_ofString _⟩, ⟨by decide +kernel, hfile⟩,
      List.forall_mem_nil _⟩

end Stored

/-- A table is not passed over as a blank file. -/
theorem ofText?_table {α : Type} [Scalar α] [NumberText α] {text : String}
    {es : List (Yaml × Yaml)} (h : Yaml.ofText? text = some (.table es)) :
    (ofText? text : Option (Config α)) = ofYaml? (.table es) := by
  have hblank : isBlankText text = false := Bool.eq_false_iff.2 fun hblank =>
    Yaml.ofText?_blank (List.all_eq_true.1 hblank) es h
  rw [ofText?, hblank, if_neg Bool.false_ne_true, h, Option.bind_some]

/-- Settings survive being saved and read, and a table with some of the settings gives those,
with the defaults of all others. -/
theorem settings_survive :
    (∀ c : Config Float, (∀ x ∈ c.numbers, (x == x) = true) →
      (∀ x ∈ c.numbers, Yaml.RoundTrips x) → (∀ n ∈ c.wholeNumbers, n < 2 ^ 64) →
        ofText? c.toText = some c) ∧
    ∀ (text : String) (es : List (Yaml × Yaml)) (c : PartialConfig Float),
      Yaml.ofText? text = some (.table es) → c.WrittenBy es → ofText? text = some c.filled := by
  have hpartial : ∀ (text : String) (es : List (Yaml × Yaml)) (c : PartialConfig Float),
      Yaml.ofText? text = some (.table es) → c.WrittenBy es → ofText? text = some c.filled :=
    fun text es c htext hc => (ofText?_table htext).trans hc.ofYaml?
  refine ⟨fun c hpresent hround hwhole => ?_, hpartial⟩
  have hnumbers : ∀ x ∈ c.numbers, (x == x) = true ∧ Yaml.RoundTrips x := fun x hx =>
    ⟨hpresent x hx, hround x hx⟩
  have hread := Yaml.ofText?_documentText (isTabular_toYaml hnumbers)
  have hsame : (Yaml.record Float c.entries).asRead = _ := Yaml.asRead_record c.entries
  rw [← filled_given c]
  exact hpartial _ _ c.given (hread.trans (congrArg some hsame)) (writtenBy_toYaml hnumbers hwhole)

/-- Settings whose texts could be taken for something else, and numbers that no decimal writes. -/
def awkward : Config Float where
  bpm := 1.0 / 0.0
  snap := -1.0 / 0.0
  grid := ⟨0.1, -0.0, 1e300⟩
  playback := ⟨0, 18446744073709551615, 123.456⟩
  remote := ⟨"", 60⟩
  log := ⟨"true\n\n  # 1e3: \n", some "null"⟩

/-- The scale of a row, and no log file. -/
def sparse : PartialConfig Float where
  bpm := none
  snap := none
  grid := some ⟨none, some 2.5, none⟩
  playback := none
  remote := none
  log := some ⟨none, some none⟩

/-- The entries of a table that gives just these, beside an unknown one. -/
def sparseEntries : List (Yaml × Yaml) :=
  [(.scalar .plain "log", .table [(.scalar .plain "file", .scalar .plain "~")]),
    (.scalar .plain "unknown", .list [.scalar .plain "1"]),
    (.scalar .plain "grid", .table [(.scalar .plain "row_height", .scalar .plain "2.5")])]

theorem sparse_writtenBy : sparse.WrittenBy sparseEntries where
  keys := by decide
  bpm := rfl
  snap := rfl
  grid := ⟨_, rfl, _, rfl, by decide, rfl, ⟨_, rfl, by decide +kernel⟩, rfl⟩
  playback := rfl
  remote := rfl
  log := ⟨_, rfl, _, rfl, by decide, rfl, _, rfl, rfl⟩

/-- A text of these entries. -/
def sparseText : String := "log: \x7bfile: ~\x7d\nunknown: [1]\ngrid:\n  row_height: 2.5\n"

theorem ofText?_sparseText : Yaml.ofText? sparseText = some (.table sparseEntries) := by
  have hsame : Yaml.unifyBreaks (Yaml.dropByteOrderMark sparseText.toList) = sparseText.toList := by
    decide +kernel
  have hall : sparseText.toList.all Yaml.isAdmitted = true := by decide +kernel
  have htokens : Yaml.Token.ofText? sparseText.toList = some [.entriesBegin,
      .key, .scalar .plain "log", .value, .tableOpen, .key, .scalar .plain "file", .value,
        .scalar .plain "~", .tableClose,
      .key, .scalar .plain "unknown", .value, .listOpen, .scalar .plain "1", .listClose,
      .key, .scalar .plain "grid", .value, .entriesBegin, .key, .scalar .plain "row_height", .value,
        .scalar .plain "2.5", .blockEnd, .blockEnd] := by decide +kernel
  rw [Yaml.ofText?, hsame, if_pos hall, htokens, Option.bind_some]
  rfl

theorem awkward_and_sparse_survive :
    ofText? awkward.toText = some awkward ∧ ofText? sparseText = some sparse.filled :=
  ⟨settings_survive.1 awkward (by decide +kernel) (by decide +kernel) (by decide),
    settings_survive.2 sparseText sparseEntries sparse ofText?_sparseText sparse_writtenBy⟩

end Config

end NoteRoll
