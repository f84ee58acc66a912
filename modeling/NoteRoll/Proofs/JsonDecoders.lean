import Mathlib.Data.List.Forall2
import NoteRoll.Json.Decoder
import NoteRoll.Proofs.JsonLexemes

/-!
# Decoders read what the printer writes

`d.Reads j b` says that a decoder makes `b` of the text of a value `j`, at whatever
level of indentation it stands, whatever blanks are before it and whatever stands
behind it as long as it does not continue a number. That is preserved by all ways to
build decoders, so that for a certain format there is nothing to do but to go through
its definition.

The printer never writes a null here: what is not there is left out. A decoder of an
optional thing therefore reads what the decoder of the thing reads.
-/

namespace NoteRoll.Json

/-! ## The layout as characters -/

theorem toList_prettyAt_list (level : Nat) (v : Json) (vs : List Json) :
    (prettyAt level (.list (v :: vs))).toList = '[' :: ((newLine (level + 1)).toList ++
      ((prettyAt (level + 1) v).toList ++ ((itemsAt (level + 1) vs).toList ++
        ((newLine level).toList ++ [']'])))) := by
  simp only [prettyAt, String.toList_append, List.append_assoc]
  rfl

theorem toList_itemsAt_cons (level : Nat) (v : Json) (vs : List Json) :
    (itemsAt level (v :: vs)).toList = ',' :: ((newLine level).toList ++
      ((prettyAt level v).toList ++ (itemsAt level vs).toList)) := by
  simp only [itemsAt, String.toList_append, List.append_assoc]
  rfl

theorem toList_prettyAt_table (level : Nat) (k : String) (v : Json)
    (es : List (String × Json)) :
    (prettyAt level (.table ((k, v) :: es))).toList = '{' :: ((newLine (level + 1)).toList ++
      ((quoted k).toList ++ (':' :: ' ' :: ((prettyAt (level + 1) v).toList ++
        ((entriesAt (level + 1) es).toList ++ ((newLine level).toList ++ ['}'])))))) := by
  simp only [prettyAt, String.toList_append, List.append_assoc]
  rfl

theorem toList_prettyAt_empty (level : Nat) : (prettyAt level (.table [])).toList = ['{', '}'] := by
  rw [prettyAt]
  rfl

theorem toList_entriesAt_cons (level : Nat) (k : String) (v : Json)
    (es : List (String × Json)) :
    (entriesAt level ((k, v) :: es)).toList = ',' :: ((newLine level).toList ++
      ((quoted k).toList ++ (':' :: ' ' :: ((prettyAt level v).toList ++
        (entriesAt level es).toList)))) := by
  simp only [entriesAt, String.toList_append, List.append_assoc]
  rfl

theorem toList_newLine (level : Nat) : ∃ cs, (newLine level).toList = '\n' :: cs := by
  refine ⟨(blanks (2 * level)).toList, ?_⟩
  rw [newLine, String.toList_append]
  rfl

theorem stops_newLine (level : Nat) (cs : List Char) :
    Stops ((newLine level).toList ++ cs) := by
  obtain ⟨bs, h⟩ := toList_newLine level
  rw [h]
  exact stops_cons (by decide) _

theorem skipBlanks_newLine (level : Nat) (cs : List Char) :
    skipBlanks ((newLine level).toList ++ cs) = skipBlanks cs :=
  skipBlanks_append (isBlank_of_mem_newLine level) cs

/-- Behind an item there is the next one, or the end of the list. -/
theorem stops_itemsAt (level level' : Nat) (vs : List Json) (cs : List Char) :
    Stops ((itemsAt level vs).toList ++ ((newLine level').toList ++ cs)) := by
  cases vs with
  | nil => exact stops_newLine level' cs
  | cons v vs =>
      rw [toList_itemsAt_cons]
      exact stops_cons (by decide) _

theorem stops_entriesAt (level level' : Nat) (es : List (String × Json)) (cs : List Char) :
    Stops ((entriesAt level es).toList ++ ((newLine level').toList ++ cs)) := by
  cases es with
  | nil => exact stops_newLine level' cs
  | cons e es =>
      rw [toList_entriesAt_cons]
      exact stops_cons (by decide) _

/-! ## Reading what is written -/

/-- What a value that is no null may begin with. -/
def Opens (c : Char) : Prop :=
  isBlank c = false ∧ c ≠ ',' ∧ c ≠ ']' ∧ c ≠ '}' ∧ c ≠ 'n'

instance instDecidableOpens (c : Char) : Decidable (Opens c) :=
  inferInstanceAs (Decidable (_ ∧ _))

theorem opens_of_isDigit {c : Char} (h : c = '-' ∨ isDigit c = true) : Opens c := by
  rcases h with rfl | h
  · decide
  · refine ⟨?_, ?_, ?_, ?_, ?_⟩
    · refine Bool.eq_false_iff.2 fun hblank => ?_
      simp only [isBlank, Bool.or_eq_true, beq_iff_eq] at hblank
      rcases hblank with ((rfl | rfl) | rfl) | rfl <;> cases h
    all_goals
      rintro rfl
      cases h

namespace Decoder

variable {α : Type} [NumberText α] {β γ σ : Type}

/-- A decoder makes a thing of the text of a value. -/
structure Reads (d : Decoder β) (j : Json) (b : β) : Prop where
  head : ∀ level, ∃ c cs, (prettyAt level j).toList = c :: cs ∧ Opens c
  read : ∀ {level : Nat} {cs rest : List Char},
    skipBlanks cs = (prettyAt level j).toList ++ rest → Stops rest →
      d.fromText cs = .ok (b, rest)

namespace Reads

variable {d : Decoder β} {j : Json} {b : β}

/-- The text of a value has no blanks to be skipped. -/
theorem skipBlanks_eq (h : d.Reads j b) (level : Nat) (rest : List Char) :
    skipBlanks ((prettyAt level j).toList ++ rest) = (prettyAt level j).toList ++ rest := by
  obtain ⟨c, cs, htext, hc⟩ := h.head level
  rw [htext]
  exact skipBlanks_of_head (Bool.eq_false_iff.1 hc.1) _

/-- On a line of its own a value is found at once, and read from there. -/
theorem onLine (h : d.Reads j b) (level level' : Nat) {rest : List Char} (hrest : Stops rest) :
    ∃ c cs, skipBlanks ((newLine level').toList ++ ((prettyAt level j).toList ++ rest)) = c :: cs ∧
      Opens c ∧ d.fromText (c :: cs) = .ok (b, rest) := by
  obtain ⟨c, cs, htext, hc⟩ := h.head level
  have hskip := h.skipBlanks_eq level rest
  have hread := h.read hskip hrest
  rw [htext, List.cons_append] at hskip hread
  exact ⟨c, cs ++ rest, by rw [skipBlanks_newLine, htext, List.cons_append, hskip], hc, hread⟩

theorem ofText_pretty (h : d.Reads j b) : d.ofText j.pretty = .ok b := by
  have hskip : skipBlanks j.pretty.toList = (prettyAt 0 j).toList ++ [] := by
    rw [← h.skipBlanks_eq 0 [], List.append_nil]
    rfl
  rw [Decoder.ofText, h.read hskip stops_nil]
  rfl

theorem map (f : β → γ) (h : d.Reads j b) : (d.map f).Reads j (f b) where
  head := h.head
  read hskip hrest := by
    simp only [Decoder.map, h.read hskip hrest]
    rfl

theorem optional (h : d.Reads j b) : (Decoder.optional d).Reads j (some b) where
  head := h.head
  read {level cs rest} hskip hrest := by
    have hread := h.read (h.skipBlanks_eq level rest) hrest
    obtain ⟨c, cs', htext, hc⟩ := h.head level
    rw [htext] at hread hskip
    simp only [Decoder.optional, hskip]
    split
    · next heq => exact absurd (List.cons.inj heq).1 hc.2.2.2.2
    · rw [hread]
      rfl

theorem text (s : String) : (Decoder.text α).Reads (.text s) s where
  head level := ⟨_, _, toList_quoted s, by decide⟩
  read {level cs rest} hskip _ := by
    obtain ⟨cs', htext, hread⟩ := readString_quoted s rest
    have hskip : skipBlanks cs = '"' :: cs' := hskip.trans htext
    simp only [Decoder.text, hskip]
    exact hread

theorem flag (b : Bool) : (Decoder.flag α).Reads (.flag b) b := by
  have htrue : ∀ level, (prettyAt level (.flag true)).toList = ['t', 'r', 'u', 'e'] := by
    intro level
    rw [prettyAt]
    rfl
  have hfalse : ∀ level, (prettyAt level (.flag false)).toList = ['f', 'a', 'l', 's', 'e'] := by
    intro level
    rw [prettyAt]
    rfl
  cases b with
  | true =>
      refine ⟨fun level => ⟨_, _, htrue level, by decide⟩, fun {level cs rest} hskip _ => ?_⟩
      rw [htrue] at hskip
      simp only [Decoder.flag, hskip]
      rfl
  | false =>
      refine ⟨fun level => ⟨_, _, hfalse level, by decide⟩, fun {level cs rest} hskip _ => ?_⟩
      rw [hfalse] at hskip
      simp only [Decoder.flag, hskip]
      rfl

theorem choice {names : List (String × β)} {name : String} (h : names.lookup name = some b) :
    (Decoder.choice α names).Reads (.text name) b where
  head level := ⟨_, _, toList_quoted name, by decide⟩
  read {level cs rest} hskip _ := by
    obtain ⟨cs', htext, hread⟩ := readString_quoted name rest
    have hskip : skipBlanks cs = '"' :: cs' := hskip.trans htext
    simp only [Decoder.choice, hskip, hread, h]

end Reads

/-! ## Numbers -/

/-- A number is read back from its stored text. -/
def ReadsBack (x : α) : Prop :=
  ∃ d l, NumberText.shortest .toEven x = some d ∧
    readNumber .wanted (Literal.decimal d).text.toList = .ok (l, []) ∧ l.value? = some x

/-- Whether a number is read back. -/
def isReadBack [DecidableEq α] (x : α) : Bool :=
  match NumberText.shortest .toEven x with
  | none => false
  | some d =>
    match readNumber .wanted (Literal.decimal d).text.toList with
    | .ok (l, []) => decide (l.value? = some x)
    | _ => false

theorem isReadBack_iff [DecidableEq α] {x : α} : isReadBack x = true ↔ ReadsBack x := by
  rw [isReadBack, ReadsBack]
  constructor
  · intro h
    split at h
    · cases h
    · next d hshortest =>
        split at h
        · next l hread => exact ⟨d, l, hshortest, hread, of_decide_eq_true h⟩
        · cases h
  · rintro ⟨d, l, hshortest, hread, hvalue⟩
    simp only [hshortest, hread, hvalue, decide_true]

instance instDecidableReadsBack [DecidableEq α] (x : α) : Decidable (ReadsBack x) :=
  decidable_of_iff _ isReadBack_iff

theorem readNumber_head {purpose : Purpose} {cs r : List Char} {l : Literal}
    (h : readNumber purpose cs = .ok (l, r)) :
    ∃ c cs', cs = c :: cs' ∧ (c = '-' ∨ isDigit c = true) := by
  cases cs with
  | nil => cases h
  | cons c cs =>
      refine ⟨c, cs, rfl, ?_⟩
      by_cases hminus : c = '-'
      · exact .inl hminus
      · refine .inr (Decidable.byContradiction fun hdigit => ?_)
        rw [readNumber_unsigned hminus, readUnsigned, readWhole, readDigits,
          List.takeWhile_cons_of_neg hdigit] at h
        cases h

/-- Where the text of a number stands, a number is recognized and read. -/
theorem number_ahead {text cs rest : List Char} {l : Literal}
    (hread : readNumber .wanted text = .ok (l, [])) (hskip : skipBlanks cs = text ++ rest)
    (hrest : Stops rest) :
    ∃ c cs', skipBlanks cs = c :: cs' ∧ (c == '-' || isDigit c) = true ∧
      readNumber .wanted (c :: cs') = .ok (l, rest) := by
  obtain ⟨c, cs', rfl, hc⟩ := readNumber_head hread
  refine ⟨c, cs' ++ rest, hskip, ?_, readNumber_append hrest hread⟩
  rcases hc with rfl | hc
  · rfl
  · rw [hc, Bool.or_true]

theorem reads_number {x : α} (h : ReadsBack x) : (number : Decoder α).Reads (ofNumber x) x := by
  obtain ⟨d, l, hshortest, hread, hvalue⟩ := h
  have hjson : ofNumber x = .number (.decimal d) := by rw [ofNumber, hshortest]
  rw [hjson]
  obtain ⟨c, cs', htext, hc⟩ := readNumber_head hread
  refine ⟨fun level => ⟨c, cs', htext, opens_of_isDigit hc⟩, fun hskip hrest => ?_⟩
  obtain ⟨c, cs', hahead, hstart, hall⟩ := number_ahead hread hskip hrest
  simp only [number, hahead, hstart, if_true, hall, hvalue]

theorem reads_integer {lo hi n : Int} (hlo : lo ≤ n) (hhi : n ≤ hi)
    (hmin : -9223372036854775808 ≤ lo) (hmax : hi ≤ 18446744073709551615)
    (hvalue : ((Literal.integer n).value? : Option α).isSome = true) :
    (integer α lo hi).Reads (ofInt n) n := by
  have hread := readNumber_toString .wanted (Int.le_trans hmin hlo) (Int.le_trans hhi hmax)
  obtain ⟨c, cs', htext, hc⟩ := readNumber_head hread
  refine ⟨fun level => ⟨c, cs', htext, opens_of_isDigit hc⟩, fun hskip hrest => ?_⟩
  obtain ⟨c, cs', hahead, hstart, hall⟩ := number_ahead hread hskip hrest
  simp only [integer, hahead, hstart, if_true, readNumberIn, hall, hvalue, hlo, hhi, and_self]

/-! ## Lists -/

section Lists

variable {d : Decoder β}

theorem length_le_itemsAt (level : Nat) (vs : List Json) :
    vs.length ≤ (itemsAt level vs).toList.length := by
  induction vs with
  | nil => exact Nat.zero_le _
  | cons v vs ih =>
      simp only [toList_itemsAt_cons, List.length_cons, List.length_append]
      omega

theorem nextItem_first {cs cs' : List Char} {c : Char} (hskip : skipBlanks cs = c :: cs')
    (hcomma : c ≠ ',') (hclosing : c ≠ ']') : nextItem true cs = .ok (some (c :: cs')) := by
  simp only [nextItem, hskip]
  split
  · next heq => cases heq
  · next heq => exact absurd (List.cons.inj heq).1 hclosing
  · next heq => exact absurd (List.cons.inj heq).1 hcomma
  · rfl

theorem nextItem_later {cs cs' : List Char} {c : Char} (hskip : skipBlanks cs = c :: cs')
    (hclosing : c ≠ ']') : nextItem false (',' :: cs) = .ok (some (c :: cs')) := by
  have hcomma : skipBlanks (',' :: cs) = ',' :: cs := skipBlanks_of_head (by decide) cs
  simp only [nextItem, hcomma, hskip, Bool.false_eq_true, if_false]
  split
  · next heq => cases heq
  · next heq => exact absurd (List.cons.inj heq).1 hclosing
  · rfl

theorem nextItem_end (first : Bool) {cs rest : List Char} (hskip : skipBlanks cs = ']' :: rest) :
    nextItem first cs = .ok none ∧ closeList cs = .ok ((), rest) := by
  constructor
  · simp only [nextItem, hskip]
  · simp only [closeList, hskip]

/-- The items behind the first one are read up to the end of the list. -/
theorem listItems_itemsAt {vs : List Json} {bs : List β} (h : List.Forall₂ d.Reads vs bs)
    (level level' : Nat) (rest : List Char) {fuel : Nat} (hfuel : vs.length < fuel) :
    listItems d.fromText fuel false
      ((itemsAt level vs).toList ++ ((newLine level').toList ++ ']' :: rest)) =
      .ok (bs, rest) := by
  induction h generalizing fuel with
  | nil =>
      obtain ⟨fuel, rfl⟩ := Nat.exists_eq_succ_of_ne_zero (Nat.ne_of_gt hfuel)
      obtain ⟨hnext, hclose⟩ := nextItem_end false (skipBlanks_newLine level' (']' :: rest))
      rw [show (itemsAt level []).toList = [] from rfl, List.nil_append]
      simp only [listItems, hnext, hclose]
      rfl
  | @cons v b vs bs hv _ ih =>
      obtain ⟨fuel, rfl⟩ := Nat.exists_eq_succ_of_ne_zero (Nat.ne_of_gt (Nat.zero_lt_of_lt hfuel))
      obtain ⟨c, cs, hskip, hc, hread⟩ := hv.onLine level level
        (stops_itemsAt level level' vs (']' :: rest))
      simp only [toList_itemsAt_cons, List.cons_append, List.append_assoc, listItems,
        nextItem_later hskip hc.2.2.1, hread, ih (Nat.lt_of_succ_lt_succ hfuel)]
      rfl

/-- A list of things is read item by item. -/
theorem reads_list {vs : List Json} {bs : List β} (h : List.Forall₂ d.Reads vs bs) :
    (Decoder.list α d).Reads (.list vs) bs := by
  cases h with
  | nil =>
      have htext : ∀ level, (prettyAt level (.list [])).toList = ['[', ']'] := by
        intro level
        rw [prettyAt]
        rfl
      refine ⟨fun level => ⟨_, _, htext level, by decide⟩, fun {level cs rest} hskip _ => ?_⟩
      rw [htext] at hskip
      obtain ⟨hnext, hclose⟩ := nextItem_end true
        (skipBlanks_of_head (by decide : ¬ isBlank ']' = true) rest)
      simp only [Decoder.list, hskip, List.cons_append, List.nil_append, listItems, hnext, hclose]
      rfl
  | @cons v b vs bs hv hvs =>
      refine ⟨fun level => ⟨_, _, toList_prettyAt_list level v vs, by decide⟩,
        fun {level cs rest} hskip _ => ?_⟩
      obtain ⟨c, cs', hahead, hc, hread⟩ := hv.onLine (level + 1) (level + 1)
        (stops_itemsAt (level + 1) level vs (']' :: rest))
      have hlength := length_le_itemsAt (level + 1) vs
      rw [toList_prettyAt_list] at hskip
      simp only [List.cons_append, List.append_assoc, List.nil_append] at hskip
      simp only [Decoder.list, hskip, listItems, nextItem_first hahead hc.2.1 hc.2.2.1, hread]
      rw [listItems_itemsAt hvs]
      · rfl
      · simp only [List.length_append, List.length_cons]
        omega

end Lists

/-! ## Tables -/

section Tables

variable {d : Decoder β}

theorem length_le_entriesAt (level : Nat) (es : List (String × Json)) :
    es.length ≤ (entriesAt level es).toList.length := by
  induction es with
  | nil => exact Nat.zero_le _
  | cons e es ih =>
      obtain ⟨k, v⟩ := e
      simp only [toList_entriesAt_cons, List.length_cons, List.length_append]
      omega

theorem nextKey_first {cs cs' : List Char} (hskip : skipBlanks cs = '"' :: cs') :
    nextKey true cs = .ok (some cs') := by
  simp only [nextKey, hskip, if_true]
  rfl

theorem nextKey_later {cs cs' : List Char} (hskip : skipBlanks cs = '"' :: cs') :
    nextKey false (',' :: cs) = .ok (some cs') := by
  have hcomma : skipBlanks (',' :: cs) = ',' :: cs := skipBlanks_of_head (by decide) cs
  simp only [nextKey, hcomma, hskip, Bool.false_eq_true, if_false]

theorem nextKey_end (first : Bool) {cs rest : List Char} (hskip : skipBlanks cs = '}' :: rest) :
    nextKey first cs = .ok none ∧ closeTable cs = .ok ((), rest) := by
  constructor
  · simp only [nextKey, hskip]
  · simp only [closeTable, hskip]

/-- On a line of its own the key of an entry is found at once, and read with the
colon and the value. -/
theorem Reads.entryOnLine {v : Json} {b : β} (h : d.Reads v b) (k : String)
    (level level' : Nat) {rest : List Char} (hrest : Stops rest) :
    ∃ cs cs₁ cs₂, skipBlanks ((newLine level').toList ++ ((quoted k).toList ++
        (':' :: ' ' :: ((prettyAt level v).toList ++ rest)))) = '"' :: cs ∧
      readString .wanted cs = .ok (k, cs₁) ∧ readColon cs₁ = .ok ((), cs₂) ∧
      d.fromText cs₂ = .ok (b, rest) := by
  obtain ⟨cs, htext, hkey⟩ :=
    readString_quoted k (':' :: ' ' :: ((prettyAt level v).toList ++ rest))
  refine ⟨cs, _, ' ' :: ((prettyAt level v).toList ++ rest), ?_, hkey, ?_, ?_⟩
  · rw [skipBlanks_newLine, htext]
    exact skipBlanks_of_head (by decide) cs
  · have hcolon := skipBlanks_of_head (by decide : ¬ isBlank ':' = true)
      (' ' :: ((prettyAt level v).toList ++ rest))
    simp only [readColon, hcolon]
  · have hskip : skipBlanks (' ' :: ((prettyAt level v).toList ++ rest)) =
        (prettyAt level v).toList ++ rest := h.skipBlanks_eq level rest
    exact h.read hskip hrest

/-- Behind all keys that are there a new key goes to the end. -/
theorem putEntry_last {key : String} {es : List (String × β)} (b : β)
    (h : ∀ e ∈ es, e.1 < key) : putEntry key b es = es ++ [(key, b)] := by
  induction es with
  | nil => rfl
  | cons e es ih =>
      rw [List.forall_mem_cons] at h
      have hnot : ¬ key < e.1 := String.lt_asymm h.1
      have hne : e.1 ≠ key := String.ne_of_lt h.1
      rw [putEntry, if_neg hnot, if_neg hne, ih h.2]
      rfl

/-- The entries behind the first one are read up to the end of the table. -/
theorem tableEntries_entriesAt {es : List (String × Json)} {bs done : List (String × β)}
    (h : List.Forall₂ (fun e r => e.1 = r.1 ∧ d.Reads e.2 r.2) es bs)
    (hsorted : (done ++ bs).Pairwise fun r s => r.1 < s.1)
    (level level' : Nat) (rest : List Char) {fuel : Nat} (hfuel : es.length < fuel) :
    tableEntries d.fromText fuel false done
      ((entriesAt level es).toList ++ ((newLine level').toList ++ '}' :: rest)) =
      .ok (done ++ bs, rest) := by
  induction h generalizing fuel done with
  | nil =>
      obtain ⟨fuel, rfl⟩ := Nat.exists_eq_succ_of_ne_zero (Nat.ne_of_gt hfuel)
      obtain ⟨hnext, hclose⟩ := nextKey_end false (skipBlanks_newLine level' ('}' :: rest))
      rw [show (entriesAt level []).toList = [] from rfl, List.nil_append]
      simp only [tableEntries, hnext, hclose, List.append_nil]
      rfl
  | @cons e r es bs he _ ih =>
      obtain ⟨fuel, rfl⟩ := Nat.exists_eq_succ_of_ne_zero (Nat.ne_of_gt (Nat.zero_lt_of_lt hfuel))
      obtain ⟨k, v⟩ := e
      obtain ⟨k', b⟩ := r
      obtain ⟨rfl, hv⟩ := he
      obtain ⟨cs, cs₁, cs₂, hskip, hkey, hcolon, hread⟩ := hv.entryOnLine k level level
        (stops_entriesAt level level' es ('}' :: rest))
      have hlast : ∀ r ∈ done, r.1 < k := fun r hr =>
        (List.pairwise_append.1 hsorted).2.2 r hr _ List.mem_cons_self
      rw [List.append_cons] at hsorted
      simp only [toList_entriesAt_cons, List.cons_append, List.append_assoc, tableEntries,
        nextKey_later hskip, hkey, hcolon, hread, putEntry_last b hlast]
      rw [ih hsorted (Nat.lt_of_succ_lt_succ hfuel), List.append_assoc]
      rfl

/-- A table whose keys are in order is read entry by entry. -/
theorem reads_table {es : List (String × Json)} {bs : List (String × β)}
    (h : List.Forall₂ (fun e r => e.1 = r.1 ∧ d.Reads e.2 r.2) es bs)
    (hsorted : bs.Pairwise fun r s => r.1 < s.1) : (Decoder.table α d).Reads (.table es) bs := by
  cases h with
  | nil =>
      refine ⟨fun level => ⟨_, _, toList_prettyAt_empty level, by decide⟩,
        fun {level cs rest} hskip _ => ?_⟩
      rw [toList_prettyAt_empty] at hskip
      obtain ⟨hnext, hclose⟩ := nextKey_end true
        (skipBlanks_of_head (by decide : ¬ isBlank '}' = true) rest)
      simp only [Decoder.table, hskip, List.cons_append, List.nil_append, tableEntries, hnext,
        hclose]
      rfl
  | @cons e r es bs he hes =>
      obtain ⟨k, v⟩ := e
      obtain ⟨k', b⟩ := r
      obtain ⟨rfl, hv⟩ := he
      refine ⟨fun level => ⟨_, _, toList_prettyAt_table level k v es, by decide⟩,
        fun {level cs rest} hskip _ => ?_⟩
      obtain ⟨cs', cs₁, cs₂, hahead, hkey, hcolon, hread⟩ := hv.entryOnLine k (level + 1)
        (level + 1) (stops_entriesAt (level + 1) level es ('}' :: rest))
      have hlength := length_le_entriesAt (level + 1) es
      rw [toList_prettyAt_table] at hskip
      simp only [List.cons_append, List.append_assoc, List.nil_append] at hskip
      simp only [Decoder.table, hskip, tableEntries, nextKey_first hahead, hkey, hcolon, hread,
        putEntry]
      have hsorted : ([(k, b)] ++ bs).Pairwise fun r s => r.1 < s.1 := hsorted
      rw [tableEntries_entriesAt hes hsorted]
      · rfl
      · simp only [List.length_append, List.length_cons]
        omega

end Tables

/-! ## Records -/

section Records

variable {slots : List (Slot σ)} {draft draft' : σ}

/-- The entries of a table fill the slots of a draft one after the other, each one a slot
that is still empty. -/
inductive Fills (slots : List (Slot σ)) : List (String × Json) → σ → σ → Prop
  | nil (draft : σ) : Fills slots [] draft draft
  | cons {k : String} {v : Json} {es : List (String × Json)} {draft draft' : σ} {slot : Slot σ}
      {fill : σ → σ} (named : slots.find? (fun s => s.name == k) = some slot)
      (empty : slot.isFilled draft = false) (reads : slot.fill.Reads v fill)
      (others : Fills slots es (fill draft) draft') : Fills slots ((k, v) :: es) draft draft'

/-- A slot with a getter and a setter is filled with what is read. -/
theorem Fills.set {k name : String} {v : Json} {es : List (String × Json)} {hasDefault : Bool}
    {get : σ → Option γ} {set : γ → σ → σ} {d : Decoder γ} {c : γ}
    (named : slots.find? (fun s => s.name == k) = some (.of name hasDefault get set d))
    (empty : get draft = none) (reads : d.Reads v c) (others : Fills slots es (set c draft) draft') :
    Fills slots ((k, v) :: es) draft draft' :=
  .cons named (Option.isSome_eq_false_iff.2 (Option.isNone_iff_eq_none.2 empty)) (reads.map set)
    others

theorem Fills.append {es es' : List (String × Json)} {draft'' : σ} (draft' : σ)
    (h : Fills slots es draft draft') (h' : Fills slots es' draft' draft'') :
    Fills slots (es ++ es') draft draft'' := by
  induction h with
  | nil => exact h'
  | cons named empty reads _ ih => exact .cons named empty reads (ih h')

/-- The members behind the first one are read up to the closing brace. -/
theorem members_entriesAt {es : List (String × Json)} (h : Fills slots es draft draft')
    (level level' : Nat) (rest : List Char) {fuel : Nat} (hfuel : es.length < fuel) :
    members α slots fuel false draft
      ((entriesAt level es).toList ++ ((newLine level').toList ++ '}' :: rest)) =
      .ok (draft', (newLine level').toList ++ '}' :: rest) := by
  induction h generalizing fuel with
  | nil draft =>
      obtain ⟨fuel, rfl⟩ := Nat.exists_eq_succ_of_ne_zero (Nat.ne_of_gt hfuel)
      obtain ⟨hnext, -⟩ := nextKey_end false (skipBlanks_newLine level' ('}' :: rest))
      rw [show (entriesAt level []).toList = [] from rfl, List.nil_append]
      simp only [members, hnext]
  | @cons k v es draft draft' slot fill named empty reads _ ih =>
      obtain ⟨fuel, rfl⟩ := Nat.exists_eq_succ_of_ne_zero (Nat.ne_of_gt (Nat.zero_lt_of_lt hfuel))
      obtain ⟨cs, cs₁, cs₂, hskip, hkey, hcolon, hread⟩ := reads.entryOnLine k level level
        (stops_entriesAt level level' es ('}' :: rest))
      simp only [toList_entriesAt_cons, List.cons_append, List.append_assoc, members,
        nextKey_later hskip, hkey, named, empty, Bool.false_eq_true, if_false, hcolon, hread]
      exact ih (Nat.lt_of_succ_lt_succ hfuel)

/-- A record is read from the table of its members. -/
theorem reads_record {es : List (String × Json)} {finish : σ → Option β} {b : β} (draft' : σ)
    (h : Fills slots es draft draft') (hfinish : finish draft' = some b) :
    (Decoder.record α slots draft finish).Reads (.table es) b := by
  cases h with
  | nil =>
      refine ⟨fun level => ⟨_, _, toList_prettyAt_empty level, by decide⟩,
        fun {level cs rest} hskip _ => ?_⟩
      rw [toList_prettyAt_empty] at hskip
      obtain ⟨hnext, hclose⟩ := nextKey_end true
        (skipBlanks_of_head (by decide : ¬ isBlank '}' = true) rest)
      simp only [Decoder.record, hskip, List.cons_append, List.nil_append, members, hnext,
        hfinish, hclose]
      rfl
  | @cons k v es _ _ slot fill named empty reads others =>
      refine ⟨fun level => ⟨_, _, toList_prettyAt_table level k v es, by decide⟩,
        fun {level cs rest} hskip _ => ?_⟩
      obtain ⟨cs', cs₁, cs₂, hahead, hkey, hcolon, hread⟩ := reads.entryOnLine k (level + 1)
        (level + 1) (stops_entriesAt (level + 1) level es ('}' :: rest))
      obtain ⟨-, hclose⟩ := nextKey_end false (skipBlanks_newLine level ('}' :: rest))
      have hlength := length_le_entriesAt (level + 1) es
      rw [toList_prettyAt_table] at hskip
      simp only [List.cons_append, List.append_assoc, List.nil_append] at hskip
      simp only [Decoder.record, hskip, members, nextKey_first hahead, hkey, named, empty,
        Bool.false_eq_true, if_false, hcolon, hread]
      rw [members_entriesAt others]
      · simp only [hfinish, hclose]
        rfl
      · simp only [List.length_append, List.length_cons]
        omega

end Records

end Decoder

end NoteRoll.Json
