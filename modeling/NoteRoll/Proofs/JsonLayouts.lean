import NoteRoll.Proofs.JsonDecoders

/-!
# The texts of a value

A value has many texts, which differ in the blanks between their lexemes. A `Layout`
says where blanks stand, and `spell` is the text of a value in a layout; the two ways
to print a value are two layouts. What is said about reading is said for all of them.

Of strings nothing is asked. Of a number it is asked that its own text is read as a
number of the same kind and the same value, which is `Literal.Legible`.
-/

namespace NoteRoll.Json

open Decoder (readNumber_head nextItem_first nextItem_later nextKey_first nextKey_later)

/-! ## Layouts -/

/-- The blanks of a text: at the beginning of a line at a level, and behind a colon. -/
structure Layout where
  line : Nat → List Char
  gap : List Char
  line_blank : ∀ level, ∀ c ∈ line level, isBlank c = true
  gap_blank : ∀ c ∈ gap, isBlank c = true

namespace Layout

/-- One line for each item or entry. -/
def lined : Layout where
  line level := (newLine level).toList
  gap := [' ']
  line_blank := isBlank_of_mem_newLine
  gap_blank _ h := by rw [List.mem_singleton.1 h]; decide

/-- No blanks at all. -/
def dense : Layout where
  line _ := []
  gap := []
  line_blank _ _ h := absurd h List.not_mem_nil
  gap_blank _ h := absurd h List.not_mem_nil

mutual

/-- The text of a value at a level. -/
def spell (y : Layout) (level : Nat) : Json → List Char
  | .null => ['n', 'u', 'l', 'l']
  | .flag true => ['t', 'r', 'u', 'e']
  | .flag false => ['f', 'a', 'l', 's', 'e']
  | .number l => l.text.toList
  | .text s => (quoted s).toList
  | .list vs => '[' :: y.items true level vs
  | .table es => '{' :: y.entries true level es

/-- Items up to the closing bracket; all but the first one have a comma in front. -/
def items (y : Layout) (first : Bool) (level : Nat) : List Json → List Char
  | [] => (if first then [] else y.line level) ++ [']']
  | v :: vs => (if first then [] else [',']) ++
      (y.line (level + 1) ++ (y.spell (level + 1) v ++ y.items false level vs))

/-- Entries up to the closing brace. -/
def entries (y : Layout) (first : Bool) (level : Nat) : List (String × Json) → List Char
  | [] => (if first then [] else y.line level) ++ ['}']
  | (k, v) :: es => (if first then [] else [',']) ++
      (y.line (level + 1) ++ ((quoted k).toList ++ (':' :: (y.gap ++
        (y.spell (level + 1) v ++ y.entries false level es)))))

end

mutual

theorem toList_prettyAt (level : Nat) : ∀ v : Json, (prettyAt level v).toList = lined.spell level v
  | .null => by rw [prettyAt, spell]; rfl
  | .flag true => by rw [prettyAt, spell]; rfl
  | .flag false => by rw [prettyAt, spell]; rfl
  | .number _ => by rw [prettyAt, spell]
  | .text _ => by rw [prettyAt, spell]
  | .list [] => by rw [prettyAt, spell, items]; rfl
  | .list (v :: vs) => by
      rw [toList_prettyAt_list, spell, items, toList_prettyAt (level + 1) v,
        toList_itemsAt_closed level vs]
      rfl
  | .table [] => by rw [toList_prettyAt_empty, spell, entries]; rfl
  | .table ((k, v) :: es) => by
      rw [toList_prettyAt_table, spell, entries, toList_prettyAt (level + 1) v,
        toList_entriesAt_closed level es]
      rfl

theorem toList_itemsAt_closed (level : Nat) : ∀ vs : List Json,
    (itemsAt (level + 1) vs).toList ++ ((newLine level).toList ++ [']']) =
      lined.items false level vs
  | [] => by rw [itemsAt, items]; rfl
  | v :: vs => by
      rw [toList_itemsAt_cons, items, toList_prettyAt (level + 1) v, ← toList_itemsAt_closed level vs]
      simp only [List.cons_append, List.append_assoc]
      rfl

theorem toList_entriesAt_closed (level : Nat) : ∀ es : List (String × Json),
    (entriesAt (level + 1) es).toList ++ ((newLine level).toList ++ ['}']) =
      lined.entries false level es
  | [] => by rw [entriesAt, entries]; rfl
  | (k, v) :: es => by
      rw [toList_entriesAt_cons, entries, toList_prettyAt (level + 1) v,
        ← toList_entriesAt_closed level es]
      simp only [List.cons_append, List.append_assoc]
      rfl

end

theorem dense_line (level : Nat) : dense.line level = [] := rfl

theorem dense_gap : dense.gap = [] := rfl

mutual

theorem toList_compact (level : Nat) : ∀ v : Json, v.compact.toList = dense.spell level v
  | .null => by rw [compact, spell]; rfl
  | .flag true => by rw [compact, spell]; rfl
  | .flag false => by rw [compact, spell]; rfl
  | .number _ => by rw [compact, spell]
  | .text _ => by rw [compact, spell]
  | .list [] => by rw [compact, spell, items]; rfl
  | .list (v :: vs) => by
      rw [compact, spell, items, ← toList_compact (level + 1) v, ← toList_compactItems level vs]
      simp only [String.toList_append, List.append_assoc, dense_line, List.nil_append]
      rfl
  | .table [] => by rw [compact, spell, entries]; rfl
  | .table ((k, v) :: es) => by
      rw [compact, spell, entries, ← toList_compact (level + 1) v, ← toList_compactEntries level es]
      simp only [String.toList_append, List.append_assoc, dense_line, dense_gap, List.nil_append]
      rfl

theorem toList_compactItems (level : Nat) : ∀ vs : List Json,
    (compactItems vs).toList = dense.items false level vs
  | [] => by rw [compactItems, items]; rfl
  | v :: vs => by
      rw [compactItems, items, ← toList_compact (level + 1) v, ← toList_compactItems level vs]
      simp only [String.toList_append, List.append_assoc, dense_line, List.nil_append]
      rfl

theorem toList_compactEntries (level : Nat) : ∀ es : List (String × Json),
    (compactEntries es).toList = dense.entries false level es
  | [] => by rw [compactEntries, entries]; rfl
  | (k, v) :: es => by
      rw [compactEntries, entries, ← toList_compact (level + 1) v, ← toList_compactEntries level es]
      simp only [String.toList_append, List.append_assoc, dense_line, dense_gap, List.nil_append]
      rfl

end

end Layout

/-! ## Legible values -/

mutual

/-- The numbers in a value, wherever they stand. -/
def literals : Json → List Literal
  | .number l => [l]
  | .list vs => literalsOfItems vs
  | .table es => literalsOfEntries es
  | _ => []

def literalsOfItems : List Json → List Literal
  | [] => []
  | v :: vs => v.literals ++ literalsOfItems vs

def literalsOfEntries : List (String × Json) → List Literal
  | [] => []
  | (_, v) :: es => v.literals ++ literalsOfEntries es

end

section Legible

variable (α : Type) [NumberText α]

/-- The text of a number is read as another number of the same kind and the same value,
which is in range. -/
structure Literal.ReadsAs (l l' : Literal) : Prop where
  read : readNumber .wanted l.text.toList = .ok (l', [])
  value : (l'.value? : Option α) = l.value?
  inRange : (l.value? : Option α).isSome = true
  whole : ∀ n, l' = .integer n ↔ l = .integer n

def Literal.Legible (l : Literal) : Prop := ∃ l', Literal.ReadsAs α l l'

/-- All numbers in a value are legible. -/
def Legible (v : Json) : Prop := ∀ l ∈ v.literals, l.Legible α

def LegibleItems (vs : List Json) : Prop := ∀ l ∈ literalsOfItems vs, l.Legible α

def LegibleEntries (es : List (String × Json)) : Prop := ∀ l ∈ literalsOfEntries es, l.Legible α

variable {α} {l : Literal} {v : Json} {vs : List Json} {k : String} {es : List (String × Json)}

theorem legible_number : (Json.number l).Legible α ↔ l.Legible α := by
  simp [Legible, literals]

theorem legible_list : (Json.list vs).Legible α ↔ LegibleItems α vs := by
  simp [Legible, LegibleItems, literals]

theorem legible_table : (Json.table es).Legible α ↔ LegibleEntries α es := by
  simp [Legible, LegibleEntries, literals]

theorem legibleItems_cons : LegibleItems α (v :: vs) ↔ v.Legible α ∧ LegibleItems α vs := by
  simp [Legible, LegibleItems, literalsOfItems, or_imp, forall_and]

theorem legibleEntries_cons :
    LegibleEntries α ((k, v) :: es) ↔ v.Legible α ∧ LegibleEntries α es := by
  simp [Legible, LegibleEntries, literalsOfEntries, or_imp, forall_and]

end Legible

/-- What a value begins with tells its kind. -/
def StartsWith (v : Json) (c : Char) : Prop :=
  match v with
  | .null => c = 'n'
  | .flag _ => c = 't' ∨ c = 'f'
  | .number _ => (c == '-' || isDigit c) = true
  | .text _ => c = '"'
  | .list _ => c = '['
  | .table _ => c = '{'

namespace StartsWith

variable {v : Json} {c : Char}

/-- No value begins with a blank or with what separates or closes values. -/
theorem opens (h : v.StartsWith c) : isBlank c = false ∧ c ≠ ',' ∧ c ≠ ']' ∧ c ≠ '}' := by
  cases v with
  | number l =>
      have hc : c = '-' ∨ isDigit c = true := by simpa [StartsWith] using h
      obtain ⟨hblank, hcomma, hlist, htable, -⟩ := opens_of_isDigit hc
      exact ⟨hblank, hcomma, hlist, htable⟩
  | flag b => rcases h with rfl | rfl <;> decide
  | _ =>
      obtain rfl : c = _ := h
      decide

theorem isNull (h : v.StartsWith 'n') : v = .null := by
  cases v <;> simp_all [StartsWith, isDigit]

theorem isFlag (h : v.StartsWith c) (hc : c = 't' ∨ c = 'f') : ∃ b, v = .flag b := by
  rcases hc with rfl | rfl <;> cases v <;> simp_all [StartsWith, isDigit]

theorem isNumber (h : v.StartsWith c) (hc : (c == '-' || isDigit c) = true) :
    ∃ l, v = .number l := by
  cases v with
  | number l => exact ⟨l, rfl⟩
  | flag b => rcases h with rfl | rfl <;> cases hc
  | _ =>
      obtain rfl : c = _ := h
      cases hc

theorem isText (h : v.StartsWith '"') : ∃ s, v = .text s := by
  cases v <;> simp_all [StartsWith, isDigit]

theorem isList (h : v.StartsWith '[') : ∃ vs, v = .list vs := by
  cases v <;> simp_all [StartsWith, isDigit]

theorem isTable (h : v.StartsWith '{') : ∃ es, v = .table es := by
  cases v <;> simp_all [StartsWith, isDigit]

end StartsWith

namespace Layout

variable {α : Type} [NumberText α] {y : Layout} {v : Json} {vs : List Json}
  {k : String} {es : List (String × Json)} {first : Bool} {level : Nat}

theorem spell_head (y : Layout) (level : Nat) (hv : v.Legible α) :
    ∃ c cs, y.spell level v = c :: cs ∧ v.StartsWith c := by
  cases v with
  | flag b => cases b <;> exact ⟨_, _, rfl, by simp [StartsWith]⟩
  | number l =>
      obtain ⟨l', hl⟩ := legible_number.1 hv
      obtain ⟨c, cs, htext, hc⟩ := readNumber_head hl.read
      exact ⟨c, cs, htext, by simpa [StartsWith] using hc⟩
  | text s => exact ⟨_, _, toList_quoted s, rfl⟩
  | _ => exact ⟨_, _, rfl, rfl⟩

theorem head_ahead (y : Layout) (level : Nat) (hv : v.Legible α) {cs rest : List Char}
    (hskip : skipBlanks cs = y.spell level v ++ rest) :
    ∃ c cs', skipBlanks cs = c :: cs' ∧ v.StartsWith c := by
  obtain ⟨c, cs', htext, hc⟩ := y.spell_head level hv
  rw [htext, List.cons_append] at hskip
  exact ⟨c, _, hskip, hc⟩

theorem skipBlanks_spell (y : Layout) (level : Nat) (hv : v.Legible α) (rest : List Char) :
    skipBlanks (y.spell level v ++ rest) = y.spell level v ++ rest := by
  obtain ⟨c, cs, htext, hc⟩ := y.spell_head level hv
  rw [htext]
  exact skipBlanks_of_head (Bool.eq_false_iff.1 hc.opens.1) _

theorem skipBlanks_line (y : Layout) (level : Nat) (cs : List Char) :
    skipBlanks (y.line level ++ cs) = skipBlanks cs := skipBlanks_append (y.line_blank level) cs

theorem skipBlanks_gap (y : Layout) (cs : List Char) : skipBlanks (y.gap ++ cs) = skipBlanks cs :=
  skipBlanks_append y.gap_blank cs

/-! ### What stands behind a value -/

theorem stops_line (y : Layout) (level : Nat) {cs : List Char} (hcs : Stops cs) :
    Stops (y.line level ++ cs) := by
  have hblank := y.line_blank level
  cases hline : y.line level with
  | nil => exact hcs
  | cons c line =>
      rw [hline] at hblank
      have hc := hblank c List.mem_cons_self
      simp only [isBlank, Bool.or_eq_true, beq_iff_eq] at hc
      rcases hc with ((rfl | rfl) | rfl) | rfl <;> exact stops_cons (by decide) _

theorem stops_items (y : Layout) (level : Nat) (vs : List Json) (rest : List Char) :
    Stops (y.items false level vs ++ rest) := by
  cases vs with
  | nil =>
      simp only [items, Bool.false_eq_true, if_false, List.append_assoc]
      exact y.stops_line level (stops_cons (by decide) _)
  | cons v vs => exact stops_cons (by decide) _

theorem stops_entries (y : Layout) (level : Nat) (es : List (String × Json)) (rest : List Char) :
    Stops (y.entries false level es ++ rest) := by
  cases es with
  | nil =>
      simp only [entries, Bool.false_eq_true, if_false, List.append_assoc]
      exact y.stops_line level (stops_cons (by decide) _)
  | cons e es => exact stops_cons (by decide) _

/-! ### Items and entries, one by one -/

theorem skipBlanks_comma (cs : List Char) : skipBlanks (',' :: cs) = ',' :: cs :=
  skipBlanks_of_head (by decide) cs

theorem skipBlanks_colon (cs : List Char) : skipBlanks (':' :: cs) = ':' :: cs :=
  skipBlanks_of_head (by decide) cs

theorem items_comma (y : Layout) (level : Nat) (v : Json) (vs : List Json) :
    y.items false level (v :: vs) = ',' :: y.items true level (v :: vs) := rfl

theorem entries_comma (y : Layout) (level : Nat) (e : String × Json)
    (es : List (String × Json)) :
    y.entries false level (e :: es) = ',' :: y.entries true level (e :: es) := rfl

theorem length_lt_items (y : Layout) (level : Nat) (vs : List Json) :
    vs.length < (y.items false level vs).length := by
  induction vs with
  | nil => simp [items]
  | cons v vs ih =>
      simp only [items, Bool.false_eq_true, if_false, List.length_append, List.length_cons]
      omega

theorem length_le_items (y : Layout) (level : Nat) (vs : List Json) :
    vs.length ≤ (y.items true level vs).length := by
  cases vs with
  | nil => exact Nat.zero_le _
  | cons v vs =>
      have hothers := length_lt_items y level vs
      simp only [items, if_true, List.length_append, List.length_cons]
      omega

theorem length_lt_entries (y : Layout) (level : Nat) (es : List (String × Json)) :
    es.length < (y.entries false level es).length := by
  induction es with
  | nil => simp [entries]
  | cons e es ih =>
      simp only [entries, Bool.false_eq_true, if_false, List.length_append, List.length_cons]
      omega

theorem length_le_entries (y : Layout) (level : Nat) (es : List (String × Json)) :
    es.length ≤ (y.entries true level es).length := by
  cases es with
  | nil => exact Nat.zero_le _
  | cons e es =>
      have hothers := length_lt_entries y level es
      simp only [entries, if_true, List.length_append, List.length_cons]
      omega

theorem skipBlanks_items_nil (y : Layout) (first : Bool) (level : Nat) (rest : List Char) :
    skipBlanks (y.items first level [] ++ rest) = ']' :: rest := by
  have hclosing := skipBlanks_of_head (by decide : ¬ isBlank ']' = true) rest
  cases first with
  | true => exact hclosing
  | false =>
      simp only [items, Bool.false_eq_true, if_false, List.append_assoc, y.skipBlanks_line]
      exact hclosing

theorem skipBlanks_entries_nil (y : Layout) (first : Bool) (level : Nat) (rest : List Char) :
    skipBlanks (y.entries first level [] ++ rest) = '}' :: rest := by
  have hclosing := skipBlanks_of_head (by decide : ¬ isBlank '}' = true) rest
  cases first with
  | true => exact hclosing
  | false =>
      simp only [entries, Bool.false_eq_true, if_false, List.append_assoc, y.skipBlanks_line]
      exact hclosing

theorem skipBlanks_items_cons (y : Layout) (level : Nat) (hv : v.Legible α) (vs : List Json)
    (rest : List Char) :
    skipBlanks (y.items true level (v :: vs) ++ rest) =
      y.spell (level + 1) v ++ (y.items false level vs ++ rest) := by
  simp only [items, if_true, List.nil_append, List.append_assoc, y.skipBlanks_line]
  exact y.skipBlanks_spell (level + 1) hv _

/-- The text of the first item, or of one behind a comma. -/
theorem nextItem_items (first : Bool) (hv : v.Legible α) (rest : List Char) :
    nextItem first (y.items first level (v :: vs) ++ rest) =
      .ok (some (y.spell (level + 1) v ++ (y.items false level vs ++ rest))) := by
  have hskip := y.skipBlanks_items_cons level hv vs rest
  obtain ⟨c, cs, htext, hc⟩ := y.spell_head (level + 1) hv
  rw [htext, List.cons_append] at hskip ⊢
  cases first with
  | true => exact nextItem_first hskip hc.opens.2.1 hc.opens.2.2.1
  | false => exact nextItem_later hskip hc.opens.2.2.1

/-- A list does not end where an item stands. -/
theorem closeList_items (y : Layout) (first : Bool) (level : Nat) (hv : v.Legible α)
    (vs : List Json) (rest : List Char) :
    ∃ fault, closeList (y.items first level (v :: vs) ++ rest) = .error fault := by
  have hskip := y.skipBlanks_items_cons level hv vs rest
  obtain ⟨c, cs, htext, hc⟩ := y.spell_head (level + 1) hv
  rw [htext, List.cons_append] at hskip
  cases first with
  | true =>
      simp only [closeList, hskip]
      split
      · next heq => exact absurd (List.cons.inj heq).1 hc.opens.2.2.1
      · exact ⟨_, rfl⟩
      · exact ⟨_, rfl⟩
  | false => exact ⟨_, rfl⟩

theorem closeTable_entries (y : Layout) (level : Nat) (k : String) (v : Json)
    (es : List (String × Json)) (rest : List Char) :
    ∃ fault, closeTable (y.entries false level ((k, v) :: es) ++ rest) = .error fault := ⟨_, rfl⟩

/-- Where an entry stands, its key is found and read, up to the colon. -/
theorem key_ahead (y : Layout) (level : Nat) (k : String) (v : Json) (es : List (String × Json))
    (rest : List Char) :
    ∃ cs, skipBlanks (y.entries true level ((k, v) :: es) ++ rest) = '"' :: cs ∧
      readString .wanted cs = .ok (k, ':' :: (y.gap ++ (y.spell (level + 1) v ++
        (y.entries false level es ++ rest)))) := by
  obtain ⟨cs, htext, hread⟩ := readString_quoted k
    (':' :: (y.gap ++ (y.spell (level + 1) v ++ (y.entries false level es ++ rest))))
  refine ⟨cs, ?_, hread⟩
  simp only [entries, if_true, List.nil_append, List.append_assoc, List.cons_append,
    y.skipBlanks_line]
  rw [htext]
  exact skipBlanks_of_head (by decide) cs

/-- The first key, or one behind a comma: it is found, and read with the colon behind it. -/
theorem nextKey_entries (y : Layout) (first : Bool) (level : Nat) (k : String) (v : Json)
    (es : List (String × Json)) (rest : List Char) :
    ∃ cs cs', nextKey first (y.entries first level ((k, v) :: es) ++ rest) = .ok (some cs) ∧
      readString .wanted cs = .ok (k, cs') ∧
      readColon cs' = .ok ((), y.gap ++ (y.spell (level + 1) v ++
        (y.entries false level es ++ rest))) := by
  obtain ⟨cs, hskip, hread⟩ := y.key_ahead level k v es rest
  refine ⟨cs, _, ?_, hread, ?_⟩
  · cases first with
    | true => exact nextKey_first hskip
    | false => exact nextKey_later hskip
  · simp only [readColon, skipBlanks_colon]

end Layout

end NoteRoll.Json
