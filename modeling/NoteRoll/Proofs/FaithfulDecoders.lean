import NoteRoll.Proofs.JsonSkipping

/-!
# The two ways of a decoder agree

A decoder reads a thing from a text and from a value. It is faithful if it makes of any
text of a value what it makes of the value, and rejects the one where it rejects the
other. Which fault it meets in the text is left open: from a value there is only one.

All ways to build decoders keep this, so that a format is gone through once, from its
records down to its numbers. Three of them have an argument in them. A list or a table
is an induction over its items; a record that is written as a list meets items that are
too many only where it looks for the closing bracket; and a record that is written as a
table passes over members that the other way never looks at.
-/

namespace NoteRoll.Json

open Layout

/-- A reading comes to the thing that a value stands for, and ends before the rest; or it
comes to a fault, and the value stands for nothing. -/
def Agrees {β : Type} (rest : List Char) (r : Reading β) (o : Option β) : Prop :=
  (∃ b, r = .ok (b, rest) ∧ o = some b) ∨ (∃ fault, r = .error fault) ∧ o = none

namespace Agrees

variable {β γ : Type} {rest : List Char}

theorem read (b : β) : Agrees rest (.ok (b, rest)) (some b) := .inl ⟨b, rfl, rfl⟩

theorem fault (f : Fault) : Agrees rest (.error f : Reading β) none := .inr ⟨⟨f, rfl⟩, rfl⟩

theorem map {r : Reading β} {o : Option β} (h : Agrees rest r o) (f : β → γ) :
    Agrees rest (r.map fun (b, rest) => (f b, rest)) (o.map f) := by
  rcases h with ⟨b, rfl, rfl⟩ | ⟨⟨fault, rfl⟩, rfl⟩
  · exact .read (f b)
  · exact .fault fault

end Agrees

namespace Decoder

variable {α : Type} [NumberText α] {β γ σ : Type}

/-- A decoder makes of any text of a value what it makes of the value. -/
structure Faithful (α : Type) [NumberText α] (d : Decoder β) : Prop where
  agrees : ∀ {v : Json} (y : Layout) (level : Nat) {cs rest : List Char}, v.Legible α →
    skipBlanks cs = y.spell level v ++ rest → Stops rest →
      Agrees rest (d.fromText cs) (d.fromValue v)

/-! ## Values of the wrong kind -/

section WrongKind

variable {c : Char} {cs cs' : List Char}

theorem number_fault (hskip : skipBlanks cs = c :: cs') (hc : ¬ (c == '-' || isDigit c) = true) :
    ∃ fault, (number : Decoder α).fromText cs = .error fault := by
  simp only [number, hskip, hc]
  exact ⟨_, rfl⟩

theorem integer_fault {lo hi : Int} (hskip : skipBlanks cs = c :: cs')
    (hc : ¬ (c == '-' || isDigit c) = true) :
    ∃ fault, (integer α lo hi).fromText cs = .error fault := by
  simp only [integer, hskip, hc]
  exact ⟨_, rfl⟩

theorem text_fault (hskip : skipBlanks cs = c :: cs') (hc : c ≠ '"') :
    ∃ fault, (text α).fromText cs = .error fault := by
  simp only [text, hskip]
  split
  · exact ⟨_, rfl⟩
  · next heq => exact absurd (List.cons.inj heq).1 hc
  · exact ⟨_, rfl⟩

theorem flag_fault (hskip : skipBlanks cs = c :: cs') (ht : c ≠ 't') (hf : c ≠ 'f') :
    ∃ fault, (flag α).fromText cs = .error fault := by
  simp only [flag, hskip]
  split
  · exact ⟨_, rfl⟩
  · next heq => exact absurd (List.cons.inj heq).1 ht
  · next heq => exact absurd (List.cons.inj heq).1 hf
  · exact ⟨_, rfl⟩

theorem null_fault (hskip : skipBlanks cs = c :: cs') (hc : c ≠ 'n') :
    ∃ fault, (null α).fromText cs = .error fault := by
  simp only [null, hskip]
  split
  · exact ⟨_, rfl⟩
  · next heq => exact absurd (List.cons.inj heq).1 hc
  · exact ⟨_, rfl⟩

theorem choice_fault {names : List (String × β)} (hskip : skipBlanks cs = c :: cs')
    (htext : c ≠ '"') (htable : c ≠ '{') :
    ∃ fault, (choice α names).fromText cs = .error fault := by
  simp only [choice, hskip]
  split
  · exact ⟨_, rfl⟩
  · next heq => exact absurd (List.cons.inj heq).1 htext
  · next heq => exact absurd (List.cons.inj heq).1 htable
  · exact ⟨_, rfl⟩

theorem list_fault {d : Decoder β} (hskip : skipBlanks cs = c :: cs') (hc : c ≠ '[') :
    ∃ fault, (list α d).fromText cs = .error fault := by
  simp only [list, hskip]
  split
  · exact ⟨_, rfl⟩
  · next heq => exact absurd (List.cons.inj heq).1 hc
  · exact ⟨_, rfl⟩

theorem table_fault {d : Decoder β} (hskip : skipBlanks cs = c :: cs') (hc : c ≠ '{') :
    ∃ fault, (table α d).fromText cs = .error fault := by
  simp only [table, hskip]
  split
  · exact ⟨_, rfl⟩
  · next heq => exact absurd (List.cons.inj heq).1 hc
  · exact ⟨_, rfl⟩

theorem record_fault {slots : List (Slot σ)} {draft : σ} {finish : σ → Option β}
    (hskip : skipBlanks cs = c :: cs') (htable : c ≠ '{') (hlist : c ≠ '[') :
    ∃ fault, (record α slots draft finish).fromText cs = .error fault := by
  simp only [record, hskip]
  split
  · exact ⟨_, rfl⟩
  · next heq => exact absurd (List.cons.inj heq).1 htable
  · next heq => exact absurd (List.cons.inj heq).1 hlist
  · exact ⟨_, rfl⟩

end WrongKind

/-! ## Single things -/

theorem Faithful.map {d : Decoder β} (h : d.Faithful α) (f : β → γ) : (d.map f).Faithful α :=
  ⟨fun y level _ _ hv hskip hrest => (h.agrees y level hv hskip hrest).map f⟩

theorem faithful_number : (number : Decoder α).Faithful α := by
  refine ⟨fun {v} y level {cs rest} hv hskip hrest => ?_⟩
  cases v with
  | number l =>
      obtain ⟨l', hl⟩ := legible_number.1 hv
      obtain ⟨x, hx⟩ := Option.isSome_iff_exists.1 hl.inRange
      obtain ⟨c, cs', hahead, hstart, hread⟩ := number_ahead hl.read hskip hrest
      refine .inl ⟨x, ?_, hx⟩
      simp only [number, hahead, hstart, if_true, hread, hl.value, hx]
  | _ =>
      obtain ⟨c, cs', hahead, hc⟩ := y.head_ahead level hv hskip
      refine .inr ⟨number_fault hahead fun hdigit => ?_, rfl⟩
      obtain ⟨l, h⟩ := hc.isNumber hdigit
      cases h

theorem faithful_integer {lo hi : Int} : (integer α lo hi).Faithful α := by
  refine ⟨fun {v} y level {cs rest} hv hskip hrest => ?_⟩
  cases v with
  | number l =>
      obtain ⟨l', hl⟩ := legible_number.1 hv
      obtain ⟨c, cs', hahead, hstart, hread⟩ := number_ahead hl.read hskip hrest
      have hrange : (l'.value? : Option α).isSome = true := by
        rw [hl.value]
        exact hl.inRange
      simp only [Agrees, integer, hahead, hstart, if_true, readNumberIn, hread, hrange]
      cases l with
      | integer n =>
          obtain rfl : l' = .integer n := (hl.whole n).2 rfl
          dsimp only
          split
          · exact .inl ⟨n, rfl, rfl⟩
          · exact .inr ⟨⟨_, rfl⟩, rfl⟩
      | decimal d =>
          cases l' with
          | integer n => cases (hl.whole n).1 rfl
          | decimal d' => exact .inr ⟨⟨_, rfl⟩, rfl⟩
  | _ =>
      obtain ⟨c, cs', hahead, hc⟩ := y.head_ahead level hv hskip
      refine .inr ⟨integer_fault hahead fun hdigit => ?_, rfl⟩
      obtain ⟨l, h⟩ := hc.isNumber hdigit
      cases h

theorem faithful_text : (text α).Faithful α := by
  refine ⟨fun {v} y level {cs rest} hv hskip hrest => ?_⟩
  cases v with
  | text s =>
      obtain ⟨cs', htext, hread⟩ := readString_quoted s rest
      rw [spell, htext] at hskip
      exact .inl ⟨s, by simp only [text, hskip, hread], rfl⟩
  | _ =>
      obtain ⟨c, cs', hahead, hc⟩ := y.head_ahead level hv hskip
      refine .inr ⟨text_fault hahead ?_, rfl⟩
      rintro rfl
      obtain ⟨s, h⟩ := hc.isText
      cases h

theorem faithful_flag : (flag α).Faithful α := by
  refine ⟨fun {v} y level {cs rest} hv hskip hrest => ?_⟩
  cases v with
  | flag b =>
      refine .inl ⟨b, ?_, rfl⟩
      cases b <;> rw [spell] at hskip <;> simp only [flag, hskip] <;> rfl
  | _ =>
      obtain ⟨c, cs', hahead, hc⟩ := y.head_ahead level hv hskip
      refine .inr ⟨flag_fault hahead ?_ ?_, rfl⟩
      all_goals
        rintro rfl
        obtain ⟨b, h⟩ := hc.isFlag (by decide)
        cases h

theorem faithful_null : (null α).Faithful α := by
  refine ⟨fun {v} y level {cs rest} hv hskip hrest => ?_⟩
  cases v with
  | null =>
      refine .inl ⟨(), ?_, rfl⟩
      rw [spell] at hskip
      simp only [null, hskip]
      rfl
  | _ =>
      obtain ⟨c, cs', hahead, hc⟩ := y.head_ahead level hv hskip
      refine .inr ⟨null_fault hahead ?_, rfl⟩
      rintro rfl
      cases hc.isNull

/-- What does not begin as null does is read as the thing itself. -/
theorem optional_fromText {d : Decoder β} {c : Char} {cs cs' : List Char}
    (hskip : skipBlanks cs = c :: cs') (hc : c ≠ 'n') :
    (optional d).fromText cs =
      (d.fromText (skipBlanks cs)).map fun (b, rest) => (some b, rest) := by
  simp only [optional, hskip]
  split
  · next heq => exact absurd (List.cons.inj heq).1 hc
  · rfl

theorem Faithful.optional {d : Decoder β} (h : d.Faithful α) : (optional d).Faithful α := by
  refine ⟨fun {v} y level {cs rest} hv hskip hrest => ?_⟩
  cases v with
  | null =>
      refine .inl ⟨none, ?_, rfl⟩
      rw [spell] at hskip
      simp only [Decoder.optional, hskip]
      rfl
  | _ =>
      obtain ⟨c, cs', hahead, hc⟩ := y.head_ahead level hv hskip
      rw [optional_fromText hahead]
      · refine (h.agrees y level hv ?_ hrest).map some
        rw [hskip]
        exact y.skipBlanks_spell level hv rest
      · rintro rfl
        cases hc.isNull

/-! ## Lists and tables -/

/-- What is behind a value in a text, as a decoder of the value finds it. -/
theorem Faithful.ahead {d : Decoder β} (h : d.Faithful α) (y : Layout) (level : Nat) {v : Json}
    (hv : v.Legible α) {rest : List Char} (hrest : Stops rest) :
    Agrees rest (d.fromText (y.spell level v ++ rest)) (d.fromValue v) :=
  h.agrees y level hv (y.skipBlanks_spell level hv rest) hrest

theorem Faithful.behindColon {d : Decoder β} (h : d.Faithful α) (y : Layout) (level : Nat)
    {v : Json} (hv : v.Legible α) {rest : List Char} (hrest : Stops rest) :
    Agrees rest (d.fromText (y.gap ++ (y.spell level v ++ rest))) (d.fromValue v) :=
  h.agrees y level hv ((y.skipBlanks_gap _).trans (y.skipBlanks_spell level hv rest)) hrest

theorem mapM_cons_eq (f : Json → Option β) (v : Json) (vs : List Json) :
    (v :: vs).mapM f = (f v).bind fun b => (vs.mapM f).map (b :: ·) := by
  rw [List.mapM_cons]
  cases f v with
  | none => rfl
  | some b => cases vs.mapM f <;> rfl

theorem listItems_agrees {d : Decoder β} (h : d.Faithful α) (y : Layout) (level : Nat)
    (rest : List Char) {vs : List Json} (hvs : LegibleItems α vs) {fuel : Nat}
    (hfuel : vs.length < fuel) (first : Bool) :
    Agrees rest (listItems d.fromText fuel first (y.items first level vs ++ rest))
      (vs.mapM d.fromValue) := by
  induction vs generalizing fuel first with
  | nil =>
      obtain ⟨fuel, rfl⟩ := Nat.exists_eq_succ_of_ne_zero (Nat.ne_of_gt hfuel)
      obtain ⟨hnext, hclose⟩ := nextItem_end first (y.skipBlanks_items_nil first level rest)
      simp only [listItems, hnext, hclose]
      exact .read []
  | cons v vs ih =>
      obtain ⟨fuel, rfl⟩ := Nat.exists_eq_succ_of_ne_zero (Nat.ne_of_gt (Nat.zero_lt_of_lt hfuel))
      obtain ⟨hv, hvs⟩ := legibleItems_cons.1 hvs
      simp only [listItems, nextItem_items first hv rest, mapM_cons_eq]
      rcases h.ahead y (level + 1) hv (y.stops_items level vs rest) with
        ⟨b, hread, hb⟩ | ⟨⟨fault, hread⟩, hb⟩
      · simp only [hread, hb]
        exact (ih hvs (Nat.lt_of_succ_lt_succ hfuel) false).map (b :: ·)
      · simp only [hread, hb]
        exact .fault fault

theorem Faithful.list {d : Decoder β} (h : d.Faithful α) : (list α d).Faithful α := by
  refine ⟨fun {v} y level {cs rest} hv hskip hrest => ?_⟩
  cases v with
  | list vs =>
      rw [spell, List.cons_append] at hskip
      have hlength := length_le_items y level vs
      simp only [Decoder.list, hskip]
      refine listItems_agrees h y level rest (legible_list.1 hv) ?_ true
      rw [List.length_append]
      omega
  | _ =>
      obtain ⟨c, cs', hahead, hc⟩ := y.head_ahead level hv hskip
      refine .inr ⟨list_fault hahead ?_, rfl⟩
      rintro rfl
      obtain ⟨vs, h⟩ := hc.isList
      cases h

theorem tableEntries_agrees {d : Decoder β} (h : d.Faithful α) (y : Layout) (level : Nat)
    (rest : List Char) {es : List (String × Json)} (hes : LegibleEntries α es) {fuel : Nat}
    (hfuel : es.length < fuel) (first : Bool) (done : List (String × β)) :
    Agrees rest (tableEntries d.fromText fuel first done (y.entries first level es ++ rest))
      (es.foldlM (fun done e => (d.fromValue e.2).map (putEntry e.1 · done)) done) := by
  induction es generalizing fuel first done with
  | nil =>
      obtain ⟨fuel, rfl⟩ := Nat.exists_eq_succ_of_ne_zero (Nat.ne_of_gt hfuel)
      obtain ⟨hnext, hclose⟩ := nextKey_end first (y.skipBlanks_entries_nil first level rest)
      simp only [tableEntries, hnext, hclose]
      exact .read done
  | cons e es ih =>
      obtain ⟨fuel, rfl⟩ := Nat.exists_eq_succ_of_ne_zero (Nat.ne_of_gt (Nat.zero_lt_of_lt hfuel))
      obtain ⟨k, v⟩ := e
      obtain ⟨hv, hes⟩ := legibleEntries_cons.1 hes
      obtain ⟨cs, cs', hnext, hkey, hcolon⟩ := y.nextKey_entries first level k v es rest
      simp only [tableEntries, hnext, hkey, hcolon, List.foldlM_cons]
      rcases h.behindColon y (level + 1) hv (y.stops_entries level es rest) with
        ⟨b, hread, hb⟩ | ⟨⟨fault, hread⟩, hb⟩
      · simp only [hread, hb]
        exact ih hes (Nat.lt_of_succ_lt_succ hfuel) false (putEntry k b done)
      · simp only [hread, hb]
        exact .fault fault

theorem Faithful.table {d : Decoder β} (h : d.Faithful α) : (table α d).Faithful α := by
  refine ⟨fun {v} y level {cs rest} hv hskip hrest => ?_⟩
  cases v with
  | table es =>
      rw [spell, List.cons_append] at hskip
      have hlength := length_le_entries y level es
      simp only [Decoder.table, hskip]
      refine tableEntries_agrees h y level rest (legible_table.1 hv) ?_ true []
      rw [List.length_append]
      omega
  | _ =>
      obtain ⟨c, cs', hahead, hc⟩ := y.head_ahead level hv hskip
      refine .inr ⟨table_fault hahead ?_, rfl⟩
      rintro rfl
      obtain ⟨es, h⟩ := hc.isTable
      cases h

/-! ## Choices -/

/-- A choice that is written as a table has one entry, and it is null. -/
theorem choice_agrees_table (names : List (String × β)) (y : Layout) (level : Nat)
    {es : List (String × Json)} (hes : LegibleEntries α es) {cs rest : List Char}
    (hskip : skipBlanks cs = '{' :: (y.entries true level es ++ rest)) :
    Agrees rest ((choice α names).fromText cs) ((choice α names).fromValue (.table es)) := by
  rcases es with - | ⟨⟨k, v⟩, es⟩
  · obtain ⟨fault, hfault⟩ : ∃ fault, (text α).fromText (y.entries true level [] ++ rest) =
        .error fault := text_fault (y.skipBlanks_entries_nil true level rest) (by decide)
    simp only [choice, hskip, hfault]
    exact .fault fault
  · obtain ⟨hv, hes⟩ := legibleEntries_cons.1 hes
    obtain ⟨cs', hahead, hkey⟩ := y.key_ahead level k v es rest
    have hcolon (cs : List Char) : readColon (':' :: cs) = .ok ((), cs) := by
      simp only [readColon, skipBlanks_colon]
    simp only [choice, hskip, text, hahead, hkey, hcolon]
    cases hname : names.lookup k with
    | none =>
        refine .inr ⟨⟨_, rfl⟩, ?_⟩
        split
        · next heq => cases heq
        · next heq =>
            cases heq
            exact hname
        · rfl
    | some b =>
        dsimp only
        rcases faithful_null.behindColon y (level + 1) hv (y.stops_entries level es rest) with
          ⟨_, hread, hnull⟩ | ⟨⟨fault, hread⟩, hnull⟩
        · obtain rfl : v = .null := by cases v <;> first | rfl | cases hnull
          simp only [hread]
          cases es with
          | nil =>
              simp only [(nextKey_end false (y.skipBlanks_entries_nil false level rest)).2, hname]
              exact .read b
          | cons e es =>
              obtain ⟨fault, hfault⟩ := y.closeTable_entries level e.1 e.2 es rest
              simp only [hfault]
              exact .fault fault
        · simp only [hread]
          refine .inr ⟨⟨_, rfl⟩, ?_⟩
          split
          · next heq => cases heq
          · next heq =>
              cases heq
              cases hnull
          · rfl

theorem faithful_choice (names : List (String × β)) : (choice α names).Faithful α := by
  refine ⟨fun {v} y level {cs rest} hv hskip hrest => ?_⟩
  cases v with
  | text name =>
      obtain ⟨cs', htext, hread⟩ := readString_quoted name rest
      rw [spell, htext] at hskip
      simp only [choice, hskip, hread]
      cases names.lookup name with
      | none => exact .fault _
      | some b => exact .read b
  | table es =>
      rw [spell, List.cons_append] at hskip
      exact choice_agrees_table names y level (legible_table.1 hv) hskip
  | _ =>
      obtain ⟨c, cs', hahead, hc⟩ := y.head_ahead level hv hskip
      refine .inr ⟨choice_fault hahead ?_ ?_, rfl⟩
      · rintro rfl
        obtain ⟨s, h⟩ := hc.isText
        cases h
      · rintro rfl
        obtain ⟨es, h⟩ := hc.isTable
        cases h

/-! ## Records -/

/-- A reading that goes on to a closing bracket or brace. -/
def closed (closing : List Char → Reading Unit) (r : Reading σ) : Reading σ :=
  match r with
  | .error fault => .error fault
  | .ok (draft, cs) => (closing cs).map fun (_, rest) => (draft, rest)

theorem Slot.faithful_of {name : String} {hasDefault : Bool} {get : σ → Option γ}
    {set : γ → σ → σ} {d : Decoder γ} (h : d.Faithful α) :
    (Slot.of name hasDefault get set d).fill.Faithful α := h.map set

theorem agrees_finish {closing : List Char → Reading Unit} {r : Reading σ} {o : Option σ}
    {rest : List Char} (h : Agrees rest (closed closing r) o) (finish : σ → Option β) :
    Agrees rest
      (match r with
        | .error fault => .error fault
        | .ok (draft, cs) =>
          match finish draft with
          | none => .error .mismatch
          | some b => (closing cs).map fun (_, rest) => (b, rest))
      (o.bind finish) := by
  rcases r with fault | ⟨draft, cs⟩
  · rcases h with ⟨_, hread, -⟩ | ⟨-, rfl⟩
    · cases hread
    · exact .fault fault
  · rw [closed] at h
    dsimp only
    cases hclosing : closing cs with
    | error fault =>
        rw [hclosing] at h
        rcases h with ⟨_, hread, -⟩ | ⟨-, rfl⟩
        · cases hread
        · cases finish draft <;> exact .fault _
    | ok read =>
        rw [hclosing] at h
        rcases h with ⟨_, hread, rfl⟩ | ⟨⟨_, hread⟩, -⟩
        · cases hread
          rw [Option.bind_some]
          cases finish draft with
          | none => exact .fault _
          | some b => exact .read b
        · cases hread

theorem members_agrees {slots : List (Slot σ)} (h : ∀ s ∈ slots, s.fill.Faithful α) (y : Layout)
    (level : Nat) (rest : List Char) {es : List (String × Json)} (hes : LegibleEntries α es)
    {fuel : Nat} (hfuel : es.length < fuel) (first : Bool) (draft : σ) :
    Agrees rest (closed closeTable
        (members α slots fuel first draft (y.entries first level es ++ rest)))
      (fromEntries slots draft es) := by
  induction es generalizing fuel first draft with
  | nil =>
      obtain ⟨fuel, rfl⟩ := Nat.exists_eq_succ_of_ne_zero (Nat.ne_of_gt hfuel)
      obtain ⟨hnext, hclose⟩ := nextKey_end first (y.skipBlanks_entries_nil first level rest)
      simp only [members, hnext, closed, hclose]
      exact .read draft
  | cons e es ih =>
      obtain ⟨fuel, rfl⟩ := Nat.exists_eq_succ_of_ne_zero (Nat.ne_of_gt (Nat.zero_lt_of_lt hfuel))
      obtain ⟨k, v⟩ := e
      obtain ⟨hv, hes⟩ := legibleEntries_cons.1 hes
      obtain ⟨cs, cs', hnext, hkey, hcolon⟩ := y.nextKey_entries first level k v es rest
      have hothers := ih hes (Nat.lt_of_succ_lt_succ hfuel) false
      have hstops := y.stops_entries level es rest
      simp only [members, hnext, hkey, hcolon, fromEntries]
      cases hslot : slots.find? fun s => s.name == k with
      | none =>
          -- From the value the member is not looked at; from the text it must be got past.
          have hpast := y.skipValue_spell (level + 1) hv
            ((y.skipBlanks_gap _).trans (y.skipBlanks_spell (level + 1) hv _)) hstops
          simp only [hpast]
          exact hothers draft
      | some slot =>
          by_cases hfilled : slot.isFilled draft = true
          · simp only [hfilled, if_true]
            exact .fault _
          · have hfaithful : slot.fill.Faithful α := h slot (List.mem_of_find?_eq_some hslot)
            simp only [hfilled]
            rcases hfaithful.behindColon y (level + 1) hv hstops with
              ⟨fill, hread, hfill⟩ | ⟨⟨fault, hread⟩, hfill⟩
            · simp only [hread, hfill]
              exact hothers (fill draft)
            · simp only [hread, hfill]
              exact .fault fault

theorem inOrder_agrees {slots : List (Slot σ)} (h : ∀ s ∈ slots, s.fill.Faithful α) (y : Layout)
    (level : Nat) (rest : List Char) {vs : List Json} (hvs : LegibleItems α vs) (first : Bool)
    (draft : σ) :
    Agrees rest (closed closeList (inOrder slots first draft (y.items first level vs ++ rest)))
      (fromItems slots draft vs) := by
  induction slots generalizing vs first draft with
  | nil =>
      cases vs with
      | nil =>
          obtain ⟨-, hclose⟩ := nextItem_end first (y.skipBlanks_items_nil first level rest)
          simp only [inOrder, closed, hclose]
          exact .read draft
      | cons v vs =>
          -- The slots are used up, so the item is noticed only where a bracket is expected.
          obtain ⟨fault, hfault⟩ := y.closeList_items first level
            (legibleItems_cons.1 hvs).1 vs rest
          simp only [inOrder, closed, hfault]
          exact .fault fault
  | cons slot slots ih =>
      cases vs with
      | nil =>
          obtain ⟨hnext, hclose⟩ := nextItem_end first (y.skipBlanks_items_nil first level rest)
          simp only [inOrder, hnext, fromItems]
          split
          · simp only [closed, hclose]
            exact .read draft
          · exact .fault _
      | cons v vs =>
          obtain ⟨hv, hvs⟩ := legibleItems_cons.1 hvs
          simp only [inOrder, nextItem_items first hv rest, fromItems]
          have hfaithful : slot.fill.Faithful α := h slot List.mem_cons_self
          rcases hfaithful.ahead y (level + 1) hv (y.stops_items level vs rest) with
            ⟨fill, hread, hfill⟩ | ⟨⟨fault, hread⟩, hfill⟩
          · simp only [hread, hfill]
            exact ih (fun s hs => h s (List.mem_cons_of_mem _ hs)) hvs false (fill draft)
          · simp only [hread, hfill]
            exact .fault fault

theorem faithful_record {slots : List (Slot σ)} (h : ∀ s ∈ slots, s.fill.Faithful α) (draft : σ)
    (finish : σ → Option β) : (record α slots draft finish).Faithful α := by
  refine ⟨fun {v} y level {cs rest} hv hskip hrest => ?_⟩
  cases v with
  | table es =>
      rw [spell, List.cons_append] at hskip
      have hlength := length_le_entries y level es
      simp only [record, hskip]
      refine agrees_finish (members_agrees h y level rest (legible_table.1 hv) ?_ true draft) finish
      rw [List.length_append]
      omega
  | list vs =>
      rw [spell, List.cons_append] at hskip
      simp only [record, hskip]
      exact agrees_finish (inOrder_agrees h y level rest (legible_list.1 hv) true draft) finish
  | _ =>
      obtain ⟨c, cs', hahead, hc⟩ := y.head_ahead level hv hskip
      refine .inr ⟨record_fault hahead ?_ ?_, rfl⟩
      · rintro rfl
        obtain ⟨es, h⟩ := hc.isTable
        cases h
      · rintro rfl
        obtain ⟨vs, h⟩ := hc.isList
        cases h

/-! ## Whole texts -/

/-- A text of a value and the value itself come to the same thing, or both to a fault. -/
theorem Faithful.ofText {d : Decoder β} (h : d.Faithful α) {v : Json} (hv : v.Legible α)
    (y : Layout) {text : String} (htext : text.toList = y.spell 0 v) :
    (∃ b, d.ofText text = .ok b ∧ d.ofValue v = .ok b) ∨
      (∃ fault, d.ofText text = .error fault) ∧ ∃ fault, d.ofValue v = .error fault := by
  have hagrees := h.ahead y 0 hv stops_nil
  rw [List.append_nil, ← htext] at hagrees
  rcases hagrees with ⟨b, hread, hb⟩ | ⟨⟨fault, hread⟩, hb⟩
  · exact .inl ⟨b, by rw [Decoder.ofText, hread]; rfl, by rw [ofValue, hb]⟩
  · exact .inr ⟨⟨fault, by rw [Decoder.ofText, hread]⟩, _, by rw [ofValue, hb]⟩

end Decoder

end NoteRoll.Json
