import NoteRoll.Proofs.FiniteReadings

/-!
# What decoders make of a text

`d.Yields P` says that whatever a decoder makes of a text has a property. To each way of
building decoders there is one theorem. For a record it speaks of an invariant of the
draft: whichever members there are, and in whichever order, each of them keeps it.

For pieces the outcome is that an onset is finite wherever the clip is placed.
-/

namespace NoteRoll

namespace Json

namespace Decoder

variable {α : Type} [NumberText α] {β γ σ : Type} {P : β → Prop}

/-- Whatever a decoder makes of a text has a property. -/
structure Yields (d : Decoder β) (P : β → Prop) : Prop where
  holds : ∀ {cs rest b}, d.fromText cs = .ok (b, rest) → P b

theorem yields_true (d : Decoder β) : d.Yields fun _ => True := ⟨fun _ => trivial⟩

theorem ok_of_map {r : Reading β} {f : β × List Char → γ × List Char} {c : γ × List Char}
    (h : r.map f = .ok c) : ∃ b, r = .ok b ∧ f b = c := by
  cases r with
  | error fault => cases h
  | ok b =>
      cases h
      exact ⟨b, rfl, rfl⟩

theorem Yields.map {d : Decoder β} {Q : γ → Prop} {f : β → γ} (h : d.Yields P)
    (hf : ∀ b, P b → Q (f b)) : (d.map f).Yields Q := by
  refine ⟨fun {cs rest c} hread => ?_⟩
  obtain ⟨⟨b, rest'⟩, hb, heq⟩ := ok_of_map hread
  cases heq
  exact hf b (h.holds hb)

theorem yields_number : (number : Decoder Float).Yields fun x => x.isFinite = true := by
  refine ⟨fun {cs rest x} h => ?_⟩
  rw [number] at h
  dsimp only at h
  split at h
  · cases h
  · split at h
    · split at h
      · cases h
      · next l _ hread =>
          split at h
          · next x' hvalue =>
              cases h
              exact Literal.isFinite_value? (readNumber_fits hread) hvalue
          · cases h
    · cases h

theorem yields_integer (lo hi : Int) : (integer α lo hi).Yields fun n => lo ≤ n ∧ n ≤ hi := by
  refine ⟨fun {cs rest n} h => ?_⟩
  rw [integer] at h
  dsimp only at h
  split at h
  · cases h
  · split at h
    · split at h
      · cases h
      · split at h
        · next hbounds =>
            cases h
            exact hbounds
        · cases h
      · cases h
    · cases h

theorem Yields.optional {d : Decoder β} (h : d.Yields P) :
    (optional d).Yields fun o => ∀ b ∈ o, P b := by
  refine ⟨fun {cs rest o} hread => ?_⟩
  rw [Decoder.optional] at hread
  dsimp only at hread
  split at hread
  · obtain ⟨_, -, heq⟩ := ok_of_map hread
    cases heq
    rintro b ⟨⟩
  · obtain ⟨⟨b, rest'⟩, hb, heq⟩ := ok_of_map hread
    cases heq
    rintro b ⟨⟩
    exact h.holds hb

/-! ## Lists and tables -/

theorem listItems_yields {d : Decoder β} (h : d.Yields P) {fuel : Nat} {first : Bool}
    {cs rest : List Char} {bs : List β}
    (hread : listItems d.fromText fuel first cs = .ok (bs, rest)) : ∀ b ∈ bs, P b := by
  induction fuel generalizing first cs bs with
  | zero => cases hread
  | succ fuel ih =>
      rw [listItems] at hread
      split at hread
      · cases hread
      · obtain ⟨_, -, heq⟩ := ok_of_map hread
        cases heq
        exact fun b hb => absurd hb List.not_mem_nil
      · split at hread
        · cases hread
        · next b _ hb =>
            obtain ⟨⟨bs', rest'⟩, hbs, heq⟩ := ok_of_map hread
            cases heq
            exact List.forall_mem_cons.2 ⟨h.holds hb, ih hbs⟩

theorem Yields.list {d : Decoder β} (h : d.Yields P) :
    (list α d).Yields fun bs => ∀ b ∈ bs, P b := by
  refine ⟨fun {cs rest bs} hread => ?_⟩
  rw [Decoder.list] at hread
  dsimp only at hread
  split at hread
  · cases hread
  · exact listItems_yields h hread
  · cases hread

theorem forall_mem_putEntry {key : String} {b : β} {es : List (String × β)} (hb : P b)
    (hes : ∀ e ∈ es, P e.2) : ∀ e ∈ putEntry key b es, P e.2 := by
  induction es with
  | nil => exact List.forall_mem_cons.2 ⟨hb, hes⟩
  | cons e es ih =>
      obtain ⟨he, hes'⟩ := List.forall_mem_cons.1 hes
      rw [putEntry]
      split
      · exact List.forall_mem_cons.2 ⟨hb, hes⟩
      · split
        · exact List.forall_mem_cons.2 ⟨hb, hes'⟩
        · exact List.forall_mem_cons.2 ⟨he, ih hes'⟩

theorem tableEntries_yields {d : Decoder β} (h : d.Yields P) {fuel : Nat} {first : Bool}
    {done : List (String × β)} {cs rest : List Char} {es : List (String × β)}
    (hdone : ∀ e ∈ done, P e.2)
    (hread : tableEntries d.fromText fuel first done cs = .ok (es, rest)) : ∀ e ∈ es, P e.2 := by
  induction fuel generalizing first done cs with
  | zero => cases hread
  | succ fuel ih =>
      rw [tableEntries] at hread
      split at hread
      · cases hread
      · obtain ⟨_, -, heq⟩ := ok_of_map hread
        cases heq
        exact hdone
      · split at hread
        · cases hread
        · split at hread
          · cases hread
          · split at hread
            · cases hread
            · next b _ hb => exact ih (forall_mem_putEntry (h.holds hb) hdone) hread

theorem Yields.table {d : Decoder β} (h : d.Yields P) :
    (table α d).Yields fun es => ∀ e ∈ es, P e.2 := by
  refine ⟨fun {cs rest es} hread => ?_⟩
  rw [Decoder.table] at hread
  dsimp only at hread
  split at hread
  · cases hread
  · exact tableEntries_yields h (fun e he => absurd he List.not_mem_nil) hread
  · cases hread

/-! ## Records -/

section Records

variable {slots : List (Slot σ)} {I : σ → Prop}

/-- Whatever is filled into a slot keeps an invariant of the draft. -/
def Slot.Keeps (slot : Slot σ) (I : σ → Prop) : Prop :=
  slot.fill.Yields fun fill => ∀ s, I s → I (fill s)

theorem Slot.keeps_of {name : String} {hasDefault : Bool} {get : σ → Option γ}
    {set : γ → σ → σ} {d : Decoder γ} {P : γ → Prop} (h : d.Yields P)
    (hset : ∀ c s, P c → I s → I (set c s)) :
    (Slot.of name hasDefault get set d).Keeps I :=
  h.map fun c hc s hs => hset c s hc hs

theorem members_keeps (h : ∀ slot ∈ slots, slot.Keeps I) {fuel : Nat} {first : Bool}
    {draft s : σ} {cs rest : List Char} (hdraft : I draft)
    (hread : members α slots fuel first draft cs = .ok (s, rest)) : I s := by
  induction fuel generalizing first draft cs with
  | zero => cases hread
  | succ fuel ih =>
      rw [members] at hread
      split at hread
      · cases hread
      · cases hread
        exact hdraft
      · split at hread
        · cases hread
        · split at hread
          · next slot hslot =>
              split at hread
              · cases hread
              · split at hread
                · cases hread
                · split at hread
                  · cases hread
                  · next fill _ hfill =>
                      have hkeeps := (h slot (List.mem_of_find?_eq_some hslot)).holds hfill
                      exact ih (hkeeps draft hdraft) hread
          · split at hread
            · cases hread
            · split at hread
              · cases hread
              · exact ih hdraft hread

theorem inOrder_keeps (h : ∀ slot ∈ slots, slot.Keeps I) {first : Bool} {draft s : σ}
    {cs rest : List Char} (hdraft : I draft)
    (hread : inOrder slots first draft cs = .ok (s, rest)) : I s := by
  induction slots generalizing first draft cs with
  | nil =>
      cases hread
      exact hdraft
  | cons slot slots ih =>
      obtain ⟨hslot, hslots⟩ := List.forall_mem_cons.1 h
      rw [inOrder] at hread
      split at hread
      · cases hread
      · split at hread
        · cases hread
          exact hdraft
        · cases hread
      · split at hread
        · cases hread
        · next fill _ hfill => exact ih hslots (hslot.holds hfill draft hdraft) hread

theorem yields_record (h : ∀ slot ∈ slots, slot.Keeps I) {draft : σ} (hdraft : I draft)
    {finish : σ → Option β} (hfinish : ∀ s b, I s → finish s = some b → P b) :
    (record α slots draft finish).Yields P := by
  refine ⟨fun {cs rest b} hread => ?_⟩
  rw [record] at hread
  dsimp only at hread
  split at hread
  · cases hread
  · split at hread
    · cases hread
    · next s _ hs =>
        split at hread
        · cases hread
        · next b' hb =>
            obtain ⟨_, -, heq⟩ := ok_of_map hread
            cases heq
            exact hfinish s b (members_keeps h hdraft hs) hb
  · split at hread
    · cases hread
    · next s _ hs =>
        split at hread
        · cases hread
        · next b' hb =>
            obtain ⟨_, -, heq⟩ := ok_of_map hread
            cases heq
            exact hfinish s b (inOrder_keeps h hdraft hs) hb
  · cases hread

end Records

theorem Yields.ofText {d : Decoder β} (h : d.Yields P) {text : String} {b : β}
    (hread : d.ofText text = .ok b) : P b := by
  rw [Decoder.ofText] at hread
  split at hread
  · cases hread
  · next b' _ hb =>
      split at hread
      · cases hread
        exact h.holds hb
      · cases hread

end Decoder

end Json

namespace Piece

open Json Json.Decoder

/-! ## Pieces -/

theorem yields_clipNote :
    (clipNoteDecoder : Decoder (ClipNote Float)).Yields fun m => m.start.isFinite = true := by
  refine yields_record (I := fun s => ∀ x ∈ s.start, x.isFinite = true) ?_ ?_ ?_
  · rintro slot hslot
    simp only [List.mem_cons, List.not_mem_nil, or_false] at hslot
    rcases hslot with rfl | rfl | rfl | rfl | rfl | rfl
    · exact Slot.keeps_of (yields_true _) fun _ _ _ hs => hs
    · exact Slot.keeps_of (yields_true _) fun _ _ _ hs => hs
    · exact Slot.keeps_of yields_number fun c s hc hs => by rintro x ⟨⟩; exact hc
    · exact Slot.keeps_of (yields_true _) fun _ _ _ hs => hs
    · exact Slot.keeps_of (yields_true _) fun _ _ _ hs => hs
    · exact Slot.keeps_of (yields_true _) fun _ _ _ hs => hs
  · rintro x ⟨⟩
  · intro s m hs hm
    split at hm
    · next hstart _ =>
        cases hm
        exact hs _ hstart
    · cases hm

theorem yields_placement : (placementDecoder Float).Yields fun a => a.startBar ≤ 4294967295 := by
  refine yields_record (I := fun s => ∀ n ∈ s.startBar, n ≤ 4294967295) ?_ ?_ ?_
  · rintro slot hslot
    simp only [List.mem_cons, List.not_mem_nil, or_false] at hslot
    rcases hslot with rfl | rfl | rfl | rfl
    · exact Slot.keeps_of (yields_true _) fun _ _ _ hs => hs
    · exact Slot.keeps_of (yields_integer _ _) fun c s hc hs => by rintro n ⟨⟩; exact hc.2
    · exact Slot.keeps_of (yields_true _) fun _ _ _ hs => hs
    · exact Slot.keeps_of (yields_true _) fun _ _ _ hs => hs
  · rintro n ⟨⟩
  · intro s a hs ha
    split at ha
    · cases ha
      have hbar : s.startBar.getD 0 ≤ 4294967295 := by
        cases hstart : s.startBar with
        | none => decide
        | some n => exact hs n hstart
      show (s.startBar.getD 0).toNat ≤ 4294967295
      omega
    · cases ha

/-- The clips and the arrangement of a draft are as those of a piece that was read. -/
structure Draft.Sound (d : Draft Float) : Prop where
  onsets : ∀ clips ∈ d.clips.join, ∀ c ∈ clips, ∀ m ∈ c.2, m.start.isFinite = true
  bars : ∀ arrangement ∈ d.arrangement.join, ∀ a ∈ arrangement, a.startBar ≤ 4294967295

theorem yields_draft : (draftDecoder : Decoder (Draft Float)).Yields Draft.Sound := by
  refine yields_record (I := Draft.Sound) ?_ ?_ ?_
  · rintro slot hslot
    simp only [List.mem_cons, List.not_mem_nil, or_false] at hslot
    rcases hslot with rfl | rfl | rfl | rfl
    · exact Slot.keeps_of (yields_true _) fun _ _ _ hs => ⟨hs.onsets, hs.bars⟩
    · exact Slot.keeps_of (yields_true _) fun _ _ _ hs => ⟨hs.onsets, hs.bars⟩
    · exact Slot.keeps_of yields_clipNote.list.table.optional fun c s hc hs => ⟨hc, hs.bars⟩
    · exact Slot.keeps_of yields_placement.list.optional fun c s hc hs => ⟨hs.onsets, hc⟩
  · exact ⟨by rintro clips ⟨⟩, by rintro arrangement ⟨⟩⟩
  · rintro s d hs ⟨⟩
    exact hs

theorem sound_of_ofText {text : String} {p : Piece Float} (h : ofText text = .ok p) :
    ∃ d : Draft Float, d.Sound ∧ d.clips.join = some p.clips ∧
      d.arrangement.join.getD [] = p.arrangement := by
  unfold ofText ofReading at h
  split at h
  · cases h
  · next d hd =>
      refine ⟨d, yields_draft.ofText hd, ?_⟩
      unfold ofDraft at h
      split at h
      · cases h
      · split at h
        · cases h
        · split at h
          · cases h
          · split at h
            · cases h
            · next hclips =>
                cases h
                exact ⟨hclips, rfl⟩

/-- Wherever a clip is placed, the onsets of its notes are finite. -/
theorem isFinite_onset_of_ofText {text : String} {p : Piece Float} (h : ofText text = .ok p)
    {a : Placement} (ha : a ∈ p.arrangement) {clip : List (ClipNote Float)}
    (hclip : p.clips.lookup a.clip = some clip) {m : ClipNote Float} (hm : m ∈ clip) :
    (m.start + Scalar.ofNat a.startBar * beatsPerBar).isFinite = true := by
  obtain ⟨d, hsound, hclips, harrangement⟩ := sound_of_ofText h
  have hmem : (a.clip, clip) ∈ p.clips := by
    obtain ⟨before, after, heq, -⟩ := List.lookup_eq_some_iff.1 hclip
    rw [heq]
    exact List.mem_append_right _ List.mem_cons_self
  have hbar : a.startBar ≤ 4294967295 := by
    cases hjoin : d.arrangement.join with
    | none =>
        rw [← harrangement, hjoin] at ha
        exact absurd ha List.not_mem_nil
    | some arrangement =>
        rw [← harrangement, hjoin] at ha
        exact hsound.bars arrangement hjoin a ha
  exact isFinite_onset (hsound.onsets p.clips hclips _ hmem m hm) hbar

end Piece

end NoteRoll
