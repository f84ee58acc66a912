import NoteRoll.Piece.Format
import NoteRoll.Proofs.FaithfulDecoders
import NoteRoll.Proofs.LegibleNumbers

/-!
# What becomes of a stored piece

A piece is taken from a text or from a value that was read before. The two agree: both
take the same piece, or both find the form wrong, or both report the same complaint
about a piece of the right form.

Which complaint that is, `Verdict` says by the members of the value, without decoders of
records and drafts in between. A member is looked up by its name where the piece is
written as a table, and by its place where it is written as a list; null counts as
missing. The way there is what a slot of a record holds in the end: `Held` is said of
one slot, and asks of the others only that they leave its field alone.
-/

namespace NoteRoll

namespace Json

/-! ## Members -/

/-- A member of a record, however the record is written. -/
def slot? (v : Json) (name : String) (place : Nat) : Option Json :=
  match v with
  | .table es => es.lookup name
  | .list vs => vs[place]?
  | _ => none

/-- A value that is no null. -/
def nonNull? : Json → Option Json
  | .null => none
  | v => some v

/-- A member of a record that is there and no null. -/
def member? (v : Json) (name : String) (place : Nat) : Option Json :=
  (v.slot? name place).bind nonNull?

namespace Decoder

variable {α : Type} [NumberText α] {β γ δ σ : Type}

/-- What is held of a value is what its decoder makes of it, and nothing where there is
no value. -/
def Held (d : Decoder γ) (v : Option Json) (c : Option γ) : Prop :=
  (v = none ∧ c = none) ∨ ∃ w b, v = some w ∧ d.fromValue w = some b ∧ c = some b

theorem Held.eq_none {d : Decoder γ} {v : Option Json} (h : Held d v none) : v = none := by
  rcases h with ⟨hv, -⟩ | ⟨_, _, -, -, hc⟩
  · exact hv
  · cases hc

theorem Held.isSome {d : Decoder γ} {v : Option Json} {c : γ} (h : Held d v (some c)) :
    v.isSome = true := by
  rcases h with ⟨-, hc⟩ | ⟨w, _, rfl, -, -⟩
  · cases hc
  · rfl

/-- Of an optional thing a null is held as nothing. -/
theorem Held.join {d : Decoder γ} {v : Option Json} {c : Option (Option γ)}
    (h : Held (optional d) v c) : Held d (v.bind nonNull?) c.join := by
  rcases h with ⟨rfl, rfl⟩ | ⟨w, b, rfl, hread, rfl⟩
  · exact .inl ⟨rfl, rfl⟩
  · cases w with
    | null =>
        obtain rfl : none = b := Option.some.inj hread
        exact .inl ⟨rfl, rfl⟩
    | _ =>
        obtain ⟨b', hb', rfl⟩ := Option.map_eq_some_iff.1 hread
        exact .inr ⟨_, b', rfl, hb', rfl⟩

/-- Filling a slot leaves a field of the draft alone. -/
def Slot.Spares (slot : Slot σ) (get : σ → Option γ) : Prop :=
  ∀ v fill, slot.fill.fromValue v = some fill → ∀ s, get (fill s) = get s

theorem Slot.name_of {name : String} {hasDefault : Bool} {get : σ → Option δ} {set : δ → σ → σ}
    {d : Decoder δ} : (Slot.of name hasDefault get set d).name = name := rfl

theorem Slot.spares_of {get' : σ → Option γ} {name : String} {hasDefault : Bool}
    {get : σ → Option δ} {set : δ → σ → σ} {d : Decoder δ} (h : ∀ c s, get' (set c s) = get' s) :
    (Slot.of name hasDefault get set d).Spares get' := by
  intro v fill hfill s
  obtain ⟨c, -, rfl⟩ := Option.map_eq_some_iff.1 hfill
  exact h c s

section Records

variable {before after slots : List (Slot σ)} {name : String} {hasDefault : Bool}
  {get : σ → Option γ} {set : γ → σ → σ} {d : Decoder γ} {draft s : σ}
  {es : List (String × Json)} {vs : List Json} {finish : σ → Option β} {b : β}

theorem fromItems_nil (slots : List (Slot σ)) (draft : σ) :
    fromItems slots draft [] = if slots.all (·.hasDefault) then some draft else none := by
  cases slots <;> rfl

theorem fromItems_spared (hslots : ∀ slot ∈ slots, slot.Spares get)
    (h : fromItems slots draft vs = some s) : get s = get draft := by
  induction slots generalizing draft vs with
  | nil =>
      cases vs <;> cases h
      rfl
  | cons slot slots ih =>
      cases vs with
      | nil =>
          rw [fromItems_nil] at h
          split at h <;> cases h
          rfl
      | cons v vs =>
          rw [fromItems] at h
          split at h
          · next fill hfill =>
              rw [List.forall_mem_cons] at hslots
              rw [ih hslots.2 h, hslots.1 v fill hfill]
          · cases h

theorem fromItems_held (hset : ∀ c s, get (set c s) = some c)
    (hbefore : ∀ slot ∈ before, slot.Spares get) (hafter : ∀ slot ∈ after, slot.Spares get)
    (hempty : get draft = none)
    (h : fromItems (before ++ .of name hasDefault get set d :: after) draft vs = some s) :
    Held d vs[before.length]? (get s) := by
  induction before generalizing draft vs with
  | nil =>
      cases vs with
      | nil =>
          rw [fromItems_nil] at h
          split at h <;> cases h
          exact .inl ⟨rfl, hempty⟩
      | cons v vs =>
          rw [List.nil_append, fromItems] at h
          split at h
          · next fill hfill =>
              obtain ⟨c, hc, rfl⟩ := Option.map_eq_some_iff.1 hfill
              exact .inr ⟨v, c, rfl, hc, by rw [fromItems_spared hafter h, hset]⟩
          · cases h
  | cons slot before ih =>
      rw [List.forall_mem_cons] at hbefore
      cases vs with
      | nil =>
          rw [fromItems_nil] at h
          split at h <;> cases h
          exact .inl ⟨rfl, hempty⟩
      | cons v vs =>
          rw [List.cons_append, fromItems] at h
          split at h
          · next fill hfill =>
              have hstill : get (fill draft) = none := (hbefore.1 v fill hfill draft).trans hempty
              exact ih hbefore.2 hstill h
          · cases h

/-- All that happens to an entry of a table that is read as a record: it is passed over,
or it fills an empty slot of its name. -/
theorem fromEntries_cons {k : String} {v : Json}
    (h : fromEntries slots draft ((k, v) :: es) = some s) :
    (slots.find? (fun slot => slot.name == k) = none ∧ fromEntries slots draft es = some s) ∨
      ∃ slot fill, slots.find? (fun slot => slot.name == k) = some slot ∧
        slot.isFilled draft = false ∧ slot.fill.fromValue v = some fill ∧
        fromEntries slots (fill draft) es = some s := by
  rw [fromEntries] at h
  split at h
  · next slot hslot =>
      split at h
      · cases h
      · next hempty =>
          split at h
          · next fill hfill => exact .inr ⟨slot, fill, hslot, by simpa using hempty, hfill, h⟩
          · cases h
  · next hnone => exact .inl ⟨hnone, h⟩

theorem find?_named (after : List (Slot σ)) (slot : Slot σ)
    (hbefore : ∀ b ∈ before, b.name ≠ slot.name) :
    (before ++ slot :: after).find? (fun s => s.name == slot.name) = some slot := by
  have hnone : before.find? (fun s => s.name == slot.name) = none :=
    List.find?_eq_none.2 fun b hb => by simpa using hbefore b hb
  rw [List.find?_append, hnone, List.find?_cons_of_pos (by simp), Option.none_or]

/-- Under another name there is a slot that spares the field. -/
theorem spares_of_find? {slot slot' : Slot σ} {k : String} (hk : k ≠ slot.name)
    (hbefore : ∀ b ∈ before, b.Spares get) (hafter : ∀ a ∈ after, a.Spares get)
    (h : (before ++ slot :: after).find? (fun s => s.name == k) = some slot') :
    slot'.Spares get := by
  have hname : slot'.name = k := by simpa using List.find?_some h
  rcases List.mem_append.1 (List.mem_of_find?_eq_some h) with hmem | hmem
  · exact hbefore slot' hmem
  · rcases List.mem_cons.1 hmem with rfl | hmem
    · exact absurd hname.symm hk
    · exact hafter slot' hmem

theorem fromEntries_held (hset : ∀ c s, get (set c s) = some c)
    (hbefore : ∀ slot ∈ before, slot.name ≠ name ∧ slot.Spares get)
    (hafter : ∀ slot ∈ after, slot.Spares get)
    (h : fromEntries (before ++ .of name hasDefault get set d :: after) draft es = some s) :
    (∀ c, get draft = some c → get s = some c) ∧
      (get draft = none → Held d (es.lookup name) (get s)) := by
  induction es generalizing draft with
  | nil =>
      obtain rfl : draft = s := Option.some.inj h
      exact ⟨fun _ hc => hc, fun hempty => .inl ⟨rfl, hempty⟩⟩
  | cons e es ih =>
      obtain ⟨k, v⟩ := e
      by_cases hk : k = name
      · have hfind := find?_named after (Slot.of name hasDefault get set d)
          fun b hb => (hbefore b hb).1
        subst hk
        rcases fromEntries_cons h with ⟨hnone, -⟩ | ⟨slot, fill, hslot, hempty, hfill, hothers⟩
        · cases hnone.symm.trans hfind
        · cases hslot.symm.trans hfind
          -- The slot is empty here, and behind this entry no other one can fill it again.
          obtain ⟨c, hc, rfl⟩ := Option.map_eq_some_iff.1 hfill
          have hheld : get s = some c := (ih hothers).1 c (hset c draft)
          have hnone : get draft = none := by simpa [Slot.of] using hempty
          refine ⟨fun c' hc' => ?_, fun _ => .inr ⟨v, c, List.lookup_cons_self, hc, hheld⟩⟩
          rw [hnone] at hc'
          cases hc'
      · have hlookup : ((k, v) :: es).lookup name = es.lookup name := by
          rw [List.lookup_cons, beq_eq_false_iff_ne.2 (Ne.symm hk)]
        rw [hlookup]
        rcases fromEntries_cons h with ⟨-, hothers⟩ | ⟨slot, fill, hslot, -, hfill, hothers⟩
        · exact ih hothers
        · have hsame : get (fill draft) = get draft :=
            spares_of_find? hk (fun b hb => (hbefore b hb).2) hafter hslot v fill hfill draft
          rw [← hsame]
          exact ih hothers

/-- What a draft holds of a member in the end, whether the record is a table or a list. -/
theorem record_held {v : Json}
    (h : (record α (before ++ .of name hasDefault get set d :: after) draft finish).fromValue v =
      some b) (hset : ∀ c s, get (set c s) = some c)
    (hbefore : ∀ slot ∈ before, slot.name ≠ name ∧ slot.Spares get)
    (hafter : ∀ slot ∈ after, slot.Spares get) (hempty : get draft = none) :
    ∃ s, finish s = some b ∧ Held d (v.slot? name before.length) (get s) := by
  cases v with
  | table es =>
      obtain ⟨s, hs, hfinish⟩ := Option.bind_eq_some_iff.1 h
      exact ⟨s, hfinish, (fromEntries_held hset hbefore hafter hs).2 hempty⟩
  | list vs =>
      obtain ⟨s, hs, hfinish⟩ := Option.bind_eq_some_iff.1 h
      exact ⟨s, hfinish,
        fromItems_held hset (fun slot hslot => (hbefore slot hslot).2) hafter hempty hs⟩
  | _ => cases h

end Records

end Decoder

end Json

namespace Piece

open Json Json.Decoder

section Members

variable {α : Type} [NumberText α]

/-! ## The members of a piece -/

def tempoSlot : Slot (Draft α) :=
  .of "bpm" false Draft.bpm (fun x s => { s with bpm := some x }) (optional number)

def tracksSlot : Slot (Draft α) :=
  .of "tracks" false Draft.tracks (fun x s => { s with tracks := some x })
    (optional (Decoder.list α (trackDecoder α)))

def clipsSlot : Slot (Draft α) :=
  .of "clips" false Draft.clips (fun x s => { s with clips := some x })
    (optional (Decoder.table α (Decoder.list α clipNoteDecoder)))

def arrangementSlot : Slot (Draft α) :=
  .of "arrangement" true Draft.arrangement (fun x s => { s with arrangement := some x })
    (optional (Decoder.list α (placementDecoder α)))

variable {v : Json} {s : Draft α}

theorem tempo_held (h : draftDecoder.fromValue v = some s) :
    Held number (v.member? "bpm" 0) s.bpm.join := by
  have hrecord : (record α ([] ++ tempoSlot :: [tracksSlot, clipsSlot, arrangementSlot]) {}
      some).fromValue v = some s := h
  obtain ⟨s', hs', hheld⟩ := record_held hrecord (fun _ _ => rfl) (by simp)
    (by simp [tracksSlot, clipsSlot, arrangementSlot, Slot.spares_of]) rfl
  cases hs'
  exact hheld.join

theorem tracks_held (h : draftDecoder.fromValue v = some s) :
    Held (Decoder.list α (trackDecoder α)) (v.member? "tracks" 1) s.tracks.join := by
  have hrecord : (record α ([tempoSlot] ++ tracksSlot :: [clipsSlot, arrangementSlot]) {}
      some).fromValue v = some s := h
  obtain ⟨s', hs', hheld⟩ := record_held hrecord (fun _ _ => rfl)
    (by simp [tempoSlot, Slot.spares_of, Slot.name_of])
    (by simp [clipsSlot, arrangementSlot, Slot.spares_of]) rfl
  cases hs'
  exact hheld.join

theorem clips_held (h : draftDecoder.fromValue v = some s) :
    Held (Decoder.table α (Decoder.list α clipNoteDecoder)) (v.member? "clips" 2)
      s.clips.join := by
  have hrecord : (record α ([tempoSlot, tracksSlot] ++ clipsSlot :: [arrangementSlot]) {}
      some).fromValue v = some s := h
  obtain ⟨s', hs', hheld⟩ := record_held hrecord (fun _ _ => rfl)
    (by simp [tempoSlot, tracksSlot, Slot.spares_of, Slot.name_of])
    (by simp [arrangementSlot, Slot.spares_of]) rfl
  cases hs'
  exact hheld.join

/-! ## The decoders of a piece -/

theorem faithful_track : (trackDecoder α).Faithful α :=
  faithful_record (by simp [Slot.faithful_of, faithful_text, faithful_choice, faithful_flag]) _ _

theorem faithful_clipNote : (clipNoteDecoder : Decoder (ClipNote α)).Faithful α :=
  faithful_record (by simp [Slot.faithful_of, faithful_text.optional, faithful_number, wide,
    faithful_integer]) _ _

theorem faithful_placement : (placementDecoder α).Faithful α :=
  faithful_record (by simp [Slot.faithful_of, faithful_text, faithful_integer]) _ _

theorem faithful_draft : (draftDecoder : Decoder (Draft α)).Faithful α :=
  faithful_record (by simp [Slot.faithful_of, faithful_number.optional,
    faithful_track.list.optional, faithful_clipNote.list.table.optional,
    faithful_placement.list.optional]) _ _

end Members

/-! ## Verdicts -/

variable {v : Json}

/-- The tempo of a piece is there, and a usable one. -/
structure HasTempo (v : Json) (x : Float) : Prop where
  held : Held number (v.member? "bpm" 0) (some x)
  finite : x.isFinite = true
  positive : 0 < x

/-- What becomes of a value. Of several complaints the first one is made: about a tempo
that is missing, a tempo that is not usable, missing tracks, and missing clips. -/
inductive Verdict (v : Json) : Except (ImportError Float) (Piece Float) → Prop
  | form (fault : Fault) (formless : (draftDecoder : Decoder (Draft Float)).fromValue v = none) :
      Verdict v (.error (.form fault))
  | noTempo (missing : v.member? "bpm" 0 = none) : Verdict v (.error (.missingField "bpm"))
  | badTempo {x : Float} (held : Held number (v.member? "bpm" 0) (some x))
      (bad : ¬ (x.isFinite = true ∧ 0 < x)) : Verdict v (.error (.invalidTempo x))
  | noTracks {x : Float} (tempo : HasTempo v x) (missing : v.member? "tracks" 1 = none) :
      Verdict v (.error (.missingField "tracks"))
  | noClips {x : Float} (tempo : HasTempo v x) (tracks : (v.member? "tracks" 1).isSome = true)
      (missing : v.member? "clips" 2 = none) : Verdict v (.error (.missingField "clips"))
  | taken {p : Piece Float} (tempo : HasTempo v p.bpm)
      (tracks : Held (Decoder.list Float (trackDecoder Float)) (v.member? "tracks" 1)
        (some p.tracks))
      (clips : Held (Decoder.table Float (Decoder.list Float clipNoteDecoder))
        (v.member? "clips" 2) (some p.clips)) : Verdict v (.ok p)

theorem isValid_iff {x : Float} : Tempo.isValid x = true ↔ x.isFinite = true ∧ 0 < x := by
  rw [Tempo.isValid, Bool.and_eq_true, decide_eq_true_iff]
  exact Iff.rfl

theorem verdict_ofDraft {s : Draft Float} (h : draftDecoder.fromValue v = some s) :
    Verdict v (ofDraft s) := by
  have htempo := tempo_held h
  have htracks := tracks_held h
  have hclips := clips_held h
  rw [ofDraft]
  cases hbpm : s.bpm.join with
  | none =>
      rw [hbpm] at htempo
      exact .noTempo htempo.eq_none
  | some x =>
      rw [hbpm] at htempo
      by_cases hvalid : Tempo.isValid x = true
      · obtain ⟨hfinite, hpositive⟩ := isValid_iff.1 hvalid
        have hhas : HasTempo v x := ⟨htempo, hfinite, hpositive⟩
        simp only [hvalid]
        cases htracks' : s.tracks.join with
        | none =>
            rw [htracks'] at htracks
            exact .noTracks hhas htracks.eq_none
        | some tracks =>
            rw [htracks'] at htracks
            cases hclips' : s.clips.join with
            | none =>
                rw [hclips'] at hclips
                exact .noClips hhas htracks.isSome hclips.eq_none
            | some clips =>
                rw [hclips'] at hclips
                exact .taken hhas htracks hclips
      · simp only [hvalid]
        exact .badTempo htempo (mt isValid_iff.2 hvalid)

theorem verdict_ofValue (v : Json) : Verdict v (ofValue v) := by
  rw [ofValue, Decoder.ofValue]
  cases hdraft : (draftDecoder : Decoder (Draft Float)).fromValue v with
  | none => exact .form _ hdraft
  | some s => exact verdict_ofDraft hdraft

/-- The same piece, the same complaint, or both times no piece by its form. -/
inductive SameOutcome :
    (r r' : Except (ImportError Float) (Piece Float)) → Prop
  | same (r : Except (ImportError Float) (Piece Float)) : SameOutcome r r
  | form (fault fault' : Fault) : SameOutcome (.error (.form fault)) (.error (.form fault'))

theorem sameOutcome_of_spell (hv : v.Legible Float) (y : Layout) {text : String}
    (htext : text.toList = y.spell 0 v) : SameOutcome (ofText text) (ofValue v) := by
  rw [ofText, ofValue]
  rcases faithful_draft.ofText hv y htext with ⟨b, hread, hb⟩ | ⟨⟨f, hread⟩, f', hb⟩
  · rw [hread, hb]
    exact .same _
  · rw [hread, hb]
    exact .form f f'

/-- A value and its text, printed over several lines or without blanks, come to the same
thing, and which it is the members of the value decide. Of the value it is asked that its
whole numbers have 64 bits and that its decimals are finite and read back. -/
theorem text_agrees_with_value (hv : ∀ l ∈ v.literals, l.RoundTrips) {text : String}
    (htext : text = v.compact ∨ text = v.pretty) :
    SameOutcome (ofText text) (ofValue v) ∧ Verdict v (ofValue v) := by
  have hlegible : v.Legible Float := fun l hl => (hv l hl).legible
  refine ⟨?_, verdict_ofValue v⟩
  rcases htext with rfl | rfl
  · exact sameOutcome_of_spell hlegible .dense (Layout.toList_compact 0 v)
  · exact sameOutcome_of_spell hlegible .lined (Layout.toList_prettyAt 0 v)

/-- A piece that is written as oddly as it may be: with a member that nobody knows, with
records as lists that stop early, with a kind of track as a table, and with nulls. -/
def oddPiece : Json :=
  .table [("groove\n", .list [.flag true, .null, .table [("\"", .number (.decimal ⟨true, 15, -1⟩))]]),
    ("clips", .table [("c", .list [
      .list [.null, .number (.integer 60), .number (.integer 0), .number (.decimal ⟨false, 5, -1⟩)],
      .table [("velocity", .number (.integer 90)), ("note", .number (.integer (-1))),
        ("duration", .number (.decimal ⟨false, 25, -10⟩)), ("start", .number (.integer 4)),
        ("swing", .list []), ("track_id", .null)]])]),
    ("bpm", .number (.integer 120)),
    ("tracks", .list [.list [.text "t", .text "Kit", .table [("percussion", .null)]]]),
    ("arrangement", .null)]

theorem oddPiece_taken :
    (∀ l ∈ oddPiece.literals, l.RoundTrips) ∧ (ofValue (α := Float) oddPiece).isOk = true ∧
      SameOutcome (ofText oddPiece.compact) (ofValue oddPiece) ∧
      Verdict oddPiece (ofValue oddPiece) := by
  have hliterals : ∀ l ∈ oddPiece.literals, l.RoundTrips := by decide +kernel
  exact ⟨hliterals, by decide +kernel, text_agrees_with_value hliterals (.inl rfl)⟩

end Piece

end NoteRoll
