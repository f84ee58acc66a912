import Mathlib.Data.List.Nodup
import NoteRoll.Proofs.Pointer
import NoteRoll.Proofs.Snapping

/-!
# Stems and the heights they are grabbed at

The velocity lane is read in both directions: a velocity has a stem, which is drawn up from
the base line, and a height of the pointer, counted down from the top, has a velocity. The
two are computed by different formulas, and a press at the tip of a stem must not change
the note below it.

Before it is rounded and cut to what is heard, the velocity at a height is a place on a
scale, `level`. The scale falls as the pointer comes down, rounding and cutting keep the
order, and at the tip of a stem it shows the velocity of the stem. `velocityAt_eq` is the
only place where rounding and cutting are looked at, and all it asks for is a whole number
nearest to the level.
-/

namespace NoteRoll

/-- A whole number that is kept between whole numbers stays one. -/
theorem Scalar.clamp_intCast {lo hi : Int} (h : lo ≤ hi) (k : Int) :
    clamp (lo : Rat) hi k = ((max lo (min hi k) : Int) : Rat) := by
  rw [clamp]
  split
  · next hlow =>
      have hk : k < lo := by exact_mod_cast hlow
      rw [min_eq_right (by omega), max_eq_left hk.le]
  · next hlow =>
      have hk : lo ≤ k := by exact_mod_cast not_lt.1 hlow
      split
      · next hhigh =>
          have hk' : hi < k := by exact_mod_cast hhigh
          rw [min_eq_left hk'.le, max_eq_right h]
      · next hhigh =>
          have hk' : k ≤ hi := by exact_mod_cast not_lt.1 hhigh
          rw [min_eq_right hk', max_eq_right hk]

/-! ## The scale of a lane -/

namespace VelocityLane

variable {lane : VelocityLane Rat} {y z : Rat} {v w : Nat}

/-- The place of a height on the scale of velocities. -/
def level (lane : VelocityLane Rat) (y : Rat) : Rat :=
  (lane.height - y - lane.padding) / lane.span * 127

/-- The tip of the stem of a velocity, from the top of the lane. -/
def tip (lane : VelocityLane Rat) (v : Nat) : Rat :=
  lane.height - lane.padding - lane.stemHeight v

theorem loudest_eq : (OfScientific.ofScientific 1270 true 1 : Rat) = 127 := by norm_num

theorem stemHeight_eq (lane : VelocityLane Rat) (v : Nat) :
    lane.stemHeight v = v / 127 * lane.span := by
  show (v : Rat) / OfScientific.ofScientific 1270 true 1 * lane.span = _
  rw [loudest_eq]

theorem stemHeight_lt (hspan : 0 < lane.span) (h : v < w) :
    lane.stemHeight v < lane.stemHeight w := by
  have hvw : (v : Rat) / 127 < w / 127 :=
    div_lt_div_of_pos_right (Nat.cast_lt.2 h) (by norm_num)
  rw [stemHeight_eq, stemHeight_eq]
  exact mul_lt_mul_of_pos_right hvw hspan

theorem level_le (hspan : 0 < lane.span) (h : y ≤ z) : lane.level z ≤ lane.level y := by
  have hquotient : (lane.height - z - lane.padding) / lane.span ≤
      (lane.height - y - lane.padding) / lane.span :=
    div_le_div_of_nonneg_right (by linarith) hspan.le
  exact mul_le_mul_of_nonneg_right hquotient (by norm_num)

theorem level_tip (hspan : 0 < lane.span) (v : Nat) : lane.level (lane.tip v) = v := by
  have hstem : lane.height - lane.tip v - lane.padding = v / 127 * lane.span := by
    rw [tip, stemHeight_eq]
    ring
  rw [level, hstem, mul_div_cancel_right₀ _ hspan.ne']
  ring

/-- The velocity at a height is the whole number nearest to its level, cut to what is heard. -/
theorem velocityAt_eq (hspan : 0 < lane.span) {k : Int}
    (h : Snap.Nearest 1 (lane.level y) k) :
    lane.velocityAt y = Note.intoRange 1 Note.maxVelocity k := by
  have hone : (OfScientific.ofScientific 10 true 1 : Rat) = 1 := by norm_num
  have hround : Scalar.round ((lane.height - y - lane.padding) / lane.span * 127) = (k : Rat) :=
    (Snap.nearest_round _).unique one_pos h
  have hclamp : Scalar.clamp 1 127 (k : Rat) = ((max 1 (min 127 k) : Int) : Rat) := by
    exact_mod_cast Scalar.clamp_intCast (show (1 : Int) ≤ 127 by decide) k
  rw [velocityAt, if_neg (not_le.2 hspan), hone, loudest_eq, hround]
  dsimp only
  rw [hclamp, Scalar.truncate_intCast, Note.intoRange, Note.maxVelocity]
  omega

theorem exists_nearest (lane : VelocityLane Rat) (y : Rat) :
    ∃ k : Int, Snap.Nearest 1 (lane.level y) k := by
  have hnearest := Snap.nearest_round (lane.level y)
  obtain ⟨k, hk⟩ := hnearest.hits
  rw [mul_one] at hk
  exact ⟨k, hk ▸ hnearest⟩

/-- Lanes without any height between their paddings have one velocity, and it is heard too. -/
theorem velocityAt_mem (lane : VelocityLane Rat) (y : Rat) :
    1 ≤ lane.velocityAt y ∧ lane.velocityAt y ≤ 127 := by
  rcases lt_or_ge 0 lane.span with hspan | hnone
  · obtain ⟨k, hk⟩ := lane.exists_nearest y
    rw [velocityAt_eq hspan hk]
    exact Note.intoRange_mem (by decide) k
  · rw [velocityAt, if_pos hnone]
    exact ⟨le_refl 1, by decide⟩

theorem velocityAt_le (hspan : 0 < lane.span) (h : y ≤ z) :
    lane.velocityAt z ≤ lane.velocityAt y := by
  obtain ⟨k, hk⟩ := lane.exists_nearest y
  obtain ⟨m, hm⟩ := lane.exists_nearest z
  have hle : m ≤ k := by exact_mod_cast hm.mono one_pos (level_le hspan h) hk
  rw [velocityAt_eq hspan hk, velocityAt_eq hspan hm, Note.intoRange, Note.intoRange]
  omega

theorem velocityAt_tip (hspan : 0 < lane.span) (hheard : 1 ≤ v) (hloudest : v ≤ 127) :
    lane.velocityAt (lane.tip v) = v := by
  have hnearest : Snap.Nearest 1 (lane.level (lane.tip v)) ((v : Int) : Rat) := by
    rw [level_tip hspan]
    exact Snap.nearest_self one_pos ⟨v, (mul_one _).symm⟩
  rw [velocityAt_eq hspan hnearest]
  exact Note.intoRange_of_mem hheard hloudest

end VelocityLane

/-! ## A press at the tip -/

/-- Where identities are distinct, the velocity is set for the note itself. -/
theorem Session.preview_own {α : Type} {s : Session α}
    (hdistinct : (s.document.notes.map (·.id)).Nodup) {n : Note α}
    (hn : n ∈ s.document.notes) : s.preview n.id n.velocity = s := by
  obtain ⟨f, hf, hid, hfirst⟩ := exists_first hn
  obtain rfl : f = n := List.inj_on_of_nodup_map hdistinct hf hn hid
  show { s with document := { s.document with notes := revoiced f.id f.velocity _ } } = s
  rw [revoiced_own hfirst]

/-- In a lane with some height between its paddings every place has a velocity that is heard,
and a lower place has no higher one. Stems grow with their velocities, and at the tip of its
stem a velocity is read back. So a press at the tip of the stem that it grabs leaves the note
as it is; where identities are distinct, it leaves the whole session as it is. -/
theorem VelocityLane.tips_read_back {lane : VelocityLane Rat} (hspan : 0 < lane.span) :
    (∀ y, 1 ≤ lane.velocityAt y ∧ lane.velocityAt y ≤ 127) ∧
    (∀ y z, y ≤ z → lane.velocityAt z ≤ lane.velocityAt y) ∧
    (∀ v w, v < w → lane.stemHeight v < lane.stemHeight w) ∧
    (∀ v, 1 ≤ v → v ≤ 127 → lane.velocityAt (lane.tip v) = v) ∧
    ∀ (e : VelocityEditor Rat) (s : Session Rat) (beat : Rat) (n : Note Rat), e.lane = lane →
      VelocityEditor.hitTest? s beat = some n → 1 ≤ n.velocity → n.velocity ≤ 127 →
      let press := e.pointerDown s beat (lane.tip n.velocity)
      press.1 = true ∧ n ∈ press.2.2.document.notes ∧
        ((s.document.notes.map (·.id)).Nodup → press.2.2 = s) := by
  refine ⟨lane.velocityAt_mem, fun y z => velocityAt_le hspan, fun v w => stemHeight_lt hspan,
    fun v => velocityAt_tip hspan, ?_⟩
  rintro e s beat n rfl hhit hheard hloudest
  have hmem := VelocityEditor.mem_of_hitTest? hhit
  rcases e.pointerDown_cases s beat (e.lane.tip n.velocity) with ⟨hmiss, -⟩ | ⟨m, hm, hpress⟩
  · rw [hhit] at hmiss
    cases hmiss
  · obtain rfl := Option.some.inj (hhit.symm.trans hm)
    rw [velocityAt_tip hspan hheard hloudest] at hpress
    dsimp only
    rw [hpress]
    exact ⟨rfl, mem_revoiced hmem, fun hdistinct => Session.preview_own hdistinct hmem⟩

/-- A session with two stems, one of them right behind the other. -/
def twoStems : Session Rat :=
  .start ((Document.empty Track.defaults 120).replaceNotes
    [.ofFields 1 60 (1 / 3) 1 37 "t_piano", .ofFields 2 64 (1 / 2) (5 / 6) 101 "t_bass"])

/-- A lane padded by a third of a row, in which a step of velocity is about a thirtieth of
one. Of the two stems, which are equally near, the later one is pressed at its tip. -/
theorem VelocityLane.tips_read_back_padded :
    let lane : VelocityLane Rat := ⟨5, 1 / 3⟩
    let press := (VelocityEditor.ofLane lane).pointerDown twoStems (7 / 8) (lane.tip 101)
    0 < lane.span ∧ lane.velocityAt 4 = 20 ∧ lane.velocityAt 4 ≤ lane.velocityAt 3 ∧
    lane.stemHeight 37 < lane.stemHeight 101 ∧ lane.velocityAt (lane.tip 127) = 127 ∧
    (VelocityEditor.hitTest? twoStems (7 / 8)).map (·.velocity) = some 101 ∧ press.1 = true ∧
    press.2.2 = twoStems := by
  intro lane press
  have hspan : 0 < lane.span := by decide +kernel
  obtain ⟨-, hfalls, hgrows, hback, hpress⟩ := tips_read_back hspan
  have hhit : (VelocityEditor.hitTest? twoStems (7 / 8)).map (·.velocity) = some 101 := by
    decide +kernel
  obtain ⟨n, hn, hvelocity⟩ := Option.map_eq_some_iff.1 hhit
  obtain ⟨hgrabbed, -, hsame⟩ := hpress (.ofLane lane) twoStems (7 / 8) n rfl hn
    (by omega) (by omega)
  rw [hvelocity] at hgrabbed hsame
  exact ⟨hspan, by decide +kernel, hfalls 3 4 (by norm_num), hgrows 37 101 (by decide),
    hback 127 (by decide) (by decide), hhit, hgrabbed, hsame (by decide +kernel)⟩

end NoteRoll
