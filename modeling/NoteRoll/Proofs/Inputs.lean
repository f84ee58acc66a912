import NoteRoll.App
import NoteRoll.Proofs.HistoryMirror

/-!
# The inputs of the application

What can reach the application from outside, as data: actions, the mouse at any
cell, a new size of the screen, the ticks of playback, and whatever the sound
output does of itself in the meantime. A use of the application is a list of
inputs.

Messages, scrolling and playback are most of what an input does, and none of it
bears on a drag in flight. `Undisturbed` says so in one word: the surface that
is dragged on, the two editors and what is committed are as they were. Every
action but the one that abandons a drag is undisturbing, because the actions
that could do harm are ignored while there is a drag.
-/

namespace NoteRoll

/-- What can reach the application. -/
inductive Input (σ α : Type) where
  | action (action : Action α)
  | mouse (event : MouseEvent) (col row : Nat)
  | resize (screen : Area)
  | tick (time : Duration)
  /-- The sound output changes of itself, as its clock does. -/
  | elapse (change : σ → σ)

namespace App

variable {σ α : Type}

/-- The same drag, the same editors at work, and nothing uncommitted that was
committed before. -/
structure Undisturbed (a b : App σ α) : Prop where
  drag : b.drag = a.drag
  idle : b.studio.gestures.isIdle = a.studio.gestures.isIdle
  editing : b.studio.velocities.editing = a.studio.velocities.editing
  settled : a.session.IsSettled → b.session.IsSettled

theorem Undisturbed.refl (a : App σ α) : Undisturbed a a := ⟨rfl, rfl, rfl, id⟩

theorem Undisturbed.inform {a b : App σ α} (h : Undisturbed a b) (text : String) :
    Undisturbed a (b.inform text) := ⟨h.drag, h.idle, h.editing, h.settled⟩

theorem Undisturbed.informIf {a b : App σ α} (h : Undisturbed a b) (count : Nat)
    (text : String) : Undisturbed a (b.informIf count text) := by
  rw [App.informIf]
  split
  · exact h
  · exact h.inform text

theorem Undisturbed.informTrack {a b : App σ α} (h : Undisturbed a b)
    (state : Option Bool) (yes no : String) :
    Undisturbed a (b.informTrack state yes no) := by
  rw [App.informTrack.eq_def]
  split
  · exact h.inform _
  · exact h

/-- A change of the session alone that keeps it settled. -/
theorem undisturbed_session (a : App σ α) (session : Session α)
    (h : a.session.IsSettled → session.IsSettled) :
    Undisturbed a (a.withStudio { a.studio with session }) := ⟨rfl, rfl, rfl, h⟩

variable [Scalar α] [SoundOutput σ α] [NumberText α]

omit [Scalar α] [SoundOutput σ α] in
theorem write_undisturbed (a : App σ α) : Undisturbed a a.write := by
  rw [write.eq_def]
  split
  · exact ⟨rfl, rfl, rfl, id⟩
  · split
    · exact ⟨rfl, rfl, rfl, id⟩
    · exact ⟨rfl, rfl, rfl, id⟩

theorem perform_undisturbed (a : App σ α) {action : Action α} (h : action ≠ .cancel) :
    Undisturbed a (a.perform action) := by
  cases action with
  | cancel => exact absurd rfl h
  | quit => exact ⟨rfl, rfl, rfl, id⟩
  | togglePlayback =>
      rw [perform]
      split <;> exact ⟨rfl, rfl, rfl, id⟩
  | rewind => exact ⟨rfl, rfl, rfl, id⟩
  | scrollBeats beats => exact ⟨rfl, rfl, rfl, id⟩
  | scrollPitch semitones => exact ⟨rfl, rfl, rfl, id⟩
  | undo =>
      show Undisturbed a (if a.session.undo.1
        then a.withStudio { a.studio with session := a.session.undo.2 }
        else a.inform "nothing to undo")
      split
      · exact a.undisturbed_session _
          (Session.settled_of_step Mark.noConfusion a.session.undo_step)
      · exact (Undisturbed.refl a).inform _
  | redo =>
      show Undisturbed a (if a.session.redo.1
        then a.withStudio { a.studio with session := a.session.redo.2 }
        else a.inform "nothing to redo")
      split
      · exact a.undisturbed_session _
          (Session.settled_of_step Mark.noConfusion a.session.redo_step)
      · exact (Undisturbed.refl a).inform _
  | deleteSelected =>
      exact (a.undisturbed_session _ (Session.settled_of_step Mark.noConfusion
        a.session.deleteSelected_step)).informIf _ _
  | copy => exact ⟨rfl, rfl, rfl, id⟩
  | paste =>
      let beat := Snap.snap a.studio.transport.playhead a.session.snap
      exact (a.undisturbed_session _ (Session.settled_of_step Mark.noConfusion
        (a.session.pasteAt_step beat))).informIf _ _
  | nextTrack => exact a.undisturbed_session _ a.session.setsTracks_cycleActiveTrack.keeps.settled
  | toggleMute =>
      exact (a.undisturbed_session _
        (a.session.setsTracks_toggleMute _).keeps.settled).informTrack _ _ _
  | toggleHidden =>
      exact (a.undisturbed_session _
        (a.session.setsTracks_toggleHidden _).keeps.settled).informTrack _ _ _
  | setTool tool => exact ⟨rfl, rfl, rfl, id⟩
  | setSnap quantum => exact ⟨rfl, rfl, rfl, id⟩
  | adjustTempo change => exact a.undisturbed_session _ (a.session.keeps_setBpm _).settled
  | write => exact a.write_undisturbed

theorem handleAction_undisturbed (a : App σ α) {action : Action α} (h : action ≠ .cancel) :
    Undisturbed a (a.handleAction action) := by
  rw [handleAction]
  split
  · exact .refl a
  · exact a.perform_undisturbed h

variable [Splitter]

omit [SoundOutput σ α] [NumberText α] in
theorem resize_undisturbed (a : App σ α) (screen : Area) :
    Undisturbed a (a.resize screen) := by
  rw [resize]
  split
  · exact .refl a
  · exact ⟨rfl, rfl, rfl, id⟩

/-- The application after an input. -/
def next (a : App σ α) : Input σ α → App σ α
  | .action action => a.handleAction action
  | .mouse event col row => a.handleMouse event col row
  | .resize screen => a.resize screen
  | .tick time => (a.tick time).2
  | .elapse change => a.withStudio { a.studio with output := change a.studio.output }

/-- The application after some inputs. -/
def run (a : App σ α) (inputs : List (Input σ α)) : App σ α := inputs.foldl next a

@[simp] theorem run_nil (a : App σ α) : a.run [] = a := rfl

@[simp] theorem run_cons (a : App σ α) (i : Input σ α) (is : List (Input σ α)) :
    a.run (i :: is) = (a.next i).run is := rfl

theorem run_append (a : App σ α) (is js : List (Input σ α)) :
    a.run (is ++ js) = (a.run is).run js := by
  simp only [run, List.foldl_append]

end App

end NoteRoll
