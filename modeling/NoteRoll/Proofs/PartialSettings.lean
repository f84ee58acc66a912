import NoteRoll.Config.Format

/-!
# Tables that give some of the settings

A table of settings may leave out any of them, and any of those of a group within it. What it
gives is taken and all else keeps its default; the order does not matter, and neither does
what else the table holds. A `PartialConfig` is what a table gives, and `WrittenBy` says that
it does: each name stands in the table once or not at all.

The reader looks for a name among those that it knows, after it has made sure that none of
these stands there twice.
-/

namespace NoteRoll

/-! ## Names in tables -/

namespace Yaml

/-- The values that a table gives for a name. -/
def valuesAt (es : List (Yaml × Yaml)) (name : String) : List Yaml :=
  (es.filter fun e => e.1.text? = some name).map (·.2)

/-- A table gives a setting once, by a value that writes it, or it does not give it. -/
def Gives {β : Type} (es : List (Yaml × Yaml)) (name : String) (Writes : Yaml → β → Prop) :
    Option β → Prop
  | some x => ∃ v, valuesAt es name = [v] ∧ Writes v x
  | none => valuesAt es name = []

section Tables

variable {es : List (Yaml × Yaml)} {name : String}

theorem Gives.length_le {β : Type} {Writes : Yaml → β → Prop} {x : Option β}
    (h : Gives es name Writes x) : (valuesAt es name).length ≤ 1 := by
  cases x with
  | none => rw [show valuesAt es name = [] from h]; exact Nat.zero_le _
  | some x =>
      obtain ⟨v, hv, -⟩ := h
      rw [hv]
      exact Nat.le_refl _

theorem valuesAt_cons {key v : Yaml} {n : String} (hkey : key.text? = some n) :
    valuesAt ((key, v) :: es) name =
      if n = name then v :: valuesAt es name else valuesAt es name := by
  simp only [valuesAt, List.filter_cons, hkey, Option.some.injEq, decide_eq_true_eq]
  split <;> rfl

variable (hkeys : ∀ e ∈ es, e.1.text?.isSome = true)
include hkeys

/-- The entries of a table by name, and what the reader finds among those that it knows. -/
theorem exists_named (known : List String) :
    ∃ named : List (String × Yaml),
      (es.mapM fun e => e.1.text?.map fun name => (name, e.2)) = some named ∧
      (∀ name, (named.map (·.1)).count name = (valuesAt es name).length) ∧
      ∀ name ∈ known, (named.filter fun e => known.contains e.1).lookup name =
        (valuesAt es name).head? := by
  induction es with
  | nil => exact ⟨[], rfl, fun _ => rfl, fun _ _ => rfl⟩
  | cons e es ih =>
      obtain ⟨he, hes⟩ := List.forall_mem_cons.1 hkeys
      obtain ⟨named, hnamed, hcount, hlookup⟩ := ih hes
      obtain ⟨n, hn⟩ := Option.isSome_iff_exists.1 he
      refine ⟨(n, e.2) :: named, ?_, fun name => ?_, fun name hname => ?_⟩
      · rw [List.mapM_cons, hn, hnamed]
        rfl
      · rw [valuesAt_cons hn, List.map_cons, List.count_cons, hcount]
        by_cases h : n = name <;> simp [h]
      · rw [valuesAt_cons hn, List.filter_cons]
        by_cases h : n = name
        · subst h
          rw [if_pos (List.contains_iff_mem.2 hname), if_pos rfl, List.lookup_cons,
            beq_self_eq_true]
          rfl
        · have hne : (name == n) = false := beq_eq_false_iff_ne.2 (Ne.symm h)
          rw [if_neg h, ← hlookup name hname]
          split
          · rw [List.lookup_cons, hne]
          · rfl

/-- Where each known name stands at most once, the reader finds what stands there. -/
theorem exists_settings (known : List String)
    (honce : ∀ name ∈ known, (valuesAt es name).length ≤ 1) :
    ∃ s, settings? known (.table es) = some s ∧
      ∀ name ∈ known, s.lookup name = (valuesAt es name).head? := by
  obtain ⟨named, hnamed, hcount, hlookup⟩ := exists_named hkeys known
  refine ⟨_, ?_, hlookup⟩
  have hnodup : ((named.filter fun e => known.contains e.1).map (·.1)).Nodup := by
    rw [List.nodup_iff_count]
    intro name
    by_cases hname : name ∈ known
    · have hsub : List.Sublist ((named.filter fun e => known.contains e.1).map (·.1))
          (named.map (·.1)) := List.filter_sublist.map _
      exact Nat.le_trans (hsub.count_le name) (hcount name ▸ honce name hname)
    · have habsent : name ∉ (named.filter fun e => known.contains e.1).map (·.1) := by
        intro hmem
        obtain ⟨e, he, rfl⟩ := List.mem_map.1 hmem
        exact hname (List.contains_iff_mem.1 (List.mem_filter.1 he).2)
      rw [List.count_eq_zero.2 habsent]
      exact Nat.zero_le 1
  simp only [settings?, untagged, hnamed, bind, Option.bind_some, if_pos hnodup]

omit hkeys in
/-- A setting that the table gives is read from its value, and any other one keeps its default. -/
theorem setting_of_group {β γ : Type} {s : List (String × Yaml)} {Writes : Yaml → β → Prop}
    {x : Option β} (hs : s.lookup name = (valuesAt es name).head?) (hx : Gives es name Writes x)
    (read : Yaml → Option γ) (f : β → γ) (hread : ∀ v x, Writes v x → read v = some (f x))
    (standard : γ) : setting s name read standard = some ((x.map f).getD standard) := by
  cases x with
  | none =>
      rw [show valuesAt es name = [] from hx] at hs
      rw [setting, hs]
      rfl
  | some x =>
      obtain ⟨v, hv, hwrites⟩ := hx
      rw [hv] at hs
      rw [setting, hs]
      exact hread v x hwrites

omit hkeys in
theorem setting_of_gives {β : Type} {s : List (String × Yaml)} {read : Yaml → Option β}
    {x : Option β} (hs : s.lookup name = (valuesAt es name).head?)
    (hx : Gives es name (read · = some ·) x) (standard : β) :
    setting s name read standard = some (x.getD standard) := by
  rw [setting_of_group hs hx read id fun _ _ h => h, Option.map_id]
  rfl

end Tables

end Yaml

/-! ## Some of the settings -/

/-- Some of the scale of the grid. -/
structure PartialGrid (α : Type) where
  beatWidth : Option α
  rowHeight : Option α
  edgeMargin : Option α

/-- Some of the timing of playback. -/
structure PartialPlayback (α : Type) where
  tickMillis : Option Nat
  lookaheadMillis : Option Nat
  endMargin : Option α

/-- Some of what says where the compose service is. -/
structure PartialRemote where
  baseUrl : Option String
  timeoutSeconds : Option Nat

/-- Some of what is logged, and where to; a log file may be given as none. -/
structure PartialLog where
  level : Option String
  file : Option (Option String)

/-- Some of the settings of the program. -/
structure PartialConfig (α : Type) where
  bpm : Option α
  snap : Option α
  grid : Option (PartialGrid α)
  playback : Option (PartialPlayback α)
  remote : Option PartialRemote
  log : Option PartialLog

section Groups

variable {α : Type} {es : List (Yaml × Yaml)}

/-! ### Groups -/

/-- The settings that are given, and the defaults of all others. -/
def PartialGrid.filled (g : PartialGrid α) (standard : GridConfig α) : GridConfig α where
  beatWidth := g.beatWidth.getD standard.beatWidth
  rowHeight := g.rowHeight.getD standard.rowHeight
  edgeMargin := g.edgeMargin.getD standard.edgeMargin

/-- The settings that are given, and the defaults of all others. -/
def PartialPlayback.filled (b : PartialPlayback α) (standard : PlaybackConfig α) :
    PlaybackConfig α where
  tickMillis := b.tickMillis.getD standard.tickMillis
  lookaheadMillis := b.lookaheadMillis.getD standard.lookaheadMillis
  endMargin := b.endMargin.getD standard.endMargin

/-- The settings that are given, and the defaults of all others. -/
def PartialRemote.filled (r : PartialRemote) (standard : RemoteConfig) : RemoteConfig where
  baseUrl := r.baseUrl.getD standard.baseUrl
  timeoutSeconds := r.timeoutSeconds.getD standard.timeoutSeconds

/-- The settings that are given, and the defaults of all others. -/
def PartialLog.filled (l : PartialLog) (standard : LogConfig) : LogConfig where
  level := l.level.getD standard.level
  file := l.file.getD standard.file

variable [NumberText α]

/-- A table gives just these settings of the grid, whatever else it holds. -/
structure PartialGrid.WrittenBy (g : PartialGrid α) (es : List (Yaml × Yaml)) : Prop where
  keys : ∀ e ∈ es, e.1.text?.isSome = true
  beatWidth : Yaml.Gives es "beat_width" (Config.number? · = some ·) g.beatWidth
  rowHeight : Yaml.Gives es "row_height" (Config.number? · = some ·) g.rowHeight
  edgeMargin : Yaml.Gives es "edge_margin" (Config.number? · = some ·) g.edgeMargin

/-- A table gives just these settings of playback, whatever else it holds. -/
structure PartialPlayback.WrittenBy (b : PartialPlayback α) (es : List (Yaml × Yaml)) :
    Prop where
  keys : ∀ e ∈ es, e.1.text?.isSome = true
  tickMillis : Yaml.Gives es "tick_ms" (Config.natural? · = some ·) b.tickMillis
  lookaheadMillis : Yaml.Gives es "lookahead_ms" (Config.natural? · = some ·) b.lookaheadMillis
  endMargin : Yaml.Gives es "end_margin_beats" (Config.number? · = some ·) b.endMargin

/-- A table gives just these settings of the service, whatever else it holds. -/
structure PartialRemote.WrittenBy (r : PartialRemote) (es : List (Yaml × Yaml)) : Prop where
  keys : ∀ e ∈ es, e.1.text?.isSome = true
  baseUrl : Yaml.Gives es "base_url" (Yaml.text? · = some ·) r.baseUrl
  timeoutSeconds : Yaml.Gives es "timeout_secs" (Config.natural? · = some ·) r.timeoutSeconds

/-- A table gives just these settings of the log, whatever else it holds. -/
structure PartialLog.WrittenBy (l : PartialLog) (es : List (Yaml × Yaml)) : Prop where
  keys : ∀ e ∈ es, e.1.text?.isSome = true
  level : Yaml.Gives es "level" (Yaml.text? · = some ·) l.level
  file : Yaml.Gives es "file" (Config.optionalText? · = some ·) l.file

/-- A table gives just these settings, and its groups just theirs, whatever else it holds. -/
structure PartialConfig.WrittenBy (c : PartialConfig α) (es : List (Yaml × Yaml)) : Prop where
  keys : ∀ e ∈ es, e.1.text?.isSome = true
  bpm : Yaml.Gives es "bpm" (Config.number? · = some ·) c.bpm
  snap : Yaml.Gives es "snap" (Config.number? · = some ·) c.snap
  grid : Yaml.Gives es "grid" (fun v g => ∃ es, v = .table es ∧ g.WrittenBy es) c.grid
  playback : Yaml.Gives es "playback" (fun v b => ∃ es, v = .table es ∧ b.WrittenBy es) c.playback
  remote : Yaml.Gives es "remote" (fun v r => ∃ es, v = .table es ∧ r.WrittenBy es) c.remote
  log : Yaml.Gives es "log" (fun v l => ∃ es, v = .table es ∧ l.WrittenBy es) c.log

variable [Scalar α]

theorem PartialGrid.WrittenBy.grid? {g : PartialGrid α} (h : g.WrittenBy es) :
    Config.grid? (.table es) = some (g.filled Config.standard.grid) := by
  obtain ⟨s, hs, hlookup⟩ := Yaml.exists_settings h.keys
    ["beat_width", "row_height", "edge_margin"] (by
      simp only [List.forall_mem_cons]
      exact ⟨h.beatWidth.length_le, h.rowHeight.length_le, h.edgeMargin.length_le,
        List.forall_mem_nil _⟩)
  simp only [List.forall_mem_cons] at hlookup
  obtain ⟨hbeatWidth, hrowHeight, hedgeMargin, -⟩ := hlookup
  simp only [Config.grid?, hs, bind, Option.bind_some, pure, PartialGrid.filled,
    Yaml.setting_of_gives hbeatWidth h.beatWidth, Yaml.setting_of_gives hrowHeight h.rowHeight,
    Yaml.setting_of_gives hedgeMargin h.edgeMargin]

theorem PartialPlayback.WrittenBy.playback? {b : PartialPlayback α} (h : b.WrittenBy es) :
    Config.playback? (.table es) = some (b.filled Config.standard.playback) := by
  obtain ⟨s, hs, hlookup⟩ := Yaml.exists_settings h.keys
    ["tick_ms", "lookahead_ms", "end_margin_beats"] (by
      simp only [List.forall_mem_cons]
      exact ⟨h.tickMillis.length_le, h.lookaheadMillis.length_le, h.endMargin.length_le,
        List.forall_mem_nil _⟩)
  simp only [List.forall_mem_cons] at hlookup
  obtain ⟨htickMillis, hlookaheadMillis, hendMargin, -⟩ := hlookup
  simp only [Config.playback?, hs, bind, Option.bind_some, pure, PartialPlayback.filled,
    Yaml.setting_of_gives htickMillis h.tickMillis,
    Yaml.setting_of_gives hlookaheadMillis h.lookaheadMillis,
    Yaml.setting_of_gives hendMargin h.endMargin]

omit [NumberText α] [Scalar α] in
theorem PartialRemote.WrittenBy.remote? {r : PartialRemote} (h : r.WrittenBy es)
    (standard : RemoteConfig) : Config.remote? standard (.table es) = some (r.filled standard) := by
  obtain ⟨s, hs, hlookup⟩ := Yaml.exists_settings h.keys ["base_url", "timeout_secs"] (by
    simp only [List.forall_mem_cons]
    exact ⟨h.baseUrl.length_le, h.timeoutSeconds.length_le, List.forall_mem_nil _⟩)
  simp only [List.forall_mem_cons] at hlookup
  obtain ⟨hbaseUrl, htimeoutSeconds, -⟩ := hlookup
  simp only [Config.remote?, hs, bind, Option.bind_some, pure, PartialRemote.filled,
    Yaml.setting_of_gives hbaseUrl h.baseUrl,
    Yaml.setting_of_gives htimeoutSeconds h.timeoutSeconds]

omit [NumberText α] [Scalar α] in
theorem PartialLog.WrittenBy.log? {l : PartialLog} (h : l.WrittenBy es) (standard : LogConfig) :
    Config.log? standard (.table es) = some (l.filled standard) := by
  obtain ⟨s, hs, hlookup⟩ := Yaml.exists_settings h.keys ["level", "file"] (by
    simp only [List.forall_mem_cons]
    exact ⟨h.level.length_le, h.file.length_le, List.forall_mem_nil _⟩)
  simp only [List.forall_mem_cons] at hlookup
  obtain ⟨hlevel, hfile, -⟩ := hlookup
  simp only [Config.log?, hs, bind, Option.bind_some, pure, PartialLog.filled,
    Yaml.setting_of_gives hlevel h.level, Yaml.setting_of_gives hfile h.file]

/-! ### All groups -/

/-- The settings that are given, and the defaults of all others, within a group as well as of
whole groups. -/
def PartialConfig.filled (c : PartialConfig α) : Config α :=
  let standard : Config α := Config.standard
  { bpm := c.bpm.getD standard.bpm
    snap := c.snap.getD standard.snap
    grid := (c.grid.map fun g => g.filled standard.grid).getD standard.grid
    playback := (c.playback.map fun b => b.filled standard.playback).getD standard.playback
    remote := (c.remote.map fun r => r.filled standard.remote).getD standard.remote
    log := (c.log.map fun l => l.filled standard.log).getD standard.log }

theorem PartialConfig.WrittenBy.ofYaml? {c : PartialConfig α} (h : c.WrittenBy es) :
    Config.ofYaml? (.table es) = some c.filled := by
  obtain ⟨s, hs, hlookup⟩ := Yaml.exists_settings h.keys
    ["bpm", "snap", "grid", "playback", "remote", "log"] (by
      simp only [List.forall_mem_cons]
      exact ⟨h.bpm.length_le, h.snap.length_le, h.grid.length_le, h.playback.length_le,
        h.remote.length_le, h.log.length_le, List.forall_mem_nil _⟩)
  simp only [List.forall_mem_cons] at hlookup
  obtain ⟨hbpm, hsnap, hgrid, hplayback, hremote, hlog, -⟩ := hlookup
  have hgrid' := Yaml.setting_of_group hgrid h.grid Config.grid?
    (fun g => g.filled Config.standard.grid) (by rintro _ g ⟨es, rfl, hg⟩; exact hg.grid?)
  have hplayback' := Yaml.setting_of_group hplayback h.playback Config.playback?
    (fun b => b.filled Config.standard.playback)
    (by rintro _ b ⟨es, rfl, hb⟩; exact hb.playback?)
  have hremote' := Yaml.setting_of_group hremote h.remote
    (Config.remote? (Config.standard : Config α).remote)
    (fun r => r.filled (Config.standard : Config α).remote)
    (by rintro _ r ⟨es, rfl, hr⟩; exact hr.remote? _)
  have hlog' := Yaml.setting_of_group hlog h.log
    (Config.log? (Config.standard : Config α).log)
    (fun l => l.filled (Config.standard : Config α).log)
    (by rintro _ l ⟨es, rfl, hl⟩; exact hl.log? _)
  simp only [Config.ofYaml?, hs, bind, Option.bind_some, pure, PartialConfig.filled,
    Yaml.setting_of_gives hbpm h.bpm, Yaml.setting_of_gives hsnap h.snap, hgrid', hplayback',
    hremote', hlog']

end Groups

end NoteRoll
