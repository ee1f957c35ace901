import Mathlib.Data.List.Induction
import SessionPlayback.CommandLine
import SessionPlayback.Proofs.Playback.Delay
import SessionPlayback.Proofs.Playback.FailStop

/-!
Settings that come in layers. Each layer may set limits of the speed without a look at what the
others set, so the limits may lie the wrong way round or be infinite. They serve as limits all the
same, unless the lowest speed that counts is not a number.
-/

namespace SessionPlayback.CommandLine

inductive Layer where
  | file (f : Config.File)
  | environment (env : Config.Environment)
  | options (o : Options)

namespace Layer

def apply : Layer → Config → Config
  | .file f => f.apply
  | .environment env => env.apply
  | .options o => o.apply

/-- The lowest speed, if the layer sets it. No option does. -/
def minSpeed? : Layer → Option Binary64
  | .file f => f.minSpeed
  | .environment env => env.float? "MIN_SPEED"
  | .options _ => none

theorem apply_minSpeed (layer : Layer) (c : Config) :
    (layer.apply c).minSpeed = layer.minSpeed?.getD c.minSpeed := by
  cases layer <;> rfl

end Layer

/-- The defaults under some layers, the first of them at the bottom. -/
def settings (layers : List Layer) : Config := layers.foldl (fun c layer => layer.apply c) {}

def lastMinSpeed (layers : List Layer) : Option Binary64 :=
  (layers.filterMap Layer.minSpeed?).getLast?

theorem settings_minSpeed (layers : List Layer) :
    (settings layers).minSpeed = (lastMinSpeed layers).getD ({} : Config).minSpeed := by
  induction layers using List.reverseRecOn with
  | nil => rfl
  | append_singleton layers top ih =>
    have htop : settings (layers ++ [top]) = top.apply (settings layers) := by
      simp [settings, List.foldl_append]
    rw [htop, Layer.apply_minSpeed, ih]
    cases hm : top.minSpeed? <;> simp [lastMinSpeed, List.filterMap_append, hm]

/-- The layers of a command: the file, if there is one, the environment and the options. -/
def Options.layers (o : Options) (env : Variables) (read : FileReader) :
    Except Error (List Layer) := do
  let bottom ← match o.configPath? env read with
    | none => pure []
    | some path => (fun f => [.file f]) <$> Config.File.ofFile path (read path)
  return bottom ++ [.environment { process := env }, .options o]

/-- The settings in force are made of layers. -/
theorem configure_eq (o : Options) (env : Variables) (read : FileReader) :
    o.configure env read = (o.layers env read).map settings := by
  unfold Options.configure Options.layers
  cases o.configPath? env read with
  | none => rfl
  | some path =>
    dsimp only
    cases Config.File.ofFile path (read path) <;> rfl

/-- Whatever the layers set, every requested speed is brought within the limits and stays as it is
from then on, and neither a playback nor any of its operations gives up on account of the limits.
The one exception is a lowest speed that is not a number. -/
theorem clamps_settings_iff (layers : List Layer) :
    ((settings layers).Clamps ∧ ∀ {σ : Type} [Console σ] (s : σ), ∃ p,
      Playback.create? s (settings layers) = .ok p ∧
        ∀ ops now op q, (Playback.operate now op).run (Playback.attemptAll ops p) ≠
          .error .speedBounds q) ↔
      lastMinSpeed layers ≠ some .nan := by
  have hmin : (settings layers).minSpeed.isNaN = false ↔ lastMinSpeed layers ≠ some .nan := by
    rw [settings_minSpeed]
    cases lastMinSpeed layers with
    | none => simp [show ({} : Config).minSpeed.isNaN = false by decide +kernel]
    | some x => cases x <;> simp [Binary64.isNaN]
  rw [← hmin, ← Config.clamps_iff]
  constructor
  · exact fun h => h.1
  · refine fun h => ⟨h, fun s => ?_⟩
    obtain ⟨speed, hs, -⟩ := h (settings layers).speed
    refine ⟨_, by rw [Playback.create?, hs], fun ops now op q hq => ?_⟩
    refine Playback.operate_ne_speedBounds ?_ hq
    rw [Playback.attemptAll_config]
    exact h

/-- A file makes the lowest speed not a number. Then no speed can be asked for, and no playback can
be created. -/
theorem notClamps_of_file : ∃ f : Config.File,
    Config.File.parse "min_speed = nan" = .ok f ∧ lastMinSpeed [.file f] = some .nan ∧
      (settings [.file f]).clampSpeed? 1 = none ∧
      Playback.create? (σ := Transcript) { cell := ⟨8, 16⟩ } (settings [.file f]) =
        .error .speedBounds := by
  have h : (match Config.File.parse "min_speed = nan" with
      | .ok f => decide (lastMinSpeed [.file f] = some .nan) &&
          decide ((settings [.file f]).speed = 1) &&
          decide ((settings [.file f]).clampSpeed? 1 = none)
      | .error _ => false) = true := by
    decide +kernel
  split at h
  · rename_i f hf
    simp only [Bool.and_eq_true, decide_eq_true_eq] at h
    obtain ⟨⟨hlast, hspeed⟩, hclamp⟩ := h
    exact ⟨f, hf, hlast, hclamp, by rw [Playback.create?, hspeed, hclamp]⟩
  · cases h

end SessionPlayback.CommandLine
