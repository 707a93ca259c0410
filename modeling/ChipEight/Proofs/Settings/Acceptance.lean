import ChipEight.Proofs.Sequencing
import ChipEight.Settings.Basic

/-!
# What is in accepted settings

Settings that have been read from a table come from certain values in it, and every one of these has passed
the test that is made of it.  Here that is said of the tone and of the keyboard.
-/

namespace ChipEight

open Toml (Table Value)

namespace Settings

variable {t : Table} {settings : Settings}

/-- The frequency and the volume have passed their tests. -/
theorem tone_of_ofTable (h : ofTable t = .ok settings) :
    (∃ given, positive "audio.frequency" given = .ok settings.frequency) ∧
      ∃ given, fraction "audio.volume" given = .ok settings.volume := by
  simp only [ofTable, bind_eq_ok] at h
  obtain ⟨general, -, audio, -, colors, -, keyboard, -, debug, -, h⟩ := h
  obtain ⟨_, -, _, -, _, -, _, -, _, -, _, -, given, -, frequency, hfrequency, loud, -, volume, hvolume, h⟩ := h
  obtain ⟨_, -, _, -, _, -, _, -, _, -, _, -, _, -, hsettings⟩ := h
  cases hsettings
  exact ⟨⟨given, hfrequency⟩, loud, hvolume⟩

/-- The keyboard is read entry by entry. -/
theorem keyboard_of_ofTable (h : ofTable t = .ok settings) :
    ∃ entries, t.get? "keyboard" = some (.table entries) ∧ entries.mapM binding = .ok settings.keyboard := by
  simp only [ofTable, bind_eq_ok] at h
  obtain ⟨general, -, audio, -, colors, -, entries, hentries, debug, -, h⟩ := h
  obtain ⟨_, -, _, -, _, -, _, -, _, -, _, -, _, -, _, -, _, -, _, -, h⟩ := h
  obtain ⟨_, -, _, -, _, -, _, -, keyboard, hkeyboard, _, -, _, -, hsettings⟩ := h
  cases hsettings
  refine ⟨entries, ?_, hkeyboard⟩
  unfold nest at hentries
  split at hentries <;> cases hentries
  assumption

end Settings

end ChipEight
