/-
Settings that were saved are found again. Saving makes the directories that lead to the file and writes the
document of the settings; the file then holds that document, from which the settings are read as they were, and the
directories are there, so that saving once more leaves the tree as it is.
-/
import DoomLex.Proofs.Files.Changes
import DoomLex.Proofs.Settings.Document
import DoomLex.Tool.SettingsFile

namespace DoomLex

namespace SettingsFile

variable {fs fs' : FileTree} {s : Settings} {p : Path} {t : Text} {device : Device}

/-- The directory that a path is in is there; a path of a single name is in the directory where paths start. -/
def HasDirectory (fs : FileTree) (p : Path) : Prop :=
  ∀ parent, p.parent? = some parent → parent.spelling ≠ [] → fs.isDirectory parent = true

theorem HasDirectory.of_keeps (h : HasDirectory fs p) (hkeeps : FileTree.Keeps fs fs') : HasDirectory fs' p :=
  fun parent hparent hne => hkeeps.isDirectory (h parent hparent hne)

/-- What was saved is a document, written where its directory was there or was made. -/
theorem exists_of_save (h : save fs s p device = (fs', .ok ())) :
    ∃ (made : FileTree) (t : Text), HasDirectory made p ∧ s.toDocument? = some t ∧
      made.write p t device = (fs', .ok ()) := by
  unfold save at h
  dsimp only at h
  split at h
  · cases h
  · rename_i made hmade
    split at h
    · cases h
    · rename_i t ht
      split at h
      · cases h
      · rename_i written hwrite
        cases h
        refine ⟨made, t, fun parent hparent hne => ?_, ht, hwrite⟩
        rw [hparent] at hmade
        exact FileTree.isDirectory_of_makePath hmade hne

theorem save_of_hasDirectory (h : HasDirectory fs p) (ht : s.toDocument? = some t)
    (hwrite : fs.write p t device = (fs', .ok ())) : save fs s p device = (fs', .ok ()) := by
  unfold save
  cases hparent : p.parent? with
  | none => simp only [ht, hwrite]
  | some parent => simp only [FileTree.makePath_of_isDirectory (h parent hparent), ht, hwrite]

theorem load_of_look (hlook : fs.look p = .ok (.file (.text t))) (ht : s.toDocument? = some t)
    (processors : UInt32) : load fs processors p = .ok s := by
  have hthere : fs.isThere p = true := by rw [FileTree.isThere, hlook]
  have hread : fs.read p = .ok t := by rw [FileTree.read, hlook]
  simp only [load, hthere, hread, Settings.read_toDocument? ht, if_true]

end SettingsFile

/-- Saving is lossless: settings that were saved at a path, on whatever device, are loaded from it as they were,
whatever the machine, and saving them again changes nothing, the text of the file included. -/
theorem saved_settings_load {fs fs' : FileTree} {s : Settings} {p : Path} {device : Device}
    (h : SettingsFile.save fs s p device = (fs', .ok ())) :
    (∀ processors, SettingsFile.load fs' processors p = .ok s) ∧
      SettingsFile.save fs' s p device = (fs', .ok ()) ∧ ∃ t, s.toDocument? = some t ∧ fs'.read p = .ok t := by
  obtain ⟨made, t, hdirectory, ht, hwrite⟩ := SettingsFile.exists_of_save h
  have hlook := FileTree.look_of_write hwrite
  have hdirectory' := hdirectory.of_keeps (FileTree.keeps_of_write hwrite)
  refine ⟨SettingsFile.load_of_look hlook ht, ?_, t, ht, ?_⟩
  · exact SettingsFile.save_of_hasDirectory hdirectory' ht (FileTree.write_of_write hwrite)
  · rw [FileTree.read, hlook]

/-- Settings with texts that only quotes, escapes or several lines can hold, and with the greatest numbers. -/
def oddSettings : Settings where
  verbose := true
  lex.defaultLanguage := some []
  lex.overrides := Overrides.empty
    |>.insert [] "\"\\\n".toList
    |>.insert "it's \"odd\"".toList "'''\"\"\"\\".toList
    |>.insert "ÄÖ.\x01".toList "\r\n\x00".toList
  output := ⟨"\"\"\"\n".toList, true⟩
  check := ⟨4294967295, 9223372036854775807⟩

/-- The directory of the path is still to be made here. -/
theorem saved_settings_load_odd :
    let fs : FileTree := ⟨["home".toList], [(["home".toList], .directory)]⟩
    let p := Path.ofString "conf/dtkt.toml"
    let fs' := (SettingsFile.save fs oddSettings p).1
    SettingsFile.save fs oddSettings p = (fs', .ok ()) ∧ SettingsFile.load fs' 4 p = .ok oddSettings ∧
      SettingsFile.save fs' oddSettings p = (fs', .ok ()) := by
  intro fs p fs'
  have hsave : SettingsFile.save fs oddSettings p = (fs', .ok ()) := Prod.ext rfl rfl
  obtain ⟨hload, hagain, -⟩ := saved_settings_load hsave
  exact ⟨hsave, hload 4, hagain⟩

end DoomLex
