import WordCycle.Proofs.Editor.Frame
import WordCycle.Proofs.Settings.Dialog
import WordCycle.Proofs.Settings.Saving

/-! The settings dialog of the editor, once it has been shown. Unless its inputs or the settings are touched
it goes on showing the settings, whatever else is asked of the editor. Applying it then keeps them, and so
does the file if they can be saved, but for the part of the distance limit that is no whole unit of 1024. -/

namespace WordCycle
set_option autoImplicit false

/-- A settings file with the distance limit cut down to whole units of 1024. -/
def SettingsFile.inWholeUnits (f : SettingsFile) : SettingsFile :=
  { f with settings := f.settings.inWholeUnits }

theorem SettingsFile.inWholeUnits_inWholeUnits (f : SettingsFile) :
    f.inWholeUnits.inWholeUnits = f.inWholeUnits := by
  rw [inWholeUnits, inWholeUnits, Settings.inWholeUnits_inWholeUnits]

namespace Editor

/-- The dialog that is used shows the settings that the plugin holds. -/
structure ShowsSettings (e : Editor) (f : SettingsFile) : Prop where
  file : e.settingsFile = some f
  dialog : ∃ d, e.dialog = some d ∧ d.Shows f.settings

/-- What changes neither the settings nor the dialog goes on showing the settings. -/
theorem ShowsSettings.of_changes {e e' : Editor} {f : SettingsFile} {parts : List Part}
    (h : e.ShowsSettings f) (hchanges : ChangesOnly parts e e') (hsettings : .settings ∉ parts)
    (hdialog : .dialog ∉ parts) : e'.ShowsSettings f :=
  ⟨(hchanges.settings hsettings).trans h.file, hchanges.dialog hdialog ▸ h.dialog⟩

/-! ## Showing the dialog -/

theorem dialog_updateDialog (e : Editor) (g : SettingsDialog → SettingsDialog) :
    (e.updateDialog g).dialog = e.dialog.map g := by
  unfold updateDialog dialog
  cases hloose : e.looseDialog with
  | none => cases hp : e.plugin <;> simp [updatePlugin, hloose, hp]
  | some d => simp

theorem ShowsSettings.updateDialog {e : Editor} {f : SettingsFile} (h : e.ShowsSettings f)
    {g : SettingsDialog → SettingsDialog} (hg : ∀ d, d.Shows f.settings → (g d).Shows f.settings) :
    (e.updateDialog g).ShowsSettings f := by
  obtain ⟨hfile, d, hd, hshows⟩ := h
  exact ⟨((changes_updateDialog e g).settings (by decide)).trans hfile, g d,
    by rw [dialog_updateDialog, hd, Option.map_some], hg d hshows⟩

section
variable {e : Editor} {f : SettingsFile} (hfile : e.settingsFile = some f)
include hfile

theorem showsSettings_refreshDialog (hdialog : e.dialog.isSome = true) :
    e.refreshDialog.ShowsSettings f := by
  obtain ⟨p, hp, rfl⟩ := Option.map_eq_some_iff.mp hfile
  obtain ⟨d, hd⟩ := Option.isSome_iff_exists.mp hdialog
  rw [refreshDialog, hp]
  exact ⟨((changes_updateDialog e _).settings (by decide)).trans hfile, d.refresh p.file.settings,
    by rw [dialog_updateDialog, hd, Option.map_some], d.shows_refresh _⟩

theorem showsSettings_configure (hloose : e.looseDialog = none) : e.configure.ShowsSettings f := by
  obtain ⟨p, hp, rfl⟩ := Option.map_eq_some_iff.mp hfile
  let d := (p.dialog.getD (.ofSettings p.file.settings)).refresh p.file.settings
  have hshows : d.Shows p.file.settings := SettingsDialog.shows_refresh _ _
  refine ⟨?_, { d with visible := true }, ?_, hshows.withVisible true⟩
  · simp [settingsFile, configure, updatePlugin, hp]
  · simp [dialog, configure, updatePlugin, hloose, hp, d]

theorem showsSettings_newDialog : (e.run .newDialog).2.ShowsSettings f := by
  obtain ⟨p, hp, rfl⟩ := Option.map_eq_some_iff.mp hfile
  refine ⟨?_, .ofSettings p.file.settings, ?_, SettingsDialog.shows_ofSettings _⟩
  · simp [settingsFile, run, onPlugin, hp]
  · simp [dialog, run, onPlugin, hp]

end

/-- With a loose dialog in use, the plugin shows its own to no effect on it. -/
theorem ShowsSettings.configure {e : Editor} {f : SettingsFile} (h : e.ShowsSettings f) :
    e.configure.ShowsSettings f := by
  cases hloose : e.looseDialog with
  | none => exact showsSettings_configure h.file hloose
  | some d =>
    have hdialog : e.configure.dialog = e.dialog := by
      simp [Editor.dialog, Editor.configure, updatePlugin, hloose]
    exact ⟨((changes_configure e).settings (by decide)).trans h.file, hdialog ▸ h.dialog⟩

/-! ## Applying the dialog -/

theorem files_saveSettings (e : Editor) (p : Plugin) :
    (e.saveSettings p).2.files = (p.file.save e.files).2 := by
  unfold saveSettings
  generalize p.file.save e.files = r
  obtain ⟨r, files⟩ := r
  dsimp only
  split
  · rfl
  · split
    · split <;> rfl
    · rfl
  · rfl

theorem saveSettings_of_saved {e : Editor} {p : Plugin} {notices : List Settings.Notice}
    (h : (p.file.save e.files).1 = .ok notices) : (e.saveSettings p).1 = .ok true := by
  unfold saveSettings
  generalize p.file.save e.files = r at h ⊢
  obtain ⟨r, files⟩ := r
  obtain rfl : r = .ok notices := h
  rfl

/-- What applying a dialog comes to: settings are held, shown and saved. -/
structure Applied (e : Editor) (kept : SettingsFile) {α : Type} (r : Except Error α × Editor) :
    Prop where
  shows : r.2.ShowsSettings kept
  files : r.2.files = (kept.save e.files).2
  answer : ∀ notices, (kept.save e.files).1 = .ok notices → ∃ a, r.1 = .ok a

theorem Applied.map {e : Editor} {kept : SettingsFile} {α β : Type} {r : Except Error α × Editor}
    (h : e.Applied kept r) (g : α → β) : e.Applied kept (r.1.map g, r.2) := by
  refine ⟨h.shows, h.files, fun notices hsaved => ?_⟩
  obtain ⟨a, ha⟩ := h.answer notices hsaved
  exact ⟨g a, by rw [ha]; rfl⟩

theorem Applied.updateDialog {e e' : Editor} {kept : SettingsFile} {α β : Type} {r : Except Error α}
    (h : e.Applied kept (r, e')) (visible : Bool) (b : β) :
    e.Applied kept ((.ok b : Except Error β), e'.updateDialog fun d => { d with visible }) where
  shows := h.shows.updateDialog fun _ hd => hd.withVisible visible
  files := ((changes_updateDialog e' _).files (by decide)).trans h.files
  answer _ _ := ⟨b, rfl⟩

section
variable {e : Editor} {f : SettingsFile} (h : e.ShowsSettings f) (hf : f.settings.Valid)
include h hf

theorem applied_applyDialog : e.Applied f.inWholeUnits e.applyDialog := by
  obtain ⟨hfile, d, hd, hshows⟩ := h
  obtain ⟨p, hp, rfl⟩ := Option.map_eq_some_iff.mp hfile
  let p' : Plugin := { p with file := p.file.inWholeUnits }
  have happly : e.applyDialog = { e with plugin := some p' }.saveSettings p' := by
    rw [applyDialog, hd, hp]
    dsimp only
    rw [hshows.applied hf]
    rfl
  have hshows' : ShowsSettings { e with plugin := some p' } p.file.inWholeUnits := by
    refine ⟨rfl, d, ?_, hshows.inWholeUnits⟩
    rw [← hd, dialog, dialog, hp]
    rfl
  rw [happly]
  exact ⟨hshows'.of_changes (changes_saveSettings _ p') (by decide) (by decide),
    files_saveSettings _ p', fun _ hnotices => ⟨true, saveSettings_of_saved hnotices⟩⟩

theorem applied_press {button : SettingsDialog.Button} (hbutton : button ≠ .cancel) :
    e.Applied f.inWholeUnits (e.press button) := by
  have happlied := applied_applyDialog h hf
  cases button with
  | cancel => exact absurd rfl hbutton
  | apply => exact happlied.map fun _ => ()
  | ok =>
    rw [press]
    generalize e.applyDialog = r at happlied ⊢
    obtain ⟨r, e'⟩ := r
    cases r with
    | error fault => exact happlied.map fun _ => ()
    | ok saved =>
      cases saved with
      | true => exact happlied.updateDialog false ()
      | false => exact happlied.map fun _ => ()

end

/-! ## Requests -/

/-- Whether a request changes an input of the dialog, or the settings besides the dialog. -/
def Command.touchesSettings : Command → Bool
  | .setInput _ | .changeSetting _ => true
  | _ => false

/-- Whether a request applies the dialog. -/
def Command.applies : Command → Bool
  | .applyDialog => true
  | .press button => button ≠ .cancel
  | _ => false

/-- What the first action with a property is for. -/
def triggered? (e : Editor) (p : Action → Bool) : Option Operation :=
  ((e.menus.flatMap Menu.actions).filter p).head?.map Action.operation

/-- Whether a request brings up the dialog that is used from then on, or has it show the settings anew. -/
def showsDialog (e : Editor) : Command → Bool
  | .newDialog => true
  | .configure => e.looseDialog.isNone
  | .menu text => e.looseDialog.isNone && e.triggered? (·.text = text) = some .configure
  | .key shortcut =>
    e.looseDialog.isNone && e.triggered? (·.shortcut = some shortcut) = some .configure
  | .refreshDialog => e.dialog.isSome
  | _ => false

theorem applied_run {e : Editor} {f : SettingsFile} (h : e.ShowsSettings f) (hf : f.settings.Valid)
    {c : Command} (hc : c.applies = true) : e.Applied f.inWholeUnits (e.run c) := by
  cases c with
  | applyDialog => exact (applied_applyDialog h hf).map Answer.flag
  | press button =>
    obtain ⟨d, hd, -⟩ := h.dialog
    have hbutton : button ≠ .cancel := of_decide_eq_true hc
    rw [run, if_pos (by rw [hd]; rfl)]
    exact (applied_press h hf hbutton).map fun _ => Answer.nothing
  | _ => cases hc

/-- A request that shows the dialog has it show the settings. -/
theorem showsSettings_run {e : Editor} {f : SettingsFile} (hfile : e.settingsFile = some f)
    {c : Command} (hc : e.showsDialog c = true) : (e.run c).2.ShowsSettings f := by
  have htrigger : ∀ p, (e.looseDialog.isNone && e.triggered? p = some .configure) = true →
      (e.trigger p).2.ShowsSettings f := by
    intro p hp
    obtain ⟨hloose, hfirst⟩ := Bool.and_eq_true_iff.mp hp
    have hfirst := of_decide_eq_true hfirst
    unfold triggered? at hfirst
    unfold trigger
    generalize (e.menus.flatMap Menu.actions).filter p = found at hfirst ⊢
    cases found with
    | nil => cases hfirst
    | cons a others =>
      have hconfigure : a.operation = .configure := Option.some.inj hfirst
      dsimp only
      rw [hconfigure]
      exact showsSettings_configure hfile (Option.isNone_iff_eq_none.mp hloose)
  cases c with
  | newDialog => exact showsSettings_newDialog hfile
  | configure =>
    obtain ⟨p, hp, -⟩ := Option.map_eq_some_iff.mp hfile
    rw [run, onPlugin, if_pos (by rw [hp]; rfl)]
    exact showsSettings_configure hfile (Option.isNone_iff_eq_none.mp hc)
  | menu text => exact htrigger _ hc
  | key shortcut => exact htrigger _ hc
  | refreshDialog =>
    have hdialog : e.dialog.isSome = true := hc
    rw [run, onDialog, if_pos hdialog]
    exact showsSettings_refreshDialog hfile hdialog
  | _ => cases hc

namespace ShowsSettings
variable {e : Editor} {f : SettingsFile} (h : e.ShowsSettings f)
include h

theorem perform (o : Operation) : (e.perform o).2.ShowsSettings f := by
  cases o with
  | openDialog =>
    rw [Editor.perform, openChosen]
    split
    · exact h
    · exact h.of_changes (changes_openFile e _) (by decide) (by decide)
  | save => exact h.of_changes (changes_saveFile e) (by decide) (by decide)
  | close => exact h.of_changes (changes_close e) (by decide) (by decide)
  | cycle direction => exact h.of_changes (changes_cycle e direction) (by decide) (by decide)
  | configure => exact h.configure

theorem trigger (p : Action → Bool) : (e.trigger p).2.ShowsSettings f := by
  unfold Editor.trigger
  cases (e.menus.flatMap Menu.actions).filter p with
  | nil => exact h
  | cons a others => exact h.perform a.operation

/-- The dialog goes on showing the settings, which a request that applies it cuts down to whole units. -/
theorem run (hf : f.settings.Valid) {c : Command} (hc : c.touchesSettings = false) :
    (e.run c).2.ShowsSettings (if c.applies then f.inWholeUnits else f) := by
  cases happlies : c.applies with
  | true =>
    rw [if_pos rfl]
    exact (applied_run h hf happlies).shows
  | false =>
    rw [if_neg (by decide)]
    cases c with
    | changeSetting c => cases hc
    | setInput input => cases hc
    | applyDialog => cases happlies
    | menu text => exact h.trigger _
    | key shortcut => exact h.trigger _
    | configure => exact onPlugin_ind (P := (ShowsSettings · f)) h h.configure
    | newDialog => exact showsSettings_newDialog h.file
    | press button =>
      obtain rfl : button = .cancel := of_not_not (of_decide_eq_false happlies)
      rw [Editor.run]
      split
      · exact h.updateDialog fun _ hd => hd.withVisible false
      · exact h
    | refreshDialog =>
      exact onDialog_ind (P := (ShowsSettings · f)) h (showsSettings_refreshDialog h.file)
    | _ => exact h.of_changes (run_changes e _) (by simp [parts]) (by simp [parts])

end ShowsSettings

/-! ## Runs -/

def Event.touchesSettings : Event → Bool
  | .request c => c.touchesSettings
  | .files _ => false

def Event.applies : Event → Bool
  | .request c => c.applies
  | .files _ => false

theorem ShowsSettings.after {e : Editor} {f : SettingsFile} (h : e.ShowsSettings f)
    (hf : f.settings.Valid) {events : List Event}
    (huntouched : ∀ event ∈ events, event.touchesSettings = false) :
    (e.after events).ShowsSettings (if events.any Event.applies then f.inWholeUnits else f) := by
  induction events generalizing e f with
  | nil => exact h
  | cons event events ih =>
    obtain ⟨hfirst, hrest⟩ := List.forall_mem_cons.mp huntouched
    have hnext : (e.next event).ShowsSettings (if event.applies then f.inWholeUnits else f) := by
      cases event with
      | request c => exact h.run hf hfirst
      | files t => exact h.of_changes (changes_files e t) (by decide) (by decide)
    cases happlies : event.applies with
    | true =>
      rw [happlies, if_pos rfl] at hnext
      have hlater := ih hnext hf.inWholeUnits hrest
      rw [SettingsFile.inWholeUnits_inWholeUnits, ite_self] at hlater
      rw [List.any_cons, happlies, Bool.true_or, if_pos rfl]
      exact hlater
    | false =>
      rw [happlies, if_neg (by decide)] at hnext
      rw [List.any_cons, happlies, Bool.false_or]
      exact ih hnext hf hrest

/-- From the moment a dialog shows the settings, and as long as neither its inputs nor the settings are
touched, applying it leaves the settings as they were, but for the part of the distance limit that is no
whole unit. If they can be saved, the file gives the same settings when it is opened again. -/
theorem untouched_dialog_keeps_settings {e : Editor} {f : SettingsFile} (hf : f.Reachable)
    (hfile : e.settingsFile = some f) {shown applied : Command} (hshown : e.showsDialog shown = true)
    {events : List Event} (huntouched : ∀ event ∈ events, event.touchesSettings = false)
    (happlied : applied.applies = true) :
    ∃ e' r, (e.next (.request shown)).after events = e' ∧ e'.run applied = r ∧
      r.2.settingsFile = some f.inWholeUnits ∧
      r.2.files = (f.inWholeUnits.save e'.files).2 ∧
      (∀ notices, (f.inWholeUnits.save e'.files).1 = .ok notices →
        (∃ answer, r.1 = .ok answer) ∧
          SettingsFile.ofPath r.2.files f.path = .ok (f.inWholeUnits, [])) ∧
      (∀ key, key ≠ .distanceLimit →
        f.inWholeUnits.settings.value key = f.settings.value key) ∧
      f.inWholeUnits.settings.distanceLimit = f.settings.distanceLimit / 1024 * 1024 ∧
      (f.inWholeUnits = f ↔ 1024 ∣ f.settings.distanceLimit) := by
  have hvalid := hf.valid
  have hshows := (showsSettings_run hfile hshown).after hvalid huntouched
  have happly : ((e.next (.request shown)).after events).Applied f.inWholeUnits
      (((e.next (.request shown)).after events).run applied) := by
    split at hshows
    · rw [← f.inWholeUnits_inWholeUnits]
      exact applied_run hshows hvalid.inWholeUnits happlied
    · exact applied_run hshows hvalid happlied
  refine ⟨_, _, rfl, rfl, happly.shows.file, happly.files, ?_, ?_, rfl, ?_⟩
  · intro notices hsaved
    refine ⟨happly.answer notices hsaved, ?_⟩
    rw [happly.files]
    exact SettingsFile.ofPath_of_save hvalid.inWholeUnits (Prod.ext hsaved rfl)
  · exact fun key hkey => f.settings.value_inWholeUnits hkey
  · rw [← f.settings.inWholeUnits_eq_self_iff]
    exact ⟨congrArg SettingsFile.settings, fun h => congrArg (SettingsFile.mk f.path) h⟩

/-- A settings file that is not there yet, with a distance limit in bytes. -/
def limitedTo (limit : Nat) : SettingsFile :=
  ⟨⟨[], ["c.json".toList]⟩, { distanceLimit := limit }⟩

theorem reachable_limitedTo {limit : Nat} (h : limit ≤ Settings.distanceRangeKb.2 * 1024) :
    (limitedTo limit).Reachable := by
  have hopened : SettingsFile.ofPath {} ⟨[], ["c.json".toList]⟩ =
      .ok (⟨⟨[], ["c.json".toList]⟩, {}⟩, []) := by
    decide +kernel
  have hchange : ({} : Settings).change (.set "distance_limit".toList (.int limit)) =
      .ok ({ distanceLimit := limit }, []) := by
    have hlow : Settings.distanceRangeKb.1 * 1024 ≤ limit := Nat.zero_le limit
    have hname : Settings.Key.ofName? "distance_limit".toList = some .distanceLimit := by decide
    rw [Settings.change, Settings.setNamed, hname]
    dsimp only
    rw [Settings.set, Settings.set?, Settings.integerWithin_natCast hlow h]
    rfl
  have hrun := SettingsFile.Reachable.run (.opened hopened) {}
    (.change (.set "distance_limit".toList (.int limit)))
  rw [SettingsFile.run, hchange] at hrun
  exact hrun

theorem untouched_dialog_keeps_settings_typed :
    let e : Editor := { plugin := some { file := limitedTo 2500 } }
    (limitedTo 2500).Reachable ∧ e.settingsFile = some (limitedTo 2500) ∧
      e.showsDialog .configure = true ∧ (Event.request (.type "x".toList)).touchesSettings = false ∧
      (Command.press .ok).applies = true ∧
      ∃ e' r, (e.next (.request .configure)).after [.request (.type "x".toList)] = e' ∧
        e'.run (.press .ok) = r ∧ r.1 = .ok .nothing ∧
        r.2.settingsFile = some (limitedTo 2048) ∧
        SettingsFile.ofPath r.2.files (limitedTo 2500).path = .ok (limitedTo 2048, []) := by
  intro e
  have hf : (limitedTo 2500).Reachable := reachable_limitedTo (by decide)
  have hshown : e.showsDialog .configure = true := rfl
  have happlied : (Command.press .ok).applies = true := rfl
  have huntouched : ∀ event ∈ [Event.request (.type "x".toList)], event.touchesSettings = false := by
    rw [List.forall_mem_singleton]
    rfl
  obtain ⟨e', r, he', hr, hfile, -, hsaved, -⟩ :=
    untouched_dialog_keeps_settings hf rfl hshown huntouched happlied
  have hanswer : r.1 = .ok .nothing := by
    rw [← hr, ← he']
    decide +kernel
  have hsave : ((limitedTo 2500).inWholeUnits.save e'.files).1 = .ok [.saved] := by
    rw [← he']
    decide +kernel
  exact ⟨hf, rfl, hshown, rfl, happlied, e', r, he', hr, hanswer, hfile, (hsaved _ hsave).2⟩

/-- A limit of less than a unit is shown as none, and applying the dialog lifts it. -/
theorem untouched_dialog_lifts_limit :
    let e : Editor := { plugin := some { file := limitedTo 1023 } }
    (limitedTo 1023).Reachable ∧ e.settingsFile = some (limitedTo 1023) ∧
      e.showsDialog .configure = true ∧ (Command.press .apply).applies = true ∧
      ∃ r, (e.next (.request .configure)).run (.press .apply) = r ∧ r.1 = .ok .nothing ∧
        r.2.settingsFile = some (limitedTo 0) ∧ limitedTo 0 ≠ limitedTo 1023 ∧
        SettingsFile.ofPath r.2.files (limitedTo 1023).path = .ok (limitedTo 0, []) := by
  exact ⟨reachable_limitedTo (by decide), rfl, rfl, rfl, _, rfl, by decide +kernel, by decide +kernel,
    by decide, by decide +kernel⟩

end Editor
end WordCycle
