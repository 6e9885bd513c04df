import WordCycle.Proofs.Editor.Opening

/-! Which parts of the editor a request may change. There is one lemma for each request, and from these what
stays over a run is derived. -/

namespace WordCycle.Editor
set_option autoImplicit false

/-! ## Parts -/

/-- The settings of the plugin with their file. -/
def settingsFile (e : Editor) : Option SettingsFile := e.plugin.map Plugin.file

/-- The parts of an editor that its requests are told apart by. -/
inductive Part
  | files
  | document
  | path
  | session
  | settings
  | dialog
  deriving DecidableEq

/-- Between two moments no parts but the given ones changed, where a session that ended counts as unchanged.
The window and the plugin stayed together, and the document was changed at most outside edit blocks. -/
structure ChangesOnly (parts : List Part) (e e' : Editor) : Prop where
  files : .files ∉ parts → e'.files = e.files
  document : .document ∉ parts → e'.document = e.document
  path : .path ∉ parts → e'.path = e.path
  session : .session ∉ parts → e'.session = e.session ∨ e'.session = {}
  settings : .settings ∉ parts → e'.settingsFile = e.settingsFile
  dialog : .dialog ∉ parts → e'.dialog = e.dialog
  told : e'.tellsPlugin = e.tellsPlugin
  plugin : e'.plugin.isSome = e.plugin.isSome
  buffer : e.buffer.Settled → e'.buffer.Settled ∧ e'.buffer.extra = e.buffer.extra

namespace ChangesOnly
variable {e e' e'' : Editor} {parts more : List Part}

theorem mono (h : ChangesOnly parts e e') (hsub : parts ⊆ more) : ChangesOnly more e e' where
  files hpart := h.files fun hmem => hpart (hsub hmem)
  document hpart := h.document fun hmem => hpart (hsub hmem)
  path hpart := h.path fun hmem => hpart (hsub hmem)
  session hpart := h.session fun hmem => hpart (hsub hmem)
  settings hpart := h.settings fun hmem => hpart (hsub hmem)
  dialog hpart := h.dialog fun hmem => hpart (hsub hmem)
  told := h.told
  plugin := h.plugin
  buffer := h.buffer

theorem trans (h : ChangesOnly parts e e') (h' : ChangesOnly parts e' e'') :
    ChangesOnly parts e e'' where
  files hpart := (h'.files hpart).trans (h.files hpart)
  document hpart := (h'.document hpart).trans (h.document hpart)
  path hpart := (h'.path hpart).trans (h.path hpart)
  session hpart := by
    rcases h'.session hpart with heq | hend
    · rw [heq]
      exact h.session hpart
    · exact Or.inr hend
  settings hpart := (h'.settings hpart).trans (h.settings hpart)
  dialog hpart := (h'.dialog hpart).trans (h.dialog hpart)
  told := h'.told.trans h.told
  plugin := h'.plugin.trans h.plugin
  buffer hb := by
    obtain ⟨hsettled, hextra⟩ := h.buffer hb
    obtain ⟨hsettled', hextra'⟩ := h'.buffer hsettled
    exact ⟨hsettled', hextra'.trans hextra⟩

theorem append (h : ChangesOnly parts e e') (h' : ChangesOnly more e' e'') :
    ChangesOnly (parts ++ more) e e'' :=
  (h.mono (List.subset_append_left parts more)).trans (h'.mono (List.subset_append_right parts more))

end ChangesOnly

/-- What leaves the plugin and the window together, by the fields that the parts are made of. -/
theorem changes_fields {parts : List Part} {e e' : Editor}
    (hfiles : .files ∉ parts → e'.files = e.files)
    (hdocument : .document ∉ parts → e'.document = e.document)
    (hpath : .path ∉ parts → e'.path = e.path)
    (hloose : .dialog ∉ parts → e'.looseDialog = e.looseDialog)
    (hplugin : e'.plugin = e.plugin) (htold : e'.tellsPlugin = e.tellsPlugin)
    (hbuffer : e.buffer.Settled → e'.buffer.Settled ∧ e'.buffer.extra = e.buffer.extra) :
    ChangesOnly parts e e' where
  files := hfiles
  document := hdocument
  path := hpath
  session _ := by
    rw [session, session, hplugin]
    exact Or.inl rfl
  settings _ := by rw [settingsFile, settingsFile, hplugin]
  dialog hpart := by rw [dialog, dialog, hloose hpart, hplugin]
  told := htold
  plugin := by rw [hplugin]
  buffer := hbuffer

theorem changes_nothing {parts : List Part} {e e' : Editor} (hfiles : e'.files = e.files)
    (hbuffer : e'.buffer = e.buffer) (hpath : e'.path = e.path)
    (hloose : e'.looseDialog = e.looseDialog) (hplugin : e'.plugin = e.plugin)
    (htold : e'.tellsPlugin = e.tellsPlugin) : ChangesOnly parts e e' := by
  refine changes_fields (fun _ => hfiles) (fun _ => ?_) (fun _ => hpath) (fun _ => hloose) hplugin
    htold fun hb => ?_
  · rw [document, document, hbuffer]
  · rw [hbuffer]
    exact ⟨hb, rfl⟩

theorem changes_same (parts : List Part) (e : Editor) : ChangesOnly parts e e :=
  changes_nothing rfl rfl rfl rfl rfl rfl

theorem changes_files (e : Editor) (files : FileTree) : ChangesOnly [.files] e { e with files } :=
  changes_fields (absurd List.mem_cons_self) (fun _ => rfl) (fun _ => rfl) (fun _ => rfl) rfl rfl
    fun hb => ⟨hb, rfl⟩

theorem changes_path (e : Editor) (path : Option Path) : ChangesOnly [.path] e { e with path } :=
  changes_fields (fun _ => rfl) (fun _ => rfl) (absurd List.mem_cons_self) (fun _ => rfl) rfl rfl
    fun hb => ⟨hb, rfl⟩

theorem changes_looseDialog (e : Editor) (looseDialog : Option SettingsDialog) :
    ChangesOnly [.dialog] e { e with looseDialog } :=
  changes_fields (fun _ => rfl) (fun _ => rfl) (fun _ => rfl) (absurd List.mem_cons_self) rfl rfl
    fun hb => ⟨hb, rfl⟩

theorem changes_buffer (e : Editor) {buffer : DocumentBuffer}
    (hbuffer : e.buffer.Settled → buffer.Settled ∧ buffer.extra = e.buffer.extra) :
    ChangesOnly [.document] e { e with buffer } :=
  changes_fields (fun _ => rfl) (absurd List.mem_cons_self) (fun _ => rfl) (fun _ => rfl) rfl rfl
    hbuffer

theorem changes_updatePlugin (parts : List Part) (e : Editor) {f : Plugin → Plugin}
    (hsession : .session ∉ parts → ∀ p, (f p).session = p.session ∨ (f p).session = {})
    (hsettings : .settings ∉ parts → ∀ p, (f p).file = p.file)
    (hdialog : .dialog ∉ parts → ∀ p, (f p).dialog = p.dialog) :
    ChangesOnly parts e (e.updatePlugin f) where
  files _ := rfl
  document _ := rfl
  path _ := rfl
  session hpart := by
    cases hp : e.plugin with
    | none => exact Or.inl (by simp [Editor.session, updatePlugin, hp])
    | some p => simpa [Editor.session, updatePlugin, hp] using hsession hpart p
  settings hpart := by
    cases hp : e.plugin with
    | none => simp [settingsFile, updatePlugin, hp]
    | some p => simp [settingsFile, updatePlugin, hp, hsettings hpart p]
  dialog hpart := by
    cases hp : e.plugin with
    | none => simp [Editor.dialog, updatePlugin, hp]
    | some p => simp [Editor.dialog, updatePlugin, hp, hdialog hpart p]
  told := rfl
  plugin := Option.isSome_map
  buffer hb := ⟨hb, rfl⟩

theorem changes_settings {e : Editor} {p : Plugin} (hp : e.plugin = some p) (settings : Settings) :
    ChangesOnly [.settings] e
      { e with plugin := some { p with file := { p.file with settings } } } := by
  let f : Plugin → Plugin := fun p => { p with file := { p.file with settings } }
  have hupdate : { e with plugin := some (f p) } = e.updatePlugin f := by
    rw [updatePlugin, hp, Option.map_some]
  rw [hupdate]
  exact changes_updatePlugin _ e (fun _ _ => Or.inl rfl) (absurd List.mem_cons_self) fun _ _ => rfl

/-! ## Requests that are not about files -/

theorem changes_updateDialog (e : Editor) (f : SettingsDialog → SettingsDialog) :
    ChangesOnly [.dialog] e (e.updateDialog f) := by
  unfold updateDialog
  split
  · exact changes_looseDialog e _
  · exact changes_updatePlugin _ e (fun _ _ => Or.inl rfl) (fun _ _ => rfl)
      (absurd List.mem_cons_self)

theorem changes_install (e : Editor) : ChangesOnly [] e e.install := by
  refine ChangesOnly.trans ?_
    (changes_updatePlugin [] _ (fun _ _ => Or.inl rfl) (fun _ _ => rfl) fun _ _ => rfl)
  exact changes_nothing rfl rfl rfl rfl rfl rfl

theorem changes_cleanup (e : Editor) : ChangesOnly [] e e.cleanup := by
  refine ChangesOnly.trans ?_
    (changes_updatePlugin [] _ (fun _ _ => Or.inr rfl) (fun _ _ => rfl) fun _ _ => rfl)
  exact changes_nothing rfl rfl rfl rfl rfl rfl

theorem changes_documentChanged (e : Editor) : ChangesOnly [] e e.documentChanged :=
  changes_updatePlugin [] e (fun _ _ => Or.inr rfl) (fun _ _ => rfl) fun _ _ => rfl

theorem changes_configure (e : Editor) : ChangesOnly [.dialog] e e.configure :=
  changes_updatePlugin _ e (fun _ _ => Or.inl rfl) (fun _ _ => rfl) (absurd List.mem_cons_self)

theorem changes_close (e : Editor) : ChangesOnly [] e e.close := by
  unfold close
  split
  · exact (changes_cleanup e).append (changes_nothing rfl rfl rfl rfl rfl rfl)
  · exact changes_nothing rfl rfl rfl rfl rfl rfl

theorem changes_refreshDialog (e : Editor) : ChangesOnly [.dialog] e e.refreshDialog := by
  unfold refreshDialog
  split
  · exact changes_updateDialog e _
  · exact changes_same _ e

theorem changes_changeSetting (e : Editor) (c : Settings.Change) :
    ChangesOnly [.settings] e (e.changeSetting c).2 := by
  unfold changeSetting
  split
  · exact changes_same _ e
  · next p hp =>
    split
    · exact changes_same _ e
    · next settings _ _ => exact changes_settings hp settings

/-- Asking for a completion changes no more than the document, the session and the status bar. -/
theorem cycle_eq (e : Editor) (direction : Direction) :
    ∃ buffer session status,
      (e.cycle direction).2 = { e with buffer, status }.updatePlugin (fun p => { p with session }) ∧
      (e.buffer.Settled → buffer.Settled ∧ buffer.extra = e.buffer.extra) := by
  unfold cycle updatePlugin
  cases hp : e.plugin with
  | none =>
    have hidle : e = { e with plugin := none } := by rw [← hp]
    exact ⟨e.buffer, {}, e.status, hidle, fun hb => ⟨hb, rfl⟩⟩
  | some p =>
    have hidle : e = { e with plugin := some { p with session := p.session } } := by rw [← hp]
    dsimp only
    split
    · exact ⟨e.buffer, p.session, e.status, hidle, fun hb => ⟨hb, rfl⟩⟩
    · split
      · exact ⟨e.buffer, p.session, e.status, hidle, fun hb => ⟨hb, rfl⟩⟩
      · next o ho =>
        have hbuffer : e.buffer.Settled → o.buffer.Settled ∧ o.buffer.extra = e.buffer.extra := by
          intro hb
          obtain ⟨hsettled, hextra⟩ := settled_of_ends hb.remember (Session.ends_of_cycle ho)
          exact ⟨hsettled, hextra⟩
        cases o.report with
        | none => exact ⟨o.buffer, o.session, e.status, rfl, hbuffer⟩
        | some r => exact ⟨o.buffer, o.session, _, rfl, hbuffer⟩

theorem changes_cycle (e : Editor) (direction : Direction) :
    ChangesOnly [.document, .session] e (e.cycle direction).2 := by
  obtain ⟨buffer, session, status, hcycle, hbuffer⟩ := cycle_eq e direction
  rw [hcycle]
  have hdocument : ChangesOnly [.document] e { e with buffer, status } :=
    (changes_buffer e hbuffer).append (changes_nothing rfl rfl rfl rfl rfl rfl)
  exact hdocument.append (changes_updatePlugin [.session] _
    (absurd List.mem_cons_self) (fun _ _ => rfl) fun _ _ => rfl)

/-! ## Requests about files -/

theorem changes_showFile (e : Editor) (path : Path) (t : Text) :
    ChangesOnly [.document, .path] e (e.showFile path t) := by
  have hshown : ChangesOnly [.document, .path] e
      { e with
        buffer := e.buffer.showText t
        path := some path
        title := path.name ++ " - CycleComplete".toList } :=
    ((changes_buffer e fun hb => ⟨hb.showText t, rfl⟩).append (changes_path _ _)).append
      (changes_nothing rfl rfl rfl rfl rfl rfl)
  unfold showFile
  dsimp only
  split
  · exact hshown.append (changes_documentChanged _)
  · exact hshown

theorem changes_openFile (e : Editor) (path : Path) :
    ChangesOnly [.document, .path] e (e.openFile path).2 := by
  by_cases hopened : (e.openFile path).1 = .ok true
  · obtain ⟨t, ht⟩ := openFile_opened hopened
    rw [ht]
    exact changes_showFile e path t
  · obtain ⟨boxes, hboxes⟩ := openFile_refused hopened
    rw [hboxes]
    exact changes_nothing rfl rfl rfl rfl rfl rfl

theorem changes_writeFile (e : Editor) (path : Path) :
    ChangesOnly [.files] e (e.writeFile path).2 := by
  unfold writeFile
  generalize e.files.write path (Utf8.encode e.buffer.widget.text) = r
  obtain ⟨r, files⟩ := r
  have hfiles := changes_files e files
  dsimp only
  split
  · exact hfiles.append (changes_nothing rfl rfl rfl rfl rfl rfl)
  · exact hfiles
  · exact hfiles.append (changes_nothing rfl rfl rfl rfl rfl rfl)

theorem changes_saveFile (e : Editor) : ChangesOnly [.path, .files] e e.saveFile.2 := by
  unfold saveFile
  split
  · next path _ => exact (changes_writeFile e path).mono (List.subset_cons_self _ _)
  · split
    · exact changes_same _ e
    · exact (changes_path e _).append (changes_writeFile _ _)

theorem changes_saveSettings (e : Editor) (p : Plugin) :
    ChangesOnly [.files] e (e.saveSettings p).2 := by
  unfold saveSettings
  generalize p.file.save e.files = r
  obtain ⟨r, files⟩ := r
  have hfiles := changes_files e files
  dsimp only
  split
  · exact hfiles
  · split
    · split
      · exact hfiles
      · exact hfiles.append (changes_nothing rfl rfl rfl rfl rfl rfl)
    · exact hfiles
  · exact hfiles

theorem changes_applyDialog (e : Editor) : ChangesOnly [.settings, .files] e e.applyDialog.2 := by
  unfold applyDialog
  split
  · next p _ hp =>
    split
    · exact changes_same _ e
    · next settings _ => exact (changes_settings hp settings).append (changes_saveSettings _ _)
  · exact changes_same _ e

/-- What a button of the dialog may change. -/
def buttonParts : SettingsDialog.Button → List Part
  | .cancel => [.dialog]
  | .apply => [.settings, .files]
  | .ok => [.settings, .files, .dialog]

theorem changes_press (e : Editor) (button : SettingsDialog.Button) :
    ChangesOnly (buttonParts button) e (e.press button).2 := by
  have happly := changes_applyDialog e
  cases button with
  | cancel => exact changes_updateDialog e _
  | apply => exact happly
  | ok =>
    rw [press]
    generalize e.applyDialog = r at happly ⊢
    obtain ⟨r, e'⟩ := r
    split
    · next heq =>
      obtain ⟨-, rfl⟩ := Prod.mk.inj heq
      exact happly.append (changes_updateDialog e' _)
    · next heq =>
      obtain ⟨-, rfl⟩ := Prod.mk.inj heq
      exact happly.mono (by simp [buttonParts])
    · next heq =>
      obtain ⟨-, rfl⟩ := Prod.mk.inj heq
      exact happly.mono (by simp [buttonParts])

/-! ## Every request -/

def operationParts (e : Editor) : Operation → List Part
  | .openDialog => if e.dialogAnswer.isEmpty then [] else [.document, .path]
  | .save => [.path, .files]
  | .close => []
  | .cycle _ => [.document, .session]
  | .configure => [.dialog]

/-- What the first action with a property may change. -/
def triggerParts (e : Editor) (p : Action → Bool) : List Part :=
  match (e.menus.flatMap Menu.actions).filter p with
  | [] => []
  | a :: _ => e.operationParts a.operation

/-- What a request may change. -/
def parts (e : Editor) : Command → List Part
  | .openFile _ => [.document, .path]
  | .saveFile => [.path, .files]
  | .menu text => e.triggerParts (·.text = text)
  | .key shortcut => e.triggerParts (·.shortcut = some shortcut)
  | .cycle _ => [.document, .session]
  | .type _ | .showText _ => [.document]
  | .changeSetting _ => [.settings]
  | .applyDialog => [.settings, .files]
  | .press button => buttonParts button
  | .configure | .newDialog | .setInput _ | .refreshDialog => [.dialog]
  | .close | .answerFileDialog _ | .select _ _ | .documentChanged | .install | .cleanup
  | .withdrawDocument => []

theorem perform_changes (e : Editor) (o : Operation) :
    ChangesOnly (e.operationParts o) e (e.perform o).2 := by
  cases o with
  | openDialog =>
    rw [operationParts, perform, openChosen]
    split
    · exact changes_same _ e
    · exact changes_openFile e _
  | save => exact changes_saveFile e
  | close => exact changes_close e
  | cycle direction => exact changes_cycle e direction
  | configure => exact changes_configure e

theorem trigger_changes (e : Editor) (p : Action → Bool) :
    ChangesOnly (e.triggerParts p) e (e.trigger p).2 := by
  unfold triggerParts trigger
  cases (e.menus.flatMap Menu.actions).filter p with
  | nil => exact changes_same _ e
  | cons a others => exact perform_changes e a.operation

section
variable {P : Editor → Prop} {e : Editor} {f : Editor → Editor}

/-- What holds before and after a change holds whether or not there is a plugin to make it. -/
theorem onPlugin_ind (h : P e) (hf : P (f e)) : P (e.onPlugin f).2 := by
  unfold onPlugin
  split
  · exact hf
  · exact h

theorem onDialog_ind (h : P e) (hf : e.dialog.isSome = true → P (f e)) : P (e.onDialog f).2 := by
  unfold onDialog
  split
  · next hdialog => exact hf hdialog
  · exact h

end

theorem run_changes (e : Editor) (c : Command) : ChangesOnly (e.parts c) e (e.run c).2 := by
  cases c with
  | openFile path => exact changes_openFile e path
  | saveFile => exact changes_saveFile e
  | close => exact changes_close e
  | answerFileDialog name => exact changes_nothing rfl rfl rfl rfl rfl rfl
  | type t => exact changes_buffer e fun hb => ⟨hb.type t, rfl⟩
  | select anchor position =>
    -- the caret moves, but the text stays
    exact changes_fields (fun _ => rfl) (fun _ => rfl) (fun _ => rfl) (fun _ => rfl) rfl rfl
      fun hb => ⟨hb.place anchor position, rfl⟩
  | showText t => exact changes_buffer e fun hb => ⟨hb.showText t, rfl⟩
  | menu text => exact trigger_changes e _
  | key shortcut => exact trigger_changes e _
  | cycle direction => exact changes_cycle e direction
  | documentChanged => exact onPlugin_ind (changes_same _ e) (changes_documentChanged e)
  | install => exact onPlugin_ind (changes_same _ e) (changes_install e)
  | cleanup => exact onPlugin_ind (changes_same _ e) (changes_cleanup e)
  | configure => exact onPlugin_ind (changes_same _ e) (changes_configure e)
  | withdrawDocument => exact changes_nothing rfl rfl rfl rfl rfl rfl
  | changeSetting c => exact changes_changeSetting e c
  | newDialog => exact onPlugin_ind (changes_same _ e) (changes_looseDialog e _)
  | setInput input => exact onDialog_ind (changes_same _ e) fun _ => changes_updateDialog e _
  | press button =>
    rw [run]
    split
    · exact changes_press e button
    · exact changes_same _ e
  | applyDialog => exact changes_applyDialog e
  | refreshDialog => exact onDialog_ind (changes_same _ e) fun _ => changes_refreshDialog e

end WordCycle.Editor
