import WordCycle.Proofs.Buffer.Settled
import WordCycle.Proofs.Editor.Effect
import WordCycle.Proofs.Scan.WholeWords
import WordCycle.Proofs.Session.Outcome

/-! Opening a file ends the completion session, or fails and leaves it as it is. Asking for a completion
brings no candidates but those of the session and of a scan of the document; without a session to go on
with it begins anew. -/

namespace WordCycle
set_option autoImplicit false

/-- Candidates that a scan of a text has found, from some caret behind a word character and under some
settings. -/
def CandidateStore.ScannedFrom (store : CandidateStore) (t : Text) : Prop :=
  ∃ (pos : Nat) (settings : Settings), pos ≤ t.length ∧ typedAt [] t pos ≠ [] ∧
    (Scan.atCaret [] t pos).candidates settings (wordAt [] t pos) = .ok store

namespace Editor

/-! ## Opening a file -/

theorem openFile_opened {e : Editor} {path : Path} (h : (e.openFile path).1 = .ok true) :
    ∃ t, (e.openFile path).2 = e.showFile path t := by
  unfold openFile at h ⊢
  split at h
  · cases h
  · cases h
  · next hread =>
    split at h
    · cases h
    · next t _ => exact ⟨t.unifyLineEnds, rfl⟩

/-- A file that cannot be opened leaves nothing but a message, if that. -/
theorem openFile_refused {e : Editor} {path : Path} (h : (e.openFile path).1 ≠ .ok true) :
    ∃ boxes, (e.openFile path).2 = { e with boxes } := by
  unfold openFile at h ⊢
  split
  · exact ⟨e.boxes, rfl⟩
  · exact ⟨_, rfl⟩
  · next hread =>
    split
    · exact ⟨_, rfl⟩
    · next hdecode =>
      simp only [hread, hdecode] at h
      exact absurd rfl h

theorem showFile_eq {e : Editor} (htold : e.tellsPlugin = true) (path : Path) (t : Text) :
    e.showFile path t =
      { e with
        buffer := e.buffer.showText t
        path := some path
        title := path.name ++ " - CycleComplete".toList
        plugin := e.plugin.map fun p => { p with session := {} } } := by
  rw [showFile, if_pos htold]
  rfl

theorem showFile_session {e : Editor} (htold : e.tellsPlugin = true) (path : Path) (t : Text) :
    (e.showFile path t).session = {} := by
  rw [showFile_eq htold, Editor.session]
  cases e.plugin <;> rfl

/-! ## Asking for a completion -/

def settings (e : Editor) : Settings := (e.plugin.map (·.file.settings)).getD {}

/-- With a plugin a completion is not refused: it does nothing without a window or a document, else it is
what the session comes to. -/
theorem cycle_cases {e : Editor} (hplugin : e.plugin.isSome = true) (hb : e.buffer.Settled)
    (direction : Direction) :
    e.cycle direction = (.ok none, e) ∨
      ∃ o, e.session.Ends e.settings 0 e.buffer.remember direction o ∧
        (e.cycle direction).1 = .ok o.completion ∧ (e.cycle direction).2.session = o.session ∧
        (e.cycle direction).2.buffer = o.buffer ∧
        (e.cycle direction).2.tellsPlugin = e.tellsPlugin ∧
        (e.cycle direction).2.plugin.isSome = true := by
  obtain ⟨p, hp⟩ := Option.isSome_iff_exists.mp hplugin
  have hsession : e.session = p.session := by rw [Editor.session, hp]; rfl
  have hsettings : e.settings = p.file.settings := by rw [Editor.settings, hp]; rfl
  obtain ⟨pos, hcursor, hle⟩ := hb.remember.exists_cursor
  have htext : (Buffer.text (Buffer.remember e.buffer)) = e.buffer.remember.widget.text :=
    hb.remember.text_eq
  have hcursor : Buffer.cursor (Buffer.remember e.buffer) = pos := hcursor
  obtain ⟨o, ho, -⟩ := p.session.exists_cycle p.file.settings 0 e.buffer direction (by omega)
    (by rw [htext]; omega)
  rw [hsession, hsettings, cycle, hp]
  by_cases hidle : (p.installation.isNone || !e.hasDocument) = true
  · refine Or.inl ?_
    simp only [hidle, if_true]
  · refine Or.inr ⟨o, Session.ends_of_cycle ho, ?_⟩
    simp only [hidle, ho]
    cases o.report with
    | none => exact ⟨rfl, rfl, rfl, rfl, rfl⟩
    | some r => exact ⟨rfl, rfl, rfl, rfl, rfl⟩

section
variable {s : Session} {settings : Settings} {b : DocumentBuffer} {direction : Direction}
  {o : Session.Outcome DocumentBuffer}

theorem settled_of_ends (hb : b.Settled) (h : s.Ends settings 0 b direction o) :
    o.buffer.Settled ∧ o.buffer.extra = b.extra := by
  cases h with
  | idle _ ho => rw [ho]; exact ⟨hb, rfl⟩
  | reported _ _ _ _ _ _ _ ho => rw [ho]; exact ⟨hb, rfl⟩
  | completed _ _ _ _ _ _ _ _ _ _ _ ho =>
    rw [ho]
    exact ⟨hb.dismissPopup.complete _ _ _ _, DocumentBuffer.Settled.complete_extra _ _ _ _ _⟩

/-- A session that a request resumes has the candidates that it had, or new ones from the document. -/
theorem candidates_of_resume (hb : b.Settled) (hextra : b.extra = []) {pos : Nat} {s' : Session}
    (hle : pos ≤ (Buffer.text b).length) (htyped : Session.typedIn b pos ≠ [])
    (hresume : s.resumeIn settings 0 b pos = .ok s') :
    s' = s ∧ s.selection.isSome = true ∨
      pos ≤ b.widget.text.length ∧ typedAt [] b.widget.text pos ≠ [] ∧
      ∃ store, (Scan.atCaret [] b.widget.text pos).candidates settings (wordAt [] b.widget.text pos) =
          .ok store ∧
        s' = { typed := some (typedAt [] b.widget.text pos), candidates := store, document := some 0 } := by
  have htext : Buffer.text b = b.widget.text := hb.text_eq
  have hextra : Buffer.extra b = [] := hextra
  rw [Session.typedIn, htext, hextra] at htyped
  rw [Session.resumeIn, htext, hextra] at hresume
  rw [htext] at hle
  rcases Session.cases_of_resume hresume with ⟨hgoes, hs'⟩ | ⟨-, store, hstore, hs'⟩
  · simp only [Session.continues, Bool.and_eq_true, decide_eq_true_eq] at hgoes
    -- only a session that has completed a word goes on
    exact Or.inl ⟨hs', by rw [hgoes.1]; rfl⟩
  · exact Or.inr ⟨hle, htyped, store, hstore, hs'⟩

theorem candidates_of_ends (hb : b.Settled) (hextra : b.extra = [])
    (h : s.Ends settings 0 b direction o) :
    o.session.candidates = s.candidates ∨ o.session.candidates = {} ∨
      o.session.candidates.ScannedFrom b.widget.text := by
  cases h with
  | idle _ ho => rw [ho]; exact Or.inl rfl
  | reported _ _ _ _ _ _ _ ho => rw [ho]; exact Or.inr (Or.inl rfl)
  | completed pos _ s' _ _ hle htyped hresume _ _ _ ho =>
    rw [ho]
    rcases candidates_of_resume hb hextra hle htyped hresume with ⟨rfl, -⟩ |
      ⟨hle', htyped', store, hstore, rfl⟩
    · exact Or.inl rfl
    · exact Or.inr (Or.inr ⟨pos, settings, hle', htyped', hstore⟩)

end

/-- What asking for a completion comes to without a session to go on with: nothing, or the first candidate
of a scan of the document as it is. -/
inductive BeginsAnew (e : Editor) (r : Except Error (Option Text)) (e' : Editor) : Prop
  | nothing (hr : r = .ok none) (hsession : e'.session = {})
  | scanned (pos : Nat) (store : CandidateStore) (first : Text) (hcursor : e.buffer.cursor = pos)
      (hle : pos ≤ e.document.length) (htyped : typedAt [] e.document pos ≠ [])
      (hstore : (Scan.atCaret [] e.document pos).candidates e.settings (wordAt [] e.document pos) =
        .ok store)
      (hfirst : store.texts.head? = some first) (hr : r = .ok (some first))
      (hsession : e'.session = { typed := some (typedAt [] e.document pos), selection := some first,
                                 candidates := store, document := some 0 })

theorem beginsAnew_of_empty {e : Editor} (hplugin : e.plugin.isSome = true) (hb : e.buffer.Settled)
    (hextra : e.buffer.extra = []) (hsession : e.session = {}) (direction : Direction) :
    BeginsAnew e (e.cycle direction).1 (e.cycle direction).2 := by
  rcases cycle_cases hplugin hb direction with hidle | ⟨o, hends, hr, hs, -⟩
  · rw [hidle]
    exact .nothing rfl hsession
  · rw [hsession] at hends
    cases hends with
    | idle _ ho => exact .nothing (by rw [hr, ho]) (by rw [hs, ho])
    | reported _ _ _ _ _ _ _ ho => exact .nothing (by rw [hr, ho]) (by rw [hs, ho])
    | completed pos _ s' new hcursor hle htyped hresume hsize hrotate _ ho =>
      rcases candidates_of_resume hb.remember hextra hle htyped hresume with ⟨-, hnone⟩ |
        ⟨hle', htyped', store, hstore, rfl⟩
      · cases hnone
      · have htexts := store.size_ne_zero_iff.mp hsize
        obtain ⟨first, hfirst⟩ := exists_textAround htexts 0
        obtain rfl : first = new :=
          Except.ok.inj ((rotate_none store.texts direction hfirst).symm.trans hrotate)
        rw [textAround_zero] at hfirst
        have hcaret : e.buffer.cursor = pos := hcursor
        exact .scanned pos store first hcaret hle' htyped' hstore hfirst (by rw [hr, ho])
          (by rw [hs, ho]; rfl)

end Editor
end WordCycle
