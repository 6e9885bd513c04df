import WordCycle.Proofs.Editor.Parts

/-! No candidate crosses from one document into another. Beside a run of the editor goes the list of the
texts that its document has held since a file was opened last: the candidates of the session always come
from a scan of one of these, and the first completion after a file was opened begins anew. -/

namespace WordCycle
set_option autoImplicit false

/-! ## Candidates as parts of the text -/

theorem Text.slice_infix (t : Text) (start stop : Int) : t.slice start stop <:+: t :=
  (List.take_prefix _ _).isInfix.trans (List.drop_suffix _ _).isInfix

/-- What a scan offers, it has found in its text: the words as well as what its last entry brings back. -/
theorem Scan.entries_infix {t : Text} {pos : Nat} {settings : Settings} {store : CandidateStore}
    (hle : pos ≤ t.length) (htyped : typedAt [] t pos ≠ [])
    (hstore : (atCaret [] t pos).candidates settings (wordAt [] t pos) = .ok store) :
    ∀ c ∈ store.entries, (c ∈ store.regular ∨
      c.text = (atCaret [] t pos).trailing settings (wordAt [] t pos)) ∧ c.text <:+: t := by
  obtain ⟨store', hstore', hwords⟩ := candidates_whole_words [] t pos settings hle htyped
  obtain rfl := Except.ok.inj (hstore.symm.trans hstore')
  obtain ⟨store', hstore', -, -, htrailing, -⟩ :=
    (atCaret [] t pos).candidates_ok settings (wordAt [] t pos) pos rfl hle
  obtain rfl := Except.ok.inj (hstore.symm.trans hstore')
  intro c hc
  rcases List.mem_append.mp hc with hc | hc
  · obtain ⟨start, stop, -, -, -, htext, -⟩ := hwords c hc
    rw [htext]
    exact ⟨Or.inl hc, t.slice_infix start stop⟩
  · split at hc
    · rw [List.mem_singleton.mp hc]
      refine ⟨Or.inr htrailing, ?_⟩
      simp only [htrailing, trailing]
      split
      · exact t.slice_infix _ _
      · exact t.slice_infix _ _
    · cases hc

namespace Editor

/-! ## The window and its plugin -/

/-- A window that tells its plugin what happens, and a document without an open edit block. -/
structure Attached (e : Editor) : Prop where
  told : e.tellsPlugin = true
  plugin : e.plugin.isSome = true
  settled : e.buffer.Settled
  extra : e.buffer.extra = []

theorem Attached.of_changes {e e' : Editor} {parts : List Part} (h : e.Attached)
    (hchanges : ChangesOnly parts e e') : e'.Attached where
  told := hchanges.told.trans h.told
  plugin := hchanges.plugin.trans h.plugin
  settled := (hchanges.buffer h.settled).1
  extra := (hchanges.buffer h.settled).2.trans h.extra

/-- How an editor with its plugin comes up: as a window, or as the program starts it. -/
inductive Starts : Editor → Prop
  | window {files : FileTree} {settings : Path} {e : Editor} (h : withPlugin files settings = .ok e) :
      Starts e
  | program {files : FileTree} {default : Path} {o : CommandLine.Options} {e : Editor}
      (h : start files default o = .ok e) : Starts e

theorem attached_of_withPlugin {files : FileTree} {settings : Path} {e : Editor}
    (h : withPlugin files settings = .ok e) : e.Attached ∧ e.session = {} := by
  unfold withPlugin beside at h
  cases hfile : SettingsFile.ofPath files settings with
  | error fault =>
    simp only [hfile, bind, Except.bind] at h
    cases h
  | ok r =>
    simp only [hfile, bind, Except.bind] at h
    rw [← Except.ok.inj h]
    exact ⟨⟨rfl, rfl, DocumentBuffer.settled_empty, rfl⟩, rfl⟩

theorem attached_of_starts {e : Editor} (h : Starts e) : e.Attached ∧ e.session = {} := by
  cases h with
  | window h => exact attached_of_withPlugin h
  | @program files default o _ h =>
    unfold start at h
    cases hwindow : withPlugin files (settingsPath o default) with
    | error fault =>
      simp only [hwindow, Except.mapError, bind, Except.bind] at h
      cases h
    | ok e₁ =>
      obtain ⟨hattached, hsession⟩ := attached_of_withPlugin hwindow
      have hchanges : ChangesOnly [.document, .path] e₁ e := by
        simp only [hwindow, Except.mapError, bind, Except.bind] at h
        split at h
        · next c t _ =>
          have hopen := changes_openFile e₁ (.ofText (c :: t))
          generalize e₁.openFile (.ofText (c :: t)) = r at h hopen
          obtain ⟨r, e₂⟩ := r
          cases r with
          | error fault => cases h
          | ok flag =>
            rw [← Except.ok.inj h]
            exact hopen.trans (changes_nothing rfl rfl rfl rfl rfl rfl)
        · rw [← Except.ok.inj h]
          exact changes_nothing rfl rfl rfl rfl rfl rfl
      refine ⟨hattached.of_changes hchanges, ?_⟩
      rcases hchanges.session (by decide) with heq | hempty
      · rw [heq, hsession]
      · exact hempty

/-! ## Events -/

/-- What happens to an editor: a request, or that other programs change the files. -/
inductive Event
  | request (c : Command)
  | files (t : FileTree)

def next (e : Editor) : Event → Editor
  | .request c => (e.run c).2
  | .files t => { e with files := t }

def eventEffect (e : Editor) : Event → Effect
  | .request c => e.effect c
  | .files _ => .other

/-- Whether a file is opened with success. -/
def opens (e : Editor) (event : Event) : Bool :=
  match e.eventEffect event with
  | .opens path => (e.openFile path).1 = .ok true
  | _ => false

def asks (e : Editor) (event : Event) : Bool :=
  match e.eventEffect event with
  | .cycles _ => true
  | _ => false

theorem next_of_opens {e : Editor} {event : Event} {path : Path}
    (h : e.eventEffect event = .opens path) : e.next event = (e.openFile path).2 := by
  cases event with
  | request c => exact run_of_opens h
  | files t => cases h

theorem next_of_cycles {e : Editor} {event : Event} {direction : Direction}
    (h : e.eventEffect event = .cycles direction) : e.next event = (e.cycle direction).2 := by
  cases event with
  | request c => exact run_of_cycles h
  | files t => cases h

theorem exists_of_opens {e : Editor} {event : Event} (h : e.opens event = true) :
    ∃ path t, e.eventEffect event = .opens path ∧ e.next event = e.showFile path t := by
  rw [opens] at h
  split at h
  · next path heffect =>
    obtain ⟨t, ht⟩ := openFile_opened (of_decide_eq_true h)
    exact ⟨path, t, heffect, (next_of_opens heffect).trans ht⟩
  · cases h

/-- What an event may change. -/
def eventParts (e : Editor) : Event → List Part
  | .request c => e.parts c
  | .files _ => [.files]

theorem next_changes (e : Editor) (event : Event) :
    ChangesOnly (e.eventParts event) e (e.next event) := by
  cases event with
  | request c => exact run_changes e c
  | files t => exact changes_files e t

theorem Attached.next {e : Editor} (h : e.Attached) (event : Event) : (e.next event).Attached :=
  h.of_changes (next_changes e event)

theorem asks_of_session_mem_trigger {e : Editor} {p : Action → Bool}
    (h : .session ∈ e.triggerParts p) : ∃ direction, e.triggerEffect p = .cycles direction := by
  unfold triggerParts at h
  unfold triggerEffect
  generalize (e.menus.flatMap Menu.actions).filter p = found at h ⊢
  cases found with
  | nil => cases h
  | cons a others =>
    cases hoperation : a.operation with
    | cycle direction => exact ⟨direction, by simp [hoperation, operationEffect]⟩
    | openDialog =>
      simp only [hoperation, operationParts] at h
      split at h <;> simp at h
    | save | close | configure => simp [hoperation, operationParts] at h

/-- Only asking for a completion brings another session. -/
theorem asks_of_session_mem {e : Editor} {event : Event} (h : .session ∈ e.eventParts event) :
    e.asks event = true := by
  have hcycles : ∃ direction, e.eventEffect event = .cycles direction := by
    cases event with
    | files t => simp [eventParts] at h
    | request c =>
      cases c with
      | cycle direction => exact ⟨direction, rfl⟩
      | menu text => exact asks_of_session_mem_trigger h
      | key shortcut => exact asks_of_session_mem_trigger h
      | press button => cases button <;> simp [eventParts, parts, buttonParts] at h
      | _ => simp [eventParts, parts] at h
  obtain ⟨direction, heffect⟩ := hcycles
  rw [asks, heffect]

theorem session_next {e : Editor} {event : Event} (hasks : e.asks event = false) :
    (e.next event).session = e.session ∨ (e.next event).session = {} :=
  (next_changes e event).session fun hmem => by simp [asks_of_session_mem hmem] at hasks

theorem exists_of_asks {e : Editor} {event : Event} (h : e.asks event = true) :
    ∃ direction, e.eventEffect event = .cycles direction := by
  rw [asks] at h
  split at h
  · next direction heffect => exact ⟨direction, heffect⟩
  · cases h

/-! ## Runs -/

def after (e : Editor) (events : List Event) : Editor := events.foldl next e

/-- The texts that the document has held since a file was opened last, after one more event. -/
def heldNext (e : Editor) (texts : List Text) (event : Event) : List Text :=
  (e.next event).document :: if e.opens event then [] else texts

/-- The texts that the document has held since a file was opened last, the newest first. -/
def held (e : Editor) (texts : List Text) : List Event → List Text
  | [] => texts
  | event :: rest => (e.next event).held (e.heldNext texts event) rest

/-- Whether one of several events asks for a completion when it is its turn. -/
def anyAsks (e : Editor) : List Event → Bool
  | [] => false
  | event :: rest => e.asks event || (e.next event).anyAsks rest

/-- The document is one of the given texts, and so is what the candidates of the session come from, if
there are any. -/
structure Consistent (e : Editor) (texts : List Text) : Prop extends Attached e where
  text : e.document ∈ texts
  candidates : e.session.candidates = {} ∨ ∃ t ∈ texts, e.session.candidates.ScannedFrom t

theorem Attached.consistent {e : Editor} (h : e.Attached) (hsession : e.session = {})
    (texts : List Text) : e.Consistent (e.document :: texts) where
  toAttached := h
  text := List.mem_cons_self
  candidates := by
    rw [hsession]
    exact Or.inl rfl

/-- Every event keeps the candidates to the texts held: opening a file leaves none, a completion has those
of before or of a scan of the present text, and nothing else brings new ones. -/
theorem Consistent.next {e : Editor} {texts : List Text} (h : e.Consistent texts) (event : Event) :
    (e.next event).Consistent (e.heldNext texts event) := by
  have hattached := h.toAttached.next event
  rw [heldNext]
  by_cases hopens : e.opens event = true
  · obtain ⟨path, t, -, hshown⟩ := exists_of_opens hopens
    rw [if_pos hopens]
    refine hattached.consistent ?_ []
    rw [hshown]
    exact showFile_session h.told path t
  rw [if_neg hopens]
  have hcandidates : (e.next event).session.candidates = e.session.candidates ∨
      (e.next event).session.candidates = {} ∨
      (e.next event).session.candidates.ScannedFrom e.document := by
    cases hasks : e.asks event with
    | false =>
      rcases session_next hasks with heq | hempty
      · exact Or.inl (by rw [heq])
      · exact Or.inr (Or.inl (by rw [hempty]))
    | true =>
      obtain ⟨direction, heffect⟩ := exists_of_asks hasks
      rw [next_of_cycles heffect]
      rcases cycle_cases h.plugin h.settled direction with hidle | ⟨o, hends, -, hsession, -⟩
      · rw [hidle]
        exact Or.inl rfl
      · rw [hsession]
        -- the text that is scanned is the one from before the event
        have hscan := candidates_of_ends h.settled.remember h.extra hends
        exact hscan
  refine ⟨hattached, List.mem_cons_self, ?_⟩
  rcases hcandidates with heq | hempty | hscanned
  · rw [heq]
    exact h.candidates.imp_right fun ⟨t, ht, hfrom⟩ => ⟨t, List.mem_cons_of_mem _ ht, hfrom⟩
  · exact Or.inl hempty
  · exact Or.inr ⟨e.document, List.mem_cons_of_mem _ h.text, hscanned⟩

theorem Consistent.after {e : Editor} {texts : List Text} (h : e.Consistent texts)
    (events : List Event) : (e.after events).Consistent (e.held texts events) := by
  induction events generalizing e texts with
  | nil => exact h
  | cons event events ih => exact ih (h.next event)

/-- As long as no completion is asked for, there is no session if there was none before. -/
theorem Attached.after_empty {e : Editor} (h : e.Attached) (hsession : e.session = {})
    (events : List Event) (hasks : e.anyAsks events = false) :
    (e.after events).Attached ∧ (e.after events).session = {} := by
  induction events generalizing e with
  | nil => exact ⟨h, hsession⟩
  | cons event events ih =>
    rw [anyAsks, Bool.or_eq_false_iff] at hasks
    refine ih (h.next event) ?_ hasks.2
    rcases session_next hasks.1 with heq | hempty
    · rw [heq, hsession]
    · exact hempty

/-- However an editor with its plugin is used, no candidate crosses from one document into another. Those
of the session, if there are any, are the words and the last entry of one scan of a text that the
document has held since a file was opened last, and all stand in it. When a file is opened the session
ends, so the first completion asked for begins anew, whatever stands before the caret. A file that
cannot be opened changes neither session nor document nor path. -/
theorem candidates_of_document {e₀ : Editor} (h₀ : Starts e₀) (events : List Event) (e : Editor)
    (he : e₀.after events = e) :
    (e.session.candidates.entries = [] ∨
      ∃ t ∈ e₀.held [e₀.document] events, ∃ (pos : Nat) (settings : Settings), pos ≤ t.length ∧
        (Scan.atCaret [] t pos).candidates settings (wordAt [] t pos) = .ok e.session.candidates ∧
        ∀ c ∈ e.session.candidates.entries, (c ∈ e.session.candidates.regular ∨
          c.text = (Scan.atCaret [] t pos).trailing settings (wordAt [] t pos)) ∧ c.text <:+: t) ∧
    (∀ event, e.opens event = true → ∀ later, (e.next event).anyAsks later = false →
      ∀ e', (e.next event).after later = e' → e'.session = {} ∧
        ∀ direction, BeginsAnew e' (e'.cycle direction).1 (e'.cycle direction).2) ∧
    ∀ event path, e.eventEffect event = .opens path → e.opens event = false →
      (e.next event).session = e.session ∧ (e.next event).buffer = e.buffer ∧
        (e.next event).path = e.path := by
  obtain ⟨hattached, hsession⟩ := attached_of_starts h₀
  have h := (hattached.consistent hsession []).after events
  rw [he] at h
  refine ⟨?_, ?_, ?_⟩
  · rcases h.candidates with hempty | ⟨t, ht, pos, settings, hle, htyped, hstore⟩
    · rw [hempty]
      exact Or.inl rfl
    · exact Or.inr ⟨t, ht, pos, settings, hle, hstore, Scan.entries_infix hle htyped hstore⟩
  · rintro event hopens later hasks _ rfl
    obtain ⟨path, t, -, hshown⟩ := exists_of_opens hopens
    have hended : (e.next event).session = {} := by
      rw [hshown]
      exact showFile_session h.told path t
    obtain ⟨hlater, hnone⟩ := (h.toAttached.next event).after_empty hended later hasks
    exact ⟨hnone, beginsAnew_of_empty hlater.plugin hlater.settled hlater.extra hnone⟩
  · intro event path heffect hopens
    have hrefused : (e.openFile path).1 ≠ .ok true := by
      intro hopened
      rw [opens, heffect] at hopens
      exact absurd hopened (of_decide_eq_false hopens)
    obtain ⟨boxes, hboxes⟩ := openFile_refused hrefused
    rw [next_of_opens heffect, hboxes]
    exact ⟨rfl, rfl, rfl⟩

/-- In the file that is opened, the caret stands behind the word that was completed last. -/
theorem candidates_of_document_same_word :
    ∃ e₀ e e', Starts e₀ ∧
      e₀.after [.request (.type "foobar fo".toList), .request (.cycle .forward)] = e ∧
      e.session.selection = some "foobar".toList ∧
      (e.next (.request (.openFile ⟨[], ["a.txt".toList]⟩))).after [.request (.select 14 14)] = e' ∧
      typedAt [] e'.document 14 = "foobar".toList ∧ e'.session = {} ∧
      BeginsAnew e' (e'.cycle .backward).1 (e'.cycle .backward).2 ∧
      (e'.cycle .backward).1 = .ok (some "foobarx".toList) := by
  let files : FileTree :=
    ({} : FileTree).put (freshHome ++ ["a.txt".toList])
      (.file (Utf8.encode "foobarx foobar".toList))
  let e₀ : Editor := install
    { files, plugin := some { file := { path := ⟨[], ["c.json".toList]⟩ } }, tellsPlugin := true }
  let e : Editor := e₀.after [.request (.type "foobar fo".toList), .request (.cycle .forward)]
  have hstart : withPlugin files ⟨[], ["c.json".toList]⟩ = .ok e₀ := by decide +kernel
  obtain ⟨-, hopened, -⟩ := candidates_of_document (.window hstart)
    [.request (.type "foobar fo".toList), .request (.cycle .forward)] e rfl
  obtain ⟨hsession, hanew⟩ := hopened (.request (.openFile ⟨[], ["a.txt".toList]⟩))
    (by decide +kernel) [.request (.select 14 14)] (by decide +kernel) _ rfl
  exact ⟨e₀, e, _, .window hstart, rfl, by decide +kernel, rfl, by decide +kernel, hsession,
    hanew .backward, by decide +kernel⟩

end Editor
end WordCycle
