import WordCycle.Proofs.Session.Coherence

/-! Where a session ends. It is recognised by the word before the caret alone: after whatever was done to
the buffers, the next request begins anew if and only if it finds another word there than the
candidate that was inserted last, or is in another buffer. Typing therefore ends a session, but a
caret behind the same word in another place does not. -/

namespace WordCycle
set_option autoImplicit false

namespace Session
variable {s : Session} {settings : Settings} {document : Nat} {b : MemoryBuffer}
  {direction : Direction} {o : Outcome MemoryBuffer} {t : Text}

theorem exists_inserts_of_completion (h : s.cycle settings document b direction = .ok o)
    (hcompletion : o.completion = some t) :
    ∃ s' pos before typed rest behind, b.cursor = (pos : Nat) ∧
      WordCut b.extra b.text pos before typed rest behind ∧ typed ≠ [] ∧
      s'.document = some document ∧ s'.candidates.size ≠ 0 ∧
      Inserts s' b before t (keptRest settings.removeTrailingWordPart rest ++ behind) o := by
  by_cases hinside : 0 ≤ b.cursor ∧ b.cursor ≤ b.text.length
  · obtain ⟨pos, hcursor⟩ := Int.eq_ofNat_of_zero_le hinside.1
    have hle : pos ≤ b.text.length := by omega
    obtain ⟨before, typed, rest, behind, hcut⟩ := exists_wordCut b.extra b.text pos hle
    obtain ⟨p, hp, hcomes⟩ := exists_comesTo s settings document direction hcut hcursor
    obtain rfl := Except.ok.inj (hp.symm.trans h)
    cases hcomes with
    | idle _ ho =>
      rw [ho] at hcompletion
      cases hcompletion
    | reported _ _ _ _ ho =>
      rw [ho] at hcompletion
      cases hcompletion
    | inserted s' new htyped hresume hsize _ ho =>
      rw [ho.completion] at hcompletion
      obtain rfl := Option.some.inj hcompletion
      exact ⟨s', pos, before, typed, rest, behind, hcursor, hcut, htyped,
        document_of_resume hresume, hsize, ho⟩
  · rw [s.cycle_outside settings document b direction o hinside h] at hcompletion
    cases hcompletion

/-- Word characters added to the word part before the caret make another word of it than the candidate
that was inserted there, be that a word itself or not. -/
theorem Inserts.longer_ne {s' : Session} {pos : Nat} {removed : Bool}
    {before typed rest behind before' typed' rest' behind' new : Text}
    (h : Inserts s' b before t (keptRest removed rest ++ behind) o)
    (hcut : WordCut b.extra b.text pos before typed rest behind)
    (hnow : WordCut o.buffer.extra o.buffer.text (before.length + t.length) before' typed' rest' behind')
    (hne : new ≠ []) (hnew : ∀ c ∈ new, isWordChar o.buffer.extra c = true) : typed' ++ new ≠ t := by
  rintro rfl
  have ht : ∀ c ∈ typed' ++ new, isWordChar b.extra c = true := by
    rw [← h.extra]
    intro c hc
    exact (List.mem_append.mp hc).elim (hnow.typed_word c) (hnew c)
  have hsame := h.wordCut hcut ht
  have htyped' : typed' ++ new = typed' := hsame.typedAt_eq.symm.trans hnow.typedAt_eq
  exact hne (List.append_right_eq_self.mp htyped')

end Session

namespace Workspace

def Command.keepsSession : Command → Bool
  | .edit _ | .use _ | .configure _ => true
  | .cycle _ | .reset | .group _ => false

theorem run_session {c : Command} (h : c.keepsSession = true) (w : Workspace) :
    (run c w).2.session = w.session := by
  cases c with
  | edit c => rfl
  | use number => rfl
  | configure c =>
    rw [run]
    split
    · rfl
    · rfl
  | cycle direction => cases h
  | reset => cases h
  | group inner => cases h

theorem after_cons (c : Command) (commands : List Command) (w : Workspace) :
    after (c :: commands) w = after commands (run c w).2 := rfl

theorem after_session {commands : List Command} (h : ∀ c ∈ commands, c.keepsSession = true)
    (w : Workspace) : (after commands w).session = w.session := by
  induction commands generalizing w with
  | nil => rfl
  | cons c commands ih =>
    have hrest := ih (fun c hc => h c (List.mem_cons_of_mem _ hc)) (run c w).2
    rw [after_cons, hrest, run_session (h c List.mem_cons_self)]

/-! ## Requests in a workspace -/

/-- What a request comes to that begins a session anew: it scans the text as it is, offers the first
candidate and remembers what was typed. Without candidates no session is left. -/
structure BeginsAnew (w : Workspace) (pos : Nat) (store : CandidateStore) (completion : Option Text)
    (report : Option Report) (w' : Workspace) : Prop where
  scan : (Scan.atCaret w.buffer.extra w.buffer.text pos).candidates w.settings
    (wordAt w.buffer.extra w.buffer.text pos) = .ok store
  completion : completion = store.texts.head?
  report : report = if store.size = 0 then
    some (.noCompletions (typedAt w.buffer.extra w.buffer.text pos)) else none
  session : w'.session = if store.size = 0 then {} else
    { typed := some (typedAt w.buffer.extra w.buffer.text pos), selection := store.texts.head?,
      candidates := store, document := some w.current }

/-- What a request comes to that goes on with a session: the next of its candidates. -/
structure GoesRound (w : Workspace) (t : Text) (direction : Direction) (completion : Option Text)
    (report : Option Report) (w' : Workspace) : Prop where
  next : ∃ t', rotate w.session.candidates.texts (some t) direction = .ok t' ∧ completion = some t'
  report : report = none
  session : w'.session = { w.session with selection := completion }

theorem cycle_of_session {w : Workspace} {direction : Direction} {o : Session.Outcome MemoryBuffer}
    (h : w.session.cycle w.settings w.current w.buffer direction = .ok o) :
    w.cycle direction = .ok (o.completion, o.report,
      { w.putBuffer w.current o.buffer with session := o.session }) := by
  rw [cycle, h]
  rfl

theorem exists_of_cycle {w w' : Workspace} {direction : Direction} {completion : Option Text}
    {report : Option Report} (h : w.cycle direction = .ok (completion, report, w')) :
    ∃ o, w.session.cycle w.settings w.current w.buffer direction = .ok o ∧
      completion = o.completion ∧ report = o.report ∧
      w' = { w.putBuffer w.current o.buffer with session := o.session } := by
  cases ho : w.session.cycle w.settings w.current w.buffer direction with
  | error e =>
    rw [cycle, ho] at h
    cases h
  | ok o =>
    rw [cycle_of_session ho] at h
    obtain ⟨hcompletion, hrest⟩ := Prod.mk.inj (Except.ok.inj h)
    obtain ⟨hreport, hw'⟩ := Prod.mk.inj hrest
    exact ⟨o, rfl, hcompletion.symm, hreport.symm, hw'.symm⟩

section
variable {w : Workspace} {direction : Direction} {pos : Nat} {before typed rest behind : Text}
  {o : Session.Outcome MemoryBuffer}

theorem goesRound_of_comesTo {t : Text} (hselection : w.session.selection = some t)
    (hsize : w.session.candidates.size ≠ 0) (hne : typed ≠ [])
    (hgoes : w.session.continues w.current typed = true)
    (hcomes : w.session.ComesTo w.settings w.current w.buffer direction pos before typed rest behind o) :
    GoesRound w t direction o.completion o.report
      { w.putBuffer w.current o.buffer with session := o.session } := by
  have hsame {s' : Session} (hresume : w.session.resume w.settings w.current
      { text := w.buffer.text, extra := w.buffer.extra, typed, pos } (typed ++ rest) = .ok s') :
      s' = w.session := by
    rw [Session.resume_of_continues _ _ _ _ _ hgoes] at hresume
    exact (Except.ok.inj hresume).symm
  cases hcomes with
  | idle htyped => exact absurd htyped hne
  | reported s' _ hresume hempty =>
    rw [hsame hresume] at hempty
    exact absurd hempty hsize
  | inserted s' new _ hresume _ hrotate ho =>
    obtain rfl := hsame hresume
    rw [hselection] at hrotate
    refine ⟨⟨new, hrotate, ho.completion⟩, ho.report, ?_⟩
    rw [ho.completion]
    exact ho.session

theorem beginsAnew_of_comesTo
    (hcut : WordCut w.buffer.extra w.buffer.text pos before typed rest behind) (hne : typed ≠ [])
    (hnew : w.session.continues w.current typed = false)
    (hcomes : w.session.ComesTo w.settings w.current w.buffer direction pos before typed rest behind o) :
    ∃ store, BeginsAnew w pos store o.completion o.report
      { w.putBuffer w.current o.buffer with session := o.session } := by
  have hscan {s' : Session} (hresume : w.session.resume w.settings w.current
      { text := w.buffer.text, extra := w.buffer.extra, typed, pos } (typed ++ rest) = .ok s') :
      ∃ store, (Scan.atCaret w.buffer.extra w.buffer.text pos).candidates w.settings
          (wordAt w.buffer.extra w.buffer.text pos) = .ok store ∧
        s' = { typed := some typed, candidates := store, document := some w.current } := by
    obtain ⟨hgoes, -⟩ | ⟨-, store, hstore, hs'⟩ := Session.cases_of_resume hresume
    · exact absurd (hgoes.symm.trans hnew) (by simp)
    · refine ⟨store, ?_, hs'⟩
      rw [Scan.atCaret, hcut.typedAt_eq, hcut.wordAt_eq]
      exact hstore
  cases hcomes with
  | idle htyped => exact absurd htyped hne
  | reported s' _ hresume hempty ho =>
    obtain ⟨store, hstore, rfl⟩ := hscan hresume
    have hnone : store.texts = [] := by
      by_contra htexts
      exact store.size_ne_zero_iff.mpr htexts hempty
    subst ho
    refine ⟨store, hstore, ?_, ?_, ?_⟩
    · rw [hnone]
      rfl
    · rw [if_pos hempty, hcut.typedAt_eq]
    · rw [if_pos hempty]
  | inserted s' new _ hresume hsize hrotate ho =>
    obtain ⟨store, hstore, rfl⟩ := hscan hresume
    have htexts := store.size_ne_zero_iff.mp hsize
    obtain ⟨first, hfirst⟩ := exists_textAround htexts 0
    obtain rfl : first = new :=
      Except.ok.inj ((rotate_none store.texts direction hfirst).symm.trans hrotate)
    rw [textAround_zero] at hfirst
    refine ⟨store, hstore, ?_, ?_, ?_⟩
    · rw [hfirst]
      exact ho.completion
    · rw [if_neg hsize]
      exact ho.report
    · rw [if_neg hsize, hcut.typedAt_eq, hfirst]
      exact ho.session

end

/-- After a request that has completed `t`, and whatever was done to the buffers since, the next one
inside a word goes on exactly if it finds `t` before the caret of the same buffer. -/
theorem next_cycle_begins_anew (w : Workspace) (direction : Direction) (t : Text) (report : Option Report)
    (w₁ : Workspace) (hcycle : w.cycle direction = .ok (some t, report, w₁))
    (commands : List Command) (hcommands : ∀ c ∈ commands, c.keepsSession = true) (w₂ : Workspace)
    (hw₂ : after commands w₁ = w₂) (pos : Nat) (hcursor : w₂.buffer.cursor = pos)
    (hle : pos ≤ w₂.buffer.text.length)
    (hstart : wordStartAt w₂.buffer.extra w₂.buffer.text pos < pos) (direction' : Direction) :
    ∃ completion report' w₃, w₂.cycle direction' = .ok (completion, report', w₃) ∧
      (w₂.current = w.current ∧ typedAt w₂.buffer.extra w₂.buffer.text pos = t →
        GoesRound w₂ t direction' completion report' w₃) ∧
      (¬(w₂.current = w.current ∧ typedAt w₂.buffer.extra w₂.buffer.text pos = t) →
        ∃ store, BeginsAnew w₂ pos store completion report' w₃) := by
  obtain ⟨o, ho, hcompletion, -, rfl⟩ := exists_of_cycle hcycle
  obtain ⟨s', _, _, _, _, _, -, -, -, hdocument, hsize, hinserts⟩ :=
    Session.exists_inserts_of_completion ho hcompletion.symm
  -- Nothing has touched the session since, so it still waits for `t`.
  have hsession : w₂.session = { s' with selection := some t } := by
    rw [← hw₂, after_session hcommands]
    exact hinserts.session
  obtain ⟨before, typed, rest, behind, hcut⟩ := exists_wordCut w₂.buffer.extra _ pos hle
  have hne := hcut.typed_ne_nil hstart
  have hgoes : w₂.session.continues w₂.current typed = true ↔
      w₂.current = w.current ∧ typed = t := by
    simp only [hsession, Session.continues, hdocument, Bool.and_eq_true, decide_eq_true_eq,
      Option.some.injEq]
    exact ⟨fun h => ⟨h.2.symm, h.1.symm⟩, fun h => ⟨h.2.symm, h.1.symm⟩⟩
  obtain ⟨p, hp, hcomes⟩ :=
    Session.exists_comesTo w₂.session w₂.settings w₂.current direction' hcut hcursor
  refine ⟨p.completion, p.report, _, cycle_of_session hp, ?_, ?_⟩
  · intro hsame
    rw [hcut.typedAt_eq, ← hgoes] at hsame
    exact goesRound_of_comesTo (by rw [hsession]) (by rw [hsession]; exact hsize) hne hsame hcomes
  · intro hother
    rw [hcut.typedAt_eq, ← hgoes, Bool.not_eq_true] at hother
    exact beginsAnew_of_comesTo hcut hne hother hcomes

/-- One character less of the word is another word. -/
theorem next_cycle_begins_anew_backspace :
    ∃ w₂ completion report w₃ store,
      after [.cycle .forward, .edit (.replace 10 11 [])]
        { buffers := [.ofText "fab fob f".toList none []] } = w₂ ∧
      w₂.buffer.text = "fab fob fo".toList ∧
      w₂.cycle .forward = .ok (completion, report, w₃) ∧
      BeginsAnew w₂ 10 store completion report w₃ := by
  let w : Workspace := { buffers := [.ofText "fab fob f".toList none []] }
  have hcycle : w.cycle .forward = .ok (some "fob".toList, none, (run (.cycle .forward) w).2) := by
    decide +kernel
  obtain ⟨completion, report, w₃, hnext, -, hother⟩ :=
    next_cycle_begins_anew w .forward "fob".toList none _ hcycle [.edit (.replace 10 11 [])]
      (by simp [Command.keepsSession]) _ rfl 10 (by decide +kernel) (by decide +kernel)
      (by decide +kernel) .forward
  obtain ⟨store, hanew⟩ := hother (by decide +kernel)
  refine ⟨after [.edit (.replace 10 11 [])] (run (.cycle .forward) w).2, completion, report, w₃, store,
    after_cons _ _ w, ?_, hnext, hanew⟩
  decide +kernel

/-- A caret behind the same word in another place goes on with the session: what is put there is what was
typed in the first place, though a scan would offer another word. -/
theorem next_cycle_goes_round_elsewhere :
    ∃ w₁ w₂, after [.cycle .forward] { buffers := [.ofText "foobarx foobar fo".toList none []] } = w₁ ∧
      after [.edit (.setCursor 14)] w₁ = w₂ ∧ w₁.buffer.cursor = 21 ∧ w₂.buffer.cursor = 14 ∧
      typedAt w₂.buffer.extra w₂.buffer.text 14 = "foobar".toList ∧
      ((Scan.atCaret w₂.buffer.extra w₂.buffer.text 14).candidates w₂.settings
        (wordAt w₂.buffer.extra w₂.buffer.text 14)).map CandidateStore.texts =
          .ok ["foobarx".toList, "foobar".toList] ∧
      (w₂.cycle .backward).map (fun r => (r.1, r.2.2.buffer.text, r.2.2.session.typed)) =
        .ok (some "fo".toList, "foobarx fo foobar".toList, some "fo".toList) := by
  refine ⟨_, _, rfl, rfl, ?_⟩
  decide +kernel

/-! ## Typing -/

theorem buffer_putBuffer (w : Workspace) (b : MemoryBuffer) (h : w.current < w.buffers.length) :
    (w.putBuffer w.current b).buffer = b := by
  simp [putBuffer, buffer, h]

theorem current_lt_of_inserts (w : Workspace) {pos : Nat} {before typed rest behind : Text}
    (hcut : WordCut w.buffer.extra w.buffer.text pos before typed rest behind) (hne : typed ≠ []) :
    w.current < w.buffers.length := by
  by_contra hout
  have hbuffer : w.buffer = .ofText [] none [] := by
    simp [buffer, Nat.not_lt.mp hout]
  have htext := hcut.text_eq
  rw [hbuffer] at htext
  simp only [MemoryBuffer.ofText, List.nil_eq, List.append_eq_nil_iff] at htext
  exact hne htext.1.2

theorem insert_wordCut {b : MemoryBuffer} {pos : Nat} {before typed rest behind new : Text}
    (hcut : WordCut b.extra b.text pos before typed rest behind) (hcursor : b.cursor = pos)
    (hnew : ∀ c ∈ new, isWordChar b.extra c = true) :
    WordCut (b.insert new).extra (b.insert new).text (pos + new.length) before (typed ++ new) rest
      behind := by
  have hlen : (before ++ typed).length = pos := by
    rw [List.length_append, hcut.pos_eq]
  have htext : b.text = (before ++ typed) ++ [] ++ (rest ++ behind) := by
    rw [hcut.text_eq, List.append_nil]
  have hinsert : (b.insert new).text = b.text.splice b.cursor b.cursor new := rfl
  have hsplice := Text.splice_parts (before ++ typed) [] (rest ++ behind) new
  rw [← htext, hlen, List.length_nil, Nat.add_zero, ← hcursor, ← hinsert] at hsplice
  refine ⟨?_, ?_, ?_, hcut.rest_word, hcut.before_ends, hcut.behind_begins⟩
  · rw [hsplice, List.append_assoc before typed new]
  · rw [hcut.pos_eq, List.length_append, Nat.add_assoc]
  · intro c hc
    exact (List.mem_append.mp hc).elim (hcut.typed_word c) (hnew c)

/-- Typing word characters behind the inserted candidate makes a longer word, so the next request begins
anew with it. -/
theorem typing_begins_anew (w : Workspace) (direction : Direction) (t : Text)
    (report : Option Report) (w₁ : Workspace) (hcycle : w.cycle direction = .ok (some t, report, w₁))
    (new : Text) (hne : new ≠ []) (hnew : ∀ c ∈ new, isWordChar w₁.buffer.extra c = true)
    (w₂ : Workspace) (hw₂ : after [.edit (.insert new)] w₁ = w₂) (direction' : Direction) :
    ∃ pos store completion report' w₃, w₂.cycle direction' = .ok (completion, report', w₃) ∧
      BeginsAnew w₂ pos store completion report' w₃ := by
  obtain ⟨o, ho, hcompletion, -, hw₁⟩ := exists_of_cycle hcycle
  obtain ⟨s', pos, before, typed, rest, behind, -, hcut, htyped, -, -, hinserts⟩ :=
    Session.exists_inserts_of_completion ho hcompletion.symm
  have hcurrent := w.current_lt_of_inserts hcut htyped
  have hbuffer : w₁.buffer = o.buffer := by
    rw [hw₁]
    exact w.buffer_putBuffer o.buffer hcurrent
  have htyping : w₂.buffer = o.buffer.insert new := by
    rw [← hw₂, ← hbuffer]
    refine w₁.buffer_putBuffer (w₁.buffer.insert new) ?_
    rw [hw₁]
    simpa [putBuffer] using hcurrent
  have hle : before.length + t.length ≤ o.buffer.text.length := by
    rw [hinserts.text, List.length_append, List.length_append]
    omega
  obtain ⟨before', typed', rest', behind', hnow⟩ := exists_wordCut o.buffer.extra _ _ hle
  rw [hbuffer] at hnew
  -- The inserted candidate need not be a word, so what counts is the word part found before the caret.
  have hlonger := hinserts.longer_ne hcut hnow hne hnew
  have hafter := insert_wordCut hnow hinserts.cursor hnew
  have hcursor : (o.buffer.insert new).cursor =
      (before.length + t.length + new.length : Nat) := by
    rw [Int.natCast_add, ← hinserts.cursor]
    rfl
  rw [← htyping] at hafter hcursor
  have hstart : wordStartAt w₂.buffer.extra w₂.buffer.text
      (before.length + t.length + new.length) < before.length + t.length + new.length := by
    have hpos := hafter.pos_eq
    have hlength := List.length_pos_iff.mpr hne
    rw [List.length_append] at hpos
    rw [hafter.wordStartAt_eq]
    omega
  obtain ⟨completion, report', w₃, hcycle', -, hnext⟩ :=
    next_cycle_begins_anew w direction t report w₁ hcycle [.edit (.insert new)]
      (by simp [Command.keepsSession]) w₂ hw₂ _ hcursor hafter.pos_le hstart direction'
  obtain ⟨store, hanew⟩ := hnext fun h => hlonger (hafter.typedAt_eq.symm.trans h.2)
  exact ⟨_, store, completion, report', w₃, hcycle', hanew⟩

end Workspace
end WordCycle
