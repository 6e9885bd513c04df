import WordCycle.Workspace
import WordCycle.Proofs.Scan.Collection
import WordCycle.Proofs.Session.Rotation
import WordCycle.Proofs.Session.Step

/-! What a session keeps whatever happens to it: a selection is one of the entries of a closed store
of candidates. Requests in a workspace preserve this, and none that completes a word inside a text is
refused. -/

namespace WordCycle
set_option autoImplicit false

namespace Session

/-- A session with candidates to go round: they are closed by the trailing text, which is what was
typed or the word that was completed. -/
structure Ready (s : Session) : Prop where
  document : s.document.isSome = true
  nonempty : s.candidates.size ≠ 0
  finalized : s.candidates.finalized = true
  distinct : s.candidates.texts.Nodup
  last : s.candidates.texts.getLast? = some s.candidates.trailing
  trailing : s.typed = some s.candidates.trailing ∨ s.candidates.trailing = s.candidates.word

/-- A selection is one of the entries that the session goes round. -/
def Coherent (s : Session) : Prop := ∀ t, s.selection = some t → s.Ready ∧ t ∈ s.candidates.texts

theorem coherent_empty : Coherent {} := by
  intro t ht
  cases ht

theorem Coherent.select {s : Session} {t : Text} (hready : s.Ready)
    (ht : t ∈ s.candidates.texts) : Coherent { s with selection := some t } := by
  intro t' ht'
  obtain rfl := Option.some.inj ht'
  exact ⟨⟨hready.document, hready.nonempty, hready.finalized, hready.distinct, hready.last,
    hready.trailing⟩, ht⟩

/-! ## One request -/

/-- The session that answers inside a text is ready if it has candidates: it goes on with a selection,
or comes from a scan. -/
theorem exists_resume (s : Session) (settings : Settings) (document : Nat) (scan : Scan)
    (word : Text) (pos : Nat) (hpos : scan.pos = pos) (hle : pos ≤ scan.text.length) :
    ∃ s', s.resume settings document scan word = .ok s' ∧
      (s.Coherent → s'.candidates.size ≠ 0 → s'.Ready) := by
  by_cases hgoes : s.continues document scan.typed = true
  · refine ⟨s, resume_of_continues s settings document scan word hgoes, ?_⟩
    intro hs _
    have hselection : s.selection = some scan.typed := by
      simp only [continues, Bool.and_eq_true, decide_eq_true_eq] at hgoes
      exact hgoes.1
    exact (hs _ hselection).1
  · rw [Bool.not_eq_true] at hgoes
    obtain ⟨store, hstore, hwell, hword, htrailing, hfinal⟩ :=
      scan.candidates_ok settings word pos hpos hle
    refine ⟨_, resume_of_scan s settings document scan word store hgoes hstore, ?_⟩
    intro _ hsize
    have hfin := CandidateStore.finalized_of_size_ne_zero hfinal hsize
    refine ⟨rfl, hsize, hfin, hwell.texts_nodup, store.getLast?_texts hfin, ?_⟩
    rw [htrailing, hword, Scan.trailing]
    split
    · exact Or.inr rfl
    · exact Or.inl rfl

variable {β : Type} [Buffer β]

theorem exists_answer (s : Session) (b : β) (typed : Text) (start stop : Int)
    (direction : Direction) :
    ∃ o, s.answer b typed start stop direction = .ok o ∧
      ((s.candidates.size ≠ 0 → s.Ready) → o.session.Coherent) := by
  by_cases hsize : s.candidates.size = 0
  · exact ⟨_, answer_of_empty s b typed start stop direction hsize, fun _ => coherent_empty⟩
  · obtain ⟨t, ht⟩ := exists_rotate (s.candidates.size_ne_zero_iff.mp hsize) s.selection direction
    refine ⟨_, answer_of_rotate s b typed start stop direction t hsize ht, ?_⟩
    intro hready
    exact Coherent.select (hready hsize) (rotate_mem ht)

/-- A request inside a text is not refused. -/
theorem exists_cycle (s : Session) (settings : Settings) (document : Nat) (b : β)
    (direction : Direction) (hlow : 0 ≤ Buffer.cursor (Buffer.remember b))
    (hhigh : Buffer.cursor (Buffer.remember b) ≤ (Buffer.text (Buffer.remember b)).length) :
    ∃ o, s.cycle settings document b direction = .ok o ∧ (s.Coherent → o.session.Coherent) := by
  obtain ⟨pos, hcursor⟩ := Int.eq_ofNat_of_zero_le hlow
  have hle : pos ≤ (Buffer.text (Buffer.remember b)).length := by omega
  obtain ⟨before, typed, rest, behind, hcut⟩ :=
    exists_wordCut (Buffer.extra (Buffer.remember b)) _ pos hle
  rw [cycle_eq s settings document b direction hcursor hcut]
  by_cases hnil : typed = []
  · rw [if_pos hnil]
    exact ⟨_, rfl, id⟩
  · obtain ⟨s', hresume, hready⟩ := s.exists_resume settings document
      { text := Buffer.text (Buffer.remember b), extra := Buffer.extra (Buffer.remember b), typed, pos }
      (typed ++ rest) pos rfl hle
    obtain ⟨o, ho, hkept⟩ := s'.exists_answer (Buffer.remember b) typed before.length
      (pos + if settings.removeTrailingWordPart then rest.length else 0 : Nat) direction
    rw [if_neg hnil, hresume]
    exact ⟨o, ho, fun h => hkept (hready h)⟩

theorem cycle_outside (s : Session) (settings : Settings) (document : Nat) (b : β)
    (direction : Direction) (o : Outcome β)
    (hout : ¬(0 ≤ Buffer.cursor (Buffer.remember b) ∧
      Buffer.cursor (Buffer.remember b) ≤ (Buffer.text (Buffer.remember b)).length))
    (ho : s.cycle settings document b direction = .ok o) :
    o = { session := s, buffer := Buffer.remember b } := by
  unfold cycle at ho
  rcases Int.lt_or_le (Buffer.cursor (Buffer.remember b)) 0 with hneg | hnonneg
  · have hstart : wordStart (Buffer.extra (Buffer.remember b)) (Buffer.text (Buffer.remember b))
        (Buffer.cursor (Buffer.remember b)) = .ok (Buffer.cursor (Buffer.remember b)) := by
      rw [wordStart, if_pos (Int.le_of_lt hneg)]
    cases hstop : wordEnd (Buffer.extra (Buffer.remember b)) (Buffer.text (Buffer.remember b))
      (Buffer.cursor (Buffer.remember b)) with
    | error e =>
      simp only [hstart, hstop, bind, Except.bind] at ho
      cases ho
    | ok stop =>
      simp only [hstart, hstop, bind, Except.bind, Int.le_refl, if_true] at ho
      exact (Except.ok.inj ho).symm
  · have hbehind : ¬Buffer.cursor (Buffer.remember b) ≤ (Buffer.text (Buffer.remember b)).length :=
      fun hle => hout ⟨hnonneg, hle⟩
    have hstart : wordStart (Buffer.extra (Buffer.remember b)) (Buffer.text (Buffer.remember b))
        (Buffer.cursor (Buffer.remember b)) =
        .error (noCharacterAt (Buffer.cursor (Buffer.remember b) - 1)) := by
      rw [wordStart, if_neg (by omega), if_neg hbehind]
    simp only [hstart, bind, Except.bind] at ho
    cases ho

theorem Coherent.cycle {s : Session} (h : s.Coherent) {settings : Settings} {document : Nat} {b : β}
    {direction : Direction} {o : Outcome β} (ho : s.cycle settings document b direction = .ok o) :
    o.session.Coherent := by
  by_cases hin : 0 ≤ Buffer.cursor (Buffer.remember b) ∧
      Buffer.cursor (Buffer.remember b) ≤ (Buffer.text (Buffer.remember b)).length
  · obtain ⟨o', ho', hkept⟩ := s.exists_cycle settings document b direction hin.1 hin.2
    obtain rfl := Except.ok.inj (ho'.symm.trans ho)
    exact hkept h
  · rw [s.cycle_outside settings document b direction o hin ho]
    exact h

end Session

namespace Workspace

/-! ## Any requests -/

theorem cycle_coherent {w w' : Workspace} {direction : Direction} {completion : Option Text}
    {report : Option Report} (h : w.session.Coherent)
    (hw : w.cycle direction = .ok (completion, report, w')) : w'.session.Coherent := by
  unfold cycle at hw
  cases ho : w.session.cycle w.settings w.current w.buffer direction with
  | error e =>
    rw [ho] at hw
    cases hw
  | ok o =>
    rw [ho] at hw
    have hkept := h.cycle ho
    obtain ⟨rfl, rfl, rfl⟩ := Prod.mk.inj (Except.ok.inj hw)
    exact hkept

mutual

theorem run_coherent (c : Command) (w : Workspace) (h : w.session.Coherent) :
    (run c w).2.session.Coherent := by
  cases c with
  | cycle direction =>
    rw [run]
    split
    · next hw => exact cycle_coherent h hw
    · exact h
  | reset => exact Session.coherent_empty
  | use number => exact h
  | configure c =>
    rw [run]
    split
    · exact h
    · exact h
  | edit c => exact h
  | group inner =>
    have hinner := runAll_coherent inner (w.putBuffer w.current w.buffer.beginGroup) h
    rw [run]
    generalize runAll inner (w.putBuffer w.current w.buffer.beginGroup) = r at hinner ⊢
    obtain ⟨⟨answers, reports⟩, w'⟩ := r
    simp only
    split
    · exact hinner
    · exact hinner

theorem runAll_coherent (commands : List Command) (w : Workspace) (h : w.session.Coherent) :
    (runAll commands w).2.session.Coherent := by
  cases commands with
  | nil => exact h
  | cons c rest =>
    have hc := run_coherent c w h
    rw [runAll]
    split
    · next heq =>
      rw [heq] at hc
      exact hc
    · next heq =>
      rw [heq] at hc
      exact runAll_coherent rest _ hc

end

/-- Requests one after the other, whether they are refused or not. -/
def after (commands : List Command) (w : Workspace) : Workspace :=
  commands.foldl (fun w c => (run c w).2) w

theorem after_coherent (commands : List Command) (w : Workspace) (h : w.session.Coherent) :
    (after commands w).session.Coherent := by
  induction commands generalizing w with
  | nil => exact h
  | cons c commands ih => exact ih _ (run_coherent c w h)

/-- A request to complete the word before a cursor inside the text is not refused. -/
theorem exists_cycle (w : Workspace) (direction : Direction) (hlow : 0 ≤ w.buffer.cursor)
    (hhigh : w.buffer.cursor ≤ w.buffer.text.length) : ∃ r, w.cycle direction = .ok r := by
  obtain ⟨o, ho, -⟩ := w.session.exists_cycle w.settings w.current w.buffer direction hlow hhigh
  unfold cycle
  rw [ho]
  exact ⟨_, rfl⟩

/-- Whatever was done to any number of buffers from a fresh session on, a selection is one of the
entries of a closed store without repetitions, and completing a word is not refused as long as
the cursor is inside the text. -/
theorem after_safe (buffers : List MemoryBuffer) (current : Nat) (settings : Settings)
    (commands : List Command) :
    (after commands { buffers, current, settings }).session.Coherent ∧
      (0 ≤ (after commands { buffers, current, settings }).buffer.cursor →
        (after commands { buffers, current, settings }).buffer.cursor ≤
          (after commands { buffers, current, settings }).buffer.text.length →
        ∀ direction, ∃ r, (after commands { buffers, current, settings }).cycle direction = .ok r) :=
  ⟨after_coherent commands _ Session.coherent_empty,
    fun hlow hhigh direction => exists_cycle _ direction hlow hhigh⟩

/-- Two buffers, the second of which answers last. -/
theorem after_safe_two_buffers :
    ∃ w, after [.cycle .forward, .use 1, .cycle .backward]
        { buffers := [.ofText "foo fo".toList none [], .ofText "bar ba".toList none []] } = w ∧
      w.session.selection = some "bar".toList ∧ w.session.Coherent ∧
      ∀ direction, ∃ r, w.cycle direction = .ok r := by
  obtain ⟨hcoherent, hrun⟩ := after_safe
    [.ofText "foo fo".toList none [], .ofText "bar ba".toList none []] 0 {}
    [.cycle .forward, .use 1, .cycle .backward]
  exact ⟨_, rfl, by decide +kernel, hcoherent, hrun (by decide +kernel) (by decide +kernel)⟩

end Workspace
end WordCycle
