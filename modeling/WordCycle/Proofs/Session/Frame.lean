import WordCycle.Proofs.Session.Outcome
import WordCycle.Proofs.Session.Run

/-! What a request changes. If it completes nothing, the buffer stays as it was: without a word before the
caret so does the session, without candidates that is reset and reported. If it completes something, the
text around the word stays. -/

namespace WordCycle
set_option autoImplicit false

namespace Session
variable {s s' : Session} {settings : Settings} {document : Nat} {b : MemoryBuffer} {pos : Nat}

/-- The session does not go on with the word before a position, and a new scan offers nothing for it. -/
def FindsNothing (s : Session) (settings : Settings) (document : Nat) (b : MemoryBuffer) (pos : Nat) :
    Prop :=
  s.continues document (typedAt b.extra b.text pos) = false ∧
    ∃ store, (Scan.atCaret b.extra b.text pos).candidates settings (wordAt b.extra b.text pos) =
      .ok store ∧ store.texts = []

theorem Coherent.size_eq_zero_iff (hs : s.Coherent)
    (hresume : s.resumeIn settings document b pos = .ok s') :
    s'.candidates.size = 0 ↔ s.FindsNothing settings document b pos := by
  have hempty (store : CandidateStore) : store.size = 0 ↔ store.texts = [] :=
    not_iff_not.mp store.size_ne_zero_iff
  obtain ⟨hgoes, rfl⟩ | ⟨hnew, store, hstore, rfl⟩ := cases_of_resume hresume
  · have hselection : s'.selection = some (typedAt b.extra b.text pos) := by
      simp only [continues, Bool.and_eq_true, decide_eq_true_eq] at hgoes
      exact hgoes.1
    refine iff_of_false (hs _ hselection).1.nonempty ?_
    rintro ⟨hnew, -⟩
    exact absurd (hgoes.symm.trans hnew) (by decide)
  · constructor
    · exact fun hsize => ⟨hnew, store, hstore, (hempty store).mp hsize⟩
    · rintro ⟨-, store', hstore', hnone⟩
      obtain rfl := Except.ok.inj (hstore'.symm.trans hstore)
      exact (hempty _).mpr hnone

end Session

theorem MemoryBuffer.complete_natCast (b : MemoryBuffer) {start : Nat} (stop : Nat) (new : Text)
    (hstart : start ≤ b.text.length) :
    (Buffer.complete b start stop new (start + new.length)).text =
        b.text.take start ++ new ++ b.text.drop stop ∧
      (Buffer.complete b start stop new (start + new.length)).cursor = (start + new.length : Nat) := by
  have htext : (Buffer.complete b start stop new (start + new.length)).text =
      b.text.take start ++ new ++ b.text.drop stop := b.text.splice_natCast new start stop
  have hclamp : (Buffer.complete b start stop new (start + new.length)).cursor =
      max 0 (min ((start : Int) + new.length)
        (Buffer.complete b start stop new (start + new.length)).text.length) := rfl
  refine ⟨htext, ?_⟩
  rw [hclamp, htext, List.length_append, List.length_append, List.length_take]
  omega

namespace Workspace

/-- Whatever was requested before, a request inside a text completes nothing if and only if no word
character stands before the caret, or the session does not go on and a new scan offers nothing. Then the
buffer is left alone. Else only the text from the beginning of the word to the end of what is replaced
gives way. -/
theorem cycle_frame (buffers : List MemoryBuffer) (current : Nat) (initial : Settings)
    (commands : List Command) (s : Session)
    (hs : (after commands { buffers, current, settings := initial }).session = s)
    (settings : Settings) (document : Nat) (b : MemoryBuffer) (pos : Nat) (hcursor : b.cursor = pos)
    (hle : pos ≤ b.text.length) (direction : Direction) :
    ∃ o, s.cycle settings document b direction = .ok o ∧
      (o.completion = none ↔ (Search.charBefore b.text pos).any (isWordChar b.extra) = false ∨
        s.FindsNothing settings document b pos) ∧
      ((Search.charBefore b.text pos).any (isWordChar b.extra) = false →
        o.session = s ∧ o.buffer = b ∧ o.report = none) ∧
      ((Search.charBefore b.text pos).any (isWordChar b.extra) = true →
        s.FindsNothing settings document b pos →
        o.session = {} ∧ o.buffer = b ∧
          o.report = some (.noCompletions (typedAt b.extra b.text pos))) ∧
      ∀ t, o.completion = some t →
        o.report = none ∧ o.buffer.popupVisible = false ∧ o.buffer.extra = b.extra ∧
        o.buffer.text = b.text.take (wordStartAt b.extra b.text pos) ++ t ++
          b.text.drop (replacedTo settings b.extra b.text pos) ∧
        o.buffer.cursor = (wordStartAt b.extra b.text pos + t.length : Nat) := by
  have hcoherent : s.Coherent := hs ▸ after_coherent commands _ Session.coherent_empty
  have hlow : 0 ≤ b.cursor := by omega
  have hhigh : b.cursor ≤ b.text.length := by omega
  obtain ⟨o, ho, -⟩ := s.exists_cycle settings document b direction hlow hhigh
  refine ⟨o, ho, ?_⟩
  have hword : typedAt b.extra b.text pos = [] ↔
      (Search.charBefore b.text pos).any (isWordChar b.extra) = false := typedAt_eq_nil_iff hle
  have hsome : (Search.charBefore b.text pos).any (isWordChar b.extra) = true ↔
      typedAt b.extra b.text pos ≠ [] := by
    rw [ne_eq, hword, Bool.not_eq_false]
  rw [hsome, ← hword]
  cases Session.ends_of_cycle ho with
  | idle hnone hidle =>
    have htyped : typedAt b.extra b.text pos = [] := hnone pos hcursor hle
    subst hidle
    exact ⟨iff_of_true rfl (Or.inl htyped), fun _ => ⟨rfl, rfl, rfl⟩, fun hne => absurd htyped hne,
      fun _ ht => by cases ht⟩
  | reported pos' s' hcursor' _ htyped hresume hsize hreported =>
    obtain rfl : pos = pos' := Int.natCast_inj.mp (hcursor.symm.trans hcursor')
    have hfinds := (hcoherent.size_eq_zero_iff hresume).mp hsize
    subst hreported
    exact ⟨iff_of_true rfl (Or.inr hfinds), fun hnone => absurd hnone htyped,
      fun _ _ => ⟨rfl, rfl, rfl⟩, fun _ ht => by cases ht⟩
  | completed pos' start s' new hcursor' _ htyped hresume hsize _ hstart hcompleted =>
    obtain rfl : pos = pos' := Int.natCast_inj.mp (hcursor.symm.trans hcursor')
    have hfinds : ¬s.FindsNothing settings document b pos :=
      fun h => hsize ((hcoherent.size_eq_zero_iff hresume).mpr h)
    have hbefore : wordStartAt b.extra b.text pos ≤ b.text.length :=
      (wordStartAt_le b.extra b.text pos).trans hle
    obtain ⟨htext, hcaret⟩ := (MemoryBuffer.dismissPopup b).complete_natCast
      (replacedTo settings b.extra b.text pos) new hbefore
    subst hstart hcompleted
    refine ⟨iff_of_false (Option.some_ne_none new) fun h => h.elim htyped hfinds,
      fun hnone => absurd hnone htyped, fun _ h => absurd h hfinds, ?_⟩
    intro t ht
    obtain rfl := Option.some.inj ht
    exact ⟨rfl, rfl, rfl, htext, hcaret⟩

/-- A session that has completed `foo` is reset behind another word, for which there is nothing. The popup
stays. -/
theorem cycle_frame_other_word :
    ∃ w o, after [.cycle .forward, .edit (.insert " x".toList), .edit (.setPopup true)]
        { buffers := [.ofText "foo fo".toList none []] } = w ∧
      w.session.selection = some "foo".toList ∧ w.buffer.text = "foo foo x".toList ∧
      w.buffer.popupVisible = true ∧ w.session.cycle {} 0 w.buffer .forward = .ok o ∧
      o.completion = none ∧ o.session = {} ∧ o.buffer = w.buffer ∧
      o.report = some (.noCompletions "x".toList) := by
  generalize hw : after [.cycle .forward, .edit (.insert " x".toList), .edit (.setPopup true)]
    { buffers := [.ofText "foo fo".toList none []] } = w
  obtain ⟨hselection, htext, hpopup, hcursor, hextra⟩ : w.session.selection = some "foo".toList ∧
      w.buffer.text = "foo foo x".toList ∧ w.buffer.popupVisible = true ∧ w.buffer.cursor = 9 ∧
      w.buffer.extra = [] := by
    rw [← hw]
    decide +kernel
  have hnew : w.session.continues 0 "x".toList = false := by
    rw [← hw]
    decide +kernel
  have htyped : typedAt w.buffer.extra w.buffer.text 9 = "x".toList := by
    rw [htext, hextra]
    decide +kernel
  have hscan : (Scan.atCaret w.buffer.extra w.buffer.text 9).candidates {}
      (wordAt w.buffer.extra w.buffer.text 9) =
        .ok { word := "x".toList, trailing := "x".toList } := by
    rw [htext, hextra]
    decide +kernel
  have hfinds : w.session.FindsNothing {} 0 w.buffer 9 := ⟨by rw [htyped]; exact hnew, _, hscan, rfl⟩
  obtain ⟨o, ho, hnone, -, hreported, -⟩ := cycle_frame [.ofText "foo fo".toList none []] 0 {}
    [.cycle .forward, .edit (.insert " x".toList), .edit (.setPopup true)] w.session (by rw [hw]) {} 0
    w.buffer 9 hcursor (by rw [htext]; decide) .forward
  obtain ⟨hsession, hbuffer, hreport⟩ := hreported (by rw [htext, hextra]; decide) hfinds
  rw [htyped] at hreport
  exact ⟨w, o, rfl, hselection, htext, hpopup, ho, hnone.mpr (Or.inr hfinds), hsession, hbuffer, hreport⟩

end Workspace
end WordCycle
