import WordCycle.Proofs.Session.Coherence

/-! What a request to complete a word can come to, in any buffer and with the caret anywhere: it does
nothing, reports that there is no completion, or replaces the word before the caret by a candidate of
the session that answers. -/

namespace WordCycle.Session
set_option autoImplicit false

variable {β : Type} [Buffer β]

def typedIn (b : β) (pos : Nat) : Text := typedAt (Buffer.extra b) (Buffer.text b) pos

/-- The scan for the word at a position of a buffer, by the session that is present. -/
def resumeIn (s : Session) (settings : Settings) (document : Nat) (b : β) (pos : Nat) :
    Except EditError Session :=
  s.resume settings document (Scan.atCaret (Buffer.extra b) (Buffer.text b) pos)
    (wordAt (Buffer.extra b) (Buffer.text b) pos)

/-- Where a request ends that replaces the word at a position. -/
def replacedEnd (settings : Settings) (b : β) (pos : Nat) : Nat :=
  if settings.removeTrailingWordPart then wordEndAt (Buffer.extra b) (Buffer.text b) pos else pos

/-- The ways in which a request ends that is not refused. `b` is the buffer after its text was read. -/
inductive Ends (s : Session) (settings : Settings) (document : Nat) (b : β) (direction : Direction)
    (o : Outcome β) : Prop
  | idle (hnone : ∀ pos : Nat, Buffer.cursor b = pos → pos ≤ (Buffer.text b).length → typedIn b pos = [])
      (ho : o = { session := s, buffer := b })
  | reported (pos : Nat) (s' : Session) (hcursor : Buffer.cursor b = pos)
      (hle : pos ≤ (Buffer.text b).length) (htyped : typedIn b pos ≠ [])
      (hresume : s.resumeIn settings document b pos = .ok s') (hsize : s'.candidates.size = 0)
      (ho : o = { session := {}, buffer := b, report := some (.noCompletions (typedIn b pos)) })
  | completed (pos start : Nat) (s' : Session) (new : Text) (hcursor : Buffer.cursor b = pos)
      (hle : pos ≤ (Buffer.text b).length) (htyped : typedIn b pos ≠ [])
      (hresume : s.resumeIn settings document b pos = .ok s') (hsize : s'.candidates.size ≠ 0)
      (hrotate : rotate s'.candidates.texts s'.selection direction = .ok new)
      (hstart : start = wordStartAt (Buffer.extra b) (Buffer.text b) pos)
      (ho : o = { session := { s' with selection := some new }
                  buffer := Buffer.complete (Buffer.dismissPopup b) start (replacedEnd settings b pos)
                    new (start + new.length)
                  completion := some new })

theorem cycle_inside (s : Session) (settings : Settings) (document : Nat) (b : β)
    (direction : Direction) {pos : Nat} (hcursor : Buffer.cursor (Buffer.remember b) = pos)
    (hle : pos ≤ (Buffer.text (Buffer.remember b)).length) :
    s.cycle settings document b direction =
      if typedIn (Buffer.remember b) pos = [] then .ok { session := s, buffer := Buffer.remember b }
      else (s.resumeIn settings document (Buffer.remember b) pos).bind fun s =>
        s.answer (Buffer.remember b) (typedIn (Buffer.remember b) pos)
          (wordStartAt (Buffer.extra (Buffer.remember b)) (Buffer.text (Buffer.remember b)) pos)
          (replacedEnd settings (Buffer.remember b) pos) direction := by
  obtain ⟨before, typed, rest, behind, hcut⟩ := exists_wordCut (Buffer.extra (Buffer.remember b)) _ pos hle
  have hend : replacedEnd settings (Buffer.remember b) pos =
      pos + if settings.removeTrailingWordPart then rest.length else 0 := by
    rw [replacedEnd, hcut.wordEndAt_eq]
    split <;> rfl
  rw [cycle_eq s settings document b direction hcursor hcut, hend, resumeIn, Scan.atCaret, typedIn,
    hcut.typedAt_eq, hcut.wordAt_eq, hcut.wordStartAt_eq]

theorem ends_of_cycle {s : Session} {settings : Settings} {document : Nat} {b : β}
    {direction : Direction} {o : Outcome β} (h : s.cycle settings document b direction = .ok o) :
    s.Ends settings document (Buffer.remember b) direction o := by
  by_cases hinside : 0 ≤ Buffer.cursor (Buffer.remember b) ∧
      Buffer.cursor (Buffer.remember b) ≤ (Buffer.text (Buffer.remember b)).length
  · obtain ⟨pos, hcursor⟩ := Int.eq_ofNat_of_zero_le hinside.1
    have hle : pos ≤ (Buffer.text (Buffer.remember b)).length := by omega
    rw [cycle_inside s settings document b direction hcursor hle] at h
    split at h
    · next hnone =>
      refine .idle ?_ (Except.ok.inj h).symm
      intro pos' hcursor' _
      obtain rfl : pos = pos' := by omega
      exact hnone
    · next htyped =>
      cases hresume : s.resumeIn settings document (Buffer.remember b) pos with
      | error e =>
        rw [hresume] at h
        cases h
      | ok s' =>
        rw [hresume, Except.bind] at h
        by_cases hsize : s'.candidates.size = 0
        · rw [answer_of_empty _ _ _ _ _ _ hsize] at h
          exact .reported pos s' hcursor hle htyped hresume hsize (Except.ok.inj h).symm
        · obtain ⟨new, hrotate⟩ :=
            exists_rotate (s'.candidates.size_ne_zero_iff.mp hsize) s'.selection direction
          rw [answer_of_rotate _ _ _ _ _ _ _ hsize hrotate] at h
          exact .completed pos _ s' new hcursor hle htyped hresume hsize hrotate rfl
            (Except.ok.inj h).symm
  · refine .idle ?_ (s.cycle_outside settings document b direction o hinside h)
    intro pos hcursor hle
    exact absurd ⟨by omega, by omega⟩ hinside

/-- Whatever a request comes to, the buffer is the one whose text was read, or is left by replacing a part
of its text. -/
theorem buffer_of_cycle {s : Session} {settings : Settings} {document : Nat} {b : β}
    {direction : Direction} {o : Outcome β} (h : s.cycle settings document b direction = .ok o) :
    o.buffer = Buffer.remember b ∨ ∃ (start stop caret : Int) (new : Text), o.buffer =
      Buffer.complete (Buffer.dismissPopup (Buffer.remember b)) start stop new caret := by
  cases ends_of_cycle h with
  | idle _ ho => exact Or.inl (by rw [ho])
  | reported _ _ _ _ _ _ _ ho => exact Or.inl (by rw [ho])
  | completed pos start _ new _ _ _ _ _ _ _ ho => exact Or.inr ⟨_, _, _, _, by rw [ho]⟩

end WordCycle.Session
