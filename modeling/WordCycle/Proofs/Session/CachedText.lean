import WordCycle.DocumentSession
import WordCycle.Proofs.Buffer.Document
import WordCycle.Proofs.Buffer.Settled
import WordCycle.Proofs.Session.Outcome

/-! The text at hand is the text of the document at any time, also while an edit block holds back the
news of a change: what the buffer does inside a block it does to both alike, and outside of blocks
every change is announced. Only what the user does inside an open block would go unnoticed. -/

namespace WordCycle
set_option autoImplicit false

/-! ## Requests to the buffer -/

namespace DocumentBuffer
variable {b : DocumentBuffer} {t : Text}

theorem Holds.replace_within (h : b.Holds t) (new : Text) {start stop : Int} (hstart : 0 ≤ start)
    (hle : start ≤ stop) (hstop : stop ≤ t.length) :
    (b.replace start stop new).Holds (t.splice start stop new) := by
  obtain ⟨before, old, behind, rfl, rfl, rfl⟩ := t.exists_parts start stop hstart hle hstop
  rw [Text.splice_parts]
  exact h.replace new

theorem Holds.dismissPopup (h : b.Holds t) : b.dismissPopup.Holds t := ⟨h.units, h.cache⟩

/-- Completing is one edit of the document, whether or not it is made inside of an open block. -/
theorem Holds.complete (h : b.Holds t) (new : Text) (caret : Int) {start stop : Int}
    (hstart : 0 ≤ start) (hle : start ≤ stop) (hstop : stop ≤ t.length) :
    (Buffer.complete b start stop new caret).Holds (t.splice start stop new) :=
  ((h.beginGroup.replace_within new hstart hle hstop).setCursor caret).endGroup

/-- A change of the user's outside of blocks is announced, and leaves no text at hand. -/
theorem holds_changeText (hblocks : b.widget.blocks = 0) (t : Text) : (b.changeText t).Holds t := by
  rw [changeText, Widget.replaceUnits_of_blocks hblocks]
  exact ⟨rfl, fun t' ht' => by cases ht'⟩

/-- What may be asked: a replacement inside the text, and a change by the user outside of blocks. -/
def Allows (b : DocumentBuffer) : Command → Prop
  | .replace start stop _ => 0 ≤ start ∧ start ≤ stop ∧ stop ≤ b.text.length
  | .changeText _ => b.widget.blocks = 0
  | _ => True

instance (b : DocumentBuffer) (c : Command) : Decidable (b.Allows c) := by
  cases c <;> unfold Allows <;> infer_instance

/-- The text that a request makes of another. -/
def changed (t : Text) : Command → Text
  | .replace start stop new => t.splice start stop new
  | .changeText t' => t'
  | _ => t

theorem Holds.run (h : b.Holds t) (c : Command) (hc : b.Allows c) :
    (b.run c).2.Holds (changed t c) := by
  cases c with
  | replace start stop new =>
    obtain ⟨hstart, hle, hstop⟩ := hc
    rw [h.text_eq] at hstop
    exact h.replace_within new hstart hle hstop
  | changeText t' => exact holds_changeText hc t'
  | setCursor pos => exact h.setCursor pos
  | beginGroup => exact h.beginGroup
  | endGroup => exact h.endGroup
  | dismissPopup => exact h.dismissPopup
  | select anchor position => exact ⟨h.units, h.cache⟩
  | setPopup visible => exact ⟨h.units, h.cache⟩
  | _ => exact h.remember

end DocumentBuffer

/-! ## Requests to a session -/

namespace Session

theorem replacedEnd_bounds {β : Type} [Buffer β] (settings : Settings) (b : β) {pos : Nat}
    (hle : pos ≤ (Buffer.text b).length) :
    pos ≤ replacedEnd settings b pos ∧ replacedEnd settings b pos ≤ (Buffer.text b).length := by
  unfold replacedEnd
  split
  · exact ⟨le_wordEndAt _ _ pos, wordEndAt_le _ _ hle⟩
  · exact ⟨Nat.le_refl pos, hle⟩

theorem exists_holds_of_cycle {s : Session} {settings : Settings} {document : Nat} {b : DocumentBuffer}
    {t : Text} {direction : Direction} {o : Outcome DocumentBuffer} (h : b.Holds t)
    (ho : s.cycle settings document b direction = .ok o) : ∃ t', o.buffer.Holds t' := by
  have hread : DocumentBuffer.Holds (Buffer.remember b) t := h.remember
  have htext : Buffer.text (Buffer.remember b) = t := hread.text_eq
  cases ends_of_cycle ho with
  | idle _ ho => exact ⟨t, by rw [ho]; exact hread⟩
  | reported _ _ _ _ _ _ _ ho => exact ⟨t, by rw [ho]; exact hread⟩
  | completed pos start s' new _ hle _ _ _ _ hstart ho =>
    have hbefore := wordStartAt_le (Buffer.extra (Buffer.remember b)) (Buffer.text (Buffer.remember b)) pos
    obtain ⟨hfrom, hto⟩ := replacedEnd_bounds settings (Buffer.remember b) hle
    rw [htext] at hto
    rw [ho]
    exact ⟨_, hread.dismissPopup.complete new _ (Int.natCast_nonneg start)
      (Int.ofNat_le.mpr (hstart ▸ hbefore.trans hfrom)) (Int.ofNat_le.mpr hto)⟩

end Session

namespace DocumentSession

def Allows (d : DocumentSession) : Command → Prop
  | .buffer c => d.buffer.Allows c
  | .cycle _ => True
  | .reset => True

def AllowsAll (d : DocumentSession) : List Command → Prop
  | [] => True
  | c :: rest => d.Allows c ∧ (d.run c).2.AllowsAll rest

instance (d : DocumentSession) : (c : Command) → Decidable (d.Allows c)
  | .buffer c => inferInstanceAs (Decidable (d.buffer.Allows c))
  | .cycle _ => .isTrue trivial
  | .reset => .isTrue trivial

instance decidableAllowsAll :
    (d : DocumentSession) → (requests : List Command) → Decidable (d.AllowsAll requests)
  | _, [] => .isTrue trivial
  | d, c :: rest =>
    have := decidableAllowsAll (d.run c).2 rest
    inferInstanceAs (Decidable (d.Allows c ∧ (d.run c).2.AllowsAll rest))

def after (d : DocumentSession) (requests : List Command) : DocumentSession :=
  requests.foldl (fun d c => (d.run c).2) d

theorem exists_holds_run {d : DocumentSession} {t : Text} (h : d.buffer.Holds t) (c : Command)
    (hc : d.Allows c) : ∃ t', (d.run c).2.buffer.Holds t' := by
  cases c with
  | cycle direction =>
    rw [run, cycle]
    cases ho : d.session.cycle d.settings 0 d.buffer direction with
    | error e => exact ⟨t, h⟩
    | ok o => exact Session.exists_holds_of_cycle h ho
  | reset => exact ⟨t, h⟩
  | buffer c => exact ⟨_, h.run c hc⟩

theorem exists_holds_after {d : DocumentSession} {t : Text} (h : d.buffer.Holds t)
    (requests : List Command) (hrequests : d.AllowsAll requests) (n : Nat) :
    ∃ t', (d.after (requests.take n)).buffer.Holds t' := by
  induction requests generalizing d t n with
  | nil => exact ⟨t, by simpa [after] using h⟩
  | cons c rest ih =>
    cases n with
    | zero => exact ⟨t, h⟩
    | succ n =>
      obtain ⟨t', h'⟩ := exists_holds_run h c hrequests.1
      exact ih h' hrequests.2 n

/-- A session that begins with a document of the text, in which nothing has been asked yet. -/
def opened (text extra : Text) (selection : TextCursor) (popup : Option Bool) (settings : Settings) :
    DocumentSession :=
  { buffer := { widget := { units := Units16.encode text, selection }, extra, popup }, settings }

/-- From any document and any selection on, after each of the requests the text of the buffer is that of
the document, and so it is when a further request has changed both. -/
theorem text_never_stale (text extra : Text) (selection : TextCursor) (popup : Option Bool)
    (settings : Settings) (requests : List Command)
    (hallowed : (opened text extra selection popup settings).AllowsAll requests) (n : Nat) :
    ∃ b, b = ((opened text extra selection popup settings).after (requests.take n)).buffer ∧
      b.text = b.widget.text ∧
      ∀ c, b.Allows c → (b.run c).2.text = DocumentBuffer.changed b.text c ∧
        (b.run c).2.widget.text = DocumentBuffer.changed b.text c := by
  have hstart : (opened text extra selection popup settings).buffer.Holds text :=
    ⟨rfl, fun t ht => by cases ht⟩
  obtain ⟨t, h⟩ := exists_holds_after hstart requests hallowed n
  refine ⟨_, rfl, h.text_eq.trans h.widget_text.symm, fun c hc => ?_⟩
  have hnext := h.run c hc
  rw [h.text_eq]
  exact ⟨hnext.text_eq, hnext.widget_text⟩

/-- A completion behind a character of two units in an open block, and a change by the user when
the block has ended. -/
def blockThenUser : List Command :=
  [.buffer .beginGroup, .buffer (.replace 0 1 "🚀".toList), .buffer .length, .cycle .forward,
    .buffer .endGroup, .buffer (.changeText "fork fo".toList), .cycle .backward]

theorem text_never_stale_emoji :
    (opened "😀 food fo".toList [] ⟨10, 10⟩ none {}).AllowsAll blockThenUser ∧
      ∃ b, b = ((opened "😀 food fo".toList [] ⟨10, 10⟩ none {}).after (blockThenUser.take 3)).buffer ∧
        b.text = b.widget.text ∧
        ∀ c, b.Allows c → (b.run c).2.text = DocumentBuffer.changed b.text c ∧
          (b.run c).2.widget.text = DocumentBuffer.changed b.text c :=
  have hallowed : (opened "😀 food fo".toList [] ⟨10, 10⟩ none {}).AllowsAll blockThenUser := by
    decide +kernel
  ⟨hallowed, text_never_stale "😀 food fo".toList [] ⟨10, 10⟩ none {} blockThenUser hallowed 3⟩

-- A change by the user inside of an open block is the one that is left out.
example :
    let b : DocumentBuffer := { widget := { units := Units16.encode "ab".toList } }
    let b := b.remember.beginGroup.changeText "c".toList
    b.text = "ab".toList ∧ b.widget.text = "c".toList := by decide +kernel

end DocumentSession
end WordCycle
