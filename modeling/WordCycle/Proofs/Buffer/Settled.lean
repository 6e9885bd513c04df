import WordCycle.Proofs.Buffer.Document

/-! A buffer over a widget outside edit blocks. Every change is announced then, so the text at hand is that
of the document, whatever units it holds, and the caret stands in it. -/

namespace WordCycle
set_option autoImplicit false

theorem Widget.replaceUnits_of_blocks {w : Widget} (h : w.blocks = 0) (units : Units) :
    w.replaceUnits units = (true, { w with units }) := by
  rw [Widget.replaceUnits, if_pos h]

namespace DocumentBuffer
variable {b : DocumentBuffer}

/-- No edit block is open, no change is still to be announced, and the text at hand, if there is any, is
that of the document. -/
structure Settled (b : DocumentBuffer) : Prop where
  closed : b.editCursor = none
  blocks : b.widget.blocks = 0
  announced : b.widget.changed = false
  cache : ∀ t ∈ b.cache, t = b.widget.text

theorem settled_empty : Settled { widget := {} } := ⟨rfl, rfl, rfl, by simp⟩

namespace Settled

theorem text_eq (h : b.Settled) : b.text = b.widget.text := by
  rw [text]
  cases hcache : b.cache with
  | none => rfl
  | some t => exact h.cache t hcache

theorem exists_cursor (h : b.Settled) :
    ∃ pos : Nat, b.cursor = pos ∧ pos ≤ b.widget.text.length := by
  refine ⟨_, rfl, ?_⟩
  rw [← h.text_eq]
  exact Units16.toPosition_le _ _

theorem remember (h : b.Settled) : b.remember.Settled where
  closed := h.closed
  blocks := h.blocks
  announced := h.announced
  cache _ ht := (Option.some.inj ht).symm.trans h.text_eq

theorem dismissPopup (h : b.Settled) : b.dismissPopup.Settled :=
  ⟨h.closed, h.blocks, h.announced, h.cache⟩

theorem received (h : b.Settled) {w : Widget} (hblocks : w.blocks = 0) (hchanged : w.changed = false) :
    (b.received true w).Settled :=
  ⟨h.closed, hblocks, hchanged, by simp [DocumentBuffer.received]⟩

theorem place (h : b.Settled) (anchor position : Int) : (b.place anchor position).Settled :=
  ⟨h.closed, h.blocks, h.announced, h.cache⟩

theorem type (h : b.Settled) (t : Text) : (b.type t).Settled := by
  rw [DocumentBuffer.type, Widget.type, Widget.insertText, Widget.replaceUnits_of_blocks h.blocks]
  exact h.received h.blocks h.announced

theorem showText (h : b.Settled) (t : Text) : (b.showText t).Settled := by
  have hblocks : Widget.blocks { b.widget with selection := {} } = 0 := h.blocks
  rw [DocumentBuffer.showText, Widget.setText, Widget.replaceUnits_of_blocks hblocks]
  exact h.received h.blocks h.announced

/-- Completing a word is a block of its own, whose end announces the change. -/
theorem complete (h : b.Settled) (start stop caret : Int) (new : Text) :
    (Buffer.complete b start stop new caret).Settled := by
  obtain ⟨⟨units, selection, blocks, changed⟩, extra, popup, cache, editCursor, calls⟩ := b
  obtain ⟨hclosed, hblocks, -, -⟩ := h
  obtain rfl : editCursor = none := hclosed
  obtain rfl : blocks = 0 := hblocks
  exact ⟨rfl, rfl, rfl, by rintro t ⟨⟩⟩

theorem complete_extra (b : DocumentBuffer) (start stop caret : Int) (new : Text) :
    (Buffer.complete b start stop new caret).extra = b.extra := by
  obtain ⟨⟨units, selection, blocks, changed⟩, extra, popup, cache, editCursor, calls⟩ := b
  cases editCursor <;> rfl

end Settled
end DocumentBuffer
end WordCycle
