import WordCycle.Buffer.Document
import WordCycle.Proofs.Text.Splice
import WordCycle.Proofs.Text.Units16

/-! A buffer over a widget, by the text that the document holds. Positions are converted against the
text at hand, which is the text of the document also while an edit block holds back the news of a
change; so an edit by positions of the text is that edit of the document. -/

namespace WordCycle
set_option autoImplicit false

/-! ## The widget -/

namespace Widget

theorem moved_anchor (w : Widget) (c : TextCursor) {units : Nat} (h : units ≤ w.units.length) :
    w.moved c units false = ⟨units, units⟩ := by
  simp [moved, h]

theorem moved_position (w : Widget) (c : TextCursor) {units : Nat} (h : units ≤ w.units.length) :
    w.moved c units true = ⟨c.anchor, units⟩ := by
  simp [moved, h]

theorem replaceUnits_units (w : Widget) (units : Units) : (w.replaceUnits units).2.units = units := by
  unfold replaceUnits
  split <;> rfl

theorem replaceUnits_blocks (w : Widget) (units : Units) :
    (w.replaceUnits units).2.blocks = w.blocks := by
  unfold replaceUnits
  split <;> rfl

theorem endBlock_units (w : Widget) : w.endBlock.2.units = w.units := by
  unfold endBlock
  split <;> rfl

theorem endBlock_selection (w : Widget) : w.endBlock.2.selection = w.selection := by
  unfold endBlock
  split <;> rfl

theorem endBlock_blocks (w : Widget) : w.endBlock.2.blocks = w.blocks - 1 := by
  unfold endBlock
  split
  · next hlast => exact (Nat.sub_eq_zero_of_le hlast).symm
  · rfl

/-- What a cursor selects between two positions of a text goes, and the new text takes its place. -/
theorem insertText_eq (w : Widget) {before old behind : Text} (new : Text)
    (h : w.units = Units16.encode (before ++ old ++ behind)) :
    w.insertText ⟨Units16.length before, Units16.length (before ++ old)⟩ new =
      ((w.replaceUnits (Units16.encode (before ++ new ++ behind))).1,
        ⟨Units16.length (before ++ new), Units16.length (before ++ new)⟩,
        (w.replaceUnits (Units16.encode (before ++ new ++ behind))).2) := by
  have hlength := Units16.length_append before old
  have hstart : (TextCursor.start ⟨Units16.length before, Units16.length (before ++ old)⟩).toNat =
      Units16.length before := by
    simp only [TextCursor.start]
    omega
  have hstop : (TextCursor.stop ⟨Units16.length before, Units16.length (before ++ old)⟩).toNat =
      Units16.length (before ++ old) := by
    simp only [TextCursor.stop]
    omega
  have htake : w.units.take (Units16.length before) = Units16.encode before := by
    rw [h, List.append_assoc, Units16.take_encode]
  have hdrop : w.units.drop (Units16.length (before ++ old)) = Units16.encode behind := by
    rw [h, Units16.drop_encode]
  have hunits : Units16.encode before ++ Units16.encode new ++ Units16.encode behind =
      Units16.encode (before ++ new ++ behind) := by
    rw [Units16.encode_append, Units16.encode_append]
  have hend : ((Units16.length before : Nat) : Int) + (Units16.encode new).length =
      Units16.length (before ++ new) := by
    rw [Units16.length_encode, Units16.length_append]
    omega
  rw [insertText, hstart, hstop, htake, hdrop, hunits, hend]

end Widget

namespace DocumentBuffer
variable {b : DocumentBuffer} {t before old behind : Text}

/-! ## The text of the document -/

/-- The document holds a text, and so does the cache if there is any. -/
structure Holds (b : DocumentBuffer) (t : Text) : Prop where
  units : b.widget.units = Units16.encode t
  cache : ∀ t' ∈ b.cache, t' = t

theorem Holds.widget_text (h : b.Holds t) : b.widget.text = t := by
  rw [Widget.text, h.units, Units16.decode_encode]

theorem Holds.text_eq (h : b.Holds t) : b.text = t := by
  rw [text]
  cases hcache : b.cache with
  | none => exact h.widget_text
  | some t' => exact h.cache t' hcache

theorem Holds.remember_eq (h : b.Holds t) : b.remember = { b with cache := some t } := by
  rw [remember, h.text_eq]

theorem Holds.remember (h : b.Holds t) : b.remember.Holds t := by
  rw [h.remember_eq]
  exact ⟨h.units, fun t' ht' => (Option.some.inj ht').symm⟩

theorem Holds.length_le (h : b.Holds (before ++ behind)) :
    Units16.length before ≤ b.widget.units.length := by
  rw [h.units, Units16.length_encode, Units16.length_append]
  exact Nat.le_add_right _ _

/-! ## Requests by positions of the text -/

theorem Holds.replace_eq (h : b.Holds (before ++ old ++ behind)) (new : Text) :
    b.replace before.length (before.length + old.length : Nat) new =
      { b with
        widget := (b.widget.replaceUnits (Units16.encode (before ++ new ++ behind))).2
        cache := some (before ++ new ++ behind)
        editCursor := b.editCursor.map fun _ =>
          ⟨Units16.length (before ++ new), Units16.length (before ++ new)⟩
        calls := b.calls ++ [.setPosition (Units16.length before) false,
          .setPosition (Units16.length (before ++ old)) true, .insertText new] } := by
  have hfront : b.Holds (before ++ (old ++ behind)) := by
    rw [← List.append_assoc]
    exact h
  have hunits (calls : List WidgetCall) (pos : Int) :
      toUnits { b with cache := some (before ++ old ++ behind), calls } pos =
        Units16.ofPosition (before ++ old ++ behind) pos := rfl
  have hstart : Units16.ofPosition (before ++ old ++ behind) before.length =
      Units16.length before := by
    rw [List.append_assoc, Units16.ofPosition_append]
  have hstop : Units16.ofPosition (before ++ old ++ behind) (before.length + old.length : Nat) =
      Units16.length (before ++ old) := by
    rw [← List.length_append, Units16.ofPosition_append]
  have hanchor := b.widget.moved_anchor (b.editCursor.getD {}) hfront.length_le
  have hposition := b.widget.moved_position
    ⟨Units16.length before, Units16.length before⟩ h.length_le
  have hinsert := b.widget.insertText_eq new h.units
  have hsplice := Text.splice_parts before old behind new
  rw [DocumentBuffer.replace, h.remember_eq]
  simp only [move, sent, received, hunits, hstart, hstop, hanchor, hposition, hinsert]
  simp only [text, Option.getD_some, hsplice]
  rw [List.append_assoc b.calls, List.append_assoc b.calls]
  rfl

theorem Holds.setCursor_eq (h : b.Holds t) (pos : Nat) :
    b.setCursor pos =
      { b with
        widget :=
          { b.widget with selection := ⟨Units16.length (t.take pos), Units16.length (t.take pos)⟩ }
        cache := some t
        calls := b.calls ++ [.setPosition (Units16.length (t.take pos)) false, .setTextCursor] } := by
  have hunits : toUnits { b with cache := some t } pos = Units16.length (t.take pos) :=
    Units16.ofPosition_natCast t pos
  have hinside : Units16.length (t.take pos) ≤ b.widget.units.length := by
    have hparts : b.Holds (t.take pos ++ t.drop pos) := by
      rw [List.take_append_drop]
      exact h
    exact hparts.length_le
  have hmoved := b.widget.moved_anchor b.widget.selection hinside
  rw [DocumentBuffer.setCursor, h.remember_eq]
  simp only [move, sent, hunits, hmoved, List.append_assoc, List.cons_append, List.nil_append]

theorem beginGroup_eq (h : b.editCursor = none) :
    b.beginGroup =
      { b with
        widget := b.widget.beginBlock, editCursor := some {}, calls := b.calls ++ [.beginEditBlock] } := by
  rw [beginGroup, h]
  rfl

theorem endGroup_eq (h : b.editCursor.isSome) :
    b.endGroup =
      { b with
        widget := b.widget.endBlock.2
        cache := if b.widget.endBlock.1 then none else b.cache
        editCursor := none
        calls := b.calls ++ [.endEditBlock] } := by
  rw [endGroup, if_pos h]
  rfl

theorem Holds.replace (h : b.Holds (before ++ old ++ behind)) (new : Text) :
    (b.replace before.length (before.length + old.length : Nat) new).Holds
      (before ++ new ++ behind) := by
  rw [h.replace_eq]
  exact ⟨Widget.replaceUnits_units _ _, fun t' ht' => (Option.some.inj ht').symm⟩

theorem Holds.setCursor (h : b.Holds t) (pos : Int) : (b.setCursor pos).Holds t :=
  ⟨h.units, fun _ ht' => (Option.some.inj ht').symm.trans h.text_eq⟩

theorem Holds.beginGroup (h : b.Holds t) : b.beginGroup.Holds t := by
  unfold DocumentBuffer.beginGroup
  split
  · exact h
  · exact ⟨h.units, h.cache⟩

theorem Holds.endGroup (h : b.Holds t) : b.endGroup.Holds t := by
  unfold DocumentBuffer.endGroup
  split
  · refine ⟨?_, ?_⟩
    · exact (b.widget.endBlock_units).trans h.units
    · intro t' ht'
      simp only [sent, received] at ht'
      split at ht'
      · cases ht'
      · exact h.cache t' ht'
  · exact h

/-! ## A caret in the text -/

/-- The document holds a text and the caret stands in it, nothing being selected and no edit block
open. -/
structure Shows (b : DocumentBuffer) (extra t : Text) (pos : Nat) : Prop extends Holds b t where
  extra_eq : b.extra = extra
  pos_le : pos ≤ t.length
  caret : b.widget.selection = ⟨Units16.length (t.take pos), Units16.length (t.take pos)⟩
  blocks : b.widget.blocks = 0
  closed : b.editCursor = none

variable {extra : Text} {pos : Nat}

theorem Shows.cursor_eq (h : b.Shows extra t pos) : b.cursor = pos := by
  have hstart : b.widget.selection.start = Units16.length (t.take pos) := by
    rw [h.caret, TextCursor.start, Int.min_self]
  rw [cursor, fromUnits, h.text_eq, hstart, Units16.toPosition_length_take t pos h.pos_le]

theorem Shows.remember (h : b.Shows extra t pos) : b.remember.Shows extra t pos where
  toHolds := h.toHolds.remember
  extra_eq := h.extra_eq
  pos_le := h.pos_le
  caret := h.caret
  blocks := h.blocks
  closed := h.closed

theorem Shows.dismissPopup (h : b.Shows extra t pos) : b.dismissPopup.Shows extra t pos where
  toHolds := ⟨h.units, h.cache⟩
  extra_eq := h.extra_eq
  pos_le := h.pos_le
  caret := h.caret
  blocks := h.blocks
  closed := h.closed

theorem Shows.select (h : b.Shows extra t pos) (pos' : Nat) :
    (b.select (Units16.length (t.take pos')) (Units16.length (t.take pos'))).Shows extra t
      (min pos' t.length) where
  toHolds := ⟨h.units, h.cache⟩
  extra_eq := h.extra_eq
  pos_le := Nat.min_le_right _ _
  caret := by rw [← List.take_eq_take_min]; rfl
  blocks := h.blocks
  closed := h.closed

theorem Shows.setCursor (h : b.Shows extra t pos) (pos' : Nat) :
    (b.setCursor pos').Shows extra t (min pos' t.length) := by
  have hholds := h.toHolds.setCursor pos'
  rw [h.toHolds.setCursor_eq] at hholds ⊢
  refine ⟨hholds, h.extra_eq, Nat.min_le_right _ _, ?_, h.blocks, h.closed⟩
  rw [← List.take_eq_take_min]

/-- Completing replaces a part of the text as one edit block, and leaves the caret behind the new
part. -/
theorem Shows.complete (h : b.Shows extra (before ++ old ++ behind) pos) (new : Text) :
    (Buffer.complete b before.length (before.length + old.length : Nat) new
      (before.length + new.length)).Shows extra (before ++ new ++ behind)
        (before.length + new.length) := by
  have hbegun := h.toHolds.beginGroup
  have hreplaced := hbegun.replace new
  have hcomplete : Buffer.complete b before.length (before.length + old.length : Nat) new
      (before.length + new.length) = ((b.beginGroup.replace before.length
        (before.length + old.length : Nat) new).setCursor (before ++ new).length).endGroup := by
    rw [List.length_append]
    rfl
  have hplaced := hreplaced.setCursor_eq (before ++ new).length
  have hholds := (hreplaced.setCursor (before ++ new).length).endGroup
  rw [hbegun.replace_eq new, beginGroup_eq h.closed] at hplaced hholds
  rw [hplaced] at hholds
  rw [hcomplete, hbegun.replace_eq new, beginGroup_eq h.closed, hplaced]
  rw [endGroup_eq rfl] at hholds ⊢
  refine ⟨hholds, h.extra_eq, ?_, ?_, ?_, rfl⟩
  · rw [List.length_append, List.length_append]
    omega
  · rw [← List.length_append]
    exact Widget.endBlock_selection _
  · have hone : b.widget.beginBlock.blocks = 1 := by
      rw [Widget.beginBlock, h.blocks]
    have hkept := b.widget.beginBlock.replaceUnits_blocks (Units16.encode (before ++ new ++ behind))
    exact (Widget.endBlock_blocks _).trans (congrArg (· - 1) (hkept.trans hone))

end DocumentBuffer
end WordCycle
