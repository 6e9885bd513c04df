import WordCycle.Proofs.Undo.History

/-! The undo stack agrees with the history after every step, as long as what is replaced lies inside the
text and nothing is undone while a group is open. -/

namespace WordCycle
set_option autoImplicit false

/-- The steps that undo is to answer for. -/
def MemoryBuffer.Allows (b : MemoryBuffer) : MemoryBuffer.Step → Prop
  | .replace start stop _ => 0 ≤ start ∧ start ≤ stop ∧ stop ≤ b.text.length
  | .undo => b.undoStack.depth = 0
  | .insert _ => True
  | .setCursor _ => True
  | .beginGroup => True
  | .endGroup => True
  | .showPopup _ => True

instance (b : MemoryBuffer) : (s : MemoryBuffer.Step) → Decidable (b.Allows s)
  | .replace start stop _ =>
    inferInstanceAs (Decidable (0 ≤ start ∧ start ≤ stop ∧ stop ≤ b.text.length))
  | .undo => inferInstanceAs (Decidable (b.undoStack.depth = 0))
  | .insert _ => .isTrue trivial
  | .setCursor _ => .isTrue trivial
  | .beginGroup => .isTrue trivial
  | .endGroup => .isTrue trivial
  | .showPopup _ => .isTrue trivial

namespace Tracks
variable {b : MemoryBuffer} {h : History}

theorem gains_nil (hb : Tracks b h) {b' : MemoryBuffer} {h' : History} (hbegun : h'.begun = h.begun)
    (hsize : b'.undoStack.size = b.undoStack.size) (hbase : h'.base b'.text = h.base b.text) :
    Gains b h b' h' [] where
  begun := hbegun
  size := by
    have := hb.size
    rw [List.length_nil]
    omega
  base := hbase

theorem push (hb : Tracks b h) {g : EditGroup} {t : Text} {p : Place} (hg : g.LeadsTo t p)
    (hp : p.text = h.base b.text) :
    Leads t (b.undoStack.push g).groups (p :: h.begun) ∧
      (b.undoStack.push g).size = min 100 (1 + b.undoStack.size) := by
  have hgroups : (b.undoStack.push g).groups = (g :: b.undoStack.groups).take 100 := by
    rw [UndoStack.push, hb.limit]
  have hleads : Leads t (g :: b.undoStack.groups) (p :: h.begun) := by
    refine ⟨hg, ?_⟩
    rw [hp]
    exact hb.groups
  constructor
  · rw [hgroups]
    exact hleads.take 100
  · rw [UndoStack.size, hgroups, List.length_take, List.length_cons, UndoStack.size]
    omega

/-! ## One step -/

/-- Outside groups an edit is a group of its own, begun at the buffer's place. -/
theorem edit_alone (hb : Tracks b h) (start stop : Int) (new : Text) (cursor : Int)
    (hstart : 0 ≤ start) (hle : start ≤ stop) (hstop : stop ≤ b.text.length)
    (hinside : Place.Inside ⟨b.text.splice start stop new, cursor⟩)
    (hcurrent : b.undoStack.current = none) (hpending : h.pending = none) (hdepth : h.depth = 0) :
    Advances b h { b.replace start stop new with cursor := cursor } (h.edited b.place) := by
  have hhistory : h.edited b.place = { h with begun := b.place :: h.begun } := by
    rw [History.edited, hpending]
  have hbase := h.base_of_closed hpending
  have hleads : EditGroup.LeadsTo ⟨[⟨start, b.text.slice start stop, new⟩], b.cursor⟩
      (b.text.splice start stop new) b.place :=
    ⟨Edit.revert_splice b.text new start stop hstart hle hstop, rfl, hb.inside⟩
  have hbuffer : { b.replace start stop new with cursor := cursor } =
      { b with
        text := b.text.splice start stop new
        cursor := cursor
        undoStack := b.undoStack.push ⟨[⟨start, b.text.slice start stop, new⟩], b.cursor⟩ } := by
    rw [MemoryBuffer.replace, UndoStack.record, hcurrent]
  obtain ⟨hgroups, hsize⟩ := hb.push hleads (hbase b.text).symm
  rw [hhistory, hbuffer]
  refine ⟨⟨hinside, hb.limit, ?_, hb.depth, .closed hcurrent hpending hdepth, ?_⟩, [b.place],
    ⟨rfl, hsize, ?_⟩⟩
  · show (b.undoStack.push _).size ≤ 100
    omega
  · rw [History.base_of_closed { h with begun := b.place :: h.begun } hpending]
    exact hgroups
  · rw [hbase]
    rfl

theorem edit_in_group (hb : Tracks b h) (start stop : Int) (new : Text) (cursor : Int)
    (hstart : 0 ≤ start) (hle : start ≤ stop) (hstop : stop ≤ b.text.length)
    (hinside : Place.Inside ⟨b.text.splice start stop new, cursor⟩) {g : EditGroup} {o : Pending}
    (hcurrent : b.undoStack.current = some g) (hpending : h.pending = some o) (hdepth : h.depth ≠ 0)
    (hleads : g.LeadsTo b.text o.place) :
    Advances b h { b.replace start stop new with cursor := cursor } (h.edited b.place) := by
  have hhistory : h.edited b.place = { h with pending := some { o with edited := true } } := by
    rw [History.edited, hpending]
  have hbase := h.base_of_open hpending
  have hbuffer : { b.replace start stop new with cursor := cursor } =
      { b with
        text := b.text.splice start stop new
        cursor := cursor
        undoStack := { b.undoStack with
          current := some { g with edits := g.edits ++ [⟨start, b.text.slice start stop, new⟩] } } } := by
    rw [MemoryBuffer.replace, UndoStack.record, hcurrent]
  have hgroups := hb.groups
  rw [hbase] at hgroups
  rw [hhistory, hbuffer]
  refine ⟨⟨hinside, hb.limit, hb.size, hb.depth, .opened _ _ rfl rfl hdepth
    (hleads.record new start stop hstart hle hstop) ?_, hgroups⟩, [], hb.gains_nil rfl rfl ?_⟩
  · simp
  · rw [hbase]
    rfl

theorem edit (hb : Tracks b h) (start stop : Int) (new : Text) (cursor : Int) (hstart : 0 ≤ start)
    (hle : start ≤ stop) (hstop : stop ≤ b.text.length)
    (hinside : Place.Inside ⟨b.text.splice start stop new, cursor⟩) :
    Advances b h { b.replace start stop new with cursor := cursor } (h.edited b.place) := by
  rcases hb.pending with ⟨hcurrent, hpending, hdepth⟩ | ⟨g, o, hcurrent, hpending, hdepth, hleads, -⟩
  · exact hb.edit_alone start stop new cursor hstart hle hstop hinside hcurrent hpending hdepth
  · exact hb.edit_in_group start stop new cursor hstart hle hstop hinside hcurrent hpending hdepth
      hleads

theorem beginGroup (hb : Tracks b h) : Advances b h b.beginGroup (h.opened b.place) := by
  have hgroups := hb.groups
  rcases hb.pending with ⟨hcurrent, hpending, hdepth⟩ |
    ⟨g, o, hcurrent, hpending, hdepth, hleads, hedited⟩
  · have hstack : b.undoStack.depth = 0 := hb.depth.trans hdepth
    have hhistory : h.opened b.place =
        { h with depth := h.depth + 1, pending := some ⟨b.place, false⟩ } := by
      rw [History.opened, if_pos hdepth]
    have hbuffer : b.beginGroup = { b with undoStack := { b.undoStack with
        depth := b.undoStack.depth + 1, current := some ⟨[], b.cursor⟩ } } := by
      rw [MemoryBuffer.beginGroup, UndoStack.beginGroup, if_pos hstack]
    have hbase := h.base_of_closed hpending b.text
    rw [hbase] at hgroups
    rw [hhistory, hbuffer]
    exact ⟨⟨hb.inside, hb.limit, hb.size, congrArg (· + 1) hb.depth,
      .opened _ _ rfl rfl (Nat.succ_ne_zero _) ⟨rfl, rfl, hb.inside⟩ rfl, hgroups⟩, [],
      hb.gains_nil rfl rfl hbase.symm⟩
  · have hstack : b.undoStack.depth ≠ 0 := hb.depth ▸ hdepth
    have hhistory : h.opened b.place = { h with depth := h.depth + 1 } := by
      rw [History.opened, if_neg hdepth]
    have hbuffer : b.beginGroup =
        { b with undoStack := { b.undoStack with depth := b.undoStack.depth + 1 } } := by
      rw [MemoryBuffer.beginGroup, UndoStack.beginGroup, if_neg hstack]
    rw [hhistory, hbuffer]
    exact ⟨⟨hb.inside, hb.limit, hb.size, congrArg (· + 1) hb.depth,
      .opened g o hcurrent hpending (Nat.succ_ne_zero _) hleads hedited, hgroups⟩, [],
      hb.gains_nil rfl rfl rfl⟩

section
variable {g : EditGroup} {o : Pending} (hb : Tracks b h) (hcurrent : b.undoStack.current = some g)
  (hpending : h.pending = some o) (hleads : g.LeadsTo b.text o.place)
  (hedited : o.edited = !g.edits.isEmpty)
include hb hcurrent hpending hleads hedited

theorem closeGroup_inner (hdepth : h.depth ≠ 0) (hinner : h.depth ≠ 1) :
    Advances b h b.closeGroup h.closed := by
  have hstack : b.undoStack.depth ≠ 1 := hb.depth ▸ hinner
  have hstill : h.depth - 1 ≠ 0 := by omega
  have hhistory : h.closed = { h with depth := h.depth - 1 } := by
    rw [History.closed, if_neg hinner]
  have hbuffer : b.closeGroup =
      { b with undoStack := { b.undoStack with depth := b.undoStack.depth - 1 } } := by
    rw [MemoryBuffer.closeGroup, UndoStack.closeGroup, if_neg hstack]
  rw [hhistory, hbuffer]
  exact ⟨⟨hb.inside, hb.limit, hb.size, congrArg (· - 1) hb.depth,
    .opened g o hcurrent hpending hstill hleads hedited, hb.groups⟩, [], hb.gains_nil rfl rfl rfl⟩

/-- A group without an edit leaves no trace, and has not changed the text. -/
theorem closeGroup_empty (houter : h.depth = 1) (hempty : g.edits = []) :
    Advances b h b.closeGroup h.closed := by
  have hstack : b.undoStack.depth = 1 := hb.depth.trans houter
  have hplace : o.place.text = b.text := by
    rw [← hleads.text, EditGroup.revert, hempty]
    rfl
  have habsent : o.edited = false := by
    rw [hedited, hempty]
    rfl
  have hhistory : h.closed = { begun := h.begun } := by
    rw [History.closed, if_pos houter, hpending]
    cases o with
    | mk place edited =>
      obtain rfl : edited = false := habsent
      rfl
  have hbuffer : b.closeGroup =
      { b with undoStack := { b.undoStack with depth := 0, current := none } } := by
    rw [MemoryBuffer.closeGroup, UndoStack.closeGroup, if_pos hstack, hcurrent]
    simp [hempty]
  have hbase := h.base_of_open hpending b.text
  have hgroups := hb.groups
  rw [hbase, hplace] at hgroups
  rw [hhistory, hbuffer]
  exact ⟨⟨hb.inside, hb.limit, hb.size, rfl, .closed rfl rfl rfl, hgroups⟩, [],
    hb.gains_nil rfl rfl (hplace.symm.trans hbase.symm)⟩

theorem closeGroup_kept (houter : h.depth = 1) (hne : g.edits ≠ []) :
    Advances b h b.closeGroup h.closed := by
  have hstack : b.undoStack.depth = 1 := hb.depth.trans houter
  have hpresent : o.edited = true := by
    rw [hedited]
    simp [hne]
  have hhistory : h.closed = { begun := o.place :: h.begun } := by
    rw [History.closed, if_pos houter, hpending]
    cases o with
    | mk place edited =>
      obtain rfl : edited = true := hpresent
      rfl
  have hbuffer : b.closeGroup =
      { b with undoStack := { b.undoStack.push g with depth := 0, current := none } } := by
    rw [MemoryBuffer.closeGroup, UndoStack.closeGroup, if_pos hstack, hcurrent]
    simp [hne]
    rfl
  have hbase := h.base_of_open hpending b.text
  obtain ⟨hgroups, hsize⟩ := hb.push hleads hbase.symm
  rw [hhistory, hbuffer]
  refine ⟨⟨hb.inside, hb.limit, ?_, rfl, .closed rfl rfl rfl, hgroups⟩, [o.place],
    ⟨rfl, hsize, hbase.symm⟩⟩
  show (b.undoStack.push g).size ≤ 100
  omega

end

theorem endGroup (hb : Tracks b h) : Advances b h (b.apply .endGroup) h.closed := by
  rcases hb.pending with ⟨hcurrent, hpending, hdepth⟩ |
    ⟨g, o, hcurrent, hpending, hdepth, hleads, hedited⟩
  · -- Without a group there is nothing to end.
    have hstack : b.undoStack.depth = 0 := hb.depth.trans hdepth
    have hbuffer : b.apply .endGroup = b := by
      rw [MemoryBuffer.apply, MemoryBuffer.endGroup, UndoStack.endGroup, if_pos hstack]
      rfl
    rw [h.closed_of_depth_zero hdepth, hbuffer]
    exact ⟨hb, [], hb.gains_nil rfl rfl rfl⟩
  · have hstack : b.undoStack.depth ≠ 0 := hb.depth ▸ hdepth
    have hbuffer : b.apply .endGroup = b.closeGroup := by
      rw [MemoryBuffer.apply, MemoryBuffer.endGroup, UndoStack.endGroup, if_neg hstack]
      rfl
    rw [hbuffer]
    by_cases houter : h.depth = 1
    · by_cases hempty : g.edits = []
      · exact hb.closeGroup_empty hcurrent hpending hleads hedited houter hempty
      · exact hb.closeGroup_kept hcurrent hpending hleads hedited houter hempty
    · exact hb.closeGroup_inner hcurrent hpending hleads hedited hdepth houter

theorem moved (hb : Tracks b h) (b' : MemoryBuffer) (htext : b'.text = b.text)
    (hstack : b'.undoStack = b.undoStack) (hinside : b'.place.Inside) :
    Advances b h b' h := by
  refine ⟨⟨hinside, ?_, ?_, ?_, ?_, ?_⟩, [], hb.gains_nil rfl ?_ ?_⟩
  · rw [hstack]
    exact hb.limit
  · rw [hstack]
    exact hb.size
  · rw [hstack]
    exact hb.depth
  · rw [htext, hstack]
    exact hb.pending
  · rw [htext, hstack]
    exact hb.groups
  · rw [hstack]
  · rw [htext]

theorem undo (hb : Tracks b h) (hdepth : b.undoStack.depth = 0) :
    (b.undo.1 = false ∧ b.undoStack.size = 0 ∧ b.undo.2 = b) ∨
      ∃ p rest, b.undo.1 = true ∧ h.begun = p :: rest ∧ b.undo.2.place = p ∧
        b.undo.2.undoStack.size + 1 = b.undoStack.size ∧ b.undo.2.undoStack.depth = 0 ∧
        Tracks b.undo.2 { h with begun := rest } := by
  rcases hb.pending with ⟨hcurrent, hpending, hzero⟩ | ⟨g, o, -, -, hopen, -, -⟩
  · cases hstack : b.undoStack.groups with
    | nil =>
      have hundo : b.undo = (false, b) := by
        rw [MemoryBuffer.undo, UndoStack.pop, hstack]
      rw [hundo]
      exact Or.inl ⟨rfl, congrArg List.length hstack, rfl⟩
    | cons g groups =>
      have hundo : b.undo = (true, { b with
          text := g.revert b.text
          cursor := g.cursorBefore
          undoStack := { b.undoStack with groups := groups } }) := by
        rw [MemoryBuffer.undo, UndoStack.pop, hstack]
      have hsize : groups.length + 1 = b.undoStack.size := by
        rw [UndoStack.size, hstack, List.length_cons]
      have hlimit := hb.size
      have hgroups := hb.groups
      rw [h.base_of_closed hpending, hstack] at hgroups
      cases hbegun : h.begun with
      | nil =>
        rw [hbegun] at hgroups
        exact hgroups.elim
      | cons p rest =>
        rw [hbegun] at hgroups
        obtain ⟨hleads, hrest⟩ := hgroups
        have hplace : (⟨g.revert b.text, g.cursorBefore⟩ : Place) = p := by
          cases p with
          | mk text cursor => rw [hleads.text, hleads.cursor]
        refine Or.inr ⟨p, rest, ?_⟩
        rw [hundo]
        refine ⟨rfl, rfl, hplace, hsize, hdepth, ⟨?_, hb.limit, ?_, hb.depth,
          .closed hcurrent hpending hzero, ?_⟩⟩
        · show Place.Inside ⟨g.revert b.text, g.cursorBefore⟩
          rw [hplace]
          exact hleads.inside
        · show groups.length ≤ 100
          omega
        · rw [History.base_of_closed { h with begun := rest } hpending]
          show Leads (g.revert b.text) groups rest
          rw [hleads.text]
          exact hrest
  · exact absurd (hb.depth.symm.trans hdepth) hopen

/-- Every allowed step keeps the agreement, and other than by an undo the history only grows. -/
theorem step (hb : Tracks b h) (s : MemoryBuffer.Step) (hs : b.Allows s) :
    Tracks (b.apply s) (h.next b s) ∧
      (s ≠ .undo → ∃ new, Gains b h (b.apply s) (h.next b s) new) := by
  obtain ⟨hlow, hhigh⟩ : 0 ≤ b.cursor ∧ b.cursor ≤ b.text.length := hb.inside
  cases s with
  | insert new =>
    have hedit := hb.edit b.cursor b.cursor new _ hlow (Int.le_refl _) hhigh
      (MemoryBuffer.inside_insert hb.inside new)
    exact ⟨hedit.1, fun _ => hedit.2⟩
  | replace start stop new =>
    obtain ⟨hstart, hle, hstop⟩ := hs
    have hedit := hb.edit start stop new _ hstart hle hstop
      (MemoryBuffer.inside_replace hb.inside new hstart hle hstop)
    exact ⟨hedit.1, fun _ => hedit.2⟩
  | setCursor pos =>
    have hmoved := hb.moved (b.setCursor pos) rfl rfl (b.inside_setCursor pos)
    exact ⟨hmoved.1, fun _ => hmoved.2⟩
  | beginGroup => exact ⟨hb.beginGroup.1, fun _ => hb.beginGroup.2⟩
  | endGroup => exact ⟨hb.endGroup.1, fun _ => hb.endGroup.2⟩
  | undo =>
    refine ⟨?_, fun hne => absurd rfl hne⟩
    rcases hb.undo hs with ⟨hfalse, -, hsame⟩ | ⟨p, rest, htrue, hbegun, -, -, -, hafter⟩
    · rw [MemoryBuffer.apply, History.next, hfalse, hsame]
      exact hb
    · rw [MemoryBuffer.apply, History.next, htrue, if_pos rfl, hbegun]
      exact hafter
  | showPopup visible =>
    have hmoved := hb.moved { b with popupVisible := visible } rfl rfl hb.inside
    exact ⟨hmoved.1, fun _ => hmoved.2⟩

end Tracks
end WordCycle
