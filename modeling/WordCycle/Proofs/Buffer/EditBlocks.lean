import WordCycle.Buffer.Memory
import WordCycle.Proofs.Buffer.Document

/-! The edit blocks in which a buffer over a widget makes its edits. A begin opens a block unless one is
open, and any end closes the open one. So of nested groups only what is edited before the first end
shares the block of the outermost begin. -/

namespace WordCycle.DocumentBuffer
set_option autoImplicit false

/-! ## Blocks of a log -/

/-- For each text that a widget was sent to insert, the number of the outermost edit block that was open
then, and none outside of blocks. Before the log, `begun` blocks were begun and `depth` are open. -/
def blocksFrom : (begun depth : Nat) → List WidgetCall → List (Option Nat)
  | _, _, [] => []
  | begun, depth, .insertText _ :: calls =>
    (if depth = 0 then none else some begun) :: blocksFrom begun depth calls
  | begun, depth, .beginEditBlock :: calls =>
    blocksFrom (if depth = 0 then begun + 1 else begun) (depth + 1) calls
  | begun, depth, .endEditBlock :: calls => blocksFrom begun (depth - 1) calls
  | begun, depth, .setPosition _ _ :: calls => blocksFrom begun depth calls
  | begun, depth, .setTextCursor :: calls => blocksFrom begun depth calls

/-- The blocks of the insertions of a log that begins outside of blocks; the first block is number 1. -/
def editBlocks (calls : List WidgetCall) : List (Option Nat) := blocksFrom 0 0 calls

/-! ## Blocks of requests -/

def isEdit : Command → Bool
  | .replace _ _ _ => true
  | _ => false

def edits (requests : List Command) : Nat := requests.countP isEdit

theorem edits_append (requests more : List Command) :
    edits (requests ++ more) = edits requests + edits more :=
  List.countP_append

theorem edits_cons (c : Command) (requests : List Command) :
    edits (c :: requests) = (if isEdit c then 1 else 0) + edits requests :=
  List.countP_cons.trans (Nat.add_comm _ _)

/-- Where a buffer stands between its requests: how many blocks it has begun, and whether the last of them
is still open. -/
structure BlockState where
  begun : Nat := 0
  isOpen : Bool := false

namespace BlockState

/-- The block in which an edit is made. -/
def block (s : BlockState) : Option Nat := if s.isOpen then some s.begun else none

def depth (s : BlockState) : Nat := if s.isOpen then 1 else 0

def next (s : BlockState) : Command → BlockState
  | .beginGroup => if s.isOpen then s else ⟨s.begun + 1, true⟩
  | .endGroup => { s with isOpen := false }
  | _ => s

def after (s : BlockState) (requests : List Command) : BlockState := requests.foldl next s

/-- The blocks of the edits among requests. -/
def blocks : BlockState → List Command → List (Option Nat)
  | _, [] => []
  | s, c :: rest => (if isEdit c then [s.block] else []) ++ blocks (s.next c) rest

variable (s : BlockState)

theorem block_eq_some_iff {s : BlockState} {n : Nat} :
    s.block = some n ↔ s.isOpen = true ∧ n = s.begun := by
  rw [block, Option.ite_none_right_eq_some, Option.some.injEq, @eq_comm _ n]

theorem isOpen_next_beginGroup : (s.next .beginGroup).isOpen = true := by
  rw [next]
  split
  · assumption
  · rfl

theorem blocks_append (requests more : List Command) :
    s.blocks (requests ++ more) = s.blocks requests ++ (s.after requests).blocks more := by
  induction requests generalizing s with
  | nil => rfl
  | cons c rest ih => rw [List.cons_append, blocks, ih, blocks, List.append_assoc]; rfl

theorem length_blocks (requests : List Command) : (s.blocks requests).length = edits requests := by
  induction requests generalizing s with
  | nil => rfl
  | cons c rest ih =>
    rw [blocks, List.length_append, ih, edits_cons]
    split <;> rfl

theorem next_of_open {s : BlockState} (hopen : s.isOpen = true) {c : Command} (hc : c ≠ .endGroup) :
    s.next c = s := by
  cases c with
  | beginGroup => rw [next, if_pos hopen]
  | endGroup => exact absurd rfl hc
  | _ => rfl

theorem blocks_of_open {s : BlockState} (hopen : s.isOpen = true) {requests : List Command}
    (hends : .endGroup ∉ requests) :
    s.blocks requests = List.replicate (edits requests) (some s.begun) ∧ s.after requests = s := by
  induction requests with
  | nil => exact ⟨rfl, rfl⟩
  | cons c rest ih =>
    have hnext := next_of_open hopen (List.ne_of_not_mem_cons hends).symm
    obtain ⟨hblocks, hafter⟩ := ih (List.not_mem_of_not_mem_cons hends)
    have hblock : s.block = some s.begun := block_eq_some_iff.mpr ⟨hopen, rfl⟩
    have hcons : s.after (c :: rest) = (s.next c).after rest := rfl
    refine ⟨?_, by rw [hcons, hnext, hafter]⟩
    rw [blocks, hnext, hblocks, hblock, edits_cons, ← List.replicate_append_replicate]
    split <;> rfl

/-- Blocks are numbered upwards, and a closed one takes no more edits. -/
theorem lt_of_mem_blocks (requests : List Command) {n : Nat} (hn : some n ∈ s.blocks requests) :
    s.begun ≤ n ∧ (s.isOpen = false → s.begun < n) := by
  induction requests generalizing s with
  | nil => cases hn
  | cons c rest ih =>
    rw [blocks, List.mem_append] at hn
    rcases hn with hn | hn
    · have hblock : some n = s.block := by
        split at hn
        · exact List.mem_singleton.mp hn
        · cases hn
      obtain ⟨hopen, rfl⟩ := block_eq_some_iff.mp hblock.symm
      exact ⟨Nat.le_refl _, fun hclosed => by simp [hopen] at hclosed⟩
    · have hrest := ih (s.next c) hn
      cases c with
      | beginGroup =>
        rw [next] at hrest
        split at hrest
        · exact hrest
        · exact ⟨Nat.le_of_succ_le hrest.1, fun _ => hrest.1⟩
      | endGroup => exact ⟨hrest.1, fun _ => hrest.2 rfl⟩
      | _ => exact hrest

/-- A block is open behind requests if it was before, and no end came, or if no end has come since a
begin. -/
theorem isOpen_after {requests : List Command} (hopen : (s.after requests).isOpen = true) :
    (s.isOpen = true ∧ .endGroup ∉ requests) ∨
      ∃ before inside, requests = before ++ .beginGroup :: inside ∧ .endGroup ∉ inside := by
  induction requests generalizing s with
  | nil => exact Or.inl ⟨hopen, List.not_mem_nil⟩
  | cons c rest ih =>
    rcases ih (s.next c) hopen with ⟨hnext, hends⟩ | ⟨before, inside, rfl, hends⟩
    · cases c with
      | beginGroup => exact Or.inr ⟨[], rest, rfl, hends⟩
      | endGroup => cases hnext
      | _ => exact Or.inl ⟨hnext, List.not_mem_cons_of_ne_of_not_mem (by simp) hends⟩
    · exact Or.inr ⟨c :: before, inside, rfl, hends⟩

theorem blocks_of_edits_zero {requests : List Command} (h : edits requests = 0) : s.blocks requests = [] :=
  List.eq_nil_of_length_eq_zero ((s.length_blocks requests).trans h)

/-- Behind the end of a block nothing is edited in it. -/
theorem edits_eq_zero_of_closed {s : BlockState} (hclosed : s.isOpen = false) (requests : List Command)
    (hall : ∀ block ∈ s.blocks requests, block = some s.begun) : edits requests = 0 := by
  rw [← s.length_blocks, List.length_eq_zero_iff, List.eq_nil_iff_forall_not_mem]
  intro block hblock
  obtain rfl := hall block hblock
  exact absurd ((s.lt_of_mem_blocks requests hblock).2 hclosed) (Nat.lt_irrefl _)

theorem exists_first_edit {requests : List Command} (h : edits requests ≠ 0) :
    ∃ front e back, requests = front ++ e :: back ∧ isEdit e = true ∧ edits front = 0 := by
  obtain ⟨e, he, hedit⟩ := List.countP_pos_iff.mp (Nat.pos_of_ne_zero h)
  obtain ⟨first, hfirst⟩ := Option.isSome_iff_exists.mp (List.find?_isSome.mpr ⟨e, he, hedit⟩)
  obtain ⟨hedit, front, back, hsplit, hfront⟩ := List.find?_eq_some_iff_append.mp hfirst
  refine ⟨front, first, back, hsplit, hedit, ?_⟩
  rw [edits, List.countP_eq_zero]
  intro c hc
  simpa using hfront c hc

theorem next_of_isEdit {c : Command} (h : isEdit c = true) : s.next c = s := by
  cases c with
  | replace start stop new => rfl
  | _ => cases h

/-- Edits in one block that find none open stand between a begin and the next end: the block of the first
edit is open then, and no edit behind its end is made in it. -/
theorem exists_between {s : BlockState} (hclosed : s.isOpen = false) {requests : List Command} {n : Nat}
    (hedits : edits requests ≠ 0) (hall : ∀ block ∈ s.blocks requests, block = some n) :
    ∃ before inside behind, requests = before ++ .beginGroup :: (inside ++ behind) ∧
      .endGroup ∉ inside ∧ edits before = 0 ∧ edits behind = 0 := by
  obtain ⟨front, e, back, rfl, hedit, hfront⟩ := exists_first_edit hedits
  rw [blocks_append, s.blocks_of_edits_zero hfront, List.nil_append, blocks, if_pos hedit,
    next_of_isEdit _ hedit, List.singleton_append] at hall
  obtain ⟨hopen, rfl⟩ := block_eq_some_iff.mp (hall _ List.mem_cons_self)
  obtain ⟨before, inside, rfl, hends⟩ := (isOpen_after s hopen).resolve_left (by simp [hclosed])
  rw [edits_append] at hfront
  have he : .endGroup ≠ e := by
    rintro rfl
    cases hedit
  -- The begin of the block is found; its end is the first one behind the edit, if any is.
  by_cases hend : .endGroup ∈ back
  · obtain ⟨mid, behind, rfl, hmid⟩ := List.eq_append_cons_of_mem hend
    obtain ⟨-, hafter⟩ := blocks_of_open hopen hmid
    rw [blocks_append, hafter] at hall
    have hbehind := edits_eq_zero_of_closed (s := ((s.after (before ++ .beginGroup :: inside)).next .endGroup))
      rfl behind fun block hblock =>
        hall block (List.mem_cons_of_mem _ (List.mem_append_right _ hblock))
    exact ⟨before, inside ++ e :: mid, .endGroup :: behind, by simp, by simp [hends, he, hmid],
      by omega, hbehind⟩
  · exact ⟨before, inside ++ e :: back, [], by simp, by simp [hends, he, hend], by omega, rfl⟩

/-- Edits between a begin and the next end are made in the block that is open behind the begin. -/
theorem blocks_between {before inside behind : List Command} (hends : .endGroup ∉ inside)
    (hbefore : edits before = 0) (hbehind : edits behind = 0) :
    s.blocks (before ++ .beginGroup :: (inside ++ behind)) =
      List.replicate (edits inside) (some ((s.after before).next .beginGroup).begun) := by
  obtain ⟨hblocks, -⟩ := blocks_of_open (s.after before).isOpen_next_beginGroup hends
  rw [blocks_append, s.blocks_of_edits_zero hbefore, List.nil_append, blocks, blocks_append, hblocks,
    blocks_of_edits_zero _ hbehind, List.append_nil]
  rfl

/-- Edits of requests that find no block open share a block exactly if they stand between a begin and the
next end. -/
theorem share_block_iff {s : BlockState} (hclosed : s.isOpen = false) (requests : List Command)
    (hsome : .beginGroup ∈ requests) :
    (∃ n, ∀ block ∈ s.blocks requests, block = some n) ↔
      ∃ before inside behind, requests = before ++ .beginGroup :: (inside ++ behind) ∧
        .endGroup ∉ inside ∧ edits before = 0 ∧ edits behind = 0 := by
  constructor
  · rintro ⟨n, hall⟩
    by_cases hedits : edits requests = 0
    · -- Without edits any begin will do.
      obtain ⟨before, behind, rfl, -⟩ := List.eq_append_cons_of_mem hsome
      rw [edits_append, edits_cons] at hedits
      exact ⟨before, [], behind, rfl, List.not_mem_nil, by omega, by omega⟩
    · exact exists_between hclosed hedits hall
  · rintro ⟨before, inside, behind, rfl, hends, hbefore, hbehind⟩
    refine ⟨((s.after before).next .beginGroup).begun, ?_⟩
    intro block hblock
    rw [s.blocks_between hends hbefore hbehind] at hblock
    exact List.eq_of_mem_replicate hblock

end BlockState

/-! ## Requests and their log -/

def after (b : DocumentBuffer) (requests : List Command) : DocumentBuffer :=
  requests.foldl (fun b c => (b.run c).2) b

/-- The buffer stands where its requests have led it, and of the edit blocks of its widget only those are not
its own that were open outside. -/
structure Stands (b : DocumentBuffer) (outside : Nat) (s : BlockState) : Prop where
  isOpen : b.editCursor.isSome = s.isOpen
  blocks : b.widget.blocks = outside + s.depth

theorem replace_calls (b : DocumentBuffer) (start stop : Int) (new : Text) :
    (b.replace start stop new).calls = b.calls ++
      [.setPosition (b.toUnits start) false, .setPosition (b.toUnits stop) true, .insertText new] := by
  rw [List.append_cons, List.append_cons]
  rfl

theorem setCursor_calls (b : DocumentBuffer) (pos : Int) :
    (b.setCursor pos).calls = b.calls ++ [.setPosition (b.toUnits pos) false, .setTextCursor] := by
  rw [List.append_cons]
  rfl

theorem replace_editCursor (b : DocumentBuffer) (start stop : Int) (new : Text) :
    (b.replace start stop new).editCursor.isSome = b.editCursor.isSome := by
  simp [DocumentBuffer.replace, move, sent, received, remember]

theorem replace_blocks (b : DocumentBuffer) (start stop : Int) (new : Text) :
    (b.replace start stop new).widget.blocks = b.widget.blocks :=
  Widget.replaceUnits_blocks _ _

/-- What one request sends to the widget, by the blocks of its insertions. -/
theorem Stands.run {b : DocumentBuffer} {outside : Nat} {s : BlockState} (h : b.Stands outside s)
    (c : Command) :
    (b.run c).2.Stands outside (s.next c) ∧
      ∃ sent, (b.run c).2.calls = b.calls ++ sent ∧
        ∀ calls, blocksFrom s.begun s.depth (sent ++ calls) =
          (if isEdit c then [s.block] else []) ++ blocksFrom (s.next c).begun (s.next c).depth calls := by
  cases c with
  | replace start stop new =>
    refine ⟨⟨(b.replace_editCursor start stop new).trans h.isOpen,
      (b.replace_blocks start stop new).trans h.blocks⟩, _, b.replace_calls start stop new, ?_⟩
    intro calls
    have hblock : s.block = if s.depth = 0 then none else some s.begun := by
      unfold BlockState.block BlockState.depth
      cases s.isOpen <;> rfl
    rw [hblock]
    rfl
  | setCursor pos => exact ⟨⟨h.isOpen, h.blocks⟩, _, b.setCursor_calls pos, fun _ => rfl⟩
  | beginGroup =>
    rw [DocumentBuffer.run, DocumentBuffer.beginGroup, h.isOpen, BlockState.next]
    split
    · exact ⟨h, [], (List.append_nil _).symm, fun _ => rfl⟩
    · next hclosed =>
      have hdepth : s.depth = 0 := if_neg hclosed
      have hblocks := h.blocks
      rw [hdepth] at hblocks ⊢
      exact ⟨⟨rfl, congrArg (· + 1) hblocks⟩, [.beginEditBlock], rfl, fun _ => rfl⟩
  | endGroup =>
    -- The end of an inner group is no other than that of the outermost one.
    rw [DocumentBuffer.run, DocumentBuffer.endGroup, h.isOpen, BlockState.next]
    split
    · next hopen =>
      have hdepth : s.depth = 1 := if_pos hopen
      have hblocks := h.blocks
      rw [hdepth] at hblocks ⊢
      refine ⟨⟨rfl, (Widget.endBlock_blocks _).trans ?_⟩, [.endEditBlock], rfl, fun _ => rfl⟩
      rw [hblocks]
      rfl
    · next hclosed =>
      have hsame : { s with isOpen := false } = s := by
        cases s with
        | mk begun isOpen => simpa using hclosed
      rw [hsame]
      exact ⟨h, [], (List.append_nil _).symm, fun _ => rfl⟩
  | changeText t =>
    exact ⟨⟨h.isOpen, (Widget.replaceUnits_blocks _ _).trans h.blocks⟩, [], (List.append_nil _).symm,
      fun _ => rfl⟩
  | _ => exact ⟨⟨h.isOpen, h.blocks⟩, [], (List.append_nil _).symm, fun _ => rfl⟩

theorem Stands.after {b : DocumentBuffer} {outside : Nat} {s : BlockState} (h : b.Stands outside s)
    (requests : List Command) :
    (b.after requests).Stands outside (s.after requests) ∧
      ∃ calls, (b.after requests).calls = b.calls ++ calls ∧
        blocksFrom s.begun s.depth calls = s.blocks requests := by
  induction requests generalizing b s with
  | nil => exact ⟨h, [], (List.append_nil _).symm, rfl⟩
  | cons c rest ih =>
    obtain ⟨hnext, sent, hsent, hblocks⟩ := h.run c
    obtain ⟨hstands, calls, hcalls, hrest⟩ := ih hnext
    refine ⟨hstands, sent ++ calls, ?_, ?_⟩
    · rw [← List.append_assoc, ← hsent]
      exact hcalls
    · rw [hblocks, hrest]
      rfl

/-! ## Groups -/

/-- Requests between a begin and an end. -/
def group (inner : List Command) : List Command := .beginGroup :: (inner ++ [.endGroup])

theorem BlockState.closed_after_group (s : BlockState) (inner : List Command) :
    (s.after (group inner)).isOpen = false := by
  have hlast : s.after (group inner) = (s.after (.beginGroup :: inner)).next .endGroup := by
    rw [group, ← List.cons_append, after, List.foldl_append]
    rfl
  rw [hlast]
  rfl

/-- A group of any requests, groups of their own among them, asked for when no edit block is open. Behind it
none is open again. The edits before the first end, of whatever group, are made in the block of the
outermost begin, and no later edit is. So all edits of a group share a block exactly if they stand
between a begin and the next end, as they do without groups inside. -/
theorem edits_share_block_iff {b : DocumentBuffer} (hclosed : b.editCursor = none)
    (inner : List Command) :
    ∃ calls, (b.after (group inner)).calls = b.calls ++ calls ∧
      (b.after (group inner)).editCursor = none ∧
      (b.after (group inner)).widget.blocks = b.widget.blocks ∧
      (∃ first rest others, inner ++ [.endGroup] = first ++ .endGroup :: rest ∧ .endGroup ∉ first ∧
        editBlocks calls = List.replicate (edits first) (some 1) ++ others ∧
        others.length = edits rest ∧ some 1 ∉ others) ∧
      ((∃ n, ∀ block ∈ editBlocks calls, block = some n) ↔
        ∃ before inside behind, group inner = before ++ .beginGroup :: (inside ++ behind) ∧
          .endGroup ∉ inside ∧ edits before = 0 ∧ edits behind = 0) := by
  have hstands : b.Stands b.widget.blocks {} := ⟨by rw [hclosed]; rfl, rfl⟩
  obtain ⟨⟨hopen, hblocks⟩, calls, hcalls, hlog⟩ := hstands.after (group inner)
  have hended := BlockState.closed_after_group {} inner
  have hshown : editBlocks calls = BlockState.blocks {} (group inner) := hlog
  refine ⟨calls, hcalls, ?_, ?_, ?_, ?_⟩
  · rw [hended] at hopen
    exact Option.isNone_iff_eq_none.mp (by simpa using hopen)
  · rw [hblocks, BlockState.depth, hended]
    rfl
  · obtain ⟨first, rest, hsplit, hends⟩ :=
      List.eq_append_cons_of_mem (List.mem_append_right inner (List.mem_singleton_self Command.endGroup))
    obtain ⟨hfirst, hstill⟩ :=
      BlockState.blocks_of_open (s := ⟨1, true⟩) rfl hends
    refine ⟨first, rest, BlockState.blocks ⟨1, false⟩ rest, hsplit, hends, ?_,
      BlockState.length_blocks _ rest, ?_⟩
    · rw [hshown, group, hsplit, BlockState.blocks]
      show BlockState.blocks ⟨1, true⟩ (first ++ .endGroup :: rest) = _
      rw [BlockState.blocks_append, hfirst, hstill]
      rfl
    · intro hmem
      exact Nat.lt_irrefl 1 ((BlockState.lt_of_mem_blocks _ rest hmem).2 rfl)
  · rw [hshown]
    exact BlockState.share_block_iff rfl (group inner) List.mem_cons_self

theorem edits_share_block_iff_inner_last :
    ({ widget := .ofText "ab".toList } : DocumentBuffer).editCursor = none ∧
      ∃ calls,
        (after { widget := .ofText "ab".toList } (group [.replace 0 1 "x".toList, .beginGroup,
          .replace 1 1 "y".toList, .setCursor 2, .endGroup])).calls = [] ++ calls ∧
        ∃ n, ∀ block ∈ editBlocks calls, block = some n := by
  obtain ⟨calls, hcalls, -, -, -, hshare⟩ := edits_share_block_iff
    (b := { widget := .ofText "ab".toList }) rfl [.replace 0 1 "x".toList, .beginGroup,
      .replace 1 1 "y".toList, .setCursor 2, .endGroup]
  exact ⟨rfl, calls, hcalls, hshare.mpr ⟨[], [.replace 0 1 "x".toList, .beginGroup,
    .replace 1 1 "y".toList, .setCursor 2], [.endGroup, .endGroup], rfl, by decide, rfl, rfl⟩⟩

/-- Behind the end of an inner group the outer one goes on without a block, while a buffer in memory keeps
the edits of both as one group. -/
theorem inner_end_closes_block :
    (∃ calls,
      (after { widget := .ofText "ab".toList } (group [.beginGroup, .replace 0 0 "x".toList, .endGroup,
        .replace 1 1 "y".toList])).calls = calls ∧
      editBlocks calls = [some 1, none] ∧ ¬∃ n, ∀ block ∈ editBlocks calls, block = some n) ∧
    (MemoryBuffer.runAll [.group [.group [.replace 0 0 "x".toList], .replace 1 1 "y".toList]]
      (.ofText "ab".toList none [])).2.undoStack.groups.map (fun g => g.edits.length) = [2] := by
  have hlog : editBlocks (after { widget := .ofText "ab".toList } (group [.beginGroup,
      .replace 0 0 "x".toList, .endGroup, .replace 1 1 "y".toList])).calls = [some 1, none] := by
    decide +kernel
  refine ⟨⟨_, rfl, hlog, ?_⟩, by decide +kernel⟩
  rintro ⟨n, hall⟩
  rw [hlog] at hall
  have hnone : none = some n := hall none (by simp)
  cases hnone

end WordCycle.DocumentBuffer
