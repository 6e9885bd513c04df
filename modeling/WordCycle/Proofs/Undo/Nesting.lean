import WordCycle.Undo
import Mathlib.Data.List.Basic
import Mathlib.Data.List.Induction

/-! How an undo stack follows requests, whatever order they come in and whether or not they are refused. Its
depth is the nesting of begins and ends, and the group it has open is the one that the requests leave open:
it was begun outside of groups and holds what was recorded since. -/

namespace WordCycle.UndoStack
set_option autoImplicit false

/-! ## Requests one after the other -/

/-- The stack after a request. One that is refused leaves it as it is. -/
def next (s : UndoStack) (c : Command) : UndoStack :=
  match s.run c with
  | .ok (_, s') => s'
  | .error _ => s

def after (s : UndoStack) (requests : List Command) : UndoStack := requests.foldl next s

def deepened (depth : Nat) : Command → Nat
  | .beginGroup _ => depth + 1
  | .endGroup => depth - 1
  | .record _ _ | .pop => depth

/-- How many begins wait for their ends. An end that finds no begin counts for nothing. -/
def nesting (requests : List Command) : Nat := requests.foldl deepened 0

/-- The edits of requests, in the order in which they were recorded. -/
def recorded (requests : List Command) : List Edit :=
  requests.filterMap fun
    | .record e _ => some e
    | _ => none

theorem after_concat (s : UndoStack) (requests : List Command) (c : Command) :
    s.after (requests ++ [c]) = (s.after requests).next c :=
  List.foldl_concat next s c requests

theorem nesting_concat (requests : List Command) (c : Command) :
    nesting (requests ++ [c]) = deepened (nesting requests) c :=
  List.foldl_concat deepened 0 c requests

theorem recorded_concat (requests : List Command) (c : Command) :
    recorded (requests ++ [c]) = recorded requests ++ recorded [c] :=
  List.filterMap_append

/-! ## The open group -/

/-- The group that requests leave open: it was begun when no other was open, the nesting has not come back
to nothing since, and it holds the edits recorded since. -/
def LeavesOpen (requests : List Command) (g : EditGroup) : Prop :=
  ∃ before cursor inside, requests = before ++ .beginGroup cursor :: inside ∧ nesting before = 0 ∧
    (∀ first, first <+: inside → 0 < nesting (before ++ .beginGroup cursor :: first)) ∧
    g = ⟨recorded inside, cursor⟩

section
variable {requests : List Command} {g g' : EditGroup}

theorem LeavesOpen.nesting_pos (h : LeavesOpen requests g) : 0 < nesting requests := by
  obtain ⟨before, cursor, inside, rfl, -, hopen, -⟩ := h
  exact hopen inside (List.prefix_refl inside)

theorem leavesOpen_beginGroup (h : nesting requests = 0) (cursor : Int) :
    LeavesOpen (requests ++ [.beginGroup cursor]) ⟨[], cursor⟩ := by
  refine ⟨requests, cursor, [], rfl, h, fun first hfirst => ?_, rfl⟩
  rw [List.prefix_nil.mp hfirst, nesting_concat]
  exact Nat.succ_pos _

theorem LeavesOpen.concat (h : LeavesOpen requests g) {c : Command}
    (hstill : 0 < nesting (requests ++ [c])) :
    LeavesOpen (requests ++ [c]) { g with edits := g.edits ++ recorded [c] } := by
  obtain ⟨before, cursor, inside, rfl, hbefore, hopen, rfl⟩ := h
  refine ⟨before, cursor, inside ++ [c], by simp, hbefore, fun first hfirst => ?_, ?_⟩
  · rcases List.prefix_concat_iff.mp hfirst with rfl | hfirst
    · simpa using hstill
    · exact hopen first hfirst
  · rw [recorded_concat]

/-- A group was opened by the last request or was open before it. -/
theorem LeavesOpen.cases_concat {c : Command} (h : LeavesOpen (requests ++ [c]) g) :
    (nesting requests = 0 ∧ ∃ cursor, c = .beginGroup cursor ∧ g = ⟨[], cursor⟩) ∨
      ∃ g', LeavesOpen requests g' ∧ g = { g' with edits := g'.edits ++ recorded [c] } := by
  obtain ⟨before, cursor, inside, hsplit, hbefore, hopen, rfl⟩ := h
  rcases List.eq_nil_or_concat' inside with rfl | ⟨init, last, rfl⟩
  · obtain ⟨rfl, hc⟩ := List.append_inj' hsplit rfl
    exact .inl ⟨hbefore, cursor, List.singleton_inj.mp hc, rfl⟩
  · rw [← List.cons_append, ← List.append_assoc] at hsplit
    obtain ⟨rfl, hc⟩ := List.append_inj' hsplit rfl
    obtain rfl := List.singleton_inj.mp hc
    refine .inr ⟨⟨recorded init, cursor⟩, ⟨before, cursor, init, rfl, hbefore, ?_, rfl⟩, ?_⟩
    · exact fun first hfirst => hopen first (hfirst.trans (List.prefix_append init _))
    · rw [recorded_concat]

theorem LeavesOpen.unique (h : LeavesOpen requests g) (h' : LeavesOpen requests g') : g = g' := by
  induction requests using List.reverseRecOn generalizing g g' with
  | nil =>
    have hpos := h.nesting_pos
    cases hpos
  | append_singleton requests c ih =>
    rcases h.cases_concat with ⟨hzero, cursor, hc, rfl⟩ | ⟨old, hold, rfl⟩ <;>
      rcases h'.cases_concat with ⟨hzero', cursor', hc', rfl⟩ | ⟨old', hold', rfl⟩
    · obtain rfl := Command.beginGroup.inj (hc.symm.trans hc')
      rfl
    · exact absurd hzero (Nat.ne_of_gt hold'.nesting_pos)
    · exact absurd hzero' (Nat.ne_of_gt hold.nesting_pos)
    · rw [ih hold hold']

end

/-! ## The depth and the open group -/

/-- A stack that has followed requests: its depth is their nesting, and it has a group open exactly inside of
begins, the one that the requests leave open. -/
structure Follows (s : UndoStack) (requests : List Command) : Prop where
  depth : s.depth = nesting requests
  closed : nesting requests = 0 → s.current = none
  opened : 0 < nesting requests → ∃ g, s.current = some g ∧ LeavesOpen requests g

section
variable {s : UndoStack} {requests : List Command}

theorem next_endGroup_of_closed (h : s.depth = 0) : s.next .endGroup = s := by
  rw [next, run, endGroup, if_pos h]
  rfl

theorem next_endGroup_of_open (h : 0 < s.depth) : s.next .endGroup = s.closeGroup := by
  rw [next, run, endGroup, if_neg (Nat.ne_of_gt h)]
  rfl

theorem closeGroup_inner (h : 1 < s.depth) : s.closeGroup = { s with depth := s.depth - 1 } := by
  rw [closeGroup, if_neg (Nat.ne_of_gt h)]

theorem closeGroup_outermost (h : s.depth = 1) {g : EditGroup} (hcurrent : s.current = some g) :
    s.closeGroup =
      if g.edits = [] then { s with depth := 0, current := none }
      else { s with depth := 0, current := none }.push g := by
  rw [closeGroup, if_pos h, hcurrent]
  simp only [List.isEmpty_iff]

theorem record_of_closed (h : s.current = none) (e : Edit) (cursor : Int) :
    s.next (.record e cursor) = s.push ⟨[e], cursor⟩ := by
  show s.record e cursor = _
  rw [record, h]

theorem record_of_open {g : EditGroup} (h : s.current = some g) (e : Edit) (cursor : Int) :
    s.next (.record e cursor) = { s with current := some { g with edits := g.edits ++ [e] } } := by
  show s.record e cursor = _
  rw [record, h]

theorem next_pop (s : UndoStack) : s.next .pop = { s with groups := s.groups.tail } := by
  show s.pop.2 = _
  rw [pop]
  split
  · next h => rw [h, List.tail_nil, ← h]
  · next h => rw [h, List.tail_cons]

namespace Follows

theorem current_eq_some_iff (h : s.Follows requests) (g : EditGroup) :
    s.current = some g ↔ LeavesOpen requests g := by
  constructor
  · intro hcurrent
    rcases Nat.eq_zero_or_pos (nesting requests) with hzero | hpos
    · rw [h.closed hzero] at hcurrent
      cases hcurrent
    · obtain ⟨g', hcurrent', hopen⟩ := h.opened hpos
      rw [hcurrent] at hcurrent'
      exact Option.some.inj hcurrent' ▸ hopen
  · intro hopen
    obtain ⟨g', hcurrent, hopen'⟩ := h.opened hopen.nesting_pos
    rw [hcurrent, hopen'.unique hopen]

theorem isSome_current_iff (h : s.Follows requests) :
    s.current.isSome = true ↔ 0 < nesting requests := by
  rw [Option.isSome_iff_exists]
  constructor
  · rintro ⟨g, hcurrent⟩
    exact ((h.current_eq_some_iff g).mp hcurrent).nesting_pos
  · intro hpos
    obtain ⟨g, hcurrent, -⟩ := h.opened hpos
    exact ⟨g, hcurrent⟩

theorem of_zero {s : UndoStack} (hzero : nesting requests = 0) (hdepth : s.depth = 0)
    (hcurrent : s.current = none) : s.Follows requests where
  depth := hdepth.trans hzero.symm
  closed _ := hcurrent
  opened hpos := absurd hzero (Nat.ne_of_gt hpos)

/-- A group that stays open takes the edit of the request, if that records one. -/
theorem of_still_open (h : s.Follows requests) (hpos : 0 < nesting requests) {c : Command}
    {s' : UndoStack} (hstill : 0 < nesting (requests ++ [c]))
    (hdepth : s'.depth = nesting (requests ++ [c]))
    (hcurrent : ∀ g, s.current = some g →
      s'.current = some { g with edits := g.edits ++ recorded [c] }) :
    s'.Follows (requests ++ [c]) where
  depth := hdepth
  closed hzero := absurd hzero (Nat.ne_of_gt hstill)
  opened _ := by
    obtain ⟨g, hg, hopen⟩ := h.opened hpos
    exact ⟨_, hcurrent g hg, hopen.concat hstill⟩

theorem of_unchanged (h : s.Follows requests) (hpos : 0 < nesting requests) {c : Command}
    {s' : UndoStack} (hstill : 0 < nesting (requests ++ [c]))
    (hdepth : s'.depth = nesting (requests ++ [c])) (hcurrent : s'.current = s.current)
    (hnothing : recorded [c] = []) : s'.Follows (requests ++ [c]) :=
  h.of_still_open hpos hstill hdepth fun g hg => by rw [hcurrent, hg, hnothing, List.append_nil]

theorem next_beginGroup (h : s.Follows requests) (cursor : Int) :
    (s.next (.beginGroup cursor)).Follows (requests ++ [.beginGroup cursor]) := by
  have hnesting := nesting_concat requests (.beginGroup cursor)
  have hstill : 0 < nesting (requests ++ [.beginGroup cursor]) := hnesting ▸ Nat.succ_pos _
  have hdepth : (s.next (.beginGroup cursor)).depth = nesting (requests ++ [.beginGroup cursor]) := by
    rw [hnesting, ← h.depth]
    rfl
  have hcurrent : (s.next (.beginGroup cursor)).current =
      if nesting requests = 0 then some ⟨[], cursor⟩ else s.current := by
    rw [← h.depth]
    rfl
  rcases Nat.eq_zero_or_pos (nesting requests) with hzero | hpos
  · rw [if_pos hzero] at hcurrent
    exact ⟨hdepth, fun hnone => absurd hnone (Nat.ne_of_gt hstill),
      fun _ => ⟨_, hcurrent, leavesOpen_beginGroup hzero cursor⟩⟩
  · rw [if_neg (Nat.ne_of_gt hpos)] at hcurrent
    exact h.of_unchanged hpos hstill hdepth hcurrent rfl

theorem next_endGroup (h : s.Follows requests) :
    (s.next .endGroup).Follows (requests ++ [.endGroup]) := by
  have hnesting : nesting (requests ++ [.endGroup]) = s.depth - 1 := by
    rw [nesting_concat, ← h.depth]
    rfl
  have hdepth := h.depth
  obtain hzero | hone | hmore : s.depth = 0 ∨ s.depth = 1 ∨ 1 < s.depth := by omega
  · rw [next_endGroup_of_closed hzero]
    exact of_zero (by omega) hzero (h.closed (by omega))
  · obtain ⟨g, hg, -⟩ := h.opened (by omega)
    rw [next_endGroup_of_open (by omega), closeGroup_outermost hone hg]
    split
    · exact of_zero (by omega) rfl rfl
    · exact of_zero (by omega) rfl rfl
  · rw [next_endGroup_of_open (by omega), closeGroup_inner hmore]
    exact h.of_unchanged (by omega) (by omega) hnesting.symm rfl rfl

theorem next (h : s.Follows requests) (c : Command) : (s.next c).Follows (requests ++ [c]) := by
  cases c with
  | beginGroup cursor => exact h.next_beginGroup cursor
  | endGroup => exact h.next_endGroup
  | record e cursor =>
    have hnesting := nesting_concat requests (.record e cursor)
    rcases Nat.eq_zero_or_pos (nesting requests) with hzero | hpos
    · have hcurrent := h.closed hzero
      rw [record_of_closed hcurrent]
      exact of_zero (hnesting.trans hzero) (h.depth.trans hzero) hcurrent
    · obtain ⟨g, hg, -⟩ := h.opened hpos
      rw [record_of_open hg]
      refine h.of_still_open hpos (hnesting ▸ hpos) (h.depth.trans hnesting.symm) fun g' hg' => ?_
      rw [hg] at hg'
      obtain rfl := Option.some.inj hg'
      rfl
  | pop =>
    have hnesting := nesting_concat requests .pop
    rw [next_pop]
    rcases Nat.eq_zero_or_pos (nesting requests) with hzero | hpos
    · exact of_zero (hnesting.trans hzero) (h.depth.trans hzero) (h.closed hzero)
    · exact h.of_unchanged hpos (hnesting ▸ hpos) (h.depth.trans hnesting.symm) rfl rfl

end Follows

theorem follows_after (limit : Option Nat) (requests : List Command) :
    (after { limit } requests).Follows requests := by
  induction requests using List.reverseRecOn with
  | nil => exact .of_zero rfl rfl rfl
  | append_singleton requests c ih =>
    rw [after_concat]
    exact ih.next c

end

end WordCycle.UndoStack
