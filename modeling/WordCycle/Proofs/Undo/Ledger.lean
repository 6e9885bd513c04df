import WordCycle.Proofs.Undo.Nesting

/-! What becomes of the edits that an undo stack is given. Beside the requests runs a ledger, in which each
group of edits is entered when it is complete and never taken out again: entries are only marked, by a pop
the newest one that is left, and over the limit the oldest. The stack holds what is left unmarked. -/

namespace WordCycle.UndoStack
set_option autoImplicit false

/-! ## The ledger -/

/-- What has become of a group of edits. -/
inductive Fate
  | kept
  | popped
  | evicted
  deriving DecidableEq

/-- A complete group of edits with what has become of it. -/
structure Entry where
  group : EditGroup
  fate : Fate := .kept
  deriving DecidableEq

/-- The groups of a ledger that are still kept. -/
def kept (ledger : List Entry) : List EditGroup :=
  (ledger.filter fun e => e.fate = .kept).map Entry.group

/-- Marks the first entry that is still kept. -/
def mark (fate : Fate) : List Entry → List Entry
  | [] => []
  | e :: rest => if e.fate = .kept then { e with fate } :: rest else e :: mark fate rest

def popNewest (ledger : List Entry) : List Entry := (mark .popped ledger.reverse).reverse

/-- Enters a group as the newest. If then more are kept than the limit allows, the oldest of these is
evicted. -/
def enter (limit : Option Nat) (g : EditGroup) (ledger : List Entry) : List Entry :=
  if limit.any fun n => n < (kept (ledger ++ [⟨g, .kept⟩])).length then
    mark .evicted (ledger ++ [⟨g, .kept⟩])
  else ledger ++ [⟨g, .kept⟩]

/-- A group that is complete with one more request: an edit outside of groups by itself, and the open group
with the end of the outermost begin, if an edit is in it. -/
inductive Completes (requests : List Command) : Command → EditGroup → Prop
  | alone (e : Edit) (cursor : Int) (h : nesting requests = 0) :
    Completes requests (.record e cursor) ⟨[e], cursor⟩
  | block {g : EditGroup} (hopen : LeavesOpen requests g) (hlast : nesting requests = 1)
    (hedits : g.edits ≠ []) : Completes requests .endGroup g

/-- The ledger of requests under a limit. -/
inductive Accounts (limit : Option Nat) : List Command → List Entry → Prop
  | new : Accounts limit [] []
  | completed {requests : List Command} {ledger : List Entry} {c : Command} {g : EditGroup}
    (h : Accounts limit requests ledger) (hc : Completes requests c g) :
    Accounts limit (requests ++ [c]) (enter limit g ledger)
  | popped {requests : List Command} {ledger : List Entry} (h : Accounts limit requests ledger) :
    Accounts limit (requests ++ [.pop]) (popNewest ledger)
  | other {requests : List Command} {ledger : List Entry} {c : Command}
    (h : Accounts limit requests ledger) (hpop : c ≠ .pop) (hnone : ∀ g, ¬Completes requests c g) :
    Accounts limit (requests ++ [c]) ledger

theorem exists_accounts (limit : Option Nat) (requests : List Command) :
    ∃ ledger, Accounts limit requests ledger := by
  induction requests using List.reverseRecOn with
  | nil => exact ⟨[], .new⟩
  | append_singleton requests c ih =>
    obtain ⟨ledger, h⟩ := ih
    by_cases hpop : c = .pop
    · subst hpop
      exact ⟨_, .popped h⟩
    · by_cases hc : ∃ g, Completes requests c g
      · obtain ⟨g, hc⟩ := hc
        exact ⟨_, .completed h hc⟩
      · exact ⟨ledger, .other h hpop fun g hg => hc ⟨g, hg⟩⟩

/-! ## Marks -/

section
variable (ledger more : List Entry) (fate : Fate)

theorem kept_append : kept (ledger ++ more) = kept ledger ++ kept more := by
  rw [kept, List.filter_append, List.map_append]
  rfl

theorem kept_reverse : kept ledger.reverse = (kept ledger).reverse := by
  rw [kept, List.filter_reverse, List.map_reverse]
  rfl

theorem groups_mark : (mark fate ledger).map Entry.group = ledger.map Entry.group := by
  induction ledger with
  | nil => rfl
  | cons e rest ih =>
    rw [mark]
    split
    · rfl
    · rw [List.map_cons, List.map_cons, ih]

theorem kept_mark {fate : Fate} (h : fate ≠ .kept) : kept (mark fate ledger) = (kept ledger).tail := by
  induction ledger with
  | nil => rfl
  | cons e rest ih =>
    rw [mark]
    split
    · next hkept => simp [kept, hkept, h]
    · next hkept => simpa [kept, hkept] using ih

theorem groups_popNewest : (popNewest ledger).map Entry.group = ledger.map Entry.group := by
  rw [popNewest, List.map_reverse, groups_mark, List.map_reverse, List.reverse_reverse]

theorem kept_popNewest : kept (popNewest ledger) = (kept ledger).dropLast := by
  rw [popNewest, kept_reverse, kept_mark _ (by decide), kept_reverse, List.tail_reverse,
    List.reverse_reverse]

theorem groups_enter (limit : Option Nat) (g : EditGroup) :
    (enter limit g ledger).map Entry.group = ledger.map Entry.group ++ [g] := by
  rw [enter]
  split
  · rw [groups_mark, List.map_append]
    rfl
  · rw [List.map_append]
    rfl

end

/-! ## The stack agrees with the ledger -/

/-- The edits of the open group, none if no group is open. -/
def openEdits (s : UndoStack) : List Edit := (s.current.map EditGroup.edits).getD []

def editsIn (ledger : List Entry) : List Edit := (ledger.map Entry.group).flatMap EditGroup.edits

/-- The stack holds what is kept in a ledger, and the ledger with the open group all that was recorded. -/
structure Agrees (s : UndoStack) (requests : List Command) (ledger : List Entry) : Prop where
  groups : s.groups.reverse = kept ledger
  edits : editsIn ledger ++ s.openEdits = recorded requests
  edited : ∀ g ∈ ledger.map Entry.group, g.edits ≠ []
  room : ∀ n, s.limit = some n → s.size ≤ n

section
variable {s : UndoStack} {requests : List Command} {ledger : List Entry}

theorem openEdits_of_closed (h : s.current = none) : s.openEdits = [] := by rw [openEdits, h]; rfl

theorem openEdits_of_open {g : EditGroup} (h : s.current = some g) : s.openEdits = g.edits := by
  rw [openEdits, h]
  rfl

/-- The oldest group is let go of by the stack when it is marked in the ledger. -/
theorem push_enter (hgroups : s.groups.reverse = kept ledger)
    (hroom : ∀ n, s.limit = some n → s.size ≤ n) (g : EditGroup) :
    (s.push g).groups.reverse = kept (enter s.limit g ledger) ∧
      ∀ n, s.limit = some n → (s.push g).size ≤ n := by
  have hkept : kept (ledger ++ [⟨g, .kept⟩]) = (g :: s.groups).reverse := by
    rw [kept_append, ← hgroups, List.reverse_cons]
    rfl
  have hlength : (kept (ledger ++ [⟨g, .kept⟩])).length = s.size + 1 := by
    rw [hkept, List.length_reverse]
    rfl
  rw [enter, hlength]
  cases hlimit : s.limit with
  | none =>
    refine ⟨?_, fun n hn => by cases hn⟩
    simp only [push, hlimit, Option.any_none, Bool.false_eq_true, if_false]
    exact hkept.symm
  | some n =>
    have hsize := hroom n hlimit
    have hgroups' : (s.push g).groups = (g :: s.groups).take n := by simp only [push, hlimit]
    constructor
    · rw [hgroups']
      simp only [Option.any_some, decide_eq_true_eq]
      split
      · next hover =>
        have hfull : n = (g :: s.groups).length - 1 := Nat.le_antisymm (Nat.le_of_lt_succ hover) hsize
        rw [kept_mark _ (by decide), hkept, hfull, ← List.dropLast_eq_take, List.tail_reverse]
      · next hfits =>
        rw [hkept, List.take_of_length_le (Nat.le_of_not_lt hfits)]
    · rintro m ⟨⟩
      rw [size, hgroups', List.length_take]
      exact Nat.min_le_left _ _

namespace Agrees

theorem push (h : s.Agrees requests ledger) {s' : UndoStack} {c : Command} {g : EditGroup}
    (hgroups : s'.groups = s.groups) (hlimit : s'.limit = s.limit) (hclosed : s'.current = none)
    (hedits : s.openEdits ++ recorded [c] = g.edits) (hne : g.edits ≠ []) :
    (s'.push g).Agrees (requests ++ [c]) (enter s.limit g ledger) := by
  have hroom : ∀ n, s'.limit = some n → s'.size ≤ n := by
    rw [hlimit, size, hgroups]
    exact h.room
  obtain ⟨hpush, hsize⟩ := push_enter (hgroups ▸ h.groups) hroom g
  rw [hlimit] at hpush
  refine ⟨hpush, ?_, ?_, hsize⟩
  · have hopen : (s'.push g).openEdits = [] := openEdits_of_closed hclosed
    rw [hopen, editsIn, groups_enter, List.flatMap_append, List.append_nil, List.flatMap_singleton,
      ← hedits, ← List.append_assoc, recorded_concat, ← h.edits, editsIn]
  · intro g' hg'
    rw [groups_enter, List.mem_append, List.mem_singleton] at hg'
    rcases hg' with hg' | rfl
    · exact h.edited g' hg'
    · exact hne

theorem completed (h : s.Agrees requests ledger) (hs : s.Follows requests) {c : Command}
    {g : EditGroup} (hc : Completes requests c g) :
    (s.next c).Agrees (requests ++ [c]) (enter s.limit g ledger) := by
  cases hc with
  | alone e cursor hzero =>
    have hclosed := hs.closed hzero
    rw [record_of_closed hclosed]
    refine h.push rfl rfl hclosed ?_ (List.cons_ne_nil e [])
    rw [openEdits_of_closed hclosed]
    rfl
  | block hopen hlast hedits =>
    have hcurrent := (hs.current_eq_some_iff g).mpr hopen
    have hdepth := hs.depth.trans hlast
    rw [next_endGroup_of_open (hdepth ▸ Nat.one_pos), closeGroup_outermost hdepth hcurrent,
      if_neg hedits]
    refine h.push rfl rfl rfl ?_ hedits
    rw [openEdits_of_open hcurrent]
    exact List.append_nil _

theorem popped (h : s.Agrees requests ledger) :
    (s.next .pop).Agrees (requests ++ [.pop]) (popNewest ledger) := by
  rw [next_pop]
  refine ⟨?_, ?_, ?_, ?_⟩
  · rw [kept_popNewest, ← h.groups, List.dropLast_reverse]
  · rw [editsIn, groups_popNewest, recorded_concat]
    exact h.edits.trans (List.append_nil _).symm
  · rw [groups_popNewest]
    exact h.edited
  · intro n hn
    have hsize := h.room n hn
    have hless : s.groups.tail.length ≤ s.groups.length := by
      rw [List.length_tail]
      exact Nat.sub_le _ _
    exact Nat.le_trans hless hsize

/-- A request that leaves the kept groups alone, and in the open one at most adds the edit it records. -/
theorem same (h : s.Agrees requests ledger) {s' : UndoStack} {c : Command}
    (hgroups : s'.groups = s.groups) (hlimit : s'.limit = s.limit)
    (hedits : s'.openEdits = s.openEdits ++ recorded [c]) : s'.Agrees (requests ++ [c]) ledger where
  groups := hgroups ▸ h.groups
  edits := by rw [hedits, ← List.append_assoc, h.edits, recorded_concat]
  edited := h.edited
  room := by
    rw [hlimit, size, hgroups]
    exact h.room

theorem other (h : s.Agrees requests ledger) (hs : s.Follows requests) {c : Command}
    (hpop : c ≠ .pop) (hnone : ∀ g, ¬Completes requests c g) :
    (s.next c).Agrees (requests ++ [c]) ledger := by
  have hdepth := hs.depth
  cases c with
  | pop => exact absurd rfl hpop
  | beginGroup cursor =>
    refine h.same rfl rfl ?_
    have hnothing : recorded [.beginGroup cursor] = [] := rfl
    rw [hnothing, List.append_nil]
    rcases Nat.eq_zero_or_pos s.depth with hzero | hpos
    · have hcurrent : (s.next (.beginGroup cursor)).current = some ⟨[], cursor⟩ := if_pos hzero
      rw [openEdits_of_open hcurrent, openEdits_of_closed (hs.closed (hdepth ▸ hzero))]
    · have hcurrent : (s.next (.beginGroup cursor)).current = s.current :=
        if_neg (Nat.ne_of_gt hpos)
      rw [openEdits, hcurrent, openEdits]
  | record e cursor =>
    have hpos : 0 < nesting requests := by
      refine Nat.pos_of_ne_zero fun hzero => hnone _ (.alone e cursor hzero)
    obtain ⟨g, hcurrent, -⟩ := hs.opened hpos
    rw [record_of_open hcurrent]
    refine h.same rfl rfl ?_
    rw [openEdits_of_open hcurrent]
    rfl
  | endGroup =>
    have hnothing : s.openEdits = s.openEdits ++ recorded [.endGroup] := (List.append_nil _).symm
    obtain hzero | hone | hmore : s.depth = 0 ∨ s.depth = 1 ∨ 1 < s.depth := by omega
    · rw [next_endGroup_of_closed hzero]
      exact h.same rfl rfl hnothing
    · -- The outermost end completes nothing only if no edit is in the group.
      obtain ⟨g, hcurrent, hopen⟩ := hs.opened (by omega)
      have hempty : g.edits = [] := by
        by_contra hedits
        exact hnone g (.block hopen (hdepth.symm.trans hone) hedits)
      rw [next_endGroup_of_open (by omega), closeGroup_outermost hone hcurrent, if_pos hempty]
      refine h.same rfl rfl ?_
      rw [← hnothing, openEdits_of_open hcurrent, hempty]
      rfl
    · rw [next_endGroup_of_open (by omega), closeGroup_inner hmore]
      exact h.same rfl rfl hnothing

end Agrees
end

theorem limit_next (s : UndoStack) (c : Command) : (s.next c).limit = s.limit := by
  cases c with
  | beginGroup cursor => rfl
  | record e cursor =>
    cases hcurrent : s.current with
    | none => rw [record_of_closed hcurrent, push]
    | some g => rw [record_of_open hcurrent]
  | pop => rw [next_pop]
  | endGroup =>
    rcases Nat.eq_zero_or_pos s.depth with hzero | hpos
    · rw [next_endGroup_of_closed hzero]
    · rw [next_endGroup_of_open hpos, closeGroup]
      split
      · split
        · split <;> rfl
        · rfl
      · rfl

theorem limit_after (s : UndoStack) (requests : List Command) : (s.after requests).limit = s.limit := by
  induction requests generalizing s with
  | nil => rfl
  | cons c requests ih => exact (ih (s.next c)).trans (limit_next s c)

theorem Accounts.agrees {limit : Option Nat} {requests : List Command} {ledger : List Entry}
    (h : Accounts limit requests ledger) : (after { limit } requests).Agrees requests ledger := by
  induction h with
  | new => exact ⟨rfl, rfl, List.forall_mem_nil _, fun n _ => Nat.zero_le n⟩
  | @completed requests ledger c g _ hc ih =>
    rw [after_concat]
    have hnext := ih.completed (follows_after limit requests) hc
    rw [limit_after] at hnext
    exact hnext
  | popped _ ih =>
    rw [after_concat]
    exact ih.popped
  | @other requests ledger c _ hpop hnone ih =>
    rw [after_concat]
    exact ih.other (follows_after limit requests) hpop hnone

/-! ## New stacks -/

theorem ofSize_eq_ok {size : Option Int} {new : UndoStack} (h : ofSize size = .ok new) :
    ∃ limit : Option Nat, new = { limit } ∧ size = limit.map Int.ofNat := by
  cases size with
  | none =>
    obtain rfl := Except.ok.inj h
    exact ⟨none, rfl, rfl⟩
  | some n =>
    rw [ofSize] at h
    split at h
    · split at h
      · cases h
      · next hn =>
        obtain rfl := Except.ok.inj h
        exact ⟨some n.toNat, rfl, congrArg some (Int.toNat_of_nonneg (Int.not_lt.mp hn)).symm⟩
    · cases h

theorem pop_eq_getLast? (s : UndoStack) : s.pop.1 = s.groups.reverse.getLast? := by
  rw [List.getLast?_reverse, pop]
  split
  · next h => rw [h, List.head?_nil]
  · next h => rw [h, List.head?_cons]

/-- The end of the outermost begin keeps the open group as the newest, if there is room for any. -/
theorem Follows.head?_next_endGroup {s : UndoStack} {requests : List Command} {g : EditGroup}
    (hs : s.Follows requests) (hopen : LeavesOpen requests g) (hlast : nesting requests = 1)
    (hedits : g.edits ≠ []) (hlimit : s.limit ≠ some 0) :
    (s.next .endGroup).groups.head? = some g := by
  have hdepth := hs.depth.trans hlast
  have hcurrent := (hs.current_eq_some_iff g).mpr hopen
  rw [next_endGroup_of_open (hdepth ▸ Nat.one_pos), closeGroup_outermost hdepth hcurrent,
    if_neg hedits, push]
  cases hn : s.limit with
  | none => rfl
  | some n =>
    cases n with
    | zero => exact absurd hn hlimit
    | succ n => rfl

/-- Whatever is asked of a new stack of any size, every edit is kept once. The depth is the nesting of begins
and ends, and a group is open exactly inside of them. No stacked group is empty, and there are never more
than the size allows. All recorded edits stand in their order in the ledger and then in the open group;
the stacked groups are those of the ledger, in their order, that are neither popped nor evicted as the
oldest, and a pop gives the newest of them. The open group holds all that was recorded since the outermost
begin and the cursor given there, and as a whole becomes the newest of the stack with its end. An end
outside of groups, and no other, is refused, and changes nothing. -/
theorem edits_kept_once {size : Option Int} {new : UndoStack} (hnew : ofSize size = .ok new)
    (requests : List Command) :
    ∃ s, new.after requests = s ∧
      (s.depth = nesting requests ∧ (s.current.isSome = true ↔ 0 < nesting requests)) ∧
      (∀ g ∈ s.groups, g.edits ≠ []) ∧
      (∀ n, size = some n → s.size ≤ n) ∧
      (∃ ledger, Accounts new.limit requests ledger) ∧
      (∀ ledger, Accounts new.limit requests ledger →
        editsIn ledger ++ s.openEdits = recorded requests ∧ s.groups.reverse = kept ledger ∧
          s.pop.1 = (kept ledger).getLast?) ∧
      (∀ g, s.current = some g ↔ LeavesOpen requests g) ∧
      (∀ g, LeavesOpen requests g → nesting requests = 1 → g.edits ≠ [] → new.limit ≠ some 0 →
        (s.next .endGroup).groups.head? = some g) ∧
      (s.run .endGroup = .error .unmatchedEnd ↔ nesting requests = 0) ∧
      (nesting requests = 0 → s.next .endGroup = s) := by
  obtain ⟨limit, rfl, rfl⟩ := ofSize_eq_ok hnew
  obtain ⟨ledger, hledger⟩ := exists_accounts limit requests
  have hs := follows_after limit requests
  have hagrees := hledger.agrees
  have hlimit := limit_after { limit } requests
  refine ⟨_, rfl, ⟨hs.depth, hs.isSome_current_iff⟩, ?_, ?_, ⟨ledger, hledger⟩, ?_,
    hs.current_eq_some_iff, ?_, ?_, ?_⟩
  · intro g hg
    rw [← List.mem_reverse, hagrees.groups] at hg
    obtain ⟨e, he, rfl⟩ := List.mem_map.mp hg
    exact hagrees.edited _ (List.mem_map_of_mem (List.mem_of_mem_filter he))
  · intro n hsize
    obtain ⟨m, hm, rfl⟩ := Option.map_eq_some_iff.mp hsize
    exact Int.ofNat_le.mpr (hagrees.room m (hlimit.trans hm))
  · intro ledger' hledger'
    have hagrees' := hledger'.agrees
    exact ⟨hagrees'.edits, hagrees'.groups, hagrees'.groups ▸ pop_eq_getLast? _⟩
  · intro g hopen hlast hedits hroom
    exact hs.head?_next_endGroup hopen hlast hedits (hlimit ▸ hroom)
  · rw [← hs.depth, run, endGroup]
    split
    · next hzero => exact iff_of_true rfl hzero
    · next hpos =>
      refine iff_of_false ?_ hpos
      rintro ⟨⟩
  · exact fun hzero => next_endGroup_of_closed (hs.depth.trans hzero)

/-- Four edits on a stack for two groups: the first is evicted, two are a group in spite of the nesting, and
the last is popped. -/
theorem edits_kept_once_nested :
    ∃ (a b c d : Edit) (requests : List Command) (new s : UndoStack) (ledger : List Entry),
      requests = [.record a 0, .beginGroup 1, .beginGroup 9, .record b 2, .endGroup, .record c 3,
        .endGroup, .record d 4, .pop, .endGroup] ∧
      ofSize (some 2) = .ok new ∧ new.after requests = s ∧ s.groups = [⟨[b, c], 1⟩] ∧
      Accounts new.limit requests ledger ∧ kept ledger = [⟨[b, c], 1⟩] ∧
      editsIn ledger = [a, b, c, d] := by
  let a : Edit := ⟨0, [], "a".toList⟩
  let b : Edit := ⟨1, [], "b".toList⟩
  let c : Edit := ⟨2, [], "c".toList⟩
  let d : Edit := ⟨3, [], "d".toList⟩
  let requests : List Command := [.record a 0, .beginGroup 1, .beginGroup 9, .record b 2, .endGroup,
    .record c 3, .endGroup, .record d 4, .pop, .endGroup]
  have hnew : ofSize (some 2) = .ok { limit := some 2 } := rfl
  obtain ⟨s, hs, -, -, -, ⟨ledger, hledger⟩, hagrees, -⟩ := edits_kept_once hnew requests
  have hgroups : s.groups = [⟨[b, c], 1⟩] := by
    rw [← hs]
    decide
  have hopen : s.openEdits = [] := by
    rw [← hs]
    decide
  obtain ⟨hedits, hkept, -⟩ := hagrees ledger hledger
  rw [hgroups] at hkept
  rw [hopen, List.append_nil] at hedits
  exact ⟨a, b, c, d, requests, _, s, ledger, rfl, hnew, hs, hgroups, hledger, hkept.symm, hedits⟩

end WordCycle.UndoStack
