import WordCycle.Proofs.Undo.Tracking

/-! Undo takes back whole runs. The history of a run says where its groups were begun; as many undos as
there are kept groups go back through these places, and what a full stack lets go of are the oldest
of them. -/

namespace WordCycle
set_option autoImplicit false

namespace MemoryBuffer

/-- Whether each step is allowed when it is its turn. -/
def AllowsAll (b : MemoryBuffer) : List Step → Prop
  | [] => True
  | s :: rest => b.Allows s ∧ (b.apply s).AllowsAll rest

instance decidableAllowsAll : (b : MemoryBuffer) → (steps : List Step) → Decidable (b.AllowsAll steps)
  | _, [] => .isTrue trivial
  | b, s :: rest =>
    have := decidableAllowsAll (b.apply s) rest
    inferInstanceAs (Decidable (b.Allows s ∧ (b.apply s).AllowsAll rest))

/-- The buffer after a number of undos. -/
def undone (b : MemoryBuffer) : Nat → MemoryBuffer
  | 0 => b
  | k + 1 => (b.undone k).undo.2

theorem trace_append (commands later : List BufferCommand) (b : MemoryBuffer) :
    trace (commands ++ later) b = trace commands b ++ trace later (b.after commands) := by
  induction commands generalizing b with
  | nil => rfl
  | cons c rest ih =>
    have hrest := ih (run c b).2
    rw [List.cons_append, trace, trace, hrest, List.append_assoc]
    rfl

end MemoryBuffer

namespace History
open MemoryBuffer (Step)

/-- The history after steps of a buffer. -/
def follow (h : History) (b : MemoryBuffer) : List Step → History
  | [] => h
  | s :: rest => (h.next b s).follow (b.apply s) rest

theorem follow_append (h : History) (b : MemoryBuffer) (steps more : List Step) :
    h.follow b (steps ++ more) = (h.follow b steps).follow (b.applyAll steps) more := by
  induction steps generalizing h b with
  | nil => rfl
  | cons s steps ih => exact ih (h.next b s) (b.apply s)

/-- The history of requests to a new buffer. -/
def of (b : MemoryBuffer) (commands : List BufferCommand) : History :=
  ({} : History).follow b (MemoryBuffer.trace commands b)

theorem of_append (b : MemoryBuffer) (commands later : List BufferCommand) :
    of b (commands ++ later) =
      (of b commands).follow (b.after commands) (MemoryBuffer.trace later (b.after commands)) := by
  rw [of, MemoryBuffer.trace_append, follow_append, ← MemoryBuffer.after_eq_applyAll, of]

end History

theorem Gains.trans {b b' b'' : MemoryBuffer} {h h' h'' : History} {new new' : List Place}
    (hfirst : Gains b h b' h' new) (hlater : Gains b' h' b'' h'' new') :
    Gains b h b'' h'' (new' ++ new) where
  begun := by rw [hlater.begun, hfirst.begun, List.append_assoc]
  size := by
    have := hfirst.size
    have := hlater.size
    rw [List.length_append]
    omega
  base := by
    have hbase := hlater.base
    rw [← hfirst.base, List.getLast?_append]
    cases hlast : new.getLast? with
    | none =>
      rw [Option.none_or]
      exact hbase
    | some p => rfl

namespace Tracks
variable {b : MemoryBuffer} {h : History}

theorem new (b : MemoryBuffer) (hfresh : b.undoStack = {}) (hinside : b.place.Inside) :
    Tracks b {} where
  inside := hinside
  limit := by rw [hfresh]
  size := by
    rw [hfresh]
    exact Nat.zero_le 100
  depth := by rw [hfresh]
  pending := .closed (by rw [hfresh]) rfl rfl
  groups := by
    rw [hfresh]
    trivial

theorem base_eq (hb : Tracks b h) (hdepth : b.undoStack.depth = 0) : h.base b.text = b.text := by
  rcases hb.pending with ⟨-, hpending, -⟩ | ⟨-, -, -, -, hopen, -, -⟩
  · exact h.base_of_closed hpending b.text
  · exact absurd (hb.depth.symm.trans hdepth) hopen

/-! ## Runs -/

theorem run (hb : Tracks b h) (steps : List MemoryBuffer.Step) (hsteps : b.AllowsAll steps) :
    Tracks (b.applyAll steps) (h.follow b steps) := by
  induction steps generalizing b h with
  | nil => exact hb
  | cons s steps ih => exact ih (hb.step s hsteps.1).1 hsteps.2

/-- A run without undo adds to the history, and the stack keeps as much of both as it can. -/
theorem run_gains (hb : Tracks b h) (steps : List MemoryBuffer.Step) (hsteps : b.AllowsAll steps)
    (hundo : .undo ∉ steps) :
    ∃ new, Gains b h (b.applyAll steps) (h.follow b steps) new := by
  induction steps generalizing b h with
  | nil => exact ⟨[], hb.gains_nil rfl rfl rfl⟩
  | cons s steps ih =>
    have hne : s ≠ .undo := fun heq => hundo (heq ▸ List.mem_cons_self)
    obtain ⟨hkept, hgains⟩ := hb.step s hsteps.1
    obtain ⟨new, hfirst⟩ := hgains hne
    obtain ⟨new', hlater⟩ := ih hkept hsteps.2 fun hmem => hundo (List.mem_cons_of_mem s hmem)
    exact ⟨new' ++ new, hfirst.trans hlater⟩

/-- Outside groups, undos go back through the history place by place. -/
theorem undone (hb : Tracks b h) (hdepth : b.undoStack.depth = 0) (k : Nat)
    (hk : k ≤ b.undoStack.size) :
    Tracks (b.undone k) { h with begun := h.begun.drop k } ∧
      (b.undone k).undoStack.depth = 0 ∧ (b.undone k).undoStack.size + k = b.undoStack.size := by
  induction k with
  | zero => exact ⟨hb, hdepth, rfl⟩
  | succ k ih =>
    obtain ⟨hkept, hclosed, hsize⟩ := ih (by omega)
    rcases hkept.undo hclosed with ⟨-, hempty, -⟩ |
      ⟨p, rest, -, hbegun, -, hsize', hclosed', hafter⟩
    · omega
    · have hrest : h.begun.drop (k + 1) = rest := by
        rw [← List.drop_drop]
        rw [show h.begun.drop k = p :: rest from hbegun]
        rfl
      rw [hrest]
      refine ⟨hafter, hclosed', ?_⟩
      show (b.undone k).undo.2.undoStack.size + (k + 1) = b.undoStack.size
      omega

theorem undone_place (hb : Tracks b h) (hdepth : b.undoStack.depth = 0) (k : Nat)
    (hk : k < b.undoStack.size) :
    (b.undone k).undo.1 = true ∧ h.begun[k]? = some (b.undone (k + 1)).place := by
  obtain ⟨hkept, hclosed, hsize⟩ := hb.undone hdepth k (Nat.le_of_lt hk)
  rcases hkept.undo hclosed with ⟨-, hempty, -⟩ | ⟨p, rest, htrue, hbegun, hplace, -⟩
  · omega
  · refine ⟨htrue, ?_⟩
    have hhead : h.begun[k]? = (h.begun.drop k).head? := by
      rw [List.head?_drop]
    rw [hhead, show h.begun.drop k = p :: rest from hbegun, ← hplace]
    rfl

end Tracks

/-! ## Undo takes back runs -/

/-- Undo is the inverse of what was done to a new buffer. Outside groups it brings back the place at
which the newest group that is not undone was begun. After a further run without undo, undos go back
through the places of its groups and then through the older ones, up to a hundred altogether; so as
many undos as the run added groups bring back the text from before it, if these are no more than a
hundred. -/
theorem MemoryBuffer.undo_inverts (b : MemoryBuffer) (commands : List BufferCommand)
    (hfresh : b.undoStack = {}) (hlow : 0 ≤ b.cursor) (hhigh : b.cursor ≤ b.text.length)
    (hallowed : b.AllowsAll (trace commands b))
    (hclosed : (b.after commands).undoStack.depth = 0) :
    ((b.after commands).undo.1 = true →
      (History.of b commands).begun.head? = some (b.after commands).undo.2.place) ∧
    ∀ later, (b.after commands).AllowsAll (trace later (b.after commands)) →
      .undo ∉ trace later (b.after commands) →
      ((b.after commands).after later).undoStack.depth = 0 →
      ∃ new, (History.of b (commands ++ later)).begun = new ++ (History.of b commands).begun ∧
        (∀ k, k < min 100 (new.length + (b.after commands).undoStack.size) →
          (((b.after commands).after later).undone k).undo.1 = true ∧
          (new ++ (History.of b commands).begun)[k]? =
            some (((b.after commands).after later).undone (k + 1)).place) ∧
        (new.length ≤ 100 →
          (((b.after commands).after later).undone new.length).text = (b.after commands).text) := by
  have hb : Tracks (b.after commands) (History.of b commands) := by
    rw [after_eq_applyAll]
    exact (Tracks.new b hfresh ⟨hlow, hhigh⟩).run _ hallowed
  refine ⟨?_, ?_⟩
  · intro htrue
    rcases hb.undo hclosed with ⟨hfalse, -, -⟩ | ⟨p, rest, -, hbegun, hplace, -⟩
    · rw [htrue] at hfalse
      cases hfalse
    · rw [hbegun, hplace]
      rfl
  · intro later hlater hundo hclosed'
    obtain ⟨new, hgains⟩ := hb.run_gains _ hlater hundo
    have hb' := hb.run _ hlater
    rw [← after_eq_applyAll, ← History.of_append] at hgains hb'
    have hplaces : ∀ k, k < min 100 (new.length + (b.after commands).undoStack.size) →
        (((b.after commands).after later).undone k).undo.1 = true ∧
        (new ++ (History.of b commands).begun)[k]? =
          some (((b.after commands).after later).undone (k + 1)).place := by
      intro k hk
      rw [← hgains.begun]
      exact hb'.undone_place hclosed' k (hgains.size ▸ hk)
    refine ⟨new, hgains.begun, hplaces, ?_⟩
    intro hnew
    have hbase := hgains.base
    rw [hb'.base_eq hclosed', hb.base_eq hclosed] at hbase
    rcases List.eq_nil_or_concat new with rfl | ⟨init, oldest, hnew'⟩
    · exact hbase
    · -- The last of the undos goes back to where the first of the added groups was begun.
      rw [List.concat_eq_append] at hnew'
      subst hnew'
      rw [List.length_append, List.length_singleton] at hnew hplaces ⊢
      obtain ⟨-, hplace⟩ := hplaces init.length (by omega)
      rw [List.append_assoc, List.getElem?_append_right (Nat.le_refl _), Nat.sub_self] at hplace
      rw [List.getLast?_concat] at hbase
      have holdest : oldest = (((b.after commands).after later).undone (init.length + 1)).place :=
        Option.some.inj hplace
      rw [holdest] at hbase
      exact hbase

/-- A block that is left by a failure, with another one inside, is one group. -/
theorem MemoryBuffer.undo_inverts_block :
    ∃ b b', b = (ofText "ab".toList none []).after [.insert "c".toList] ∧
      b' = b.after
        [.group [.insert "d".toList, .group [.replace 0 1 "xy".toList], .fail []], .setCursor 0] ∧
      b'.text = "xybcd".toList ∧ b.undo.2.place = ⟨"ab".toList, 2⟩ ∧
      (b'.undone 1).text = "abc".toList ∧ (b'.undone 2).place = ⟨"ab".toList, 2⟩ := by
  obtain ⟨hundo, hrun⟩ := undo_inverts (ofText "ab".toList none []) [.insert "c".toList] rfl
    (by decide) (by decide) (by decide +kernel) (by decide +kernel)
  obtain ⟨new, hbegun, hplaces, htext⟩ := hrun
    [.group [.insert "d".toList, .group [.replace 0 1 "xy".toList], .fail []], .setCursor 0]
    (by decide +kernel) (by decide +kernel) (by decide +kernel)
  have holder : (History.of (ofText "ab".toList none []) [.insert "c".toList]).begun =
      [⟨"ab".toList, 2⟩] := by decide +kernel
  have hall : (History.of (ofText "ab".toList none []) ([.insert "c".toList] ++
      [.group [.insert "d".toList, .group [.replace 0 1 "xy".toList], .fail []],
        .setCursor 0])).begun = [⟨"abc".toList, 3⟩, ⟨"ab".toList, 2⟩] := by decide +kernel
  rw [hall, holder] at hbegun
  obtain rfl : [⟨"abc".toList, 3⟩] = new := List.append_cancel_right hbegun
  have hnewest := hundo (by decide +kernel)
  obtain ⟨-, hsecond⟩ := hplaces 1 (by decide +kernel)
  rw [holder] at hnewest hsecond
  exact ⟨_, _, rfl, rfl, by decide +kernel, (Option.some.inj hnewest).symm,
    htext (by decide), (Option.some.inj hsecond).symm⟩

end WordCycle
