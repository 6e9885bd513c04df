import WordCycle.DocumentSession
import WordCycle.Workspace
import WordCycle.Proofs.Buffer.Document
import WordCycle.Proofs.Session.Restart
import Mathlib.Data.List.Forall2

/-! Completing words in the document of a widget and in memory. As long as the same is asked of both,
and the caret is only ever placed between characters, each request comes to the same in both: the
widget's units never show. -/

namespace WordCycle
set_option autoImplicit false

namespace Session

theorem exists_cycle_both (s : Session) (settings : Settings) (document : Nat)
    (direction : Direction) {b : MemoryBuffer} {d : DocumentBuffer} {pos : Nat}
    (hcursor : b.cursor = pos) (h : d.Shows b.extra b.text pos) :
    ∃ o o', s.cycle settings document b direction = .ok o ∧
      s.cycle settings document d direction = .ok o' ∧
      o'.completion = o.completion ∧ o'.report = o.report ∧ o'.session = o.session ∧
      ∃ pos' : Nat, o.buffer.cursor = pos' ∧ o'.buffer.Shows o.buffer.extra o.buffer.text pos' := by
  obtain ⟨before, typed, rest, behind, hcut⟩ := exists_wordCut b.extra b.text pos h.pos_le
  obtain ⟨o, ho, hcomes⟩ := exists_comesTo s settings document direction hcut hcursor
  have hread := h.remember
  have htext : Buffer.text (Buffer.remember d) = b.text := hread.text_eq
  have hextra : Buffer.extra (Buffer.remember d) = b.extra := hread.extra_eq
  have hcut' : WordCut (Buffer.extra (Buffer.remember d)) (Buffer.text (Buffer.remember d)) pos
      before typed rest behind := by
    rw [htext, hextra]
    exact hcut
  have hcycle := s.cycle_eq settings document d direction hread.cursor_eq hcut'
  rw [htext, hextra] at hcycle
  cases hcomes with
  | idle htyped ho' =>
    rw [if_pos htyped] at hcycle
    subst ho'
    exact ⟨_, _, ho, hcycle, rfl, rfl, rfl, pos, hcursor, hread⟩
  | reported s' htyped hresume hsize ho' =>
    rw [if_neg htyped, hresume] at hcycle
    subst ho'
    exact ⟨_, _, ho, hcycle.trans (s'.answer_of_empty _ _ _ _ _ hsize), rfl, rfl, rfl, pos, hcursor,
      hread⟩
  | inserted s' new htyped hresume hsize hrotate ho' =>
    rw [if_neg htyped, hresume] at hcycle
    obtain ⟨old, hold, hstop⟩ := hcut.exists_replaced settings.removeTrailingWordPart
    have hanswer := s'.answer_of_rotate (Buffer.remember d) typed before.length
      (before.length + old.length : Nat) direction new hsize hrotate
    rw [hstop] at hcycle
    have hreplaced : (Buffer.remember d).Shows b.extra
        (before ++ old ++ (keptRest settings.removeTrailingWordPart rest ++ behind)) pos := by
      rw [← hold]
      exact hread
    have hcompleted := hreplaced.dismissPopup.complete new
    rw [← ho'.text, ← ho'.extra] at hcompleted
    exact ⟨_, _, ho, hcycle.trans hanswer, ho'.completion.symm, ho'.report.symm, ho'.session.symm,
      before.length + new.length, ho'.cursor, hcompleted⟩

end Session

/-- What is asked of a session by someone who completes words and moves the caret between them. -/
inductive CaretRequest
  | cycle (direction : Direction)
  | reset
  /-- The user puts the caret at a position of the text, or at its end. -/
  | place (pos : Nat)
  /-- The buffer is asked to put it there. -/
  | setCursor (pos : Nat)

/-! ## Requests in memory -/

namespace Workspace

def ofCaret : CaretRequest → Command
  | .cycle direction => .cycle direction
  | .reset => .reset
  | .place pos => .edit (.setCursor pos)
  | .setCursor pos => .edit (.setCursor pos)

/-- The answers to requests one after the other, each with what is reported and left behind. -/
def trace (w : Workspace) :
    List CaretRequest → List ((Except Error Answer × List Report) × Workspace)
  | [] => []
  | c :: rest => run (ofCaret c) w :: trace (run (ofCaret c) w).2 rest

end Workspace

/-! ## Requests to a document -/

namespace DocumentSession

/-- The user's caret stands behind all units of the characters before it. -/
def ofCaret (d : DocumentSession) : CaretRequest → Command
  | .cycle direction => .cycle direction
  | .reset => .reset
  | .place pos =>
    let units := Units16.length (d.buffer.widget.text.take pos)
    .buffer (.select units units)
  | .setCursor pos => .buffer (.setCursor pos)

def trace (d : DocumentSession) :
    List CaretRequest → List ((Except EditError Answer × Option Report) × DocumentSession)
  | [] => []
  | c :: rest => d.run (d.ofCaret c) :: trace (d.run (d.ofCaret c)).2 rest

/-- The same answer of a workspace. -/
def Answer.inWorkspace : Answer → Workspace.Answer
  | nothing => .nothing
  | completion t => .completion t
  | buffer a => .buffer a

end DocumentSession

/-! ## Both side by side -/

/-- A request has come to the same in memory and in a document: the answer, what is reported, and
what is left behind, where the widget's caret stands behind the units of the text before it. -/
structure SameStep (r : (Except Workspace.Error Workspace.Answer × List Report) × Workspace)
    (r' : (Except EditError DocumentSession.Answer × Option Report) × DocumentSession) : Prop where
  answer : ∃ a : DocumentSession.Answer, r'.1.1 = .ok a ∧ r.1.1 = .ok a.inWorkspace
  report : r.1.2 = r'.1.2.toList
  session : r'.2.session = r.2.session
  text : r'.2.buffer.text = r.2.buffer.text
  document : r'.2.buffer.widget.text = r.2.buffer.text
  cursor : r'.2.buffer.cursor = r.2.buffer.cursor
  caret : r'.2.buffer.widget.selection =
    ⟨Units16.length (r.2.buffer.text.take r.2.buffer.cursor.toNat),
      Units16.length (r.2.buffer.text.take r.2.buffer.cursor.toNat)⟩

/-- A session over a document and one in memory that stand at the same point. -/
structure SamePoint (w : Workspace) (d : DocumentSession) : Prop where
  shows : ∃ pos : Nat, w.buffer.cursor = pos ∧ d.buffer.Shows w.buffer.extra w.buffer.text pos
  session : d.session = w.session
  settings : d.settings = w.settings
  current : w.current = 0
  nonempty : 0 < w.buffers.length

theorem SameStep.of_samePoint {r : (Except Workspace.Error Workspace.Answer × List Report) × Workspace}
    {r' : (Except EditError DocumentSession.Answer × Option Report) × DocumentSession}
    (h : SamePoint r.2 r'.2)
    (hanswer : ∃ a : DocumentSession.Answer, r'.1.1 = .ok a ∧ r.1.1 = .ok a.inWorkspace)
    (hreport : r.1.2 = r'.1.2.toList) : SameStep r r' := by
  obtain ⟨pos, hcursor, hshows⟩ := h.shows
  refine ⟨hanswer, hreport, h.session, hshows.text_eq, hshows.widget_text, ?_, ?_⟩
  · rw [hshows.cursor_eq, hcursor]
  · rw [hshows.caret, hcursor, Int.toNat_natCast]

theorem SamePoint.moved {w : Workspace} {d : DocumentSession} (h : SamePoint w d) (pos : Nat)
    {b : DocumentBuffer}
    (hb : b.Shows w.buffer.extra w.buffer.text (min pos w.buffer.text.length)) :
    SamePoint (w.putBuffer w.current (w.buffer.setCursor pos)) { d with buffer := b } := by
  have hbuffer := w.buffer_putBuffer (w.buffer.setCursor pos) (by rw [h.current]; exact h.nonempty)
  have hcursor : (w.buffer.setCursor pos).cursor = (min pos w.buffer.text.length : Nat) := by
    simp only [MemoryBuffer.setCursor]
    omega
  refine ⟨⟨min pos w.buffer.text.length, ?_, ?_⟩, h.session, h.settings, h.current, ?_⟩
  · rw [hbuffer, hcursor]
  · rw [hbuffer]
    exact hb
  · simpa [Workspace.putBuffer] using h.nonempty

theorem SamePoint.run {w : Workspace} {d : DocumentSession} (h : SamePoint w d) (c : CaretRequest) :
    SameStep (Workspace.run (Workspace.ofCaret c) w) (d.run (d.ofCaret c)) ∧
      SamePoint (Workspace.run (Workspace.ofCaret c) w).2 (d.run (d.ofCaret c)).2 := by
  obtain ⟨pos, hcursor, hshows⟩ := h.shows
  cases c with
  | cycle direction =>
    obtain ⟨o, o', ho, ho', hcompletion, hreport, hsession, pos', hcursor', hshows'⟩ :=
      w.session.exists_cycle_both w.settings w.current direction hcursor hshows
    have hw := Workspace.cycle_of_session ho
    have hd : d.cycle direction = .ok (o'.completion, o'.report,
        { d with buffer := o'.buffer, session := o'.session }) := by
      rw [DocumentSession.cycle, h.session, h.settings, ← h.current, ho']
      rfl
    have hpoint : SamePoint { w.putBuffer w.current o.buffer with session := o.session }
        { d with buffer := o'.buffer, session := o'.session } := by
      have hbuffer := w.buffer_putBuffer o.buffer (by rw [h.current]; exact h.nonempty)
      refine ⟨⟨pos', ?_, ?_⟩, hsession, h.settings, h.current, ?_⟩
      · exact (congrArg MemoryBuffer.cursor hbuffer).trans hcursor'
      · have hsame : ({ w.putBuffer w.current o.buffer with session := o.session } : Workspace).buffer =
            o.buffer := hbuffer
        rw [hsame]
        exact hshows'
      · simpa [Workspace.putBuffer] using h.nonempty
    simp only [Workspace.ofCaret, Workspace.run, hw, DocumentSession.ofCaret, DocumentSession.run, hd]
    refine ⟨.of_samePoint hpoint ⟨.completion o'.completion, rfl, ?_⟩ ?_, hpoint⟩
    · rw [hcompletion]
      rfl
    · rw [hreport]
  | reset =>
    have hpoint : SamePoint { w with session := {} } { d with session := {} } :=
      ⟨⟨pos, hcursor, hshows⟩, rfl, h.settings, h.current, h.nonempty⟩
    exact ⟨.of_samePoint hpoint ⟨.nothing, rfl, rfl⟩ rfl, hpoint⟩
  | place pos' =>
    have hpoint := h.moved pos' (hshows.select pos')
    rw [DocumentSession.ofCaret, hshows.widget_text]
    exact ⟨.of_samePoint hpoint ⟨.buffer .nothing, rfl, rfl⟩ rfl, hpoint⟩
  | setCursor pos' =>
    have hpoint := h.moved pos' (hshows.setCursor pos')
    exact ⟨.of_samePoint hpoint ⟨.buffer .nothing, rfl, rfl⟩ rfl, hpoint⟩

theorem SamePoint.trace {w : Workspace} {d : DocumentSession} (h : SamePoint w d)
    (requests : List CaretRequest) : List.Forall₂ SameStep (w.trace requests) (d.trace requests) := by
  induction requests generalizing w d with
  | nil => exact .nil
  | cons c requests ih =>
    obtain ⟨hstep, hpoint⟩ := h.run c
    exact .cons hstep (ih hpoint)

/-- Completing words in a document of UTF-16 units and in memory, with the caret placed anywhere
between characters, comes to the same step by step. -/
theorem document_follows_memory (text extra : Text) (pos : Nat) (hpos : pos ≤ text.length)
    (popup : Option Bool) (settings : Settings) (requests : List CaretRequest) :
    List.Forall₂ SameStep
      (Workspace.trace { buffers := [.ofText text (some pos) extra], settings } requests)
      (DocumentSession.trace
        { buffer :=
            { widget :=
                { units := Units16.encode text
                  selection := ⟨Units16.length (text.take pos), Units16.length (text.take pos)⟩ }
              extra, popup }
          settings } requests) := by
  apply SamePoint.trace
  refine ⟨⟨pos, rfl, ?_⟩, rfl, rfl, rfl, Nat.one_pos⟩
  exact ⟨⟨rfl, fun t ht => by cases ht⟩, rfl, hpos, rfl, rfl, rfl⟩

/-- Behind a character of two units, with a caret that goes back into the word and on to the end. -/
theorem document_follows_memory_emoji :
    7 ≤ "😀 food fo".toList.length ∧
      List.Forall₂ SameStep
        (Workspace.trace { buffers := [.ofText "😀 food fo".toList (some 7) []] }
          [.place 9, .cycle .forward, .setCursor 4, .cycle .backward, .reset, .place 20,
            .cycle .forward])
        (DocumentSession.trace
          { buffer :=
              { widget :=
                  { units := Units16.encode "😀 food fo".toList
                    selection := ⟨Units16.length ("😀 food fo".toList.take 7),
                      Units16.length ("😀 food fo".toList.take 7)⟩ } } }
          [.place 9, .cycle .forward, .setCursor 4, .cycle .backward, .reset, .place 20,
            .cycle .forward]) :=
  ⟨by decide, document_follows_memory "😀 food fo".toList [] 7 (by decide) none {}
    [.place 9, .cycle .forward, .setCursor 4, .cycle .backward, .reset, .place 20, .cycle .forward]⟩

end WordCycle
