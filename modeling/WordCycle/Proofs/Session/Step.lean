import WordCycle.Buffer.Memory
import WordCycle.Session
import WordCycle.Proofs.Scan.Collection
import WordCycle.Proofs.Session.Rotation
import WordCycle.Proofs.Text.Splice
import WordCycle.Proofs.Word.Extent

/-! One request of a completion session, from a caret inside the text: which part of the text it
replaces, and which session answers it. -/

namespace WordCycle
set_option autoImplicit false

/-! ## Any buffer -/

namespace Session
variable {β : Type} [Buffer β]

theorem resume_of_continues (s : Session) (settings : Settings) (document : Nat) (scan : Scan)
    (word : Text) (h : s.continues document scan.typed = true) :
    s.resume settings document scan word = .ok s := by
  rw [resume, if_pos h]

theorem resume_of_scan (s : Session) (settings : Settings) (document : Nat) (scan : Scan)
    (word : Text) (store : CandidateStore) (hnew : s.continues document scan.typed = false)
    (hstore : scan.candidates settings word = .ok store) :
    s.resume settings document scan word =
      .ok { typed := some scan.typed, candidates := store, document := some document } := by
  rw [resume, hnew, hstore]
  rfl

theorem cases_of_resume {s s' : Session} {settings : Settings} {document : Nat} {scan : Scan}
    {word : Text} (h : s.resume settings document scan word = .ok s') :
    s.continues document scan.typed = true ∧ s' = s ∨
      s.continues document scan.typed = false ∧ ∃ store, scan.candidates settings word = .ok store ∧
        s' = { typed := some scan.typed, candidates := store, document := some document } := by
  cases hgoes : s.continues document scan.typed with
  | true =>
    rw [resume_of_continues s settings document scan word hgoes] at h
    exact Or.inl ⟨rfl, (Except.ok.inj h).symm⟩
  | false =>
    cases hstore : scan.candidates settings word with
    | error e =>
      simp only [resume, hgoes, hstore, Bool.false_eq_true, if_false, bind, Except.bind] at h
      cases h
    | ok store =>
      rw [resume_of_scan s settings document scan word store hgoes hstore] at h
      exact Or.inr ⟨rfl, store, rfl, (Except.ok.inj h).symm⟩

theorem document_of_resume {s s' : Session} {settings : Settings} {document : Nat} {scan : Scan}
    {word : Text} (h : s.resume settings document scan word = .ok s') :
    s'.document = some document := by
  obtain ⟨hgoes, rfl⟩ | ⟨-, store, -, rfl⟩ := cases_of_resume h
  · simp only [continues, Bool.and_eq_true, decide_eq_true_eq] at hgoes
    exact hgoes.2
  · rfl

theorem answer_of_empty (s : Session) (b : β) (typed : Text) (start stop : Int)
    (direction : Direction) (h : s.candidates.size = 0) :
    s.answer b typed start stop direction =
      .ok { session := {}, buffer := b, report := some (.noCompletions typed) } := by
  rw [answer, if_pos h]

theorem answer_of_rotate (s : Session) (b : β) (typed : Text) (start stop : Int)
    (direction : Direction) (t : Text) (hsize : s.candidates.size ≠ 0)
    (ht : rotate s.candidates.texts s.selection direction = .ok t) :
    s.answer b typed start stop direction =
      .ok { session := { s with selection := some t }
            buffer := Buffer.complete (Buffer.dismissPopup b) start stop t (start + t.length)
            completion := some t } := by
  rw [answer, if_neg hsize, ht]
  rfl

/-- Inside a text a request is answered for the cut at the caret: nothing happens if the word has no
part before the caret, else the next candidate goes in the place of that part, or of the word. -/
theorem cycle_eq (s : Session) (settings : Settings) (document : Nat) (b : β)
    (direction : Direction) {pos : Nat} {before typed rest behind : Text}
    (hcursor : Buffer.cursor (Buffer.remember b) = pos)
    (hcut : WordCut (Buffer.extra (Buffer.remember b)) (Buffer.text (Buffer.remember b)) pos
      before typed rest behind) :
    s.cycle settings document b direction =
      if typed = [] then .ok { session := s, buffer := Buffer.remember b }
      else
        (s.resume settings document
          { text := Buffer.text (Buffer.remember b), extra := Buffer.extra (Buffer.remember b),
            typed, pos } (typed ++ rest)).bind fun s =>
        s.answer (Buffer.remember b) typed before.length
          (pos + if settings.removeTrailingWordPart then rest.length else 0 : Nat) direction := by
  have hstart := wordStart_natCast (Buffer.extra (Buffer.remember b)) _ hcut.pos_le
  have hstop := wordEnd_natCast (Buffer.extra (Buffer.remember b)) _ hcut.pos_le
  have htyped := hcut.typedAt_eq
  have hword := hcut.wordAt_eq
  rw [typedAt, hcut.wordStartAt_eq] at htyped
  rw [wordAt, hcut.wordStartAt_eq, hcut.wordEndAt_eq] at hword
  rw [hcut.wordStartAt_eq] at hstart
  rw [hcut.wordEndAt_eq] at hstop
  have hpos := hcut.pos_eq
  simp only [cycle, hcursor, hstart, hstop, bind, Except.bind, htyped, hword]
  by_cases hnil : typed = []
  · subst hnil
    have hle : (pos : Int) ≤ before.length := by
      rw [hpos, List.length_nil]
      omega
    rw [if_pos hle, if_pos rfl]
    rfl
  · have hgt : ¬(pos : Int) ≤ before.length := by
      have := List.length_pos_iff.mpr hnil
      omega
    have htail : (if settings.removeTrailingWordPart = true then ((pos + rest.length : Nat) : Int)
        else pos) =
        (pos + if settings.removeTrailingWordPart = true then rest.length else 0 : Nat) := by
      split <;> rfl
    rw [if_neg hgt, if_neg hnil, htail]

end Session

/-! ## Buffers in memory -/

namespace MemoryBuffer

theorem complete_text (b : MemoryBuffer) {before old behind : Text} (new : Text) (caret : Int)
    (h : b.text = before ++ old ++ behind) :
    (Buffer.complete b before.length (before.length + old.length : Nat) new caret).text =
      before ++ new ++ behind := by
  have hsplice := Text.splice_parts before old behind new
  rw [← h] at hsplice
  exact hsplice

theorem complete_cursor (b : MemoryBuffer) {before old behind : Text} (new : Text)
    (h : b.text = before ++ old ++ behind) :
    (Buffer.complete b before.length (before.length + old.length : Nat) new
      (before.length + new.length)).cursor = (before.length + new.length : Nat) := by
  have htext := b.complete_text new (before.length + new.length) h
  have hclamp : (Buffer.complete b before.length (before.length + old.length : Nat) new
      (before.length + new.length)).cursor =
      max 0 (min ((before.length : Int) + new.length)
        (Buffer.complete b before.length (before.length + old.length : Nat) new
          (before.length + new.length)).text.length) := rfl
  rw [hclamp, htext, List.length_append, List.length_append]
  omega

/-- The group around the replacement has begun, so its end is not refused. -/
theorem endGroup_eq_complete (b : MemoryBuffer) (start stop caret : Int) (new : Text) :
    ((b.beginGroup.replace start stop new).setCursor caret).endGroup =
      .ok (Buffer.complete b start stop new caret) := by
  have hdepth : ((b.beginGroup.replace start stop new).setCursor caret).undoStack.depth ≠ 0 := by
    simp only [setCursor, replace, beginGroup, UndoStack.beginGroup, UndoStack.record,
      UndoStack.push]
    split
    · exact Nat.succ_ne_zero _
    · exact Nat.succ_ne_zero _
  rw [endGroup, UndoStack.endGroup, if_neg hdepth]
  rfl

end MemoryBuffer

/-! ## One request at a cut of the text -/

/-- What stays of the characters of a word behind the caret. -/
def Session.keptRest (removed : Bool) (rest : Text) : Text := if removed then [] else rest

/-- What a request replaces is the word part before the caret, and the one behind it if that is to be
removed. -/
theorem WordCut.exists_replaced {extra text before typed rest behind : Text} {pos : Nat}
    (h : WordCut extra text pos before typed rest behind) (removed : Bool) :
    ∃ old, text = before ++ old ++ (Session.keptRest removed rest ++ behind) ∧
      pos + (if removed then rest.length else 0) = before.length + old.length := by
  have hpos := h.pos_eq
  cases removed with
  | true =>
    refine ⟨typed ++ rest, ?_, ?_⟩
    · rw [h.text_eq, Session.keptRest, if_pos rfl]
      simp
    · rw [List.length_append, if_pos rfl]
      omega
  | false => exact ⟨typed, h.text_eq, hpos⟩

namespace Session

/-- What a request leaves behind that has put a text between two others, in the name of a session. -/
structure Inserts (s : Session) (b : MemoryBuffer) (before new after : Text)
    (o : Outcome MemoryBuffer) : Prop where
  completion : o.completion = some new
  report : o.report = none
  session : o.session = { s with selection := some new }
  extra : o.buffer.extra = b.extra
  text : o.buffer.text = before ++ new ++ after
  cursor : o.buffer.cursor = (before.length + new.length : Nat)

theorem mem_of_mem_keptRest {removed : Bool} {rest : Text} {c : Char}
    (h : c ∈ keptRest removed rest) : c ∈ rest := by
  cases removed with
  | true => cases h
  | false => exact h

theorem keptRest_keptRest (removed removed' : Bool) (rest : Text) :
    keptRest removed (keptRest removed' rest) = keptRest (removed || removed') rest := by
  cases removed <;> rfl

/-- What a request comes to at a cut of the text: without a word part before the caret nothing happens,
without candidates this is reported, else the next candidate of the session that answers goes in
the place of the word part, or of the word. -/
inductive ComesTo (s : Session) (settings : Settings) (document : Nat) (b : MemoryBuffer)
    (direction : Direction) (pos : Nat) (before typed rest behind : Text)
    (o : Outcome MemoryBuffer) : Prop
  | idle (htyped : typed = []) (ho : o = { session := s, buffer := b })
  | reported (s' : Session) (htyped : typed ≠ [])
      (hresume : s.resume settings document { text := b.text, extra := b.extra, typed, pos }
        (typed ++ rest) = .ok s')
      (hsize : s'.candidates.size = 0)
      (ho : o = { session := {}, buffer := b, report := some (.noCompletions typed) })
  | inserted (s' : Session) (new : Text) (htyped : typed ≠ [])
      (hresume : s.resume settings document { text := b.text, extra := b.extra, typed, pos }
        (typed ++ rest) = .ok s')
      (hsize : s'.candidates.size ≠ 0)
      (hrotate : rotate s'.candidates.texts s'.selection direction = .ok new)
      (ho : Inserts s' b before new (keptRest settings.removeTrailingWordPart rest ++ behind) o)

section
variable {s s' : Session} {settings : Settings} {document : Nat} {b : MemoryBuffer} {pos : Nat}
  {before typed rest behind : Text}

theorem exists_cycle_inserts (hcut : WordCut b.extra b.text pos before typed rest behind)
    (hcursor : b.cursor = pos) (hne : typed ≠ [])
    (hresume : s.resume settings document { text := b.text, extra := b.extra, typed, pos }
      (typed ++ rest) = .ok s')
    (direction : Direction) (new : Text) (hsize : s'.candidates.size ≠ 0)
    (hrotate : rotate s'.candidates.texts s'.selection direction = .ok new) :
    ∃ o, s.cycle settings document b direction = .ok o ∧
      Inserts s' b before new (keptRest settings.removeTrailingWordPart rest ++ behind) o := by
  obtain ⟨old, htext, hstop⟩ := hcut.exists_replaced settings.removeTrailingWordPart
  have hanswer := s'.answer_of_rotate b typed before.length (before.length + old.length : Nat)
    direction new hsize hrotate
  have hcycle := cycle_eq s settings document b direction hcursor hcut
  rw [if_neg hne, hstop] at hcycle
  have hdone := hcycle.trans ((congrArg (Except.bind · _) hresume).trans hanswer)
  refine ⟨_, hdone, rfl, rfl, rfl, rfl, ?_, ?_⟩
  · exact (MemoryBuffer.dismissPopup b).complete_text new _ htext
  · exact (MemoryBuffer.dismissPopup b).complete_cursor new htext

theorem cycle_of_empty (hcut : WordCut b.extra b.text pos before typed rest behind)
    (hcursor : b.cursor = pos) (hne : typed ≠ [])
    (hresume : s.resume settings document { text := b.text, extra := b.extra, typed, pos }
      (typed ++ rest) = .ok s')
    (direction : Direction) (hsize : s'.candidates.size = 0) :
    s.cycle settings document b direction =
      .ok { session := {}, buffer := b, report := some (.noCompletions typed) } := by
  have hanswer := s'.answer_of_empty b typed before.length
    (pos + if settings.removeTrailingWordPart then rest.length else 0 : Nat) direction hsize
  rw [cycle_eq s settings document b direction hcursor hcut, if_neg hne]
  exact (congrArg (Except.bind · _) hresume).trans hanswer

theorem exists_comesTo (s : Session) (settings : Settings) (document : Nat) (direction : Direction)
    (hcut : WordCut b.extra b.text pos before typed rest behind) (hcursor : b.cursor = pos) :
    ∃ o, s.cycle settings document b direction = .ok o ∧
      s.ComesTo settings document b direction pos before typed rest behind o := by
  by_cases hne : typed = []
  · refine ⟨{ session := s, buffer := b }, ?_, .idle hne rfl⟩
    rw [cycle_eq s settings document b direction hcursor hcut, if_pos hne]
    rfl
  obtain ⟨s', hresume⟩ : ∃ s', s.resume settings document
      { text := b.text, extra := b.extra, typed, pos } (typed ++ rest) = .ok s' := by
    cases hgoes : s.continues document typed with
    | true => exact ⟨s, resume_of_continues s settings document _ _ hgoes⟩
    | false =>
      obtain ⟨store, hstore, -⟩ :=
        Scan.candidates_ok { text := b.text, extra := b.extra, typed, pos } settings (typed ++ rest)
          pos rfl hcut.pos_le
      exact ⟨_, resume_of_scan s settings document _ _ store hgoes hstore⟩
  by_cases hsize : s'.candidates.size = 0
  · exact ⟨_, cycle_of_empty hcut hcursor hne hresume direction hsize,
      .reported s' hne hresume hsize rfl⟩
  · obtain ⟨new, hrotate⟩ :=
      exists_rotate (s'.candidates.size_ne_zero_iff.mp hsize) s'.selection direction
    obtain ⟨o, ho, hinserts⟩ :=
      exists_cycle_inserts hcut hcursor hne hresume direction new hsize hrotate
    exact ⟨o, ho, .inserted s' new hne hresume hsize hrotate hinserts⟩

/-- A word that was inserted is the word part before the caret, and what stays of the old word is the
part behind it. -/
theorem Inserts.wordCut {new : Text} {removed : Bool} {o : Outcome MemoryBuffer}
    (h : Inserts s b before new (keptRest removed rest ++ behind) o)
    (hcut : WordCut b.extra b.text pos before typed rest behind)
    (hnew : ∀ c ∈ new, isWordChar b.extra c = true) :
    WordCut o.buffer.extra o.buffer.text (before.length + new.length) before new
      (keptRest removed rest) behind := by
  rw [h.extra]
  exact ⟨h.text, rfl, hnew, fun c hc => hcut.rest_word c (mem_of_mem_keptRest hc), hcut.before_ends,
    hcut.behind_begins⟩

/-- The next request goes on with a word that was inserted: another candidate takes its place. -/
theorem Inserts.exists_next {new rest' : Text} {o : Outcome MemoryBuffer}
    (h : Inserts s b before new (rest' ++ behind) o) (hdocument : s.document = some document)
    (hnow : WordCut o.buffer.extra o.buffer.text (before.length + new.length) before new rest' behind)
    (hne : new ≠ []) (settings : Settings) (direction : Direction) (next : Text)
    (hsize : s.candidates.size ≠ 0)
    (hrotate : rotate s.candidates.texts (some new) direction = .ok next) :
    ∃ o', o.session.cycle settings document o.buffer direction = .ok o' ∧
      Inserts s b before next (keptRest settings.removeTrailingWordPart rest' ++ behind) o' := by
  have hgoes : o.session.continues document new = true := by
    rw [h.session]
    simp [continues, hdocument]
  have hresume := resume_of_continues o.session settings document
    { text := o.buffer.text, extra := o.buffer.extra, typed := new,
      pos := (before.length + new.length : Nat) } (new ++ rest') hgoes
  obtain ⟨o', ho', hinserts⟩ := exists_cycle_inserts hnow h.cursor hne hresume direction next
    (by rw [h.session]; exact hsize) (by rw [h.session]; exact hrotate)
  refine ⟨o', ho', hinserts.completion, hinserts.report, ?_, hinserts.extra.trans h.extra,
    hinserts.text, hinserts.cursor⟩
  rw [hinserts.session, h.session]

end

end Session
end WordCycle
