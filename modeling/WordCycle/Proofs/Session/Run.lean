import WordCycle.Proofs.Session.Step

/-! Requests one after the other. The first one scans; as long as nothing else happens, each later one
finds before the caret the candidate that the last one put there, so the session goes on: it never
scans again, and only the word part that was there at the beginning is ever replaced. -/

namespace WordCycle
set_option autoImplicit false

/-- Up to where a candidate for the word around a position replaces the text. -/
def replacedTo (settings : Settings) (extra text : Text) (pos : Nat) : Nat :=
  if settings.removeTrailingWordPart then wordEndAt extra text pos else pos

namespace WordCut
open Session
variable {extra text before typed rest behind : Text} {pos : Nat}

theorem take_wordStartAt (h : WordCut extra text pos before typed rest behind) :
    text.take (wordStartAt extra text pos) = before := by
  rw [h.wordStartAt_eq, h.text_eq, List.append_assoc, List.take_left]

theorem drop_replacedTo (h : WordCut extra text pos before typed rest behind)
    (settings : Settings) :
    text.drop (replacedTo settings extra text pos) =
      keptRest settings.removeTrailingWordPart rest ++ behind := by
  unfold replacedTo keptRest
  split
  · rw [h.wordEndAt_eq, ← List.drop_drop, h.drop_pos, List.drop_left, List.nil_append]
  · exact h.drop_pos

end WordCut

namespace Session

/-- Makes requests one after the other, with what each of them leaves behind. -/
def cycles {β : Type} [Buffer β] (settings : Settings) (document : Nat) :
    Session → β → List Direction → Except EditError (List (Outcome β))
  | _, _, [] => .ok []
  | s, buffer, direction :: rest => do
    let o ← s.cycle settings document buffer direction
    return o :: (← cycles settings document o.session o.buffer rest)

theorem cycles_cons {β : Type} [Buffer β] {settings : Settings} {document : Nat} {s : Session} {b : β}
    {direction : Direction} {rest : List Direction} {o : Outcome β} {outcomes : List (Outcome β)}
    (ho : s.cycle settings document b direction = .ok o)
    (hrest : cycles settings document o.session o.buffer rest = .ok outcomes) :
    cycles settings document s b (direction :: rest) = .ok (o :: outcomes) := by
  rw [cycles, ho]
  simp only [bind, Except.bind, hrest]
  rfl

/-- What a request leaves behind that has put a candidate of the store into the buffer, in the place
of the word that stood at the position. -/
structure Shows (settings : Settings) (document : Nat) (b : MemoryBuffer) (pos : Nat)
    (store : CandidateStore) (w : Text) (o : Outcome MemoryBuffer) : Prop where
  completion : o.completion = some w
  report : o.report = none
  session : o.session =
    { typed := some (typedAt b.extra b.text pos), selection := some w, candidates := store,
      document := some document }
  extra : o.buffer.extra = b.extra
  text : o.buffer.text = b.text.take (wordStartAt b.extra b.text pos) ++ w ++
    b.text.drop (replacedTo settings b.extra b.text pos)
  cursor : o.buffer.cursor = (wordStartAt b.extra b.text pos + w.length : Nat)
  /-- The next request finds the candidate before the caret. -/
  goes_on : o.session.continues document
    (typedAt o.buffer.extra o.buffer.text o.buffer.cursor.toNat) = true

section
variable {settings : Settings} {document : Nat} {b : MemoryBuffer} {pos : Nat}
  {store : CandidateStore} {before typed rest behind : Text}

theorem Inserts.shows {w : Text} {o : Outcome MemoryBuffer}
    (h : Inserts { typed := some typed, candidates := store, document := some document } b before w
      (keptRest settings.removeTrailingWordPart rest ++ behind) o)
    (hcut : WordCut b.extra b.text pos before typed rest behind)
    (hw : ∀ c ∈ w, isWordChar b.extra c = true) : Shows settings document b pos store w o := by
  have hnow := h.wordCut hcut hw
  refine ⟨h.completion, h.report, ?_, h.extra, ?_, ?_, ?_⟩
  · rw [hcut.typedAt_eq, h.session]
  · rw [h.text, hcut.take_wordStartAt, hcut.drop_replacedTo]
  · rw [h.cursor, hcut.wordStartAt_eq]
  · rw [h.cursor, Int.toNat_natCast, hnow.typedAt_eq, h.session]
    simp [continues]

theorem Shows.inserts {w : Text} {o : Outcome MemoryBuffer}
    (h : Shows settings document b pos store w o)
    (hcut : WordCut b.extra b.text pos before typed rest behind) :
    Inserts { typed := some typed, candidates := store, document := some document } b before w
      (keptRest settings.removeTrailingWordPart rest ++ behind) o := by
  refine ⟨h.completion, h.report, ?_, h.extra, ?_, ?_⟩
  · rw [h.session, hcut.typedAt_eq]
  · rw [h.text, hcut.take_wordStartAt, hcut.drop_replacedTo]
  · rw [h.cursor, hcut.wordStartAt_eq]

/-! ## The first request -/

theorem exists_first_shows (s : Session)
    (hcut : WordCut b.extra b.text pos before typed rest behind) (hcursor : b.cursor = pos)
    (hne : typed ≠ []) (hnew : s.continues document typed = false) (direction : Direction) (w : Text)
    (hstore : Scan.candidates { text := b.text, extra := b.extra, typed, pos } settings
      (typed ++ rest) = .ok store)
    (hsize : store.size ≠ 0) (hrotate : rotate store.texts none direction = .ok w)
    (hw : ∀ c ∈ w, isWordChar b.extra c = true) :
    ∃ o, s.cycle settings document b direction = .ok o ∧ Shows settings document b pos store w o := by
  have hresume := resume_of_scan s settings document
    { text := b.text, extra := b.extra, typed, pos } (typed ++ rest) store hnew hstore
  obtain ⟨o, ho, hinserts⟩ := exists_cycle_inserts hcut hcursor hne hresume direction w hsize hrotate
  exact ⟨o, ho, hinserts.shows hcut hw⟩

/-! ## A later request -/

theorem Shows.exists_next (hcut : WordCut b.extra b.text pos before typed rest behind)
    {v : Text} {o : Outcome MemoryBuffer} (h : Shows settings document b pos store v o)
    (hne : v ≠ []) (hv : ∀ c ∈ v, isWordChar b.extra c = true) (direction : Direction) (w : Text)
    (hsize : store.size ≠ 0) (hrotate : rotate store.texts (some v) direction = .ok w)
    (hw : ∀ c ∈ w, isWordChar b.extra c = true) :
    ∃ o', o.session.cycle settings document o.buffer direction = .ok o' ∧
      Shows settings document b pos store w o' := by
  have hinserts := h.inserts hcut
  have hnow := hinserts.wordCut hcut hv
  obtain ⟨o', ho', hnext⟩ :=
    hinserts.exists_next rfl hnow hne settings direction w hsize hrotate
  rw [keptRest_keptRest, Bool.or_self] at hnext
  exact ⟨o', ho', hnext.shows hcut hw⟩

/-! ## All requests -/

/-- As long as a candidate is before the caret, requests go round the candidates from it on. -/
theorem Shows.exists_cycles (hcut : WordCut b.extra b.text pos before typed rest behind)
    (hnodup : store.texts.Nodup) (hne : ∀ t ∈ store.texts, t ≠ [])
    (hwords : ∀ t ∈ store.texts, ∀ c ∈ t, isWordChar b.extra c = true)
    (directions : List Direction) {v : Text} {k : Int} {o : Outcome MemoryBuffer}
    (hv : textAround store.texts k = some v) (h : Shows settings document b pos store v o) :
    ∃ outcomes, cycles settings document o.session o.buffer directions = .ok outcomes ∧
      outcomes.length = directions.length ∧
      ∀ j o', outcomes[j]? = some o' →
        ∃ w, textAround store.texts (k + Direction.total (directions.take (j + 1))) = some w ∧
          Shows settings document b pos store w o' := by
  induction directions generalizing v k o with
  | nil => exact ⟨[], rfl, rfl, by simp⟩
  | cons direction directions ih =>
    have hmem := textAround_mem hv
    have htexts : store.texts ≠ [] := List.ne_nil_of_mem hmem
    have hsize := store.size_ne_zero_iff.mpr htexts
    obtain ⟨w, hw⟩ := exists_textAround htexts (k + direction.step)
    have hrotate := rotate_textAround hnodup k direction hv hw
    obtain ⟨o', ho', hshows⟩ := h.exists_next hcut (hne v hmem) (hwords v hmem) direction w hsize
      hrotate (hwords w (textAround_mem hw))
    obtain ⟨outcomes, hrun, hlength, hall⟩ := ih hw hshows
    refine ⟨o' :: outcomes, cycles_cons ho' hrun, ?_, ?_⟩
    · rw [List.length_cons, hlength, List.length_cons]
    · intro j o'' hj
      cases j with
      | zero =>
        obtain rfl := Option.some.inj hj
        have htotal : Direction.total [direction] = direction.step := Int.add_zero _
        refine ⟨w, ?_, hshows⟩
        rw [List.take_succ_cons, List.take_zero, htotal]
        exact hw
      | succ j =>
        obtain ⟨w', hw', hshows'⟩ := hall j o'' hj
        refine ⟨w', ?_, hshows'⟩
        rw [List.take_succ_cons, Direction.total, ← Int.add_assoc]
        exact hw'

end

/-- The last entry brings back what stood there at the beginning. -/
theorem Shows.text_eq {settings : Settings} {document : Nat} {b : MemoryBuffer} {pos : Nat}
    {store : CandidateStore} {w : Text} {o : Outcome MemoryBuffer}
    (h : Shows settings document b pos store w o) (hle : pos ≤ b.text.length)
    (hw : w = (Scan.atCaret b.extra b.text pos).trailing settings (wordAt b.extra b.text pos)) :
    o.buffer.text = b.text := by
  obtain ⟨before, typed, rest, behind, hcut⟩ := exists_wordCut b.extra b.text pos hle
  rw [Scan.trailing, Scan.atCaret, hcut.typedAt_eq, hcut.wordAt_eq] at hw
  rw [h.text, hcut.take_wordStartAt, hcut.drop_replacedTo, hw]
  conv_rhs => rw [hcut.text_eq]
  unfold keptRest
  split <;> simp

/-- Requests with nothing in between, from a session that does not go on. The first one scans and
puts the first candidate in the place of the word part before the caret; each later one goes one
step round the same candidates. Only that part of the text changes, and the last entry restores
it. -/
theorem cycles_go_round (s : Session) (settings : Settings) (document : Nat) (b : MemoryBuffer)
    (pos : Nat) (first : Direction) (directions : List Direction) (hcursor : b.cursor = pos)
    (hle : pos ≤ b.text.length) (hstart : wordStartAt b.extra b.text pos < pos)
    (hnew : s.continues document (typedAt b.extra b.text pos) = false) :
    ∃ store, (Scan.atCaret b.extra b.text pos).candidates settings (wordAt b.extra b.text pos) =
        .ok store ∧
      (store.texts ≠ [] → (∀ t ∈ store.texts, ∀ c ∈ t, isWordChar b.extra c = true) →
        ∃ outcomes, cycles settings document s b (first :: directions) = .ok outcomes ∧
          outcomes.length = directions.length + 1 ∧
          ∀ j o, outcomes[j]? = some o →
            ∃ w, textAround store.texts (Direction.total (directions.take j)) = some w ∧
              Shows settings document b pos store w o ∧
              (store.texts.getLast? = some w → o.buffer.text = b.text)) := by
  obtain ⟨before, typed, rest, behind, hcut⟩ := exists_wordCut b.extra b.text pos hle
  have htyped := hcut.typed_ne_nil hstart
  obtain ⟨store, hstore, hwell, -, htrailing, hfinal⟩ :=
    (Scan.atCaret b.extra b.text pos).candidates_ok settings (wordAt b.extra b.text pos) pos rfl hle
  refine ⟨store, hstore, ?_⟩
  intro hne hwords
  rw [hcut.typedAt_eq] at hnew
  rw [Scan.atCaret, hcut.typedAt_eq, hcut.wordAt_eq] at hstore
  have hsize := store.size_ne_zero_iff.mpr hne
  have hfin := CandidateStore.finalized_of_size_ne_zero hfinal hsize
  have hnonempty : ∀ t ∈ store.texts, t ≠ [] := by
    intro t ht
    refine hwell.ne_nil_of_mem_texts ?_ ht
    rw [htrailing, Scan.trailing, Scan.atCaret, hcut.typedAt_eq, hcut.wordAt_eq]
    split
    · exact List.append_ne_nil_of_left_ne_nil htyped rest
    · exact htyped
  obtain ⟨w, hw⟩ := exists_textAround hne 0
  obtain ⟨o, ho, hshows⟩ := exists_first_shows s hcut hcursor htyped hnew first w hstore hsize
    (rotate_none store.texts first hw) (hwords w (textAround_mem hw))
  obtain ⟨outcomes, hrun, hlength, hall⟩ := hshows.exists_cycles hcut hwell.texts_nodup hnonempty
    hwords directions hw
  have hlast : ∀ v, store.texts.getLast? = some v →
      v = (Scan.atCaret b.extra b.text pos).trailing settings (wordAt b.extra b.text pos) := by
    intro v hv
    rw [store.getLast?_texts hfin, htrailing] at hv
    exact (Option.some.inj hv).symm
  refine ⟨o :: outcomes, cycles_cons ho hrun, by rw [List.length_cons, hlength], ?_⟩
  intro j o' hj
  cases j with
  | zero =>
    obtain rfl := Option.some.inj hj
    exact ⟨w, hw, hshows, fun h => hshows.text_eq hle (hlast w h)⟩
  | succ j =>
    obtain ⟨w', hw', hshows'⟩ := hall j o' hj
    rw [Int.zero_add] at hw'
    exact ⟨w', hw', hshows', fun h => hshows'.text_eq hle (hlast w' h)⟩

/-- Inside the second word of `foobar foxyz`, with one candidate and the way back. -/
theorem cycles_go_round_foxyz :
    ∃ store, (Scan.atCaret [] "foobar foxyz".toList 9).candidates {} "foxyz".toList = .ok store ∧
      store.texts = ["foobar".toList, "fo".toList] ∧
      ∃ outcomes, cycles {} 0 {} (MemoryBuffer.ofText "foobar foxyz".toList (some 9) [])
          [.forward, .forward, .backward] = .ok outcomes ∧
        outcomes.length = 3 ∧
        ∀ j o, outcomes[j]? = some o →
          ∃ w, textAround store.texts (Direction.total ([.forward, .backward].take j)) = some w ∧
            Shows {} 0 (MemoryBuffer.ofText "foobar foxyz".toList (some 9) []) 9 store w o ∧
            (store.texts.getLast? = some w → o.buffer.text = "foobar foxyz".toList) := by
  obtain ⟨store, hstore, hrun⟩ := cycles_go_round {} {} 0
    (MemoryBuffer.ofText "foobar foxyz".toList (some 9) []) 9 .forward [.forward, .backward]
    rfl (by decide) (by decide) rfl
  have hscan : (Scan.atCaret [] "foobar foxyz".toList 9).candidates {} "foxyz".toList =
      .ok { word := "foxyz".toList, trailing := "fo".toList,
            regular := [⟨"foobar".toList, 9, .exact⟩], finalized := true } := rfl
  obtain rfl := Except.ok.inj (hstore.symm.trans hscan)
  have hwords : ["foobar".toList, "fo".toList].all (fun t => t.all (isWordChar [])) = true := by decide
  refine ⟨_, hstore, rfl, hrun (by decide) ?_⟩
  intro t ht
  exact List.all_eq_true.mp (List.all_eq_true.mp hwords t ht)

end Session
end WordCycle
