import WordCycle.Proofs.Session.Run

/-! Settings that change while a session goes on. The candidates are fixed when it begins, but how far a
request replaces the text is decided anew each time. So a change can make a difference in one way
only: a later request removes the word part behind the caret that the first one has kept. -/

namespace WordCycle
set_option autoImplicit false

namespace Session

/-- Makes requests one after the other, each under settings of its own. -/
def cyclesUnder {β : Type} [Buffer β] (document : Nat) :
    Session → β → List (Settings × Direction) → Except EditError (List (Outcome β))
  | _, _, [] => .ok []
  | s, buffer, (settings, direction) :: rest => do
    let o ← s.cycle settings document buffer direction
    return o :: (← cyclesUnder document o.session o.buffer rest)

def anyRemoves (requests : List (Settings × Direction)) : Bool :=
  requests.any (·.1.removeTrailingWordPart)

/-- Whether the next request goes on with the session: the word part before the caret is there, and is
the selection. -/
def GoesOn (document : Nat) (o : Outcome MemoryBuffer) : Prop :=
  typedAt o.buffer.extra o.buffer.text o.buffer.cursor.toNat ≠ [] ∧
    o.session.continues document
      (typedAt o.buffer.extra o.buffer.text o.buffer.cursor.toNat) = true

instance (document : Nat) (o : Outcome MemoryBuffer) : Decidable (GoesOn document o) :=
  inferInstanceAs (Decidable (_ ∧ _))

/-- The text without the word part behind the cursor. -/
def textWithoutRest (b : MemoryBuffer) : Text :=
  b.text.take b.cursor.toNat ++ b.text.drop (wordEndAt b.extra b.text b.cursor.toNat)

/-- What two requests leave behind that differ in the text at most: where a word part was removed, the
second text lacks it. -/
structure AgreesUpToRest (removed : Bool) (o o' : Outcome MemoryBuffer) : Prop where
  completion : o'.completion = o.completion
  report : o'.report = o.report
  session : o'.session = o.session
  cursor : o'.buffer.cursor = o.buffer.cursor
  text : o'.buffer.text = if removed then textWithoutRest o.buffer else o.buffer.text

/-! ## Runs -/

section
variable {β : Type} [Buffer β] {settings : Settings} {document : Nat} {s : Session} {b : β}

theorem cyclesUnder_cons {direction : Direction} {rest : List (Settings × Direction)} {o : Outcome β}
    {outcomes : List (Outcome β)} (ho : s.cycle settings document b direction = .ok o)
    (hrest : cyclesUnder document o.session o.buffer rest = .ok outcomes) :
    cyclesUnder document s b ((settings, direction) :: rest) = .ok (o :: outcomes) := by
  rw [cyclesUnder, ho]
  simp only [bind, Except.bind, hrest]
  rfl

theorem exists_of_cycles_cons {direction : Direction} {rest : List Direction}
    {outcomes : List (Outcome β)}
    (h : cycles settings document s b (direction :: rest) = .ok outcomes) :
    ∃ o later, outcomes = o :: later ∧ s.cycle settings document b direction = .ok o ∧
      cycles settings document o.session o.buffer rest = .ok later := by
  rw [cycles] at h
  cases ho : s.cycle settings document b direction with
  | error e =>
    rw [ho] at h
    cases h
  | ok o =>
    simp only [ho, bind, Except.bind] at h
    cases hrest : cycles settings document o.session o.buffer rest with
    | error e =>
      rw [hrest] at h
      cases h
    | ok later =>
      rw [hrest] at h
      exact ⟨o, later, (Except.ok.inj h).symm, rfl, hrest⟩

end

theorem exists_cycles (settings : Settings) (document : Nat) (directions : List Direction)
    (s : Session) (b : MemoryBuffer) (pos : Nat) (hcursor : b.cursor = pos)
    (hle : pos ≤ b.text.length) :
    ∃ outcomes, cycles settings document s b directions = .ok outcomes := by
  induction directions generalizing s b pos with
  | nil => exact ⟨[], rfl⟩
  | cons direction directions ih =>
    obtain ⟨before, typed, rest, behind, hcut⟩ := exists_wordCut b.extra b.text pos hle
    obtain ⟨o, ho, hcomes⟩ := exists_comesTo s settings document direction hcut hcursor
    have hinside : ∃ pos : Nat, o.buffer.cursor = pos ∧ pos ≤ o.buffer.text.length := by
      cases hcomes with
      | idle _ ho =>
        subst ho
        exact ⟨pos, hcursor, hle⟩
      | reported _ _ _ _ ho =>
        subst ho
        exact ⟨pos, hcursor, hle⟩
      | inserted _ new _ _ _ _ ho =>
        refine ⟨_, ho.cursor, ?_⟩
        rw [ho.text, List.length_append, List.length_append]
        omega
    obtain ⟨pos', hcursor', hle'⟩ := hinside
    obtain ⟨outcomes, hrun⟩ := ih o.session o.buffer pos' hcursor' hle'
    exact ⟨o :: outcomes, cycles_cons ho hrun⟩

/-! ## Two runs side by side -/

section
variable {document : Nat} {s : Session} {b : MemoryBuffer} {pos : Nat} {before typed rest behind : Text}
  {new : Text} {o o' : Outcome MemoryBuffer}

theorem Inserts.word_of_goesOn {after : Text} (h : Inserts s b before new after o)
    (hgoes : GoesOn document o) : new ≠ [] ∧ ∀ c ∈ new, isWordChar b.extra c = true := by
  have hle : before.length + new.length ≤ o.buffer.text.length := by
    rw [h.text, List.length_append, List.length_append]
    omega
  obtain ⟨_, typed, _, _, hnow⟩ := exists_wordCut o.buffer.extra _ _ hle
  obtain ⟨hne, hcontinues⟩ := hgoes
  rw [h.cursor, Int.toNat_natCast, hnow.typedAt_eq] at hne hcontinues
  have hnew : typed = new := by
    simp only [h.session, continues, Bool.and_eq_true, decide_eq_true_eq,
      Option.some.injEq] at hcontinues
    exact hcontinues.1.symm
  rw [← hnew, ← h.extra]
  exact ⟨hne, hnow.typed_word⟩

theorem Inserts.textWithoutRest_eq {removed : Bool}
    (h : Inserts s b before new (keptRest removed rest ++ behind) o)
    (hcut : WordCut b.extra b.text pos before typed rest behind) :
    textWithoutRest o.buffer = before ++ new ++ behind := by
  have hrun : (keptRest removed rest ++ behind).takeWhile (isWordChar b.extra) =
      keptRest removed rest :=
    takeWhile_run_append _ _ behind (fun c hc => hcut.rest_word c (mem_of_mem_keptRest hc))
      hcut.behind_begins
  have hfront : (before ++ new).length = before.length + new.length := List.length_append
  rw [textWithoutRest, wordEndAt, h.extra, h.text, h.cursor, Int.toNat_natCast, ← hfront,
    List.take_left, List.drop_left, hrun, ← List.drop_drop, List.drop_left, List.drop_left]

theorem AgreesUpToRest.refl (o : Outcome MemoryBuffer) : AgreesUpToRest false o o :=
  ⟨rfl, rfl, rfl, rfl, rfl⟩

/-- Two inserted texts agree if they are the same and stand before the same, but for the rest of the
word, which is missing in the second if it was removed. -/
theorem Inserts.agrees (hcut : WordCut b.extra b.text pos before typed rest behind)
    {settings : Settings} {removed : Bool}
    (h : Inserts s b before new (keptRest settings.removeTrailingWordPart rest ++ behind) o)
    (h' : Inserts s b before new
      (keptRest (settings.removeTrailingWordPart || removed) rest ++ behind) o') :
    AgreesUpToRest (!settings.removeTrailingWordPart && removed) o o' := by
  refine ⟨h'.completion.trans h.completion.symm, h'.report.trans h.report.symm,
    h'.session.trans h.session.symm, h'.cursor.trans h.cursor.symm, ?_⟩
  rw [h'.text, h.textWithoutRest_eq hcut, h.text]
  cases settings.removeTrailingWordPart <;> cases removed <;> simp [keptRest]

/-- A run that stays in the session is followed by one under settings that change. In both each request
finds the same selection before the caret and puts the same candidate in its place, so the one
thing to keep track of is whether the rest of the word has been removed so far. -/
theorem Inserts.exists_follow (hcut : WordCut b.extra b.text pos before typed rest behind)
    (hdocument : s.document = some document) (hsize : s.candidates.size ≠ 0) (settings : Settings)
    (removed : Bool)
    (h : Inserts s b before new (keptRest settings.removeTrailingWordPart rest ++ behind) o)
    (h' : Inserts s b before new
      (keptRest (settings.removeTrailingWordPart || removed) rest ++ behind) o')
    (later : List (Settings × Direction)) {outcomes : List (Outcome MemoryBuffer)}
    (hrun : cycles settings document o.session o.buffer (later.map (·.2)) = .ok outcomes)
    (hstay : ∀ p ∈ (o :: outcomes).dropLast, GoesOn document p) :
    ∃ outcomes', cyclesUnder document o'.session o'.buffer later = .ok outcomes' ∧
      outcomes'.length = outcomes.length ∧
      ∀ j p p', outcomes[j]? = some p → outcomes'[j]? = some p' →
        ∃ new, Inserts s b before new (keptRest settings.removeTrailingWordPart rest ++ behind) p ∧
          Inserts s b before new (keptRest (settings.removeTrailingWordPart ||
            (removed || anyRemoves (later.take (j + 1)))) rest ++ behind) p' := by
  induction later generalizing new removed o o' outcomes with
  | nil =>
    obtain rfl := Except.ok.inj hrun
    exact ⟨[], rfl, rfl, by simp⟩
  | cons request later ih =>
    obtain ⟨settings', direction⟩ := request
    obtain ⟨p, outcomes, rfl, hp, hrun⟩ := exists_of_cycles_cons hrun
    obtain ⟨hne, hword⟩ := h.word_of_goesOn (hstay o (by simp))
    obtain ⟨next, hrotate⟩ :=
      exists_rotate (s.candidates.size_ne_zero_iff.mp hsize) (some new) direction
    -- Both texts have the candidate before the caret; only what stands behind it may differ.
    have hnow := h.wordCut hcut hword
    have hnow' := h'.wordCut hcut hword
    obtain ⟨q, hq, hnext⟩ := h.exists_next hdocument hnow hne settings direction next hsize hrotate
    obtain ⟨p', hp', hnext'⟩ :=
      h'.exists_next hdocument hnow' hne settings' direction next hsize hrotate
    obtain rfl : q = p := Except.ok.inj (hq.symm.trans hp)
    rw [keptRest_keptRest, Bool.or_self] at hnext
    rw [keptRest_keptRest, Bool.or_comm, Bool.or_assoc] at hnext'
    have hstay' : ∀ p ∈ (q :: outcomes).dropLast, GoesOn document p :=
      fun p hp => hstay p (List.mem_cons_of_mem o hp)
    obtain ⟨outcomes', hrun', hlength, hall⟩ := ih _ hnext hnext' hrun hstay'
    refine ⟨p' :: outcomes', cyclesUnder_cons hp' hrun', by simp [hlength], ?_⟩
    intro j r r' hr hr'
    cases j with
    | zero =>
      obtain rfl := Option.some.inj hr
      obtain rfl := Option.some.inj hr'
      refine ⟨next, hnext, ?_⟩
      simpa [anyRemoves] using hnext'
    | succ j =>
      obtain ⟨last, hlast, hlast'⟩ := hall j r r' hr hr'
      refine ⟨last, hlast, ?_⟩
      rw [Bool.or_assoc] at hlast'
      simpa [anyRemoves] using hlast'

theorem Inserts.exists_of_mem (hcut : WordCut b.extra b.text pos before typed rest behind)
    (hdocument : s.document = some document) (hsize : s.candidates.size ≠ 0) (settings : Settings)
    (h : Inserts s b before new (keptRest settings.removeTrailingWordPart rest ++ behind) o)
    {directions : List Direction} {outcomes : List (Outcome MemoryBuffer)}
    (hrun : cycles settings document o.session o.buffer directions = .ok outcomes)
    (hstay : ∀ p ∈ (o :: outcomes).dropLast, GoesOn document p) {p : Outcome MemoryBuffer}
    (hp : p ∈ o :: outcomes) :
    ∃ last, Inserts s b before last (keptRest settings.removeTrailingWordPart rest ++ behind) p := by
  rcases List.mem_cons.mp hp with rfl | hp
  · exact ⟨new, h⟩
  · have hsame : (directions.map (settings, ·)).map (·.2) = directions := by
      simp [Function.comp_def]
    rw [← hsame] at hrun
    obtain ⟨outcomes', -, hlength, hall⟩ := h.exists_follow hcut hdocument hsize settings false
      (by rwa [Bool.or_false]) _ hrun hstay
    obtain ⟨j, hj, hget⟩ := List.mem_iff_getElem.mp hp
    obtain ⟨last, hlast, -⟩ := hall j p _ (List.getElem?_eq_some_iff.mpr ⟨hj, hget⟩)
      (List.getElem?_eq_getElem (hlength ▸ hj))
    exact ⟨last, hlast⟩

theorem trailing_of_resume {s s' : Session} {settings : Settings} {document : Nat} {scan : Scan}
    {word : Text} (hnew : s.continues document scan.typed = false) (pos : Nat) (hpos : scan.pos = pos)
    (hle : pos ≤ scan.text.length) (hresume : s.resume settings document scan word = .ok s') :
    s'.candidates.trailing = scan.trailing settings word := by
  obtain ⟨store, hstore, -, -, htrailing, -⟩ := scan.candidates_ok settings word pos hpos hle
  rw [resume_of_scan s settings document scan word store hnew hstore] at hresume
  rw [← Except.ok.inj hresume]
  exact htrailing

theorem Inserts.restores {settings : Settings}
    (h : Inserts s b before new (keptRest settings.removeTrailingWordPart rest ++ behind) o)
    (hcut : WordCut b.extra b.text pos before typed rest behind)
    (hnew : new = if settings.removeTrailingWordPart then typed ++ rest else typed) :
    o.buffer.text = b.text := by
  rw [h.text, hcut.text_eq, hnew, keptRest]
  split <;> simp

end

/-- Of requests that all go on with one session, each later one puts the same candidate into the text as
it would under the settings of the first, with the same caret. Only the word part behind the caret
can differ: it is missing from the first request on that removes it. Under unchanged settings
the last entry restores the text that the session began with. -/
theorem cycles_reconfigured (s : Session) (settings : Settings) (document : Nat) (b : MemoryBuffer)
    (pos : Nat) (first : Direction) (directions : List Direction) (hcursor : b.cursor = pos)
    (hle : pos ≤ b.text.length) (hstart : wordStartAt b.extra b.text pos < pos) :
    ∃ outcomes, cycles settings document s b (first :: directions) = .ok outcomes ∧
      ((∀ o ∈ outcomes.dropLast, GoesOn document o) →
        (s.continues document (typedAt b.extra b.text pos) = false → ∀ o ∈ outcomes,
          o.completion = some o.session.candidates.trailing → o.buffer.text = b.text) ∧
        ∀ later : List (Settings × Direction), later.map (·.2) = directions →
          ∃ outcomes', cyclesUnder document s b ((settings, first) :: later) = .ok outcomes' ∧
            outcomes'.length = outcomes.length ∧
            ∀ j o o', outcomes[j]? = some o → outcomes'[j]? = some o' →
              AgreesUpToRest (!settings.removeTrailingWordPart && anyRemoves (later.take j)) o o') := by
  obtain ⟨before, typed, rest, behind, hcut⟩ := exists_wordCut b.extra b.text pos hle
  obtain ⟨outcomes, hrun⟩ := exists_cycles settings document (first :: directions) s b pos hcursor hle
  obtain ⟨o, outcomes, rfl, ho, hlater⟩ := exists_of_cycles_cons hrun
  obtain ⟨p, hp, hcomes⟩ := exists_comesTo s settings document first hcut hcursor
  obtain rfl : p = o := Except.ok.inj (hp.symm.trans ho)
  refine ⟨p :: outcomes, hrun, ?_⟩
  intro hstay
  cases hcomes with
  | idle htyped => exact absurd htyped (hcut.typed_ne_nil hstart)
  | reported _ _ _ _ hreport =>
    -- A session that was forgotten does not go on, so there is no later request.
    have hforgotten : ¬GoesOn document p := by simp [GoesOn, continues, hreport]
    cases directions with
    | cons direction directions =>
      obtain ⟨q, outcomes, rfl, -, -⟩ := exists_of_cycles_cons hlater
      exact absurd (hstay p (by simp)) hforgotten
    | nil =>
      obtain rfl := Except.ok.inj hlater
      refine ⟨?_, ?_⟩
      · intro _ o hmem hcompletion
        obtain rfl := List.mem_singleton.mp hmem
        rw [hreport] at hcompletion
        cases hcompletion
      · intro later hdirections
        obtain rfl := List.map_eq_nil_iff.mp hdirections
        refine ⟨[p], cyclesUnder_cons ho rfl, rfl, ?_⟩
        intro j o o' ho ho'
        obtain rfl : o = o' := Option.some.inj (ho.symm.trans ho')
        simpa [anyRemoves] using AgreesUpToRest.refl o
  | inserted s' new htyped hresume hsize hrotate hinserts =>
    have hdocument := document_of_resume hresume
    refine ⟨?_, ?_⟩
    · intro hnew o hmem hcompletion
      obtain ⟨last, hlast⟩ :=
        hinserts.exists_of_mem hcut hdocument hsize settings hlater hstay hmem
      refine hlast.restores hcut ?_
      rw [hcut.typedAt_eq] at hnew
      rw [hlast.completion, hlast.session, trailing_of_resume hnew pos rfl hle hresume] at hcompletion
      exact Option.some.inj hcompletion
    · intro later hdirections
      rw [← hdirections] at hlater
      obtain ⟨outcomes', hrun', hlength, hall⟩ := hinserts.exists_follow hcut hdocument hsize settings
        false (by rwa [Bool.or_false]) later hlater hstay
      refine ⟨p :: outcomes', cyclesUnder_cons ho hrun', by simp [hlength], ?_⟩
      intro j o o' ho ho'
      cases j with
      | zero =>
        obtain rfl : o = o' := Option.some.inj (ho.symm.trans ho')
        simpa [anyRemoves] using AgreesUpToRest.refl o
      | succ j =>
        obtain ⟨last, hlast, hlast'⟩ := hall j o o' ho ho'
        exact hlast.agrees hcut hlast'

/-- Three requests at the end of `fab fob f` under changes of every other setting. -/
theorem cycles_reconfigured_fob :
    ∃ outcomes outcomes',
      cycles {} 0 {} (.ofText "fab fob f".toList none []) [.forward, .backward, .forward] =
        .ok outcomes ∧
      cyclesUnder 0 {} (.ofText "fab fob f".toList none []) [({}, .forward),
        ({ sortOrder := .alphabetical, candidatesLimit := 1 }, .backward),
        ({ distanceLimit := 1, skipFuzzyIfExact := true }, .forward)] = .ok outcomes' ∧
      outcomes'.length = outcomes.length ∧
      ∀ j o o', outcomes[j]? = some o → outcomes'[j]? = some o' →
        AgreesUpToRest (!false && anyRemoves ([
          ({ sortOrder := .alphabetical, candidatesLimit := 1 }, .backward),
          ({ distanceLimit := 1, skipFuzzyIfExact := true }, .forward)].take j)) o o' := by
  obtain ⟨outcomes, hrun, hstay⟩ := cycles_reconfigured {} {} 0 (.ofText "fab fob f".toList none []) 9
    .forward [.backward, .forward] rfl (by decide) (by decide)
  have hgoes : (cycles {} 0 {} (MemoryBuffer.ofText "fab fob f".toList none [])
      [.forward, .backward, .forward]).map (fun outcomes =>
        outcomes.dropLast.all fun o => GoesOn 0 o) = .ok true := by decide +kernel
  rw [hrun] at hgoes
  have hall := List.all_eq_true.mp (Except.ok.inj hgoes)
  obtain ⟨-, hlater⟩ := hstay fun o ho => of_decide_eq_true (hall o ho)
  obtain ⟨outcomes', hrun', hagree⟩ := hlater
    [({ sortOrder := .alphabetical, candidatesLimit := 1 }, .backward),
      ({ distanceLimit := 1, skipFuzzyIfExact := true }, .forward)] rfl
  exact ⟨outcomes, outcomes', hrun, hrun', hagree⟩

/-- Inside `foxyz` the way back leads elsewhere if the rest of the word is to be removed by then, though
all requests go on with one session. -/
theorem cycles_reconfigured_loses_rest :
    (cycles {} 0 {} (MemoryBuffer.ofText "foobar foxyz".toList (some 9) []) [.forward, .forward]).map
        (fun outcomes => outcomes.map fun o => (o.completion, o.buffer.text)) =
      .ok [(some "foobar".toList, "foobar foobarxyz".toList),
        (some "fo".toList, "foobar foxyz".toList)] ∧
    (cyclesUnder 0 {} (MemoryBuffer.ofText "foobar foxyz".toList (some 9) [])
        [({}, .forward), ({ removeTrailingWordPart := true }, .forward)]).map
        (fun outcomes => outcomes.map fun o => (o.completion, o.buffer.text)) =
      .ok [(some "foobar".toList, "foobar foobarxyz".toList),
        (some "fo".toList, "foobar fo".toList)] ∧
    (cyclesUnder 0 {} (MemoryBuffer.ofText "foobar foxyz".toList (some 9) [])
        [({}, .forward), ({ removeTrailingWordPart := true }, .forward)]).map
        (fun outcomes => outcomes.all (GoesOn 0 ·)) = .ok true := by
  decide +kernel

end Session
end WordCycle
