import WordCycle.Proofs.Candidate.Store
import Mathlib.Order.Bounds.Basic

/-! Words offered to a store one after the other. In the end the store holds what it held before and all
that it admits of the offers, each text with the least distance at which it was offered. Offers that end
at a limit go at least as far under a higher one, and bring at least the same texts. -/

namespace WordCycle
set_option autoImplicit false

namespace CandidateStore

/-! ## One offer -/

theorem length_insert (s : CandidateStore) (c : Candidate) :
    (s.insert c).2.regular.length = s.regular.length + (s.insert c).1.toNat := by
  have hlength := congrArg List.length (s.labels_insert c)
  rw [labels, labels, List.length_append, List.length_map, List.length_map] at hlength
  rw [hlength]
  cases (s.insert c).1 <;> rfl

theorem mem_texts_insert (s : CandidateStore) (c : Candidate) (t : Text) :
    t ∈ (s.insert c).2.regular.map Candidate.text ↔
      t ∈ s.regular.map Candidate.text ∨ s.Admits t ∧ t = c.text := by
  have hfst := s.insert_fst c
  rw [s.texts_insert, List.mem_append]
  split
  · next hnew =>
    rw [List.mem_singleton]
    constructor
    · rintro (ht | rfl)
      · exact Or.inl ht
      · exact Or.inr ⟨(hfst.mp hnew).1, rfl⟩
    · exact fun h => h.imp_right And.right
  · next hold =>
    constructor
    · exact fun h => Or.inl (h.resolve_right List.not_mem_nil)
    · rintro (ht | ⟨hadmits, rfl⟩)
      · exact Or.inl ht
      · by_contra hout
        exact hold (hfst.mpr ⟨hadmits, fun ht => hout (Or.inl ht)⟩)

theorem WellFormed.eq_of_text {s : CandidateStore} (h : s.WellFormed) {c d : Candidate}
    (hc : c ∈ s.regular) (hd : d ∈ s.regular) (htext : c.text = d.text) : c = d :=
  List.inj_on_of_nodup_map h.nodup hc hd htext

theorem mem_bringNearer {text : Text} {distance : Int} {l : List Candidate} {d : Candidate}
    (hnodup : (l.map Candidate.text).Nodup) (hd : d ∈ bringNearer text distance l) :
    ∃ v ∈ l, v.text = d.text ∧
      d.distance = if d.text = text then min v.distance distance else v.distance := by
  fun_induction bringNearer text distance l with
  | case1 => cases hd
  | case2 c rest htext =>
    rcases List.mem_cons.mp hd with rfl | hd
    · exact ⟨c, List.mem_cons_self, rfl, by rw [if_pos htext]⟩
    · rw [List.map_cons, List.nodup_cons] at hnodup
      have hother : d.text ≠ text := by
        rintro rfl
        exact hnodup.1 (htext ▸ List.mem_map_of_mem hd)
      exact ⟨d, List.mem_cons_of_mem c hd, rfl, by rw [if_neg hother]⟩
  | case3 c rest htext ih =>
    rw [List.map_cons, List.nodup_cons] at hnodup
    rcases List.mem_cons.mp hd with rfl | hd
    · exact ⟨d, List.mem_cons_self, rfl, by rw [if_neg htext]⟩
    · obtain ⟨v, hv, hsame⟩ := ih hnodup.2 hd
      exact ⟨v, List.mem_cons_of_mem c hv, hsame⟩

/-- The distances at which a text stands in a list. -/
def distances (l : List Candidate) (t : Text) : Set Int := {d | ∃ c ∈ l, c.text = t ∧ c.distance = d}

theorem distances_append (l m : List Candidate) (t : Text) :
    distances (l ++ m) t = distances l t ∪ distances m t := by
  ext x
  simp only [distances, Set.mem_ofPred_eq, Set.mem_union, List.mem_append, or_and_right, exists_or]

theorem distances_of_notMem {l : List Candidate} {t : Text} (h : t ∉ l.map Candidate.text) :
    distances l t = ∅ := by
  apply Set.eq_empty_of_forall_notMem
  rintro x ⟨c, hc, rfl, rfl⟩
  exact h (List.mem_map_of_mem hc)

theorem distances_singleton (c : Candidate) : distances [c] c.text = {c.distance} := by
  ext x
  simp [distances, eq_comm]

theorem WellFormed.distances_eq {s : CandidateStore} (h : s.WellFormed) {d : Candidate}
    (hd : d ∈ s.regular) : distances s.regular d.text = {d.distance} := by
  apply Set.eq_singleton_iff_unique_mem.mpr
  refine ⟨⟨d, hd, rfl, rfl⟩, ?_⟩
  rintro x ⟨v, hv, htext, rfl⟩
  exact congrArg Candidate.distance (h.eq_of_text hv hd htext)

/-- Words known at the same least distance are as good as each other beside more words. -/
theorem isLeast_distances_append {l m more : List Candidate} {t : Text} {near least : Int}
    (hl : IsLeast (distances l t) near) (hm : IsLeast (distances m t) near)
    (h : IsLeast (distances (m ++ more) t) least) : IsLeast (distances (l ++ more) t) least := by
  rw [distances_append, isLeast_union_iff] at h ⊢
  rcases h with ⟨hleast, hmore⟩ | ⟨hlow, hmore⟩
  · obtain rfl := hm.unique hleast
    exact Or.inl ⟨hl, hmore⟩
  · have hnear : least ≤ near := hlow hm.1
    exact Or.inr ⟨fun x hx => hnear.trans (hl.2 hx), hmore⟩

theorem WellFormed.isLeast_insert {s : CandidateStore} (h : s.WellFormed) (c : Candidate) :
    ∀ d ∈ (s.insert c).2.regular, IsLeast (distances (s.regular ++ [c]) d.text) d.distance := by
  intro d hd
  rw [distances_append]
  have hkept {v : Candidate} (hv : v ∈ s.regular) (htext : v.text = d.text) (hother : d.text ≠ c.text) :
      IsLeast (distances s.regular d.text ∪ distances [c] d.text) v.distance := by
    rw [← htext, h.distances_eq hv, htext, distances_of_notMem (by simpa using hother), Set.union_empty]
    exact isLeast_singleton
  unfold CandidateStore.insert at hd
  split at hd
  · obtain ⟨v, hv, htext, hdistance⟩ := mem_bringNearer h.nodup hd
    rw [hdistance]
    split
    · next hsame =>
      rw [← htext, h.distances_eq hv, htext, hsame, distances_singleton]
      exact isLeast_singleton.union isLeast_singleton
    · next hother => exact hkept hv htext hother
  · next hfind =>
    have hnew : c.text ∉ s.regular.map Candidate.text := fun ht => hfind ((s.find?_isSome _).mpr ht)
    have hold (hmem : d ∈ s.regular) : d.text ≠ c.text :=
      fun htext => hnew (htext ▸ List.mem_map_of_mem hmem)
    split at hd
    · exact hkept hd rfl (hold hd)
    · rcases List.mem_append.mp hd with hd | hd
      · exact hkept hd rfl (hold hd)
      · obtain rfl := List.mem_singleton.mp hd
        rw [distances_of_notMem hnew, distances_singleton, Set.empty_union]
        exact isLeast_singleton

/-! ## Offers one after the other -/

def upsertAll (s : CandidateStore) : List Candidate → Except EditError CandidateStore
  | [] => .ok s
  | c :: rest => do
    let (_, s) ← s.upsert c
    s.upsertAll rest

theorem upsertAll_cons (s : CandidateStore) (c : Candidate) (rest : List Candidate)
    (h : s.finalized = false) : s.upsertAll (c :: rest) = (s.insert c).2.upsertAll rest := by
  rw [upsertAll, upsert, h]
  rfl

/-- Offers to an open store, none of which is refused. -/
def insertAll (s : CandidateStore) (offers : List Candidate) : CandidateStore :=
  offers.foldl (fun s c => (s.insert c).2) s

theorem insertAll_cons (s : CandidateStore) (c : Candidate) (rest : List Candidate) :
    s.insertAll (c :: rest) = (s.insert c).2.insertAll rest := rfl

theorem insertAll_append (s : CandidateStore) (first second : List Candidate) :
    s.insertAll (first ++ second) = (s.insertAll first).insertAll second :=
  List.foldl_append

theorem upsertAll_eq (s : CandidateStore) (offers : List Candidate) (h : s.finalized = false) :
    s.upsertAll offers = .ok (s.insertAll offers) := by
  induction offers generalizing s with
  | nil => rfl
  | cons c rest ih =>
    rw [s.upsertAll_cons c rest h, ih _ ((s.insert_finalized c).trans h), insertAll_cons]

theorem insertAll_finalized (s : CandidateStore) (offers : List Candidate) :
    (s.insertAll offers).finalized = s.finalized := by
  induction offers generalizing s with
  | nil => rfl
  | cons c rest ih => rw [insertAll_cons, ih, insert_finalized]

theorem insertAll_trailing (s : CandidateStore) (offers : List Candidate) :
    (s.insertAll offers).trailing = s.trailing := by
  induction offers generalizing s with
  | nil => rfl
  | cons c rest ih => rw [insertAll_cons, ih, insert_trailing]

theorem insertAll_admits (s : CandidateStore) (offers : List Candidate) (t : Text) :
    (s.insertAll offers).Admits t ↔ s.Admits t := by
  induction offers generalizing s with
  | nil => rfl
  | cons c rest ih => rw [insertAll_cons, ih, insert_admits]

theorem labels_prefix_insertAll (s : CandidateStore) (offers : List Candidate) :
    s.labels <+: (s.insertAll offers).labels := by
  induction offers generalizing s with
  | nil => exact List.prefix_refl _
  | cons c rest ih =>
    have hfirst : s.labels <+: (s.insert c).2.labels := by
      rw [s.labels_insert]
      exact List.prefix_append _ _
    exact hfirst.trans (ih _)

theorem WellFormed.insertAll {s : CandidateStore} (h : s.WellFormed) (offers : List Candidate) :
    (s.insertAll offers).WellFormed := by
  induction offers generalizing s with
  | nil => exact h
  | cons c rest ih => exact ih (h.insert c)

theorem mem_texts_insertAll (s : CandidateStore) (offers : List Candidate) (t : Text) :
    t ∈ (s.insertAll offers).regular.map Candidate.text ↔
      t ∈ s.regular.map Candidate.text ∨ s.Admits t ∧ t ∈ offers.map Candidate.text := by
  induction offers generalizing s with
  | nil => simp [insertAll]
  | cons c rest ih =>
    rw [insertAll_cons, ih, mem_texts_insert, insert_admits, List.map_cons, List.mem_cons]
    tauto

/-- In the end every text stands with the least of the distances at which it stood before or was
offered. -/
theorem WellFormed.isLeast_insertAll {s : CandidateStore} (h : s.WellFormed)
    (offers : List Candidate) :
    ∀ d ∈ (s.insertAll offers).regular, IsLeast (distances (s.regular ++ offers) d.text) d.distance := by
  induction offers generalizing s with
  | nil =>
    intro d hd
    rw [List.append_nil, h.distances_eq hd]
    exact isLeast_singleton
  | cons c rest ih =>
    intro d hd
    have hrest := ih (h.insert c) d hd
    rw [List.append_cons]
    by_cases hmem : d.text ∈ (s.insert c).2.regular.map Candidate.text
    · obtain ⟨w, hw, hwtext⟩ := List.mem_map.mp hmem
      have hoffered := h.isLeast_insert c w hw
      have hknown := (h.insert c).distances_eq hw
      rw [hwtext] at hoffered hknown
      exact isLeast_distances_append hoffered (hknown ▸ isLeast_singleton) hrest
    · -- the text comes with a later offer
      have hadmits : s.Admits d.text :=
        (s.insertAll_admits (c :: rest) d.text).mp
          ((h.insertAll (c :: rest)).admitted d.text (List.mem_map_of_mem hd))
      have hnew : d.text ∉ (s.regular ++ [c]).map Candidate.text := by
        rw [mem_texts_insert] at hmem
        simpa [hadmits] using hmem
      rw [distances_append, distances_of_notMem hmem] at hrest
      rwa [distances_append, distances_of_notMem hnew]

/-- The same offers bring no more texts to a store that holds more to begin with. -/
theorem length_insertAll_le {s s' : CandidateStore} (offers : List Candidate)
    (hadmits : ∀ t, s'.Admits t ↔ s.Admits t)
    (hsub : ∀ t ∈ s.regular.map Candidate.text, t ∈ s'.regular.map Candidate.text) :
    (s'.insertAll offers).regular.length + s.regular.length ≤
      (s.insertAll offers).regular.length + s'.regular.length := by
  induction offers generalizing s s' with
  | nil => exact Nat.le_of_eq (Nat.add_comm _ _)
  | cons c rest ih =>
    have hnew (h : (s'.insert c).1 = true) : (s.insert c).1 = true := by
      obtain ⟨hin, hout⟩ := (s'.insert_fst c).mp h
      exact (s.insert_fst c).mpr ⟨(hadmits _).mp hin, fun ht => hout (hsub _ ht)⟩
    have hone : (s'.insert c).1.toNat ≤ (s.insert c).1.toNat := by
      cases h : (s'.insert c).1 with
      | false => exact Nat.zero_le _
      | true => rw [hnew h]
    have hkept : ∀ t ∈ (s.insert c).2.regular.map Candidate.text,
        t ∈ (s'.insert c).2.regular.map Candidate.text := by
      intro t ht
      rw [mem_texts_insert] at ht ⊢
      exact ht.imp (hsub t) fun h => ⟨(hadmits t).mpr h.1, h.2⟩
    have hrest := ih (fun t => by rw [insert_admits, insert_admits, hadmits]) hkept
    rw [s.length_insert, s'.length_insert] at hrest
    rw [insertAll_cons, insertAll_cons]
    omega

/-! ## Offers up to a limit -/

/-- The first `taken` words are offered to a store, which brings `count` new candidates: no more than
the limit. If they are fewer, all words are offered, and the last word offered is the first that makes
them as many as the limit. -/
structure OffersUntil (limit : Nat) (words : List Candidate) (store : CandidateStore)
    (taken count : Nat) (store' : CandidateStore) : Prop where
  result : store.upsertAll (words.take taken) = .ok store'
  gained : store'.regular.length = store.regular.length + count
  bounded : count ≤ limit
  exhausted : count < limit → taken = words.length
  earlier : ∀ n < taken, ∀ s, store.upsertAll (words.take n) = .ok s →
    s.regular.length < store.regular.length + limit

theorem offersUntil_nil (limit : Nat) (store : CandidateStore) :
    OffersUntil limit [] store 0 0 store where
  result := rfl
  gained := rfl
  bounded := Nat.zero_le limit
  exhausted _ := rfl
  earlier n hn := absurd hn (Nat.not_lt_zero n)

theorem offersUntil_stop (c : Candidate) (rest : List Candidate) (store : CandidateStore)
    (h : store.finalized = false) (hnew : (store.insert c).1 = true) :
    OffersUntil 1 (c :: rest) store 1 1 (store.insert c).2 where
  result := by
    rw [List.take_succ_cons, List.take_zero, store.upsertAll_cons c [] h]
    rfl
  gained := by rw [length_insert, hnew, Bool.toNat_true]
  bounded := Nat.le_refl 1
  exhausted hlt := absurd hlt (Nat.lt_irrefl 1)
  earlier := by
    intro n hn s hs
    obtain rfl : n = 0 := by omega
    obtain rfl := Except.ok.inj hs
    omega

theorem OffersUntil.cons {limit : Nat} {c : Candidate} {rest : List Candidate}
    {store store' : CandidateStore} {taken count : Nat} (h : store.finalized = false)
    (hroom : (store.insert c).1.toNat < limit)
    (hrest : OffersUntil (limit - (store.insert c).1.toNat) rest (store.insert c).2 taken count
      store') :
    OffersUntil limit (c :: rest) store (taken + 1) ((store.insert c).1.toNat + count) store' where
  result := by rw [List.take_succ_cons, store.upsertAll_cons c _ h, hrest.result]
  gained := by rw [hrest.gained, length_insert, Nat.add_assoc]
  bounded := by
    have := hrest.bounded
    omega
  exhausted hlt := by rw [hrest.exhausted (by omega), List.length_cons]
  earlier := by
    intro n hn s hs
    cases n with
    | zero =>
      obtain rfl := Except.ok.inj hs
      omega
    | succ n =>
      rw [List.take_succ_cons, store.upsertAll_cons c _ h] at hs
      have hlt := hrest.earlier n (by omega) s hs
      rw [length_insert] at hlt
      omega

/-! ## A higher limit -/

section
variable {limit small large taken taken' count count' : Nat} {words : List Candidate}
  {store store' first second : CandidateStore}

theorem OffersUntil.eq_insertAll (h : OffersUntil limit words store taken count first)
    (hopen : store.finalized = false) : first = store.insertAll (words.take taken) :=
  Except.ok.inj (h.result.symm.trans (store.upsertAll_eq _ hopen))

/-- Under a higher limit the offers go at least as far. -/
theorem OffersUntil.take_prefix (hle : small ≤ large)
    (h : OffersUntil small words store taken count first)
    (h' : OffersUntil large words store taken' count' second) :
    words.take taken <+: words.take taken' := by
  by_cases htaken : taken ≤ taken'
  · exact List.take_prefix_take_left htaken
  · -- the higher limit is not what ended the offers, as the lower one was not reached there
    have hfew := h.earlier taken' (by omega) second h'.result
    rw [h'.gained] at hfew
    rw [h'.exhausted (by omega), List.take_length]
    exact List.take_prefix _ _

theorem OffersUntil.labels_prefix (hle : small ≤ large) (hopen : store.finalized = false)
    (h : OffersUntil small words store taken count first)
    (h' : OffersUntil large words store taken' count' second) : first.labels <+: second.labels := by
  obtain ⟨rest, hrest⟩ := h.take_prefix hle h'
  rw [h'.eq_insertAll hopen, ← hrest, insertAll_append, ← h.eq_insertAll hopen]
  exact first.labels_prefix_insertAll rest

theorem OffersUntil.eq_of_room (hle : small ≤ large) (hopen : store.finalized = false)
    (h : OffersUntil small words store taken count first)
    (h' : OffersUntil large words store taken' count' second) (hroom : count < small) :
    second = first := by
  obtain ⟨rest, hrest⟩ := h.take_prefix hle h'
  rw [h.exhausted hroom, List.take_length] at hrest
  have hall : words.take taken' = words := by
    have hlength := congrArg List.length hrest
    have hshort := (List.take_sublist taken' words).length_le
    rw [List.length_append] at hlength
    obtain rfl : rest = [] := List.length_eq_zero_iff.mp (by omega)
    rw [← hrest, List.append_nil]
  rw [h'.eq_insertAll hopen, h.eq_insertAll hopen, hall, h.exhausted hroom, List.take_length]

/-- If a store holds more to begin with and the limit is higher, the same words bring no text less. A
text that is not reached any more stands behind as many new ones as the higher limit allows, and these
would have been new to the smaller store, too. -/
theorem OffersUntil.mem_texts_of_limit_le (hle : small ≤ large) (hopen : store.finalized = false)
    (hopen' : store'.finalized = false) (hadmits : ∀ t, store'.Admits t ↔ store.Admits t)
    (hsub : ∀ t ∈ store.regular.map Candidate.text, t ∈ store'.regular.map Candidate.text)
    (h : OffersUntil small words store taken count first)
    (h' : OffersUntil large words store' taken' count' second) :
    ∀ t ∈ first.regular.map Candidate.text, t ∈ second.regular.map Candidate.text := by
  intro t ht
  rw [h.eq_insertAll hopen, mem_texts_insertAll] at ht
  rw [h'.eq_insertAll hopen', mem_texts_insertAll]
  rcases ht with ht | ⟨hadmitted, ht⟩
  · exact Or.inl (hsub t ht)
  refine Or.inr ⟨(hadmits t).mpr hadmitted, ?_⟩
  by_contra hbeyond
  have hless : taken' < taken := by
    by_contra hge
    exact hbeyond (((List.take_prefix_take_left (Nat.not_lt.mp hge)).map _).subset ht)
  have hfull : count' = large := by
    by_contra hroom
    have hbounded := h'.bounded
    rw [h'.exhausted (by omega), List.take_length] at hbeyond
    exact hbeyond (((List.take_prefix taken words).map _).subset ht)
  have hfew := h.earlier taken' hless _ (store.upsertAll_eq _ hopen)
  have hgain := length_insertAll_le (words.take taken') hadmits hsub
  rw [← h'.eq_insertAll hopen', h'.gained] at hgain
  omega

end

end CandidateStore
end WordCycle
