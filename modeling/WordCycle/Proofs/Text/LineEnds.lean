import WordCycle.Editor.Document
import WordCycle.Proofs.Text.Utf8

/-! Line ends in the bytes of a file. Writing the line ends of a text as one character is the same as
writing those of its bytes as one byte: no other character has the bytes of a line end. -/

namespace WordCycle
set_option autoImplicit false

/-- Bytes with all line ends written as a line feed: a carriage return, alone or before a line feed, is one. -/
def Bytes.unifyLineEnds : Bytes → Bytes
  | 0x0d :: 0x0a :: rest => 0x0a :: unifyLineEnds rest
  | b :: rest => (if b = 0x0d then 0x0a else b) :: unifyLineEnds rest
  | [] => []

namespace Bytes

theorem unifyLineEnds_lone {rest : Bytes} (h : rest.head? ≠ some 0x0a) :
    unifyLineEnds (0x0d :: rest) = 0x0a :: unifyLineEnds rest := by
  rw [unifyLineEnds.eq_2]
  · rfl
  · rintro rest' - rfl
    exact h rfl

theorem unifyLineEnds_other {b : UInt8} (h : b ≠ 0x0d) (rest : Bytes) :
    unifyLineEnds (b :: rest) = b :: unifyLineEnds rest := by
  rw [unifyLineEnds.eq_2, if_neg h]
  rintro rest' rfl
  exact absurd rfl h

theorem unifyLineEnds_append {bytes : Bytes} (h : 0x0d ∉ bytes) (rest : Bytes) :
    unifyLineEnds (bytes ++ rest) = bytes ++ unifyLineEnds rest := by
  induction bytes with
  | nil => rfl
  | cons b bytes ih =>
    rw [List.mem_cons, not_or] at h
    rw [List.cons_append, unifyLineEnds_other (Ne.symm h.1), ih h.2, List.cons_append]

theorem not_mem_unifyLineEnds (bytes : Bytes) : 0x0d ∉ unifyLineEnds bytes := by
  fun_induction unifyLineEnds bytes with
  | case1 rest ih => simpa using ih
  | case2 b rest _ ih =>
    rw [List.mem_cons, not_or]
    refine ⟨?_, ih⟩
    split
    · decide
    · next hb => exact Ne.symm hb
  | case3 => exact List.not_mem_nil

theorem unifyLineEnds_eq_self_iff (bytes : Bytes) : unifyLineEnds bytes = bytes ↔ 0x0d ∉ bytes := by
  constructor
  · intro h
    rw [← h]
    exact not_mem_unifyLineEnds bytes
  · intro h
    have hnone := unifyLineEnds_append h []
    rwa [List.append_nil, unifyLineEnds, List.append_nil] at hnone

end Bytes

/-! ## The bytes of a text -/

namespace Utf8

/-- The only byte below 0x80 that a character can have is its own number. -/
theorem toNat_of_mem_encodeChar {c : Char} {b : UInt8} (h : b ∈ encodeChar c) :
    b.toNat = c.toNat ∨ 0x80 ≤ b.toNat := by
  have hvalid := CodePoint.valid c
  unfold encodeChar at h
  dsimp only at h
  split at h
  · rw [List.mem_singleton.mp h]
    exact Or.inl (toNat_toUInt8 (by omega))
  · right
    split at h
    · simp only [List.mem_cons, List.not_mem_nil, or_false] at h
      rcases h with rfl | rfl <;> rw [toNat_toUInt8 (by omega)] <;> omega
    split at h
    · simp only [List.mem_cons, List.not_mem_nil, or_false] at h
      rcases h with rfl | rfl | rfl <;> rw [toNat_toUInt8 (by omega)] <;> omega
    · simp only [List.mem_cons, List.not_mem_nil, or_false] at h
      rcases h with rfl | rfl | rfl | rfl <;> rw [toNat_toUInt8 (by omega)] <;> omega

theorem return_not_mem_encodeChar {c : Char} (h : c ≠ '\r') : 0x0d ∉ encodeChar c := by
  intro hmem
  rcases toNat_of_mem_encodeChar hmem with heq | hhigh
  · exact h (Char.toNat_inj.mp heq.symm)
  · exact absurd hhigh (by decide)

theorem head?_of_encode {t : Text} (h : (encode t).head? = some 0x0a) : t.head? = some '\n' := by
  obtain ⟨rest, hrest⟩ := List.head?_eq_some_iff.mp h
  have hread := decodeFrom_encode 0 t
  rw [hrest, decodeFrom_one 0 0x0a rest (by decide)] at hread
  cases hdecode : decodeFrom (0 + 1) rest with
  | error fault =>
    rw [hdecode] at hread
    cases hread
  | ok t' =>
    rw [hdecode] at hread
    rw [← Except.ok.inj hread]
    rfl

theorem unifyLineEnds_encode (t : Text) :
    Bytes.unifyLineEnds (encode t) = encode t.unifyLineEnds := by
  fun_induction Text.unifyLineEnds t with
  | case1 rest ih => exact congrArg (0x0a :: ·) ih
  | case2 c rest hpair ih =>
    by_cases hc : c = '\r'
    · subst hc
      have hhead : (encode rest).head? ≠ some 0x0a := by
        intro hhead
        obtain ⟨rest', hrest⟩ := List.head?_eq_some_iff.mp (head?_of_encode hhead)
        exact hpair rest' rfl hrest
      exact (Bytes.unifyLineEnds_lone hhead).trans (congrArg (0x0a :: ·) ih)
    · rw [if_neg hc]
      exact (Bytes.unifyLineEnds_append (return_not_mem_encodeChar hc) (encode rest)).trans
        (congrArg (encodeChar c ++ ·) ih)
  | case3 => rfl

end Utf8
end WordCycle
