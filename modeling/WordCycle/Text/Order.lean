import WordCycle.Text.Slice

/-! The order of texts by code points, which is total. -/

namespace WordCycle
set_option autoImplicit false

namespace Text

/-- Texts in the order of the code points of their characters, a beginning before the whole. -/
def isBefore : Text → Text → Bool
  | [], _ => true
  | _ :: _, [] => false
  | a :: s, b :: t =>
    if a.toNat < b.toNat then true else if b.toNat < a.toNat then false else isBefore s t

theorem isBefore_total (s t : Text) : (s.isBefore t || t.isBefore s) = true := by
  fun_induction isBefore s t with
  | case1 => simp
  | case2 => simp [isBefore]
  | case3 a s b t h => simp
  | case4 a s b t h h' => simp [isBefore, h']
  | case5 a s b t h h' ih => simpa [isBefore, h, h'] using ih

theorem isBefore_trans (r s t : Text) :
    r.isBefore s = true → s.isBefore t = true → r.isBefore t = true := by
  induction r generalizing s t with
  | nil => simp [isBefore]
  | cons a r ih =>
    cases s with
    | nil => simp [isBefore]
    | cons b s =>
      cases t with
      | nil => simp [isBefore]
      | cons c t =>
        have := ih s t
        simp only [isBefore]
        grind

end Text
end WordCycle
