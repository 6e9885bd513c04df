import WordCycle.Text.Slice

/-! Paths: a root, empty for a path that starts from the working directory, and names. -/

namespace WordCycle
set_option autoImplicit false

/-- A path in normal form: no name is empty or a single dot. -/
structure Path where
  /-- No slash, one, or two, which are kept apart from one. -/
  root : Text := []
  parts : List Text := []
  deriving DecidableEq

namespace Path

/-- The names between the slashes of a text; those that mean nothing are left out. -/
def split (t : Text) : List Text := (t.splitOn '/').filter fun p => p ≠ [] && p ≠ ['.']

/-- No name of a path is empty. -/
theorem ne_nil_of_mem_split {t name : Text} (h : name ∈ split t) : name ≠ [] := by
  simp only [split, List.mem_filter, Bool.and_eq_true, decide_eq_true_eq] at h
  exact h.2.1

/-- The root of a written path. -/
def rootOf (t : Text) : Text :=
  match (t.takeWhile (· = '/')).length with
  | 0 => []
  | 2 => ['/', '/']
  | _ => ['/']

def ofText (t : Text) : Path := ⟨rootOf t, split t⟩

/-- The path in normal writing; the working directory itself is a dot. -/
def toText (p : Path) : Text :=
  if p.root.isEmpty && p.parts.isEmpty then ['.']
  else p.root ++ (p.parts.intersperse ['/']).flatten

/-- The last name, empty if there is none. -/
def name (p : Path) : Text := p.parts.getLastD []

def parent (p : Path) : Path := { p with parts := p.parts.dropLast }

end Path
end WordCycle
