/-!
# Orders of keys

A type whose values are told apart by one or two of their parts is ordered by those parts. Both
orders are lawful: keys that compare as equal are equal.
-/

namespace TraceDebugger

variable {α β γ : Type}

/-- Values that a part tells apart are lawfully ordered by that part. -/
theorem lawfulEqCmp_compareOn [Ord β] [Std.LawfulEqOrd β] {f : α → β}
    (hf : ∀ a b, f a = f b → a = b) : Std.LawfulEqCmp (compareOn f) where
  compare_self := by simp [compareOn]
  eq_of_compare h := hf _ _ (Std.LawfulEqOrd.eq_of_compare (α := β) h)

/-- Values that two parts tell apart are lawfully ordered by the first part and then the second. -/
theorem lawfulEqCmp_compareLex [Ord β] [Std.LawfulEqOrd β] [Ord γ] [Std.LawfulEqOrd γ]
    {f : α → β} {g : α → γ} (hfg : ∀ a b, f a = f b → g a = g b → a = b) :
    Std.LawfulEqCmp (compareLex (compareOn f) (compareOn g)) where
  compare_self := by simp [compareLex, compareOn]
  eq_of_compare {a b} h := by
    simp only [compareLex, compareOn, Ordering.then_eq_eq] at h
    exact hfg a b (Std.LawfulEqOrd.eq_of_compare h.1) (Std.LawfulEqOrd.eq_of_compare h.2)

end TraceDebugger
