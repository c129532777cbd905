import Mathlib.Algebra.Order.BigOperators.Group.List
import Mathlib.Tactic.Abel
import AgentRuntime.Lib.Table

/-!
# Totals over a table

`total` adds up an amount of each row of a table. The lemmas say what the
operations of a table do to a total: an overwrite trades the amount of the
old row for that of the new one (`total_put`), an insertion adds one
(`total_insert?`), and a total is monotone in the amounts (`total_le_total`).
-/

namespace Keyed

namespace Table

variable {κ α M : Type} {key : α → κ}

section Totals

variable [AddCommMonoid M]

def total (t : Table key) (f : α → M) : M := (t.rows.map f).sum

@[simp] theorem total_empty (f : α → M) : (empty : Table key).total f = 0 := rfl

variable [DecidableEq κ]

theorem total_put (f : α → M) {t : Table key} {a r : α} (h : t.find? (key a) = some r) :
    (t.put a).total f + f r = t.total f + f a := by
  obtain ⟨l₁, l₂, hold, hnew⟩ := rows_put h
  unfold total
  rw [hold, hnew]
  simp only [List.map_append, List.map_cons, List.sum_append, List.sum_cons]
  abel

theorem total_insert? (f : α → M) {t t' : Table key} {a : α} (h : t.insert? a = some t') :
    t'.total f = t.total f + f a := by
  unfold total
  rw [(insert?_eq_some.mp h).2, List.map_append, List.sum_append]
  simp

end Totals

theorem total_le_total [AddCommMonoid M] [PartialOrder M] [IsOrderedAddMonoid M] {t : Table key}
    {f g : α → M} (h : ∀ a ∈ t.rows, f a ≤ g a) : t.total f ≤ t.total g :=
  List.sum_le_sum h

end Table

end Keyed
