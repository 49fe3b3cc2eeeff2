import Mathlib.Algebra.BigOperators.Group.List.Basic
import Mathlib.Algebra.Order.Field.Rat
import Mathlib.Data.List.Infix
import Mathlib.Data.List.MinMax
import Mathlib.Data.List.ReduceOption

/-! # Aggregates, patterns and deletion in SQL

A column value is a rational or `NULL`. Aggregates skip `NULL`s and are `NULL` on
no value; arithmetic on a `NULL` is `NULL`. Rows are deleted a bounded number at a
time until a chunk comes up short, which leaves exactly the rows that do not match.
-/

namespace GenWatch.Sql

variable {α : Type*}

section Aggregates

variable (xs : List (Option ℚ))

/-- `SUM(x)` -/
def sum : Option ℚ :=
  if xs.reduceOption = [] then none else some xs.reduceOption.sum

/-- `AVG(x)` -/
def avg : Option ℚ := (sum xs).map fun s => s / xs.reduceOption.length

/-- `MIN(x)` -/
def min : Option ℚ := xs.reduceOption.min?

/-- `MAX(x)` -/
def max : Option ℚ := xs.reduceOption.max?

/-- `x / NULLIF(y, 0)` -/
def divNullIf (x : Option ℚ) (y : ℚ) : Option ℚ :=
  if y = 0 then none else x.map (· / y)

theorem reduceOption_eq_nil : xs.reduceOption = [] ↔ xs.countP Option.isSome = 0 := by
  rw [List.countP_eq_zero]
  simp [List.reduceOption, List.filterMap_eq_nil_iff]

theorem length_reduceOption : xs.reduceOption.length = xs.countP Option.isSome := by
  rw [List.reduceOption_length_eq, List.countP_eq_length_filter]

theorem sum_reduceOption : xs.reduceOption.sum = (xs.map fun x => x.getD 0).sum := by
  induction xs with
  | nil => rfl
  | cons x xs ih => cases x <;> simp [ih]

theorem sum_eq : sum xs =
    if xs.countP Option.isSome = 0 then none else some (xs.map fun x => x.getD 0).sum := by
  simp only [sum, reduceOption_eq_nil, sum_reduceOption]

theorem avg_eq : avg xs =
    if xs.countP Option.isSome = 0 then none
    else some ((xs.map fun x => x.getD 0).sum / xs.countP Option.isSome) := by
  rw [avg, sum_eq, length_reduceOption]
  split <;> rfl

end Aggregates

/-- `text LIKE '%part%'`, which does not tell capitals of the ASCII range from small letters. -/
def likeInfix (part text : String) : Bool :=
  part.toList.map Char.toLower <:+: text.toList.map Char.toLower

theorem likeInfix_append (before part after : String) :
    likeInfix part (before ++ part ++ after) = true := by
  simp only [likeInfix, String.toList_append, List.map_append, decide_eq_true_eq]
  exact List.infix_append _ _ _

section Delete

variable (p : α → Bool)

/-- Delete the first matching rows, at most `limit` of them. -/
def deleteLimit : ℕ → List α → List α
  | 0, rows => rows
  | _ + 1, [] => []
  | limit + 1, r :: rows =>
    if p r then deleteLimit limit rows else r :: deleteLimit (limit + 1) rows

/-- Delete chunk by chunk, until a chunk deletes fewer rows than it may. -/
def deleteChunks (chunk : ℕ) : ℕ → List α → List α
  | 0, rows => rows
  | fuel + 1, rows =>
    if rows.countP p < chunk then deleteLimit p chunk rows
    else deleteChunks chunk fuel (deleteLimit p chunk rows)

theorem filter_deleteLimit (limit : ℕ) (rows : List α) :
    (deleteLimit p limit rows).filter (fun r => !p r) = rows.filter fun r => !p r := by
  induction limit, rows using deleteLimit.induct p with
  | case1 rows => rw [deleteLimit]
  | case2 limit => rw [deleteLimit]
  | case3 limit r rows hr ih =>
    rw [deleteLimit, if_pos hr, ih, List.filter_cons_of_neg (by simp [hr])]
  | case4 limit r rows hr ih =>
    rw [deleteLimit, if_neg hr]
    simp only [List.filter_cons, ih]

theorem countP_deleteLimit (limit : ℕ) (rows : List α) :
    (deleteLimit p limit rows).countP p = rows.countP p - limit := by
  induction limit, rows using deleteLimit.induct p with
  | case1 rows => rw [deleteLimit, Nat.sub_zero]
  | case2 limit => simp [deleteLimit]
  | case3 limit r rows hr ih =>
    rw [deleteLimit, if_pos hr, ih, List.countP_cons_of_pos hr]
    omega
  | case4 limit r rows hr ih =>
    rw [deleteLimit, if_neg hr, List.countP_cons_of_neg hr, ih, List.countP_cons_of_neg hr]

theorem deleteChunks_eq_filter {chunk : ℕ} (hc : 0 < chunk) (fuel : ℕ) (rows : List α)
    (hf : rows.countP p < fuel) :
    deleteChunks p chunk fuel rows = rows.filter fun r => !p r := by
  induction fuel generalizing rows with
  | zero => omega
  | succ fuel ih =>
    rw [deleteChunks]
    split
    · rename_i hlt
      have hnone : (deleteLimit p chunk rows).countP p = 0 := by
        rw [countP_deleteLimit]
        omega
      rw [← filter_deleteLimit p chunk rows, eq_comm, List.filter_eq_self]
      intro r hr
      simpa using List.countP_eq_zero.mp hnone r hr
    · rename_i hge
      rw [ih _ (by rw [countP_deleteLimit]; omega), filter_deleteLimit]

theorem deleteLimit_sublist (limit : ℕ) (rows : List α) :
    (deleteLimit p limit rows).Sublist rows := by
  induction limit, rows using deleteLimit.induct p with
  | case1 rows => rw [deleteLimit]
  | case2 limit => rw [deleteLimit]
  | case3 limit r rows hr ih =>
    rw [deleteLimit, if_pos hr]
    exact ih.cons r
  | case4 limit r rows hr ih =>
    rw [deleteLimit, if_neg hr]
    exact ih.cons_cons r

theorem deleteChunks_sublist (chunk fuel : ℕ) (rows : List α) :
    (deleteChunks p chunk fuel rows).Sublist rows := by
  induction fuel generalizing rows with
  | zero => exact List.Sublist.refl rows
  | succ fuel ih =>
    rw [deleteChunks]
    split
    · exact deleteLimit_sublist p chunk rows
    · exact (ih _).trans (deleteLimit_sublist p chunk rows)

end Delete

end GenWatch.Sql
