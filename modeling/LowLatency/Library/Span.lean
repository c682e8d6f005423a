import Mathlib.Tactic.Common
import Mathlib.Data.List.Basic

/-!
# Spans of memory

Writing part of a span, and cutting a stream into pieces of known lengths.

A table is a span that has been given its size, with the same value everywhere, and is then
written place by place from the front. It may also consist of rows of the same size, one after
another, and each of them is written on its own.
-/

universe u

namespace Span

variable {α : Type u}

/-- The span with `xs` written from `offset` on. -/
def write (span : List α) (offset : ℕ) (xs : List α) : List α :=
  span.take offset ++ xs ++ span.drop (offset + xs.length)

/-- A write into a span keeps its length. -/
theorem length_write {span xs : List α} {offset : ℕ} (h : offset + xs.length ≤ span.length) :
  (write span offset xs).length = span.length
  := by
  simp only [write, List.length_append, List.length_take, List.length_drop]
  omega

/-- The part of a span up to the end of a write. -/
theorem take_write {span xs : List α} {offset : ℕ} (h : offset ≤ span.length) :
  (write span offset xs).take (offset + xs.length) = span.take offset ++ xs
  := by
  apply List.take_left'
  rw [List.length_append, List.length_take_of_le h]

/-- A write behind a part of known length. -/
theorem write_append {front span xs : List α} {offset : ℕ} (h : front.length = offset) :
  write (front ++ span) offset xs = front ++ xs ++ span.drop xs.length
  := by
  rw [write, List.take_left' h, ← List.drop_drop, List.drop_left' h]

/-- Pieces which agree in their lengths and make up prefixes of each other are the same
pieces. -/
theorem prefix_of_flatten {xs ys : List (List α)} (h : xs.flatten <+: ys.flatten)
    (hlength : xs.map List.length <+: ys.map List.length) :
  xs <+: ys
  := by
  induction xs generalizing ys with
  | nil => apply List.nil_prefix
  | cons x xs ih =>
      cases ys with
      | nil =>
          rw [List.map_cons, List.map_nil, List.prefix_nil] at hlength
          cases hlength
      | cons y ys =>
          rw [List.map_cons, List.map_cons, List.cons_prefix_cons] at hlength
          obtain ⟨hlen, hlengths⟩ := hlength
          rw [List.flatten_cons, List.flatten_cons] at h
          obtain ⟨rest, hrest⟩ := h
          rw [List.append_assoc] at hrest
          obtain ⟨rfl, htail⟩ := List.append_inj hrest hlen
          rw [List.cons_prefix_cons]
          use rfl
          apply ih ⟨rest, htail⟩ hlengths

end Span

/-! ### Tables -/

namespace Table

variable {α : Type u}

/-- Writing the first place that is not written yet. -/
theorem set_append_replicate (written : List α) (value default : α) {size : ℕ}
    (hlt : written.length < size) :
  (written ++ List.replicate (size - written.length) default).set written.length value
    = written ++ [value] ++ List.replicate (size - (written.length + 1)) default
  := by
  obtain ⟨rest, hrest⟩ : ∃ rest, size - written.length = rest + 1 :=
    ⟨size - written.length - 1, by omega⟩
  have hrest' : size - (written.length + 1) = rest := by omega
  rw [hrest, hrest', List.replicate_succ, List.set_append_right _ _ (Nat.le_refl _), Nat.sub_self,
    List.set_cons_zero, List.append_assoc]
  rfl

/-- A row of a table whose rows have the size `size`. -/
def row (size index : ℕ) (table : List α) : List α :=
  (table.drop (index * size)).take size

/-- Writing a place of a row writes it in the row. -/
theorem row_set_self (table : List α) {size place : ℕ} (index : ℕ) (value : α) :
  row size index (table.set (index * size + place) value)
    = (row size index table).set place value
  := by
  rw [row, List.drop_set, if_neg (by omega), Nat.add_sub_cancel_left, List.take_set]
  rfl

/-- Writing a place of a row leaves the other rows. -/
theorem row_set_of_ne (table : List α) {size place index index' : ℕ} (hlt : place < size)
    (hne : index' ≠ index) (value : α) :
  row size index' (table.set (index * size + place) value) = row size index' table
  := by
  rcases Nat.lt_or_gt_of_ne hne with hbefore | hafter
  · have hle := Nat.mul_le_mul_right size (Nat.succ_le_of_lt hbefore)
    rw [Nat.succ_mul] at hle
    rw [row, List.drop_set, if_neg (by omega), List.take_set_of_le (by omega)]
    rfl
  · have hle := Nat.mul_le_mul_right size (Nat.succ_le_of_lt hafter)
    rw [Nat.succ_mul] at hle
    rw [row, List.drop_set_of_lt (by omega)]
    rfl

/-- All rows are alike before the table is written. -/
theorem row_replicate {size count index : ℕ} (hlt : index < count) (value : α) :
  row size index (List.replicate (size * count) value) = List.replicate size value
  := by
  have hle := Nat.mul_le_mul_right size (Nat.succ_le_of_lt hlt)
  rw [Nat.succ_mul, Nat.mul_comm count] at hle
  rw [row, List.drop_replicate, List.take_replicate, Nat.min_eq_left (by omega)]

end Table
