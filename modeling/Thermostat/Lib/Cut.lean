import Mathlib.Data.List.Infix

/-!
# `Lib.Cut` — the first piece of a stream

A reader takes pieces from the front of a stream. A piece ends at a terminator, or where the reader has no room
for more.

## Contents
- **The piece.** `IsCut` says which prefix it is, without a loop: the longest one that fits and has the
  terminator at most at its end.
- **The loop.** `cut` takes one element after the other; `cut_isCut` says that it finds the piece.
- **Progress.** `cut_ne_nil`: with room for one element, a stream that is not empty gives a piece that is not.
-/

namespace Cut

variable {α : Type*}

/-- The longest prefix with at most `limit` elements that has the terminator at most as its last element. -/
structure IsCut (terminator : α) (limit : Nat) (stream piece : List α) : Prop where
  isPrefix : piece <+: stream
  length_le : piece.length ≤ limit
  terminator_last : terminator ∉ piece.dropLast
  longest : ∀ other, other <+: stream → other.length ≤ limit → terminator ∉ other.dropLast →
    other.length ≤ piece.length

/-- Take elements up to the terminator, and at most so many. -/
def cut [DecidableEq α] (terminator : α) : Nat → List α → List α
  | 0,         _           => []
  | _ + 1,     []          => []
  | limit + 1, x :: stream => x :: if x = terminator then [] else cut terminator limit stream

/-- All but the last element of a list are its head and all but the last of the rest. -/
theorem not_mem_dropLast_cons {t x : α} {xs : List α} :
    t ∉ (x :: xs).dropLast ↔ xs = [] ∨ (t ≠ x ∧ t ∉ xs.dropLast) := by
  cases xs with
  | nil => simp
  | cons y ys => simp

section Loop

variable [DecidableEq α] (t : α)

@[simp] theorem cut_nil (limit : Nat) : cut t limit [] = [] := by
  cases limit <;> rfl

/-- Without room nothing is taken. -/
@[simp] theorem cut_zero (stream : List α) : cut t 0 stream = [] := rfl

theorem cut_cons (limit : Nat) (x : α) (stream : List α) :
    cut t (limit + 1) (x :: stream) = x :: if x = t then [] else cut t limit stream := rfl

theorem cut_ne_nil {limit : Nat} (hlimit : 0 < limit) {stream : List α} (hstream : stream ≠ []) :
    cut t limit stream ≠ [] := by
  cases limit with
  | zero => exact absurd hlimit (Nat.lt_irrefl 0)
  | succ limit =>
      cases stream with
      | nil => exact absurd rfl hstream
      | cons x stream => exact List.cons_ne_nil _ _

/-- **The loop finds the piece.** -/
theorem cut_isCut (limit : Nat) (stream : List α) : IsCut t limit stream (cut t limit stream) := by
  induction limit generalizing stream with
  | zero => exact ⟨List.nil_prefix, Nat.le_refl 0, List.not_mem_nil, fun _ _ hother _ => hother⟩
  | succ limit ih =>
      cases stream with
      | nil =>
          refine ⟨List.nil_prefix, Nat.zero_le _, List.not_mem_nil, ?_⟩
          intro other hprefix _ _
          exact hprefix.length_le
      | cons x stream =>
          rw [cut_cons]
          by_cases hx : x = t
          · -- the piece is the terminator alone
            rw [if_pos hx]
            refine ⟨⟨stream, rfl⟩, Nat.succ_le_succ (Nat.zero_le _), List.not_mem_nil, ?_⟩
            intro other hprefix _ hother
            cases other with
            | nil => exact Nat.zero_le _
            | cons y other =>
                have hy : y = x := (List.cons_prefix_cons.mp hprefix).1
                rcases not_mem_dropLast_cons.mp hother with rfl | ⟨hne, -⟩
                · exact Nat.le_refl 1
                · exact absurd (hx.symm.trans hy.symm) hne
          · rw [if_neg hx]
            have hrest := ih stream
            refine ⟨List.cons_prefix_cons.mpr ⟨rfl, hrest.isPrefix⟩, Nat.succ_le_succ hrest.length_le, ?_, ?_⟩
            · exact not_mem_dropLast_cons.mpr (Or.inr ⟨Ne.symm hx, hrest.terminator_last⟩)
            · intro other hprefix hlength hother
              cases other with
              | nil => exact Nat.zero_le _
              | cons y other =>
                  apply Nat.succ_le_succ
                  apply hrest.longest other (List.cons_prefix_cons.mp hprefix).2 (Nat.le_of_succ_le_succ hlength)
                  rcases not_mem_dropLast_cons.mp hother with rfl | ⟨-, htail⟩
                  · exact List.not_mem_nil
                  · exact htail

/-- What is left is behind the piece. -/
theorem cut_append_drop (limit : Nat) (stream : List α) :
    cut t limit stream ++ stream.drop (cut t limit stream).length = stream :=
  List.prefix_iff_eq_append.mp (cut_isCut t limit stream).isPrefix

end Loop

end Cut
