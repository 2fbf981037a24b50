import Mathlib.Data.List.Basic

/-!
# `Lib.Fifo` — bounded first-in first-out buffers

A circular buffer of fixed capacity, kept as the list of its elements, oldest first. The bound on the
length is a field, so an overfull buffer cannot be built. `push` is the raw operation of such a buffer
(on a full buffer it drops the oldest element); `offer` is the guarded form a client writes around it,
which refuses instead.
-/

/-- A FIFO of at most `cap` elements, oldest first. -/
structure Fifo (α : Type*) (cap : Nat) where
  items : List α
  bound : items.length ≤ cap
deriving DecidableEq, Repr

namespace Fifo

variable {α : Type*} {cap : Nat}

/-- The empty buffer. -/
def empty : Fifo α cap := ⟨[], Nat.zero_le cap⟩

instance : Inhabited (Fifo α cap) := ⟨empty⟩

/-- No element can be added without losing one. -/
def full (q : Fifo α cap) : Bool := cap ≤ q.items.length

/-- Append at the back; a full buffer loses its oldest element. -/
def push (q : Fifo α cap) (x : α) : Fifo α cap where
  items := (q.items ++ [x]).drop (q.items.length + 1 - cap)
  bound := by
    simp only [List.length_drop, List.length_append, List.length_singleton]
    omega

/-- Append unless full; the flag tells whether the element went in. -/
def offer (q : Fifo α cap) (x : α) : Fifo α cap × Bool :=
  if q.full then (q, false) else (q.push x, true)

/-- Remove the oldest element, if there is one. -/
def pop (q : Fifo α cap) : Fifo α cap := ⟨q.items.tail, by have := q.bound; simp; omega⟩

/-- The oldest element, if there is one. -/
def front (q : Fifo α cap) : Option α := q.items.head?

/-- Remove the `k` oldest elements. -/
def drop (q : Fifo α cap) (k : Nat) : Fifo α cap :=
  ⟨q.items.drop k, Nat.le_trans (by rw [List.length_drop]; omega) q.bound⟩

@[ext] theorem ext {q r : Fifo α cap} (h : q.items = r.items) : q = r := by
  cases q; cases r; congr

@[simp] theorem pop_items (q : Fifo α cap) : q.pop.items = q.items.tail := rfl

theorem drop_pop (q : Fifo α cap) (k : Nat) : q.pop.drop k = q.drop (k + 1) := by
  ext1
  exact List.drop_tail

theorem full_iff {q : Fifo α cap} : q.full = true ↔ q.items.length = cap := by
  have := q.bound
  simp only [full, decide_eq_true_eq]
  omega

theorem not_full_iff {q : Fifo α cap} : q.full = false ↔ q.items.length < cap := by
  simp [full]

/-- Below capacity a push only appends. -/
theorem push_items {q : Fifo α cap} (h : q.items.length < cap) (x : α) :
    (q.push x).items = q.items ++ [x] := by
  have hzero : q.items.length + 1 - cap = 0 := by omega
  simp [push, hzero]

/-- **An offer appends what it accepts and nothing else.** -/
theorem offer_items (q : Fifo α cap) (x : α) :
    (q.offer x).1.items = q.items ++ (if (q.offer x).2 then [x] else []) := by
  unfold offer
  by_cases hfull : q.full = true
  · simp [hfull]
  · rw [Bool.not_eq_true] at hfull
    simp [hfull, push_items (not_full_iff.mp hfull)]

/-- Offered one after the other, elements go in until the buffer is full. -/
theorem foldl_offer_items (q : Fifo α cap) (xs : List α) :
    (xs.foldl (fun q x => (q.offer x).1) q).items = (q.items ++ xs).take cap := by
  induction xs generalizing q with
  | nil =>
      rw [List.foldl_nil, List.append_nil]
      exact (List.take_of_length_le q.bound).symm
  | cons x xs ih =>
      rw [List.foldl_cons, ih, offer_items]
      by_cases hfull : q.full = true
      · have hlength : q.items.length = cap := full_iff.mp hfull
        rw [offer, if_pos hfull, if_neg Bool.false_ne_true, List.append_nil,
          List.take_append_of_le_length (by omega), List.take_append_of_le_length (by omega)]
      · rw [offer, if_neg hfull, if_pos rfl, List.append_assoc, List.singleton_append]

/-- The buffer is its front followed by what `pop` leaves. -/
theorem front_pop {q : Fifo α cap} {x : α} (h : q.front = some x) :
    q.items = x :: q.pop.items := by
  unfold front at h
  cases hq : q.items with
  | nil => simp [hq] at h
  | cons y ys => simp [hq] at h; simp [hq, h]

theorem front_none {q : Fifo α cap} : q.front = none ↔ q.items = [] := by
  simp [front]

end Fifo
