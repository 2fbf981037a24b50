import Thermostat.Lib.Fifo
import Thermostat.Lib.Trace

/-!
# `Lib.Rounds` — a bounded queue that is served once a round

Several producers offer elements to a bounded queue, and a loop takes one element out at the end of each
of its rounds. Offers may be refused. What can still be promised?

- Whatever the order of the operations, what goes in comes out first-in first-out (`ledger`).
- An offer is refused exactly when the queue is full, which the traffic before it tells (`offered_ok`).
- Behind every round there is room for one more element (`round_room`), so the *first* offer of a round
  is never refused (`round_cons`).
- `n` rounds take out the `n` elements that are ahead (`rounds_progress`), so that first offer comes out
  within `cap` rounds (`first_offer_taken`).
- As long as there is something to take, they take out nothing else (`rounds_exact`), so what went in comes
  out in the round that its place in the queue says, and not before (`rounds_served`).
-/

namespace Fifo

variable {α : Type*} {cap : Nat}

/-- The operations on the queue. -/
inductive Op (α : Type*) where
  | offer (x : α)
  | serve

/-- What the operations did. -/
inductive Traffic (α : Type*) where
  | offered (x : α) (ok : Bool)
  | taken (x : α)
deriving DecidableEq, Repr

/-- Take the oldest element out, if there is one. -/
def serve (q : Fifo α cap) : Fifo α cap × List (Traffic α) :=
  match q.front with
  | none => (q, [])
  | some x => (q.pop, [.taken x])

def step (q : Fifo α cap) : Op α → Fifo α cap × List (Traffic α)
  | .offer x => ((q.offer x).1, [.offered x (q.offer x).2])
  | .serve   => q.serve

/-- The offers of `xs` in order, and then the service. -/
def round (q : Fifo α cap) (xs : List α) : Fifo α cap × List (Traffic α) :=
  Trace.run step q (xs.map Op.offer ++ [.serve])

/-- The elements that went in. -/
def accepted (ts : List (Traffic α)) : List α :=
  ts.filterMap (fun t => match t with | .offered x true => some x | _ => none)

/-- The elements that came out. -/
def taken (ts : List (Traffic α)) : List α :=
  ts.filterMap (fun t => match t with | .taken x => some x | _ => none)

@[simp] theorem accepted_nil : accepted ([] : List (Traffic α)) = [] := rfl

@[simp] theorem taken_nil : taken ([] : List (Traffic α)) = [] := rfl

@[simp] theorem accepted_append (ts us : List (Traffic α)) :
    accepted (ts ++ us) = accepted ts ++ accepted us :=
  List.filterMap_append

@[simp] theorem taken_append (ts us : List (Traffic α)) : taken (ts ++ us) = taken ts ++ taken us :=
  List.filterMap_append

@[simp] theorem accepted_offered (x : α) (ok : Bool) :
    accepted [Traffic.offered x ok] = if ok then [x] else [] := by
  cases ok <;> rfl

/-! ## First-in first-out -/

/-- A service takes the head. -/
theorem serve_spec (q : Fifo α cap) :
    accepted q.serve.2 = [] ∧ taken q.serve.2 = q.items.take 1 ∧ q.serve.1.items = q.items.drop 1 := by
  unfold serve
  cases hfront : q.front with
  | none =>
      rw [front_none] at hfront
      simp [hfront]
  | some x =>
      have hitems := front_pop hfront
      refine ⟨rfl, ?_, ?_⟩
      · rw [hitems]; rfl
      · rw [hitems]; rfl

/-- One operation loses nothing and reorders nothing. -/
theorem step_ledger (q : Fifo α cap) (o : Op α) :
    q.items ++ accepted (q.step o).2 = taken (q.step o).2 ++ (q.step o).1.items := by
  cases o with
  | offer x =>
      show q.items ++ accepted [Traffic.offered x (q.offer x).2] = [] ++ (q.offer x).1.items
      rw [accepted_offered, offer_items, List.nil_append]
  | serve =>
      obtain ⟨haccepted, htaken, hitems⟩ := serve_spec q
      show q.items ++ accepted q.serve.2 = taken q.serve.2 ++ q.serve.1.items
      rw [haccepted, htaken, hitems, List.append_nil, List.take_append_drop]

/-- **First-in first-out.** Over any operations: what was queued, followed by what went in, is what came
    out, followed by what is queued. -/
theorem ledger (q : Fifo α cap) (os : List (Op α)) :
    q.items ++ accepted (Trace.run step q os).2
      = taken (Trace.run step q os).2 ++ (Trace.run step q os).1.items := by
  induction os generalizing q with
  | nil => simp
  | cons o os ih =>
      rw [Trace.run_cons, accepted_append, taken_append, ← List.append_assoc, step_ledger,
        List.append_assoc, ih, List.append_assoc]

/-! ## Offers -/

/-- Offers only append, and take nothing out. -/
theorem offers_spec (q : Fifo α cap) (xs : List α) :
    taken (Trace.run step q (xs.map Op.offer)).2 = [] ∧
    (Trace.run step q (xs.map Op.offer)).1.items
      = q.items ++ accepted (Trace.run step q (xs.map Op.offer)).2 := by
  have htaken : taken (Trace.run step q (xs.map Op.offer)).2 = [] := by
    induction xs generalizing q with
    | nil => rfl
    | cons x xs ih => rw [List.map_cons, Trace.run_cons, taken_append, ih]; rfl
  refine ⟨htaken, ?_⟩
  rw [ledger, htaken, List.nil_append]

theorem offer_ok {q : Fifo α cap} {x : α} : (q.offer x).2 = true ↔ q.items.length < cap := by
  unfold offer
  cases hfull : q.full with
  | true =>
      rw [full_iff] at hfull
      simp [hfull]
  | false =>
      rw [not_full_iff] at hfull
      simp [hfull]

/-- An operation makes one piece of traffic at most, and an offer tells the truth about the queue. -/
theorem step_traffic (q : Fifo α cap) (o : Op α) :
    (q.step o).2 = [] ∨
      ∃ t, (q.step o).2 = [t] ∧ ∀ x ok, t = .offered x ok → ok = (q.offer x).2 := by
  cases o with
  | offer y =>
      refine .inr ⟨.offered y (q.offer y).2, rfl, ?_⟩
      intro x ok heq
      cases heq
      rfl
  | serve =>
      simp only [step, serve]
      cases q.front with
      | none => exact .inl rfl
      | some y =>
          refine .inr ⟨.taken y, rfl, ?_⟩
          intro x ok heq
          cases heq

/-- An offer in the traffic of a run was made at some point of it. -/
theorem run_offered {q : Fifo α cap} {os : List (Op α)} {pre post : List (Traffic α)} {x : α} {ok : Bool}
    (h : (Trace.run step q os).2 = pre ++ .offered x ok :: post) :
    ∃ done, (Trace.run step q done).2 = pre ∧ ok = ((Trace.run step q done).1.offer x).2 := by
  induction os generalizing q pre with
  | nil => cases pre <;> cases h
  | cons o os ih =>
      rw [Trace.run_cons] at h
      rcases step_traffic q o with hout | ⟨t, hout, htrue⟩
      · rw [hout, List.nil_append] at h
        obtain ⟨done, hdone, hok⟩ := ih h
        exact ⟨o :: done, by rw [Trace.run_cons, hout, hdone, List.nil_append], hok⟩
      · rw [hout, List.singleton_append] at h
        cases pre with
        | nil => exact ⟨[], rfl, htrue x ok (List.cons.inj h).1⟩
        | cons t' pre =>
            obtain ⟨rfl, hrest⟩ := List.cons.inj h
            obtain ⟨done, hdone, hok⟩ := ih hrest
            exact ⟨o :: done, by rw [Trace.run_cons, hout, hdone, List.singleton_append], hok⟩

/-- **An offer is refused exactly when the queue is full**, as the traffic before it tells. -/
theorem offered_ok {q : Fifo α cap} {os : List (Op α)} {pre post : List (Traffic α)} {x : α} {ok : Bool}
    (h : (Trace.run step q os).2 = pre ++ .offered x ok :: post) :
    ok = true ↔ q.items.length + (accepted pre).length < cap + (taken pre).length := by
  obtain ⟨done, rfl, rfl⟩ := run_offered h
  have hledger := congrArg List.length (ledger q done)
  rw [List.length_append, List.length_append] at hledger
  rw [offer_ok]
  omega

/-! ## Rounds -/

/-- **One round**, as a function of what it lets in: the head of everything leaves. -/
theorem round_spec (q : Fifo α cap) (xs : List α) :
    taken (q.round xs).2 = (q.items ++ accepted (q.round xs).2).take 1 ∧
    (q.round xs).1.items = (q.items ++ accepted (q.round xs).2).drop 1 := by
  obtain ⟨hnone, hitems⟩ := offers_spec q xs
  obtain ⟨haccepted, htaken, hrest⟩ := serve_spec (Trace.run step q (xs.map Op.offer)).1
  unfold round
  rw [Trace.run_snoc]
  simp only [step, accepted_append, taken_append, haccepted, hnone, List.append_nil, List.nil_append,
    htaken, hrest, hitems, and_self]

/-- Behind a round there is room. -/
theorem round_room (hcap : 0 < cap) (q : Fifo α cap) (xs : List α) :
    (q.round xs).1.items.length < cap := by
  unfold round
  rw [Trace.run_snoc]
  have hbound := (Trace.run step q (xs.map Op.offer)).1.bound
  obtain ⟨-, -, hrest⟩ := serve_spec (Trace.run step q (xs.map Op.offer)).1
  simp only [step, hrest, List.length_drop]
  omega

/-- The first offer of a round that finds room is accepted, and the round goes on from there. -/
theorem round_cons {q : Fifo α cap} (hroom : q.items.length < cap) (x : α) (xs : List α) :
    q.round (x :: xs) = (((q.push x).round xs).1, .offered x true :: ((q.push x).round xs).2) := by
  have hoffer : q.offer x = (q.push x, true) := by
    unfold offer
    rw [if_neg (by rw [Bool.not_eq_true]; exact not_full_iff.mpr hroom)]
  unfold round
  rw [List.map_cons, List.cons_append, Trace.run_cons]
  simp only [step, hoffer, List.singleton_append]

/-- **Progress.** `n` rounds take out the `n` oldest elements. -/
theorem rounds_progress (q : Fifo α cap) (rounds : List (List α)) :
    q.items.take rounds.length <+: taken (Trace.run round q rounds).2 := by
  induction rounds generalizing q with
  | nil => exact List.nil_prefix
  | cons xs rounds ih =>
      obtain ⟨htaken, hrest⟩ := round_spec q xs
      have hnext := ih (q.round xs).1
      rw [Trace.run_cons, taken_append, htaken]
      cases hitems : q.items with
      | nil => exact List.nil_prefix
      | cons y ys =>
          -- `y` leaves in this round; what stood behind it is ahead of all that came in
          rw [hrest, hitems] at hnext
          have hshort : ys.take rounds.length <+: (ys ++ accepted (q.round xs).2).take rounds.length :=
            List.IsPrefix.take (List.prefix_append ys _) _
          have htail := hshort.trans hnext
          simpa using htail

/-- **The first offer of a round comes out within `cap` rounds**, behind everything queued at its
    beginning. -/
theorem first_offer_taken {q : Fifo α cap} (hroom : q.items.length < cap) (x : α) (xs : List α)
    {rounds : List (List α)} (hlong : cap ≤ rounds.length + 1) :
    q.items ++ [x] <+: taken (Trace.run round q ((x :: xs) :: rounds)).2 := by
  -- seen from behind its offer, `x` is one of at most `cap` elements that are ahead
  have hprogress := rounds_progress (q.push x) (xs :: rounds)
  have hbound := (q.push x).bound
  rw [List.take_of_length_le (by simp only [List.length_cons]; omega), push_items hroom] at hprogress
  rw [Trace.run_cons, round_cons hroom]
  simpa [taken] using hprogress

/-! ## Exact service -/

/-- A round takes out one element at most. -/
theorem round_taken_length (q : Fifo α cap) (xs : List α) : (taken (q.round xs).2).length ≤ 1 := by
  rw [(round_spec q xs).1, List.length_take]
  exact Nat.min_le_left _ _

theorem rounds_taken_length (q : Fifo α cap) (rounds : List (List α)) :
    (taken (Trace.run round q rounds).2).length ≤ rounds.length := by
  induction rounds generalizing q with
  | nil => exact Nat.le_refl 0
  | cons xs rounds ih =>
      have hround := round_taken_length q xs
      have hrest := ih (q.round xs).1
      rw [Trace.run_cons, taken_append, List.length_append, List.length_cons]
      omega

/-- **Exact progress.** As long as the queue does not run dry, `n` rounds take out the `n` oldest elements
    and nothing else. -/
theorem rounds_exact {q : Fifo α cap} {rounds : List (List α)} (h : rounds.length ≤ q.items.length) :
    taken (Trace.run round q rounds).2 = q.items.take rounds.length := by
  have hlength := rounds_taken_length q rounds
  have hahead : (q.items.take rounds.length).length = rounds.length := List.length_take_of_le h
  exact ((rounds_progress q rounds).eq_of_length_le (by rw [hahead]; exact hlength)).symm

/-- **Exact service.** Counted from the round in which they come in, the elements leave in the order of their
    places, one a round. -/
theorem rounds_served {q : Fifo α cap} {xs : List α} {rounds : List (List α)}
    (h : rounds.length < (q.items ++ accepted (q.round xs).2).length) :
    taken (Trace.run round q (xs :: rounds)).2
      = (q.items ++ accepted (q.round xs).2).take (rounds.length + 1) := by
  obtain ⟨hfirst, hleft⟩ := round_spec q xs
  have hrest : rounds.length ≤ (q.round xs).1.items.length := by
    rw [hleft, List.length_drop]
    omega
  rw [Trace.run_cons, taken_append, rounds_exact hrest, hfirst, hleft, Nat.add_comm, List.take_add]

theorem offered_not_mem_serve (q : Fifo α cap) (x : α) (ok : Bool) : Traffic.offered x ok ∉ q.serve.2 := by
  unfold serve
  cases q.front with
  | none => exact List.not_mem_nil
  | some y =>
      intro hmem
      cases List.mem_singleton.mp hmem

/-- The offers of a round come before its service. -/
theorem round_offered {q : Fifo α cap} {xs : List α} {pre post : List (Traffic α)} {x : α} {ok : Bool}
    (h : (q.round xs).2 = pre ++ .offered x ok :: post) : taken pre = [] := by
  obtain ⟨hnone, -⟩ := offers_spec q xs
  unfold round at h
  rw [Trace.run_snoc] at h
  rcases List.append_eq_append_iff.mp h with ⟨gap, -, hserve⟩ | ⟨gap, hoffers, -⟩
  · refine absurd ?_ (offered_not_mem_serve (Trace.run step q (xs.map Op.offer)).1 x ok)
    show _ ∈ (Fifo.step _ .serve).2
    rw [hserve]
    exact List.mem_append_right gap List.mem_cons_self
  · rw [hoffers, taken_append] at hnone
    exact (List.append_eq_nil_iff.mp hnone).1

end Fifo
