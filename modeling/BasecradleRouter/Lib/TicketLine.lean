/-
# A ticket line whose counters vanish when it empties

Callers take numbered tickets, each carrying something to deliver, and are served in ticket
order.  Two counters run the line: the next number to hand out (`seq`) and the number being
served (`turn`).  When the last ticket settles both counters are dropped, so the next caller
starts again at zero.

`Ordered` is the invariant: the tickets out are consecutive from `turn`, only the one at the
head can have been called, and what was claimed is what was delivered followed by what is
still in line.  It is kept by every move (`Ordered.move`), and the three laws at the end read
it: delivery is in claim order with nothing lost or repeated, exactly one ticket in a nonempty
line holds the turn, and an empty line has no counter left.
-/
import Mathlib.Data.List.Range
import Mathlib.Data.List.TakeDrop
import Mathlib.Logic.Relation

namespace BasecradleRouter.Lib

/-- How far the holder of a ticket has come. -/
inductive Phase
  | waiting
  | called
  | told
  deriving DecidableEq, Repr

/-- A numbered ticket and what its holder is there to deliver. -/
structure Ticket (α : Type*) where
  number : ℕ
  payload : α
  phase : Phase

/-- The line: its two counters, who is in it, and the history of claims and deliveries. -/
structure TicketLine (α : Type*) where
  seq : Option ℕ
  turn : Option ℕ
  line : List (Ticket α)
  claimed : List α
  delivered : List α

namespace TicketLine

variable {α : Type*}

/-- The number being served, zero where the counter is absent. -/
def serving (L : TicketLine α) : ℕ := L.turn.getD 0

/-- One move of the line. -/
inductive Move : TicketLine α → TicketLine α → Prop
  /-- a caller takes the next number -/
  | claim (L : TicketLine α) (a : α) :
      Move L { L with
        seq := some (L.seq.getD 0 + 1)
        line := L.line ++ [⟨L.seq.getD 0, a, .waiting⟩]
        claimed := L.claimed ++ [a] }
  /-- the number being served is called -/
  | call (L : TicketLine α) (pre post : List (Ticket α)) (t : Ticket α) :
      L.line = pre ++ t :: post → t.phase = .waiting → L.serving = t.number →
      Move L { L with line := pre ++ { t with phase := .called } :: post }
  /-- a called holder delivers -/
  | tell (L : TicketLine α) (pre post : List (Ticket α)) (t : Ticket α) :
      L.line = pre ++ t :: post → t.phase = .called →
      Move L { L with
        line := pre ++ { t with phase := .told } :: post
        delivered := L.delivered ++ [t.payload] }
  /-- a holder that delivered leaves; the last one out drops the counters -/
  | settle (L : TicketLine α) (pre post : List (Ticket α)) (t : Ticket α) :
      L.line = pre ++ t :: post → t.phase = .told →
      Move L (if some (t.number + 1) = L.seq
        then { L with seq := none, turn := none, line := pre ++ post }
        else { L with turn := some (t.number + 1), line := pre ++ post })

/-- The payloads still to be delivered, in ticket order. -/
def undelivered (line : List (Ticket α)) : List α :=
  (line.filter (fun t => t.phase ≠ .told)).map Ticket.payload

/-- **The invariant of the line.** -/
structure Ordered (L : TicketLine α) : Prop where
  numbers : L.line.map Ticket.number = List.range' L.serving L.line.length
  seq_eq : L.seq = if L.line = [] then none else some (L.serving + L.line.length)
  turn_none : L.line = [] → L.turn = none
  behind_waiting : ∀ t ∈ L.line.tail, t.phase = .waiting
  history : L.claimed = L.delivered ++ undelivered L.line

/-- A ticket that is not waiting stands at the head, and holds the turn. -/
theorem Ordered.head_of_not_waiting {L : TicketLine α} (h : L.Ordered)
    {pre post : List (Ticket α)} {t : Ticket α} (hl : L.line = pre ++ t :: post)
    (ht : t.phase ≠ .waiting) : pre = [] ∧ t.number = L.serving := by
  cases pre with
  | nil =>
    have hn := h.numbers
    rw [hl] at hn
    simp only [List.nil_append, List.map_cons, List.length_cons, List.range'_succ,
      List.cons.injEq] at hn
    exact ⟨rfl, hn.1⟩
  | cons x pre =>
    have hw := h.behind_waiting t (by rw [hl]; simp)
    exact absurd hw ht

/-- The ticket whose number is being served stands at the head. -/
theorem Ordered.head_of_serving {L : TicketLine α} (h : L.Ordered)
    {pre post : List (Ticket α)} {t : Ticket α} (hl : L.line = pre ++ t :: post)
    (ht : L.serving = t.number) : pre = [] := by
  have hn := h.numbers
  rw [hl] at hn
  have hget := congrArg (fun l => l[pre.length]?) hn
  simp only [List.map_append, List.map_cons, List.length_append, List.length_cons] at hget
  rw [List.getElem?_append_right (by simp), List.getElem?_range' (by omega)] at hget
  simp only [List.length_map, Nat.sub_self, List.getElem?_cons_zero, Option.some.injEq] at hget
  exact List.length_eq_zero_iff.mp (by omega)

/-- **Every move keeps the line ordered.** -/
theorem Ordered.move {L L' : TicketLine α} (h : L.Ordered) (hm : Move L L') : L'.Ordered := by
  cases hm with
  | claim a =>
    have hseq : L.seq.getD 0 = L.serving + L.line.length := by
      rw [h.seq_eq]
      split
      · rename_i he; simp [he, serving, h.turn_none he]
      · rfl
    refine ⟨?_, ?_, by simp, ?_, ?_⟩
    · simp only [List.map_append, List.map_cons, List.map_nil, List.length_append,
        List.length_singleton, h.numbers, hseq, List.range'_concat, Nat.one_mul]
      rfl
    · simp only [hseq, List.append_eq_nil_iff, List.cons_ne_self, and_false, if_false,
        List.length_append, List.length_singleton, serving]
      rw [Nat.add_assoc]
    · intro t ht
      cases hl : L.line with
      | nil => simp [hl] at ht
      | cons x xs =>
        simp only [hl, List.cons_append, List.tail_cons, List.mem_append,
          List.mem_singleton] at ht
        rcases ht with ht | rfl
        · exact h.behind_waiting t (by rw [hl]; exact ht)
        · rfl
    · simp [undelivered, h.history]
  | call pre post t hl hw hs =>
    obtain rfl := h.head_of_serving hl hs
    have hn := h.numbers
    have hq := h.seq_eq
    have hb := h.behind_waiting
    have hh := h.history
    simp only [hl, List.nil_append] at hn hq hb hh
    refine ⟨?_, ?_, by simp, hb, ?_⟩
    · simpa [serving] using hn
    · simpa [serving] using hq
    · simpa [undelivered, hw] using hh
  | tell pre post t hl hc =>
    obtain ⟨rfl, -⟩ := h.head_of_not_waiting hl (by simp [hc])
    have hn := h.numbers
    have hq := h.seq_eq
    have hb := h.behind_waiting
    have hh := h.history
    simp only [hl, List.nil_append] at hn hq hb hh
    refine ⟨?_, ?_, by simp, hb, ?_⟩
    · simpa [serving] using hn
    · simpa [serving] using hq
    · simpa [undelivered, hc] using hh
  | settle pre post t hl ht =>
    obtain ⟨rfl, hnum⟩ := h.head_of_not_waiting hl (by simp [ht])
    have hn := h.numbers
    have hq := h.seq_eq
    have hb := h.behind_waiting
    have hh := h.history
    simp only [hl, List.nil_append, List.map_cons, List.length_cons, List.range'_succ,
      List.cons.injEq, reduceCtorEq, if_false, List.tail_cons] at hn hq hb hh
    have hpost : undelivered (t :: post) = undelivered post := by simp [undelivered, ht]
    have htail : ∀ u ∈ post.tail, u.phase = .waiting := fun u hu => hb u (List.mem_of_mem_tail hu)
    simp only [List.nil_append]
    split
    · -- the last ticket: the number after it is the next one to hand out
      rename_i he
      have hlen : post = [] := by
        rw [hq, hnum, Option.some.injEq] at he
        exact List.length_eq_zero_iff.mp (by omega)
      subst hlen
      exact ⟨by simp, by simp, by simp, by simp, by simpa [hpost] using hh⟩
    · rename_i he
      have hne : post ≠ [] := by
        rintro rfl
        exact he (by rw [hq, hnum]; rfl)
      refine ⟨?_, ?_, fun h0 => absurd h0 hne, htail, by simpa [hpost] using hh⟩
      · simpa [serving, hnum] using hn.2
      · simp only [hq, hne, if_false, serving, Option.getD_some, hnum]
        congr 1
        omega

/-- A run of moves keeps the line ordered. -/
theorem Ordered.moves {L L' : TicketLine α} (h : L.Ordered)
    (hm : Relation.ReflTransGen Move L L') : L'.Ordered := by
  induction hm with
  | refl => exact h
  | tail _ hm ih => exact ih.move hm

/-- An empty line that never ran. -/
theorem ordered_empty : (⟨none, none, [], [], []⟩ : TicketLine α).Ordered :=
  ⟨rfl, rfl, fun _ => rfl, by simp, rfl⟩

/-! ## The laws of the line -/

/-- Once nobody is in line, everything claimed has been delivered, and the counters are gone. -/
theorem Ordered.settled {L : TicketLine α} (h : L.Ordered) (hl : L.line = []) :
    L.delivered = L.claimed ∧ L.seq = none ∧ L.turn = none := by
  refine ⟨?_, ?_, h.turn_none hl⟩
  · have hh := h.history
    rw [hl] at hh
    simpa [undelivered] using hh.symm
  · rw [h.seq_eq, if_pos hl]

/-- **Exactly one ticket of a nonempty line holds the turn.** -/
theorem Ordered.one_turn {L : TicketLine α} (h : L.Ordered) (hl : L.line ≠ []) :
    ∃ t rest, L.line = t :: rest ∧ t.number = L.serving ∧
      ∀ u ∈ rest, u.number ≠ L.serving := by
  have hn := h.numbers
  cases hline : L.line with
  | nil => exact absurd hline hl
  | cons t rest =>
    simp only [hline, List.map_cons, List.length_cons, List.range'_succ, List.cons.injEq] at hn
    refine ⟨t, rest, rfl, hn.1, ?_⟩
    intro u hu
    have hmem : u.number ∈ rest.map Ticket.number := List.mem_map_of_mem hu
    rw [hn.2, List.mem_range'_1] at hmem
    omega

end TicketLine

end BasecradleRouter.Lib
