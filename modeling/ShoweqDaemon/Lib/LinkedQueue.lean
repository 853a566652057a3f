/-
  A queue of linked nodes with a pointer to the first and to the last.

  Memory is a function from addresses to nodes; an address that is not allocated has none. `Holds q l`
  says that the nodes from `first` on hold the values `l` and that `last` points to the last of
  them. `push` and `pop` keep that (`push_holds`, `pop_cons`), so no operation follows a pointer to
  a node that was freed.

  `pop_nil` is a pop of the empty queue, which changes nothing. Nothing is said of nodes that are
  not in the queue, so that a memory with other things in it is as good.
-/
import Mathlib.Data.List.Nodup

universe u

/-- A node: a value and the address of the next one. -/
structure LinkedQueue.Node (α : Type u) where
  next : Option Nat
  value : α

/-- A queue as linked nodes in memory, with pointers to the first and the last. -/
structure LinkedQueue (α : Type u) where
  cell : Nat → Option (LinkedQueue.Node α)
  /-- The next address that is allocated. -/
  fresh : Nat
  first : Option Nat
  last : Option Nat

namespace LinkedQueue

variable {α : Type u}

/-- No nodes. -/
def empty : LinkedQueue α where
  cell := fun _ => none
  fresh := 0
  first := none
  last := none

/-- Writes one address. -/
def write (q : LinkedQueue α) (a : Nat) (node : Option (Node α)) : LinkedQueue α :=
  { q with cell := fun b => if b = a then node else q.cell b }

/-- `l->next = pc`. -/
def setNext (q : LinkedQueue α) (l pc : Nat) : LinkedQueue α :=
  q.write l ((q.cell l).map ({ · with next := some pc }))

/-- A new node goes behind the last one. -/
def push (q : LinkedQueue α) (x : α) : LinkedQueue α :=
  let pc := q.fresh
  let q : LinkedQueue α :=
    { q.write pc (some { next := none, value := x }) with fresh := pc + 1 }
  let q : LinkedQueue α :=
    match q.last with
    | some l => q.setNext l pc
    | none => q
  let q : LinkedQueue α := { q with last := some pc }
  if q.first = none then { q with first := some pc } else q

/-- The first node is taken out, read and freed. A freed first node would give nothing. -/
def pop (q : LinkedQueue α) : Option α × LinkedQueue α :=
  match q.first with
  | none => (none, q)
  | some pc =>
      match q.cell pc with
      | none => (none, q)
      | some node =>
          let q : LinkedQueue α := { q with first := node.next }
          let q : LinkedQueue α := if q.first = none then { q with last := none } else q
          (some node.value, q.write pc none)

/-! ## The list that a queue holds -/

/-- The nodes from `p` on lie at these addresses, hold these values, and end there. -/
def Chain (cell : Nat → Option (Node α)) : Option Nat → List Nat → List α → Prop
  | p, [], [] => p = none
  | p, a :: as, x :: xs =>
      p = some a ∧ ∃ next, cell a = some { next, value := x } ∧ Chain cell next as xs
  | _, _, _ => False

/-- The queue holds the list in these nodes: linked in order, all different, all allocated. -/
structure HoldsAt (q : LinkedQueue α) (l : List α) (nodes : List Nat) : Prop where
  chain : Chain q.cell q.first nodes l
  last : q.last = nodes.getLast?
  nodup : nodes.Nodup
  lt : ∀ a ∈ nodes, a < q.fresh

/-- The queue holds the list. -/
def Holds (q : LinkedQueue α) (l : List α) : Prop := ∃ nodes, HoldsAt q l nodes

theorem chain_congr {cell cell' : Nat → Option (Node α)} {nodes : List Nat} {l : List α}
    {p : Option Nat} (h : Chain cell p nodes l) (hcell : ∀ a ∈ nodes, cell' a = cell a) :
    Chain cell' p nodes l := by
  induction nodes generalizing p l with
  | nil => cases l <;> exact h
  | cons a as ih =>
      cases l with
      | nil => exact h
      | cons x xs =>
          obtain ⟨hp, next, ha, hrest⟩ := h
          exact ⟨hp, next, (hcell a List.mem_cons_self).trans ha,
            ih hrest fun b hb => hcell b (List.mem_cons_of_mem a hb)⟩

/-- The last node gets a successor. -/
theorem chain_snoc {cell cell' : Nat → Option (Node α)} {pc : Nat} {x : α}
    (hnew : cell' pc = some { next := none, value := x }) {nodes : List Nat} {l : List α}
    {p : Option Nat} {last : Nat} (h : Chain cell p nodes l) (hlast : nodes.getLast? = some last)
    (hn : nodes.Nodup) (hset : cell' last = (cell last).map ({ · with next := some pc }))
    (hcell : ∀ a ∈ nodes, a ≠ last → cell' a = cell a) :
    Chain cell' p (nodes ++ [pc]) (l ++ [x]) := by
  induction nodes generalizing p l with
  | nil => cases hlast
  | cons a as ih =>
      cases l with
      | nil => exact h.elim
      | cons y ys =>
          obtain ⟨hp, next, ha, hrest⟩ := h
          cases as with
          | nil =>
              obtain rfl : a = last := Option.some.inj hlast
              cases ys with
              | cons z zs => exact hrest.elim
              | nil =>
                  rw [ha] at hset
                  exact ⟨hp, some pc, hset, rfl, none, hnew, rfl⟩
          | cons b bs =>
              have hlast' : (b :: bs).getLast? = some last := by
                rw [List.getLast?_cons_cons] at hlast
                exact hlast
              have hne : a ≠ last := by
                rintro rfl
                exact (List.nodup_cons.mp hn).1 (List.mem_of_getLast? hlast')
              exact ⟨hp, next, (hcell a List.mem_cons_self hne).trans ha,
                ih hrest hlast' hn.of_cons fun c hc => hcell c (List.mem_cons_of_mem a hc)⟩

theorem holds_empty : (empty : LinkedQueue α).Holds [] :=
  ⟨[], rfl, rfl, List.nodup_nil, fun _ ha => nomatch ha⟩

theorem Holds.first_eq_none_iff {q : LinkedQueue α} {l : List α} (h : q.Holds l) :
    q.first = none ↔ l = [] := by
  obtain ⟨nodes, hchain, -⟩ := h
  cases nodes with
  | nil =>
      cases l with
      | nil => exact iff_of_true hchain rfl
      | cons x xs => exact hchain.elim
  | cons a as =>
      cases l with
      | nil => exact hchain.elim
      | cons x xs =>
          rw [hchain.1]
          exact iff_of_false (fun h => nomatch h) (fun h => nomatch h)

/-! ## The operations -/

theorem push_holds {q : LinkedQueue α} {l : List α} (h : q.Holds l) (x : α) :
    (q.push x).Holds (l ++ [x]) := by
  obtain ⟨nodes, hchain, hlast, hn, hlt⟩ := h
  have hfresh : q.fresh ∉ nodes := fun hmem => Nat.lt_irrefl _ (hlt _ hmem)
  have hnodup : (nodes ++ [q.fresh]).Nodup := by
    refine List.Nodup.append hn (List.nodup_singleton _) fun a ha hnew => ?_
    exact hfresh (List.mem_singleton.mp hnew ▸ ha)
  have hlt' : ∀ a ∈ nodes ++ [q.fresh], a < q.fresh + 1 := by
    intro a ha
    rcases List.mem_append.mp ha with ha | ha
    · exact Nat.lt_succ_of_lt (hlt a ha)
    · rw [List.mem_singleton.mp ha]
      exact Nat.lt_succ_self _
  have hend : some q.fresh = (nodes ++ [q.fresh]).getLast? := List.getLast?_concat.symm
  refine ⟨nodes ++ [q.fresh], ?_⟩
  cases hl : q.last with
  | none =>
      -- the queue is empty
      have hnil : nodes = [] := List.getLast?_eq_none_iff.mp (hlast.symm.trans hl)
      subst hnil
      cases l with
      | cons y ys => exact hchain.elim
      | nil =>
          have hfirst : q.first = none := hchain
          unfold push
          simp only [write, hl, hfirst, if_true]
          exact ⟨⟨rfl, none, if_pos rfl, rfl⟩, rfl, hnodup, hlt'⟩
  | some last =>
      have hlast' : nodes.getLast? = some last := hlast.symm.trans hl
      have hmem : last ∈ nodes := List.mem_of_getLast? hlast'
      have hfirst : q.first ≠ none := by
        intro hnone
        cases nodes with
        | nil => cases hmem
        | cons a as =>
            cases l with
            | nil => exact hchain
            | cons y ys => exact nomatch hnone.symm.trans hchain.1
      have hne : last ≠ q.fresh := fun heq => hfresh (heq ▸ hmem)
      unfold push
      simp only [write, setNext, hl, if_neg hfirst]
      refine ⟨?_, hend, hnodup, hlt'⟩
      refine chain_snoc ?_ hchain hlast' hn ?_ ?_
      · simp only [if_neg hne.symm, if_pos]
      · simp only [if_pos, if_neg hne]
      · intro a ha hother
        have hnew : a ≠ q.fresh := fun heq => hfresh (heq ▸ ha)
        simp only [if_neg hother, if_neg hnew]

theorem pop_nil {q : LinkedQueue α} (h : q.Holds []) : q.pop = (none, q) := by
  have hfirst := h.first_eq_none_iff.mpr rfl
  unfold pop
  rw [hfirst]

theorem pop_cons {q : LinkedQueue α} {x : α} {l : List α} (h : q.Holds (x :: l)) :
    q.pop.1 = some x ∧ q.pop.2.Holds l := by
  obtain ⟨nodes, hchain, hlast, hn, hlt⟩ := h
  cases nodes with
  | nil => exact hchain.elim
  | cons pc rest =>
      obtain ⟨hfirst, next, hcell, hrest⟩ := hchain
      unfold pop
      rw [hfirst]
      dsimp only
      rw [hcell]
      refine ⟨rfl, rest, ?_⟩
      obtain ⟨hpc, hn'⟩ := List.nodup_cons.mp hn
      have hlt' : ∀ a ∈ rest, a < q.fresh := fun a ha => hlt a (List.mem_cons_of_mem pc ha)
      -- the rest does not go through the node that is freed
      have hfree : ∀ a ∈ rest, (if a = pc then none else q.cell a) = q.cell a :=
        fun a ha => if_neg fun heq : a = pc => hpc (heq ▸ ha)
      have hchain' : Chain (fun b => if b = pc then none else q.cell b) next rest l :=
        chain_congr hrest hfree
      cases rest with
      | nil =>
          cases l with
          | cons y ys => exact hrest.elim
          | nil =>
              have hnext : next = none := hrest
              subst hnext
              exact ⟨rfl, rfl, hn', hlt'⟩
      | cons a as =>
          cases l with
          | nil => exact hrest.elim
          | cons y ys =>
              have hsome : next = some a := hrest.1
              subst hsome
              refine ⟨hchain', ?_, hn', hlt'⟩
              have hlast' : q.last = (a :: as).getLast? := by
                rw [hlast, List.getLast?_cons_cons]
              exact hlast'

end LinkedQueue
