import Mathlib.Data.List.Basic
import GenWatch.Prelude.Transition

/-! # A first-come first-served lock between coroutines

Coroutines give up control only where they wait. Acquiring a free lock that
nobody waits for does not give up control; otherwise the caller joins the end of
the queue. A released lock stays free until the first coroutine of the queue is
resumed, and a later caller does not overtake it.
-/

namespace GenWatch

/-- The holder of a lock, and the coroutines that wait for it in order. -/
structure Mutex (τ : Type) where
  holder : Option τ
  waiters : List τ
  deriving DecidableEq

namespace Mutex

variable {τ : Type}

def free : Mutex τ := ⟨none, []⟩

/-- A caller is let in at once only when the lock is free and nobody waits. -/
def open? (m : Mutex τ) : Bool := m.holder.isNone && m.waiters.isEmpty

def take (m : Mutex τ) (t : τ) : Mutex τ := { m with holder := some t }

def enqueue (m : Mutex τ) (t : τ) : Mutex τ := { m with waiters := m.waiters ++ [t] }

def release (m : Mutex τ) : Mutex τ := { m with holder := none }

/-- The first coroutine of the queue of a free lock is resumed and holds the lock. -/
def wake? [DecidableEq τ] (m : Mutex τ) (t : τ) : Option (Mutex τ) :=
  match m.holder, m.waiters with
  | none, u :: us => if u = t then some ⟨some t, us⟩ else none
  | _, _ => none

theorem open?_iff {m : Mutex τ} : m.open? = true ↔ m.holder = none ∧ m.waiters = [] := by
  simp [open?]

theorem wake?_eq_some [DecidableEq τ] {m m' : Mutex τ} {t : τ} :
    m.wake? t = some m' ↔
      m.holder = none ∧ m.waiters = t :: m'.waiters ∧ m'.holder = some t := by
  obtain ⟨holder, waiters⟩ := m
  obtain ⟨holder', waiters'⟩ := m'
  cases holder with
  | some _ => simp [wake?]
  | none =>
    cases waiters with
    | nil => simp [wake?]
    | cons u us =>
      by_cases h : u = t
      · subst h
        simp [wake?, eq_comm, and_comm]
      · simp [wake?, h]

/-! ### Nobody is overtaken -/

inductive Op (τ : Type) where
  | take (t : τ)
  | enqueue (t : τ)
  | wake (t : τ)
  | release

/-- The coroutine that a use of the lock lets in. -/
def Op.entrant? : Op τ → Option τ
  | .take t | .wake t => some t
  | .enqueue _ | .release => none

def step [DecidableEq τ] (m : Mutex τ) : Op τ → Option (Mutex τ)
  | .take t => if m.open? then some (m.take t) else none
  | .enqueue t => if m.open? then none else some (m.enqueue t)
  | .wake t => m.wake? t
  | .release => some m.release

def entrants (ops : List (Op τ)) : List τ := ops.filterMap Op.entrant?

section Waiting

variable [DecidableEq τ] {m m' : Mutex τ} {op : Op τ} {ops : List (Op τ)} {t : τ}
  {ahead behind : List τ}

theorem step_waiting (h : m.step op = some m') (hw : m.waiters = ahead ++ t :: behind)
    (hop : op ≠ .wake t) :
    ∃ rest behind', ahead = op.entrant?.toList ++ rest ∧ m'.waiters = rest ++ t :: behind' := by
  cases op with
  | take u =>
    obtain ⟨hopen, -⟩ := Option.ite_none_right_eq_some.mp h
    rw [(open?_iff.mp hopen).2] at hw
    simp at hw
  | enqueue u =>
    obtain ⟨-, hm⟩ := Option.ite_none_left_eq_some.mp h
    obtain rfl := Option.some.inj hm
    exact ⟨ahead, behind ++ [u], rfl, by simp [enqueue, hw]⟩
  | wake u =>
    obtain ⟨-, hfirst, -⟩ := wake?_eq_some.mp h
    rw [hw] at hfirst
    cases ahead with
    | nil =>
      obtain rfl : t = u := (List.cons.inj hfirst).1
      exact absurd rfl hop
    | cons v rest =>
      obtain ⟨rfl, hrest⟩ := List.cons.inj hfirst
      exact ⟨rest, behind, rfl, hrest.symm⟩
  | release =>
    obtain rfl := Option.some.inj h
    exact ⟨ahead, behind, rfl, hw⟩

/-- Until a coroutine is resumed, those let in are those ahead of it, in their order. -/
theorem run_waiting (h : Transition.run step m ops = some m')
    (hw : m.waiters = ahead ++ t :: behind) (hops : .wake t ∉ ops) :
    ∃ rest behind', ahead = entrants ops ++ rest ∧ m'.waiters = rest ++ t :: behind' := by
  induction ops generalizing m ahead behind with
  | nil =>
    obtain rfl := Option.some.inj h
    exact ⟨ahead, behind, rfl, hw⟩
  | cons op ops ih =>
    obtain ⟨m₁, hstep, hrun⟩ := Option.bind_eq_some_iff.mp h
    obtain ⟨hop, hrest⟩ := List.ne_and_not_mem_of_not_mem_cons hops
    obtain ⟨rest, behind₁, rfl, hw₁⟩ := step_waiting hstep hw (Ne.symm hop)
    obtain ⟨rest', behind', rfl, hw'⟩ := ih hrun hw₁ hrest
    refine ⟨rest', behind', ?_, hw'⟩
    cases he : op.entrant? <;> simp [entrants, he]

end Waiting

end Mutex

end GenWatch
