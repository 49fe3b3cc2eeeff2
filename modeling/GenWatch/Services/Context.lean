import GenWatch.Prelude.Handler
import GenWatch.Db.Tables

/-! # Poll handlers

A poll handler runs over a service's own state, the database and the list of
events it has emitted. Each database call may raise, in an order fixed by the
environment; an error ends the handler and keeps everything done before it.
-/

namespace GenWatch

/-- What a poll handler reads and writes: `faults` says which of the coming database calls raise,
and calls past its end succeed. -/
structure Ctx (S : Type) where
  self : S
  db : Database
  emitted : List Event
  faults : List Bool

inductive DbError where
  | raised
  deriving DecidableEq

abbrev ServiceM (S : Type) := EStateM DbError (Ctx S)

namespace ServiceM

open Handler

variable {S α : Type}

def getSelf : ServiceM S S := do return (← get).self

def modifySelf (f : S → S) : ServiceM S Unit := modify fun c => { c with self := f c.self }

def emit (e : Event) : ServiceM S Unit := modify fun c => { c with emitted := c.emitted ++ [e] }

/-- A database call, which raises if the environment says so. -/
def dbCall (op : Database → α × Database) : ServiceM S α := fun c =>
  match c.faults with
  | true :: rest => .error .raised { c with faults := rest }
  | _ => .ok (op c.db).1 { c with db := (op c.db).2, faults := c.faults.tail }

def raiseAlarm (code : String) (desc : Desc) (severity : Severity) (raw : ℤ) (now : ℚ) :
    ServiceM S Bool :=
  dbCall fun db => db.raiseAlarm ⟨code, desc, severity, now, raw⟩

def clearAlarm (code : String) : ServiceM S Bool := dbCall fun db => db.clearAlarm code

def writeEvent (severity : Severity) (type : EventType) (message : Message)
    (info : Option String) (now : ℚ) : ServiceM S Unit :=
  dbCall fun db => ((), db.writeEvent ⟨now, severity, type, message, info⟩)

variable {c c' : Ctx S}

theorem getSelf_ok {a : S} : (getSelf : ServiceM S S).run c = .ok a c' ↔ c.self = a ∧ c = c' := by
  simp only [getSelf, bind_ok, get_ok, pure_ok]
  constructor
  · rintro ⟨_, _, ⟨rfl, rfl⟩, h⟩
    exact h
  · exact fun h => ⟨c, c, ⟨rfl, rfl⟩, h⟩

theorem modifySelf_ok {f : S → S} {u : Unit} :
    (modifySelf f).run c = .ok u c' ↔ { c with self := f c.self } = c' := modify_ok

theorem emit_ok {e : Event} {u : Unit} :
    (emit e).run c = .ok u c' ↔ { c with emitted := c.emitted ++ [e] } = c' := modify_ok

theorem dbCall_ok {op : Database → α × Database} {a : α} :
    (dbCall op).run c = .ok a c' ↔
      c.faults.head? ≠ some true ∧ (op c.db).1 = a ∧
        { c with db := (op c.db).2, faults := c.faults.tail } = c' := by
  obtain ⟨self, db, emitted, faults⟩ := c
  rcases faults with _ | ⟨_ | _, rest⟩ <;> simp [dbCall, EStateM.run]

theorem relates_dbCall {R : Ctx S → Ctx S → Prop} {op : Database → α × Database}
    (herr : ∀ c faults, R c { c with faults := faults })
    (h : ∀ c faults, R c { c with db := (op c.db).2, faults := faults }) :
    Relates R (dbCall op : ServiceM S α) := by
  intro c
  obtain ⟨self, db, emitted, faults⟩ := c
  rcases faults with _ | ⟨_ | _, rest⟩
  · exact h ⟨self, db, emitted, _⟩ _
  · exact h ⟨self, db, emitted, _⟩ _
  · exact herr ⟨self, db, emitted, _⟩ _

theorem relates_getSelf_bind {R : Ctx S → Ctx S → Prop} {f : S → ServiceM S α}
    (h : ∀ c, R c (finalState ((f c.self).run c))) : Relates R (getSelf >>= f) :=
  h

theorem relates_getSelf {R : Ctx S → Ctx S → Prop} [Std.Refl R] :
    Relates R (getSelf : ServiceM S S) :=
  fun c => Std.Refl.refl c

def Total (x : ServiceM S α) : Prop :=
  ∀ c, c.faults = [] → ∃ a c', x.run c = .ok a c' ∧ c'.faults = []

theorem Total.pure (a : α) : Total (pure a : ServiceM S α) :=
  fun c hc => ⟨a, c, pure_ok.mpr ⟨rfl, rfl⟩, hc⟩

theorem Total.bind {β : Type} {x : ServiceM S α} {f : α → ServiceM S β} (hx : Total x)
    (hf : ∀ a, Total (f a)) : Total (x >>= f) := by
  intro c hc
  obtain ⟨a, c₁, h₁, hc₁⟩ := hx c hc
  obtain ⟨b, c₂, h₂, hc₂⟩ := hf a c₁ hc₁
  exact ⟨b, c₂, bind_ok.mpr ⟨a, c₁, h₁, h₂⟩, hc₂⟩

theorem Total.ite {p : Prop} [Decidable p] {x y : ServiceM S α} (hx : Total x) (hy : Total y) :
    Total (if p then x else y) := by
  split
  · exact hx
  · exact hy

theorem Total.getSelf : Total (getSelf : ServiceM S S) :=
  fun c hc => ⟨c.self, c, getSelf_ok.mpr ⟨rfl, rfl⟩, hc⟩

theorem Total.modifySelf (f : S → S) : Total (modifySelf f) :=
  fun _ hc => ⟨(), _, modifySelf_ok.mpr rfl, hc⟩

theorem Total.emit (e : Event) : Total (emit e : ServiceM S Unit) :=
  fun _ hc => ⟨(), _, emit_ok.mpr rfl, hc⟩

theorem Total.dbCall (op : Database → α × Database) : Total (dbCall op : ServiceM S α) :=
  fun c hc => ⟨_, _, dbCall_ok.mpr ⟨by simp [hc], rfl, rfl⟩, by simp [hc]⟩

theorem Total.forM {ι : Type} {l : List ι} {f : ι → ServiceM S PUnit} (hf : ∀ i, Total (f i)) :
    Total (l.forM f) := by
  induction l with
  | nil => exact Total.pure _
  | cons i l ih => exact Total.bind (hf i) fun _ => ih

end ServiceM

end GenWatch
