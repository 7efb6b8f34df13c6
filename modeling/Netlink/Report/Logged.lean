import Netlink.Report.Event

/-! # Results that come with a log

Decoding never fails on bytes it can step over, but it reports them. `Logged α` is a value with the
events reported on the way to it; steps in sequence report in sequence. `Decoded α` may fail, and
keeps what was reported before it failed. -/

namespace Netlink

/-- Steps in sequence succeed just if each of them does. -/
theorem bind_eq_ok {ε α β : Type} {x : Except ε α} {f : α → Except ε β} {b : β} :
    (x >>= f) = .ok b ↔ ∃ a, x = .ok a ∧ f a = .ok b := by
  cases x with
  | error e => constructor <;> intro h <;> simp [bind, Except.bind] at h
  | ok a => simp [bind, Except.bind]

/-- A value and what was reported while it was worked out. -/
structure Logged (α : Type) where
  value : α
  log : List Event
  deriving Repr

namespace Logged

instance : Monad Logged where
  pure a := ⟨a, []⟩
  bind x f := let y := f x.value; ⟨y.value, x.log ++ y.log⟩

@[simp] theorem value_pure {α : Type} (a : α) : (pure a : Logged α).value = a := rfl

@[simp] theorem log_pure {α : Type} (a : α) : (pure a : Logged α).log = [] := rfl

@[simp] theorem value_bind {α β : Type} (x : Logged α) (f : α → Logged β) :
    (x >>= f).value = (f x.value).value := rfl

@[simp] theorem log_bind {α β : Type} (x : Logged α) (f : α → Logged β) :
    (x >>= f).log = x.log ++ (f x.value).log := rfl

@[ext] theorem ext {α : Type} {x y : Logged α} (hv : x.value = y.value) (hl : x.log = y.log) :
    x = y := by
  cases x
  cases y
  simp_all

instance : LawfulMonad Logged :=
  LawfulMonad.mk' Logged (fun x => by ext <;> simp [Functor.map]) (fun a f => by ext <;> simp)
    (fun x f g => by ext <;> simp)

def tell (log : List Event) : Logged Unit := ⟨(), log⟩

end Logged

/-- A value or a failure, and what was reported before it. -/
abbrev Decoded (α : Type) := ExceptT Error Logged α

namespace Decoded

def result {α : Type} (x : Decoded α) : Except Error α := x.run.value

def log {α : Type} (x : Decoded α) : List Event := x.run.log

/-- A decoding that reports nothing. -/
def ofExcept {α : Type} (x : Except Error α) : Decoded α := ExceptT.mk (pure x)

end Decoded
end Netlink
