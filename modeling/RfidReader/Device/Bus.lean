/-!
# RfidReader.Device.Bus

Programs that talk to the chip over its register bus.

A `BusProgram` is what the host does between two results: it reads and writes
spans of memory and waits, and goes on as the answers say.  A `Bus` is one way
for the other side to behave, with a state of its own; a read that succeeds
fills exactly the requested number of bytes.  `run` lets a program meet a bus,
and `events` lists what went over it, in order.
-/

namespace RfidReader

/-- Why a transfer failed. -/
inductive BusError where
  | writeFailed (address : UInt16)
  | readFailed (address : UInt16)
  /-- A transfer of no bytes. -/
  | illegalOperation
  deriving DecidableEq, Repr

namespace BusError

def message : BusError → String
  | writeFailed address => "WriteFailed(" ++ toString address.toNat ++ ")"
  | readFailed address => "ReadFailed(" ++ toString address.toNat ++ ")"
  | illegalOperation => "IllegalOperation"

end BusError

/-- A program over the register bus. -/
inductive BusProgram (α : Type) : Type where
  | done (result : α)
  | read (address : UInt16) (length : Nat)
      (next : Except BusError (Vector UInt8 length) → BusProgram α)
  | write (address : UInt16) (data : List UInt8) (next : Except BusError Unit → BusProgram α)
  /-- Wait for some microseconds. -/
  | delay (us : UInt32) (next : BusProgram α)

/-- A behaviour of the bus and the chip behind it. -/
structure Bus (β : Type) where
  read : UInt16 → (length : Nat) → β → Except BusError (Vector UInt8 length) × β
  write : UInt16 → List UInt8 → β → Except BusError Unit × β
  delay : UInt32 → β → β

/-- What went over the bus. -/
inductive BusEvent where
  | read (address : UInt16) (length : Nat) (answer : Except BusError (List UInt8))
  | write (address : UInt16) (data : List UInt8) (answer : Except BusError Unit)
  | delay (us : UInt32)

namespace BusProgram

variable {α β γ : Type}

/-! ## Sequencing -/

/-- Go on with another program where one ends. -/
def bind : BusProgram α → (α → BusProgram γ) → BusProgram γ
  | done result, f => f result
  | read address length next, f => read address length fun answer => (next answer).bind f
  | write address data next, f => write address data fun answer => (next answer).bind f
  | delay us next, f => delay us (next.bind f)

instance : Monad BusProgram where
  pure := done
  bind := bind

theorem bind_done (p : BusProgram α) : p.bind done = p := by
  induction p with
  | done => rfl
  | read _ _ _ ih | write _ _ _ ih => simp only [bind, ih]
  | delay _ _ ih => simp only [bind, ih]

theorem bind_assoc {δ : Type} (p : BusProgram α) (f : α → BusProgram γ) (g : γ → BusProgram δ) :
    (p.bind f).bind g = p.bind fun a => (f a).bind g := by
  induction p with
  | done => rfl
  | read _ _ _ ih | write _ _ _ ih => simp only [bind, ih]
  | delay _ _ ih => simp only [bind, ih]

instance : LawfulMonad BusProgram :=
  LawfulMonad.mk' BusProgram bind_done (fun _ _ => rfl) bind_assoc

/-! ## Running -/

/-- Let a program meet a bus. -/
def run (bus : Bus β) : BusProgram α → β → α × β
  | done result, s => (result, s)
  | read address length next, s =>
    let (answer, s) := bus.read address length s
    run bus (next answer) s
  | write address data next, s =>
    let (answer, s) := bus.write address data s
    run bus (next answer) s
  | delay us next, s => run bus next (bus.delay us s)

/-- What goes over the bus in a run, in order. -/
def events (bus : Bus β) : BusProgram α → β → List BusEvent
  | done _, _ => []
  | read address length next, s =>
    let (answer, s) := bus.read address length s
    .read address length (answer.map Vector.toList) :: events bus (next answer) s
  | write address data next, s =>
    let (answer, s) := bus.write address data s
    .write address data answer :: events bus (next answer) s
  | delay us next, s => .delay us :: events bus next (bus.delay us s)

theorem run_bind (bus : Bus β) (p : BusProgram α) (f : α → BusProgram γ) (s : β) :
    (p.bind f).run bus s = (f (p.run bus s).1).run bus (p.run bus s).2 := by
  induction p generalizing s with
  | done => rfl
  | read _ _ _ ih | write _ _ _ ih => simp only [bind, run, ih]
  | delay _ _ ih => simp only [bind, run, ih]

theorem events_bind (bus : Bus β) (p : BusProgram α) (f : α → BusProgram γ) (s : β) :
    (p.bind f).events bus s
      = p.events bus s ++ (f (p.run bus s).1).events bus (p.run bus s).2 := by
  induction p generalizing s with
  | done => rfl
  | read _ _ _ ih | write _ _ _ ih => simp only [bind, events, run, ih, List.cons_append]
  | delay _ _ ih => simp only [bind, events, run, ih, List.cons_append]

end BusProgram
end RfidReader
