import Unarddeg.Library.Exec

/-!
# Panics and the other ways a kernel function stops

`PanicImpl` never returns: it prints and then halts for ever. A kernel function therefore either
returns, panics with a code, reads or writes through a pointer that C leaves undefined, or loops
for ever. `Kernel σ α` is a function over the state `σ` with these outcomes; a stopped function
keeps the state it stopped in.
-/

namespace Unarddeg

/-- `PanicCode`. -/
inductive PanicCode
  | todo
  | ranOutOfMemory
  | nullPointerDereference
  | unintendedCall
  | traceOverflow
  | notFound
  | segmentationFault
  | doubleOpen
  | fdNotFound
  | incorrectBootloader
  | unhandledInterrupt
  | overheat
  deriving DecidableEq, Repr

/-- Why a kernel function did not return. -/
inductive Stop
  /-- `PanicImpl` was entered with a code. -/
  | panic (code : PanicCode)
  /-- A null pointer was followed without a `PanicIfNull` before it. -/
  | nullAccess
  /-- A loop that never ends was entered. -/
  | hang
  /-- A function of a device driver was entered. -/
  | driver
  /-- An array was read or written outside its bounds. -/
  | outOfBounds
  /-- A division by zero. -/
  | divideByZero
  /-- An instruction raised an exception of the processor. -/
  | fault
  deriving DecidableEq, Repr

/-- A kernel function over a state. -/
abbrev Kernel (σ : Type) := EStateM Stop σ

/-- `Panic(Code)`. -/
def panicWith {σ α : Type} (code : PanicCode) : Kernel σ α := throw (.panic code)

/-- A panic never returns. -/
@[simp] theorem panicWith_ok {σ α : Type} {code : PanicCode} {before after : σ} {result : α} :
    (panicWith code : Kernel σ α) before = .ok result after ↔ False := Library.throw_ok

/-- A check that panics when its test holds, as `PanicIfNull` does. -/
def panicIf {σ : Type} (test : Prop) [Decidable test] (code : PanicCode) : Kernel σ Unit :=
  if test then panicWith code else pure ()

/-- A check returns exactly when its test fails, and changes nothing. -/
@[simp] theorem panicIf_ok {σ : Type} {test : Prop} [Decidable test] {code : PanicCode}
    {before after : σ} {result : Unit} :
    panicIf test code before = .ok result after ↔ ¬ test ∧ before = after := by
  by_cases holds : test <;> simp [panicIf, holds, Library.pure_ok]

/-- The result of a function that changes nothing. -/
def ofExcept {σ α : Type} : Except Stop α → Kernel σ α
  | .ok value => pure value
  | .error reason => throw reason

/-- A function that changes nothing returns its result. -/
@[simp] theorem ofExcept_ok {σ α : Type} {computed : Except Stop α} {before after : σ}
    {result : α} :
    (ofExcept computed : Kernel σ α) before = .ok result after ↔
      computed = .ok result ∧ before = after := by
  cases computed <;> simp [ofExcept, Library.pure_ok, Library.throw_ok]

/-- An `if` without an `else`. -/
def onlyIf {σ : Type} (test : Prop) [Decidable test] (action : Kernel σ Unit) : Kernel σ Unit :=
  if test then action else pure ()

/-- An `if` without an `else` returns as its branch, or at once. -/
@[simp] theorem onlyIf_ok {σ : Type} {test : Prop} [Decidable test] {action : Kernel σ Unit}
    {before after : σ} {result : Unit} :
    onlyIf test action before = .ok result after ↔
      (test ∧ action before = .ok result after) ∨ (¬ test ∧ before = after) := by
  by_cases holds : test <;> simp [onlyIf, holds, Library.pure_ok]

end Unarddeg
