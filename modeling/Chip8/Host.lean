/-
What pictures, windows and sounds need of the host: arrays of the sizes that they ask for, a window
and its caption. How much a host has to give is its own affair, so a `Host` is a parameter of
whatever asks it, and every refusal comes back with the host's own words.
-/
namespace Chip8

/-- What an array holds. -/
inductive Element where
  /-- Components of colours. -/
  | byte
  /-- Samples of a sound. -/
  | sample
  deriving DecidableEq

/-- A refusal: the host's name for its kind, and the text. -/
structure HostError where
  kind : String
  message : String
  deriving DecidableEq

structure Host where
  /-- Makes room for an array with the given sides. -/
  array : Element → List Int → Except HostError Unit
  /-- Numbers samples from zero up to a bound and tells how many these are. -/
  range : Int → Except HostError Nat
  /-- Opens a window of a width and a height. -/
  window : Int → Int → Except HostError Unit
  /-- Gives the window a caption. -/
  caption : String → Except HostError Unit

/-- The host that refuses nothing. -/
def Host.ample : Host where
  array _ _ := .ok ()
  range bound := .ok bound.toNat
  window _ _ := .ok ()
  caption _ := .ok ()

/-! ## Requests one after the other -/

section Requests

variable {ε δ α β : Type}

theorem ok_bind (a : α) (f : α → Except ε β) : (Except.ok a >>= f) = f a := rfl

theorem error_bind (e : ε) (f : α → Except ε β) : (Except.error e >>= f) = .error e := rfl

theorem pure_eq_ok_iff {a b : α} : (pure a : Except ε α) = .ok b ↔ b = a :=
  ⟨fun h => (Except.ok.inj h).symm, fun h => congrArg Except.ok h.symm⟩

/-- What comes after a request has a result exactly if the request is not refused. -/
theorem bind_eq_ok_iff {x : Except ε α} {f : α → Except ε β} {b : β} :
    (x >>= f) = .ok b ↔ ∃ a, x = .ok a ∧ f a = .ok b := by
  cases x with
  | error e => simp [error_bind]
  | ok a => simp [ok_bind]

end Requests

end Chip8
