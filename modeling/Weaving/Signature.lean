import Weaving.ValueType

/-!
# Signatures of methods

The types of a method's parameters and of what it returns. The receiver of an instance method is
no parameter of its signature, but a call takes it from the stack.
-/

namespace Weaving

open Text

/-- The parameters and the result of a method; no result stands for `void`. -/
structure Signature (κ : Type) where
  parameters : List (ValueType κ)
  result : Option (ValueType κ)
deriving DecidableEq, Repr

namespace Signature

variable {κ : Type}

/-- The number of values that a call takes from the stack: one for each parameter, and one for
the receiver if there is one. -/
def consumption (s : Signature κ) (hasReceiver : Bool) : Nat :=
  s.parameters.length + if hasReceiver then 1 else 0

/-- The signature's first parameters are the given ones; further parameters are accepted, so that
a reference to a method survives parameters appended to it. -/
def startsWith [DecidableEq κ] (s : Signature κ) (types : List (ValueType κ)) : Bool :=
  types.length ≤ s.parameters.length && (s.parameters.zip types).all fun pair => pair.1 == pair.2

/-- The parameters are the given ones, all of them, and then any others. -/
theorem startsWith_iff [DecidableEq κ] {s : Signature κ} {types : List (ValueType κ)} :
    s.startsWith types = true ↔ ∃ rest, s.parameters = types ++ rest := by
  obtain ⟨parameters, result⟩ := s
  simp only [startsWith]
  induction types generalizing parameters with
  | nil => simp
  | cons t ts ih =>
    cases parameters with
    | nil => simp
    | cons p ps =>
      have hrest := ih ps
      simp only [Bool.and_eq_true, decide_eq_true_eq] at hrest
      simp only [List.length_cons, Nat.add_le_add_iff_right, List.zip_cons_cons, List.all_cons,
        Bool.and_eq_true, decide_eq_true_eq, beq_iff_eq, List.cons_append, List.cons.injEq]
      rw [exists_and_left, ← hrest]
      exact and_left_comm

/-- The signature in listings: the result, then the parameters in parentheses. -/
def render (nameOf : κ → String) (s : Signature κ) : String :=
  Dump.tagged (s.result.elim "void" (·.render nameOf)) (s.parameters.map (·.render nameOf))

/-- The signature in dumps. -/
def dump (dumpClass : κ → String) (s : Signature κ) : String :=
  Dump.record "MethodSignature"
    [("parameters", Dump.sequence (s.parameters.map (·.dump dumpClass))),
     ("return_type", Dump.optional (s.result.map (·.dump dumpClass)))]

end Signature

end Weaving
