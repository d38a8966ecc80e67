import Mathlib.Algebra.Ring.Int.Defs
import Mathlib.Data.List.Induction
import Weaving.Edit.CallSite
import Weaving.Proofs.Invariant

/-!
# Walking back over postfix code

The walk from a call to the start of its arguments adds up nominal stack effects and stops at the
first sum that is the number of values the call takes. On code that pushes exactly that many values
one after the other, the sum over a proper suffix stays below the number (`Code.Yields`): operands
stand in front of their operator, and a suffix that begins within them lacks what was cut off. The
walk can therefore not stop early (`Code.walkBack_of_yields`), and it ends where the first argument
begins (`Edit.seekArguments_of_postfix`).
-/

namespace Weaving

namespace Code

/-! ## Suffix sums -/

/-- The sum of the nominal stack effects of the instructions. -/
def net (code : Code) : Int := (code.map (·.opcode.netEffect)).sum

@[simp] theorem net_nil : net [] = 0 := rfl

@[simp] theorem net_append (a b : Code) : net (a ++ b) = net a + net b := by
  simp [net]

@[simp] theorem net_singleton (i : Instruction) : net [i] = i.opcode.netEffect := by
  simp [net]

/-- The instruction behind the front of the code is at the index that the front is long. -/
theorem getElem?_append_cons (pre rest : Code) (i : Instruction) :
    (pre ++ i :: rest)[pre.length]? = some i := by
  rw [List.getElem?_append_right (Nat.le_refl _), Nat.sub_self]
  rfl

/-- The code has the net effect `n`, and every part of it that is cut off at the front has less. -/
structure Yields (code : Code) (n : Int) : Prop where
  net_eq : code.net = n
  net_lt : ∀ {front back}, code = front ++ back → front ≠ [] → back.net < n

namespace Yields

variable {a b code : Code} {i : Instruction} {m n : Int}

/-- Empty code yields nothing. -/
theorem nil : Yields [] 0 where
  net_eq := rfl
  net_lt h hfront := absurd (List.append_eq_nil_iff.1 h.symm).1 hfront

/-- An instruction that leaves something of what was there before it, or adds to it. -/
theorem concat (h : Yields code n) (hpos : 0 < n + i.opcode.netEffect) :
    Yields (code ++ [i]) (n + i.opcode.netEffect) where
  net_eq := by rw [net_append, net_singleton, h.net_eq]
  net_lt := by
    intro front back hcode hfront
    -- A suffix is empty, or it ends with the instruction and the rest is a suffix of the code.
    rcases List.eq_nil_or_concat back with rfl | ⟨rest, j, rfl⟩
    · exact hpos
    · rw [List.concat_eq_append, ← List.append_assoc] at hcode
      obtain ⟨hrest, hlast⟩ := List.append_inj' hcode rfl
      cases hlast
      have := h.net_lt hrest hfront
      rw [List.concat_eq_append, net_append, net_singleton]
      omega

/-- An instruction that leaves as many values as it takes. -/
theorem concat_neutral (h : Yields code n) (hn : 0 < n) (hi : i.opcode.netEffect = 0) :
    Yields (code ++ [i]) n := by
  have hall := h.concat (i := i) (by omega)
  rwa [hi, Int.add_zero] at hall

/-- Values on top of values. -/
theorem append (ha : Yields a m) (hb : Yields b n) (hm : 0 < m) : Yields (a ++ b) (m + n) where
  net_eq := by rw [net_append, ha.net_eq, hb.net_eq]
  net_lt := by
    intro front back hcode hfront
    -- The cut is within the second part, or within the first.
    rcases List.append_eq_append_iff.1 hcode with ⟨mid, -, rfl⟩ | ⟨mid, rfl, rfl⟩
    · by_cases hmid : mid = []
      · subst hmid
        have := hb.net_eq
        rw [List.nil_append] at this
        omega
      · have := hb.net_lt rfl hmid
        omega
    · have := ha.net_lt rfl hfront
      rw [net_append, hb.net_eq]
      omega

/-- One value for each of the blocks. -/
theorem flatten {blocks : List Code} (h : ∀ block ∈ blocks, Yields block 1) :
    Yields blocks.flatten blocks.length := by
  induction blocks with
  | nil => exact nil
  | cons block blocks ih =>
    have hfirst : Yields block 1 := h block List.mem_cons_self
    have hrest : Yields blocks.flatten blocks.length :=
      ih fun other hother => h other (List.mem_cons_of_mem block hother)
    have hlength : ((block :: blocks).length : Int) = 1 + blocks.length := by
      rw [List.length_cons]
      omega
    rw [List.flatten_cons, hlength]
    exact hfirst.append hrest Int.one_pos

/-- What is left to account for in front of the last instruction. -/
theorem of_concat (h : Yields (code ++ [i]) n) : Yields code (n - i.opcode.netEffect) where
  net_eq := by
    have := h.net_eq
    rw [net_append, net_singleton] at this
    omega
  net_lt := by
    rintro front back rfl hfront
    have := h.net_lt (List.append_assoc front back [i]) hfront
    rw [net_append, net_singleton] at this
    omega

end Yields

/-- The walk over code that yields what is still needed ends where that code begins. -/
theorem walkBack_of_yields {block : Code} {needed depth : Int} (pre post : Code)
    (hne : block ≠ []) (h : Yields block (needed - depth)) :
    walkBack (pre ++ block ++ post) needed (pre.length + block.length) depth =
      some pre.length := by
  induction block using List.reverseRecOn generalizing depth post with
  | nil => exact absurd rfl hne
  | append_singleton block i ih =>
    have hdelta : deltaAt (pre ++ (block ++ [i]) ++ post) (pre.length + block.length) =
        i.opcode.netEffect := by
      simp [deltaAt]
    rw [List.length_append, List.length_singleton, ← Nat.add_assoc, walkBack]
    rw [hdelta]
    by_cases hblock : block = []
    · subst hblock
      have hnet : i.opcode.netEffect = needed - depth := by
        rw [← net_singleton]
        exact h.net_eq
      rw [if_pos (by omega)]
      rfl
    · have hlt : i.opcode.netEffect < needed - depth := by
        rw [← net_singleton]
        exact h.net_lt rfl hblock
      have hrest : Yields block (needed - (depth + i.opcode.netEffect)) := by
        rw [← Int.sub_sub]
        exact h.of_concat
      rw [if_neg (by omega), ← ih (i :: post) hblock hrest]
      simp

end Code

/-! ## Expressions -/

/-- The nominal effect of calls does not count what their methods take and leave. -/
theorem Instruction.netEffect_of_callee? {i : Instruction} {m : MethodRef}
    (h : i.callee? = some m) : i.opcode.netEffect = 0 := by
  unfold callee? at h
  split at h
  · next hcall =>
    cases hop : i.opcode with
    | call | callvirt | calli => rfl
    | _ => rw [hop] at hcall; cases hcall
  · cases h

/-- Code in postfix order that computes one value: the operands of an operation and the operation,
or the one value that a method takes and a call of the method. -/
inductive Code.Expression (md : Metadata) : Code → Prop
  | operation (operands : List Code) {i : Instruction}
      (hoperands : ∀ operand ∈ operands, Expression md operand)
      (heffect : i.opcode.stackEffect = ⟨.fixed operands.length, .fixed 1⟩) :
      Expression md (operands.flatten ++ [i])
  | call {operand : Code} {i : Instruction} {m : MethodRef} (hoperand : Expression md operand)
      (hcallee : i.callee? = some m) (htakes : (md.method m).consumption = 1)
      (hgives : (md.method m).signature.result.isSome) : Expression md (operand ++ [i])

/-- An expression of any depth yields its value. -/
theorem Code.Expression.yields {md : Metadata} {code : Code} (h : Expression md code) :
    Yields code 1 := by
  induction h with
  | @operation operands i _ heffect ih =>
    have hnet : i.opcode.netEffect = 1 - operands.length := by
      rw [Opcode.netEffect, heffect]
      rfl
    have hone : operands.length + i.opcode.netEffect = 1 := by omega
    rw [← hone]
    exact (Yields.flatten ih).concat (by omega)
  | call _ hcallee _ _ ih =>
    exact ih.concat_neutral Int.one_pos (Instruction.netEffect_of_callee? hcallee)

/-! ## The start of the arguments -/

namespace Edit

variable {σ : Type} {md : Metadata} {target : MethodPattern} {w w₁ : Workspace σ}

/-- Looking for a call leaves the code as it is. -/
theorem leavesCode_seekCall (md : Metadata) (target : MethodPattern) :
    LeavesCode (seekCall md target : Edit σ Unit) := by
  refine fun code => .bind (leavesCode_search _ _ code) fun _ => .cursor_bind fun c _ => ?_
  split
  · exact .record _
  · exact .throw _

section
variable {call : Nat} {m : MethodRef}

/-- Nothing has to be pushed for a call that takes nothing. -/
theorem seekArguments_of_no_arguments (hseek : seekCall md target w = .ok () w₁)
    (hcall : w₁.cursor.position = call)
    (hcallee : w₁.cursor.code[call]?.bind (·.callee?) = some m)
    (hnone : (md.method m).consumption = 0) :
    seekArguments md target w = .ok .alreadySatisfied w₁ := by
  rw [seekArguments, bind_of_ok hseek, bind_of_ok (cursor_apply w₁)]
  dsimp only
  rw [hcall, Int.toNat_natCast, hcallee, Option.elim_some, if_pos hnone]
  rfl

/-- The cursor goes to where the walk ends. -/
theorem seekArguments_of_walkBack {start : Nat} (hseek : seekCall md target w = .ok () w₁)
    (hcall : w₁.cursor.position = call)
    (hcallee : w₁.cursor.code[call]?.bind (·.callee?) = some m)
    (hsome : (md.method m).consumption ≠ 0)
    (hwalk : w₁.cursor.code.walkBack (md.method m).consumption call 0 = some start)
    (hstart : start ≤ w₁.cursor.length) :
    seekArguments md target w = .ok (.found start)
      { w₁ with
        cursor := { w₁.cursor with position := start }
        log := w₁.log ++ [.argumentsFound target call start] } := by
  have hmove : w₁.cursor.advance (start - call) = { w₁.cursor with position := start } :=
    Cursor.advance_of_range start (by omega) (by omega) (by omega)
  rw [seekArguments, bind_of_ok hseek, bind_of_ok (cursor_apply w₁)]
  dsimp only
  rw [hcall, Int.toNat_natCast, hcallee, Option.elim_some, if_neg hsome, hwalk]
  dsimp only
  rw [bind_of_ok (record_apply _ _), ← hmove]
  rfl

end

/-- In front of a call stands code that yields what the call takes, whatever stands before: the
walk goes back over that code and no further. -/
theorem seekArguments_of_yields {pre block rest : Code} {call : Instruction} {m : MethodRef}
    (hcode : w.cursor.code = pre ++ block ++ call :: rest)
    (hyields : block.Yields (md.method m).consumption) (hcallee : call.callee? = some m)
    (hseek : seekCall md target w = .ok () w₁)
    (hposition : w₁.cursor.position = (pre ++ block).length) :
    ((md.method m).consumption ≠ 0 → ∃ w',
      seekArguments md target w = .ok (.found pre.length) w' ∧
      w'.cursor = { w₁.cursor with position := pre.length }) ∧
    ((md.method m).consumption = 0 → seekArguments md target w = .ok .alreadySatisfied w₁) := by
  have hcode₁ : w₁.cursor.code = pre ++ block ++ call :: rest := by
    have hkept := leavesCode_seekCall md target _ w hcode
    rwa [after_of_ok hseek] at hkept
  have hat : w₁.cursor.code[(pre ++ block).length]?.bind (·.callee?) = some m := by
    rw [hcode₁, Code.getElem?_append_cons]
    exact hcallee
  refine ⟨fun hsome => ?_, seekArguments_of_no_arguments hseek hposition hat⟩
  have hblock : block ≠ [] := by
    rintro rfl
    have hnet := hyields.net_eq
    rw [Code.net_nil] at hnet
    omega
  have hwalk : w₁.cursor.code.walkBack (md.method m).consumption (pre ++ block).length 0 =
      some pre.length := by
    rw [hcode₁, List.length_append]
    refine Code.walkBack_of_yields pre (call :: rest) hblock ?_
    rwa [Int.sub_zero]
  have hstart : pre.length ≤ w₁.cursor.length := by
    rw [Cursor.length, hcode₁, List.append_assoc, List.length_append]
    exact Nat.le_add_right _ _
  exact ⟨_, seekArguments_of_walkBack hseek hposition hat hsome hwalk hstart, rfl⟩

/-- In front of a call whose arguments are expressions, each after the other, the walk goes back to
where the first of them begins, whatever stands before. For a call that takes nothing the cursor
stays on the call. -/
theorem seekArguments_of_postfix (md : Metadata) (target : MethodPattern) (pre rest : Code)
    (arguments : List Code) {call : Instruction} {m : MethodRef}
    (hcode : w.cursor.code = pre ++ arguments.flatten ++ call :: rest)
    (harguments : ∀ argument ∈ arguments, Code.Expression md argument)
    (hcallee : call.callee? = some m)
    (hcount : (md.method m).consumption = arguments.length)
    (hseek : seekCall md target w = .ok () w₁)
    (hposition : w₁.cursor.position = (pre ++ arguments.flatten).length) :
    (arguments ≠ [] → ∃ w', seekArguments md target w = .ok (.found pre.length) w' ∧
      w'.cursor = { w₁.cursor with position := pre.length }) ∧
    (arguments = [] → seekArguments md target w = .ok .alreadySatisfied w₁) := by
  have hyields : Code.Yields arguments.flatten (md.method m).consumption := by
    rw [hcount]
    exact .flatten fun argument hargument => (harguments argument hargument).yields
  have hnone : (md.method m).consumption = 0 ↔ arguments = [] := by
    rw [hcount, List.length_eq_zero_iff]
  obtain ⟨hfound, hsatisfied⟩ := seekArguments_of_yields hcode hyields hcallee hseek hposition
  exact ⟨fun hne => hfound (mt hnone.1 hne), fun hnil => hsatisfied (hnone.2 hnil)⟩

/-- A type with a static method of two numbers, and then one of one number. -/
def maxAndAbs : Metadata where
  types := [{ name := .object, base := none, attributes := .ofBits _ 0x1, methods := [⟨0⟩, ⟨1⟩] }]
  methods :=
    [{ declaring := ⟨0⟩, name := ⟨"Max", by decide⟩,
       signature := ⟨[.base .int32, .base .int32], some (.base .int32)⟩, generics := [],
       attributes := .ofBits _ 0x16 },
     { declaring := ⟨0⟩, name := ⟨"Abs", by decide⟩,
       signature := ⟨[.base .int32], some (.base .int32)⟩, generics := [],
       attributes := .ofBits _ 0x16 }]

/-- A call of the first method with a call of the second among its arguments, from before the
code. -/
def nestedCall : Workspace Unit where
  cursor := Cursor.ofCode
    [.ldnull, .ldarg 0, .ldarg 1, { opcode := .add }, .call maxAndAbs ⟨1⟩, .ldcI4 3,
     .call maxAndAbs ⟨0⟩, { opcode := .ret }]
  own := ()

/-- The arguments of the outer call start behind the instruction that is no part of them. -/
theorem seekArguments_of_postfix_nested :
    ∃ w', seekArguments maxAndAbs { declaring := .object, name := ⟨"Max", by decide⟩ } nestedCall =
        .ok (.found 1) w' ∧
      w'.cursor.position = 1 := by
  have hsum : Code.Expression maxAndAbs [.ldarg 0, .ldarg 1, { opcode := .add }] := by
    refine .operation [[.ldarg 0], [.ldarg 1]] (fun operand hoperand => ?_) rfl
    simp only [List.mem_cons, List.not_mem_nil, or_false] at hoperand
    rcases hoperand with rfl | rfl
    · exact .operation [] nofun rfl
    · exact .operation [] nofun rfl
  obtain ⟨hfound, -⟩ := seekArguments_of_postfix maxAndAbs
    { declaring := .object, name := ⟨"Max", by decide⟩ } [.ldnull] [{ opcode := .ret }]
    [[.ldarg 0, .ldarg 1, { opcode := .add }, .call maxAndAbs ⟨1⟩], [.ldcI4 3]]
    (w := nestedCall) (m := ⟨0⟩) rfl
    (fun argument hargument => by
      simp only [List.mem_cons, List.not_mem_nil, or_false] at hargument
      rcases hargument with rfl | rfl
      · exact .call (m := ⟨1⟩) hsum rfl rfl rfl
      · exact .operation [] nofun rfl)
    rfl rfl rfl rfl
  obtain ⟨w', hrun, hcursor⟩ := hfound (List.cons_ne_nil _ _)
  exact ⟨w', hrun, by rw [hcursor]; rfl⟩

end Edit

end Weaving
