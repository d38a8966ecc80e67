import Weaving.Proofs.Outcome

/-!
# Labels that occur in code

A label occurs in code as a tag or in an operand (`Code.occurring`). When a label is made, only tags
and operands of branches are looked at (`Code.mentioned`); labels in the operands of other
instructions are stray (`Code.stray`). A new label is the least one of the supply that is above all
tags and branch targets, so it can be one of the stray labels and no other (`newLabel_least`). The
labels of a supply that was made for some code are above everything that occurs there exactly if no
stray label is above all tags and branch targets (`freshLabels_above_occurring_iff`). Both hold as
long as the last label is not come to.
-/

namespace Weaving

/-! ## Where labels occur -/

/-- The labels in an operand. -/
def Operand.labelList : Operand → List Label
  | .label l => [l]
  | .labels ls => ls
  | _ => []

namespace Instruction

/-- The labels in the operand, whatever the opcode. -/
def operandLabels (i : Instruction) : List Label := i.operand.elim [] Operand.labelList

/-- The labels in the operand of an instruction that is no branch. -/
def stray (i : Instruction) : List Label := if i.opcode.isBranch then [] else i.operandLabels

/-- The targets of a branch are the labels in its operand, and nothing else has targets. -/
theorem targets_eq (i : Instruction) :
    i.targets = if i.opcode.isBranch then i.operandLabels else [] := by
  unfold targets operandLabels
  cases i.operand with
  | none => rfl
  | some operand => cases operand <;> rfl

/-- A label in an operand is a target or it is stray. -/
theorem mem_operandLabels {i : Instruction} {l : Label} :
    l ∈ i.operandLabels ↔ l ∈ i.targets ∨ l ∈ i.stray := by
  rw [targets_eq, stray]
  cases i.opcode.isBranch <;> simp

end Instruction

namespace Code

variable {code : Code} {l : Label}

/-- All labels of the code, as tags and in operands. -/
def occurring (code : Code) : List Label := code.flatMap fun i => i.labels ++ i.operandLabels

/-- The labels in operands of instructions that are no branches. -/
def stray (code : Code) : List Label := code.flatMap (·.stray)

/-- A label of the code that is not stray is one that is kept apart. -/
theorem mem_occurring : l ∈ code.occurring ↔ l ∈ code.mentioned ∨ l ∈ code.stray := by
  simp only [occurring, mentioned, stray, Instruction.mentioned, List.mem_flatMap, List.mem_append,
    Instruction.mem_operandLabels, ← exists_or, ← and_or_left, or_assoc]

end Code

/-! ## New labels -/

/-- The next label can be a stray label of the code, and no other. -/
theorem Cursor.HasRoom.nextLabel_mem_occurring_iff {c : Cursor} (h : c.HasRoom) :
    c.nextLabel ∈ c.code.occurring ↔ c.nextLabel ∈ c.code.stray := by
  rw [Code.mem_occurring, or_iff_right h.nextLabel_not_mem]

namespace Code

variable {code : Code} {l : Label}

/-- The supply for some code starts with the least label above all tags and branch targets. -/
theorem isLeast_freshLabels (h : Label.last ∉ code.mentioned) :
    IsLeast {n | ∀ l ∈ code.mentioned, l.id < n} code.freshLabels.next.id := by
  obtain ⟨⟨-, habove⟩, hleast⟩ := LabelSupply.isLeast_pastAll (s := .all) h
  exact ⟨habove, fun n hn => hleast ⟨UInt64.zero_le, hn⟩⟩

/-- The labels of the supply for some code are above all its tags and branch targets. -/
theorem lt_of_gives (h : Label.last ∉ code.mentioned) (hl : code.freshLabels.Gives l) {t : Label}
    (ht : t ∈ code.mentioned) : t.id < l.id :=
  UInt64.lt_of_lt_of_le ((isLeast_freshLabels h).1 t ht) hl.next_le

/-- The labels of the supply for some code are above everything that occurs in it exactly if no
stray label is above all tags and branch targets. -/
theorem freshLabels_above_occurring_iff (h : Label.last ∉ code.mentioned) :
    (∀ l, code.freshLabels.Gives l → ∀ t ∈ code.occurring, t.id < l.id) ↔
      ∀ t ∈ code.stray, ∃ m ∈ code.mentioned, t.id ≤ m.id := by
  constructor
  · intro habove t ht
    by_contra hnone
    -- the first label that the supply hands out is then not above the stray one
    have hle := (isLeast_freshLabels h).2 fun m hm =>
      UInt64.not_le.1 fun hle => hnone ⟨m, hm, hle⟩
    have hlt := habove _ (.next _) t (mem_occurring.2 (.inr ht))
    exact UInt64.lt_irrefl _ (UInt64.lt_of_lt_of_le hlt hle)
  · intro hstray l hl t ht
    rcases mem_occurring.1 ht with ht | ht
    · exact lt_of_gives h hl ht
    · obtain ⟨m, hm, hle⟩ := hstray t ht
      exact UInt64.lt_of_le_of_lt hle (lt_of_gives h hl hm)

end Code

namespace Edit

variable {σ : Type}

/-- If there is room for it, the label that is made is the least of the supply above all tags and
all labels in operands of branches. It repeats a label of the code exactly if it is in the operand
of an instruction that is no branch. A supply that is made for some code, of which no label is the
last, hands out labels above all tags and branch targets, and above the labels in other operands
exactly if each of these is at most some tag or branch target. -/
theorem newLabel_least (w : Workspace σ) (hroom : w.cursor.HasRoom) :
    (∃ l w', newLabel w = .ok l w' ∧
      IsLeast {n | w.cursor.fresh.next.id ≤ n ∧ ∀ t ∈ w.cursor.code.mentioned, t.id < n} l.id ∧
      (l ∈ w.cursor.code.occurring ↔ l ∈ w.cursor.code.stray)) ∧
    ∀ code : Code, Label.last ∉ code.mentioned →
      (∀ l, code.freshLabels.Gives l → ∀ t ∈ code.mentioned, t.id < l.id) ∧
      ((∀ l, code.freshLabels.Gives l → ∀ t ∈ code.occurring, t.id < l.id) ↔
        ∀ t ∈ code.stray, ∃ m ∈ code.mentioned, t.id ≤ m.id) := by
  refine ⟨⟨_, _, newLabel_apply w, Cursor.isLeast_nextLabel hroom.skipped,
    hroom.nextLabel_mem_occurring_iff⟩, fun code hlast => ⟨fun l hl t ht => ?_, ?_⟩⟩
  · exact Code.lt_of_gives hlast hl ht
  · exact Code.freshLabels_above_occurring_iff hlast

/-- A tag, and a token with a label above it. -/
def tokenAhead : Workspace Unit where
  cursor := Cursor.ofCode [{ opcode := .nop, labels := [⟨3⟩] },
    { opcode := .ldtoken, operand := some (.label ⟨9⟩) }]
  own := ()

/-- The label of the token is not made at once, but the supply for the code is not above it. -/
theorem newLabel_least_tokenAhead :
    tokenAhead.cursor.HasRoom ∧
      (∃ w', newLabel tokenAhead = .ok ⟨4⟩ w' ∧ ⟨4⟩ ∉ tokenAhead.cursor.code.occurring) ∧
      ¬ ∀ l, tokenAhead.cursor.code.freshLabels.Gives l →
        ∀ t ∈ tokenAhead.cursor.code.occurring, t.id < l.id := by
  have hroom : tokenAhead.cursor.HasRoom := by decide
  obtain ⟨⟨l, w', hrun, -, hoccurring⟩, hcode⟩ := newLabel_least tokenAhead hroom
  cases hrun
  refine ⟨hroom, ⟨_, rfl, fun h => absurd (hoccurring.1 h) (by decide)⟩, ?_⟩
  rw [(hcode _ hroom.skipped).2]
  decide

/-- A label as a token, in the operand of an instruction that is no branch. -/
def onToken : Workspace Unit where
  cursor := Cursor.ofCode [{ opcode := .ldtoken, operand := some (.label ⟨0⟩) }]
  own := ()

/-- The label of the token is made again, and is handed out by the supply for the code. -/
theorem newLabel_repeats_token :
    (∃ w', newLabel onToken = .ok ⟨0⟩ w') ∧ onToken.cursor.code.freshLabels.Gives ⟨0⟩ ∧
      ⟨0⟩ ∈ onToken.cursor.code.occurring :=
  ⟨⟨_, rfl⟩, .next _, by decide⟩

end Edit

end Weaving
