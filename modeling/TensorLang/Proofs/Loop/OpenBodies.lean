import TensorLang.Proofs.ConsecutiveHandles
import TensorLang.Proofs.Loop.Nests

/-!
# Nests written into open bodies

The loops of a nest are written from the inside out: the bodies of all of them are opened first, and
each loop is written when its body is closed.  Whatever block is written in between, the bodies that
were open before are open again afterwards, with one nest more at the end of the innermost one.
-/

namespace TensorLang

namespace Loop

variable {before after : Allocation}

namespace Lowering

/-- The allocation once registers and loop variables are given out. -/
def counting (allocation : Allocation) (registers counters : Nat) : Allocation :=
  { allocation with
    nextRegister := allocation.nextRegister.skip registers
    nextLoopVariable := allocation.nextLoopVariable.skip counters }

/-- Loop variables are given out in order. -/
theorem freshLoopVariables_eq (dimensions : List Nat) :
    (dimensions.mapM fun _ => freshLoopVariable) before =
      .ok (before.nextLoopVariable.following dimensions.length,
        counting before 0 dimensions.length) := by
  induction dimensions generalizing before with
  | nil => rfl
  | cons dimension rest induction =>
      simp only [List.mapM_cons, StateT.bind_eq_ok_iff, StateT.pure_eq_ok_iff]
      exact ⟨_, _, rfl, _, _, induction, rfl⟩

theorem run_freshLoopVariables (dimensions : List Nat) :
    (dimensions.mapM fun _ => freshLoopVariable).run before =
      pure (before.nextLoopVariable.following dimensions.length,
        counting before 0 dimensions.length) :=
  freshLoopVariables_eq dimensions

end Lowering

/-- The bodies once some more are opened. -/
def OpenBodies.opened (bodies : OpenBodies) : Nat → OpenBodies
  | 0 => bodies
  | count + 1 => OpenBodies.opened ⟨[], bodies.innermost :: bodies.enclosing⟩ count

namespace Writing

variable {bodies : OpenBodies} {dimensions : List Nat}

private theorem run_openBody (dimensions : List Nat) :
    (dimensions.forM fun _ => openBody).run bodies =
      (pure (⟨⟩, bodies.opened dimensions.length) : Lowering (PUnit × OpenBodies)) := by
  induction dimensions generalizing bodies with
  | nil => rfl
  | cons dimension rest induction => exact induction

/-- Closing the bodies writes the nest around the block in the innermost one. -/
theorem run_closeLoop {pairs : List (LoopVariableId × Nat)} {count : Nat}
    (length_eq : pairs.length = count) (block : List Instruction) :
    (pairs.reverse.forM fun (counter, dimension) => closeLoop counter dimension).run
        ((bodies.opened count).append block) =
      (pure (⟨⟩, bodies.append (nested pairs block)) : Lowering (PUnit × OpenBodies)) := by
  subst length_eq
  induction pairs generalizing bodies with
  | nil => rfl
  | cons pair rest induction =>
      rw [List.reverse_cons, List.forM_eq_forM, List.forM_append, ← List.forM_eq_forM,
        StateT.run_bind, List.length_cons, OpenBodies.opened, induction, pure_bind]
      rfl

/-- Between opening the bodies and closing them, a nest is written as its block is. -/
theorem run_nest (dimensions : List Nat) (build : List Index → Writing Unit) :
    ((nest dimensions build).run bodies).run before =
      (let counters := before.nextLoopVariable.following dimensions.length
      (((build (counters.map .loopVariable)).run (bodies.opened dimensions.length)).run
        (Lowering.counting before 0 dimensions.length)) >>= fun ((_, written), after) =>
      (((counters.zip dimensions).reverse.forM fun (counter, dimension) =>
        closeLoop counter dimension).run written).run after) := by
  simp only [nest, StateT.run_bind, StateT.run_monadLift, monadLift_self, run_openBody, bind_assoc,
    pure_bind, Lowering.run_freshLoopVariables]

/-- A block that is written inside of a nest becomes the body of its loops. -/
theorem nest_eq_ok {build : List Index → Writing Unit} {block : List Instruction}
    (written : build ((before.nextLoopVariable.following dimensions.length).map .loopVariable)
      (bodies.opened dimensions.length) (Lowering.counting before 0 dimensions.length) =
        .ok ((⟨⟩, (bodies.opened dimensions.length).append block), after)) :
    nest dimensions build bodies before = .ok ((⟨⟩, bodies.append
      (nested ((before.nextLoopVariable.following dimensions.length).zip dimensions) block)),
        after) := by
  refine (run_nest dimensions build).trans ?_
  simp only [StateT.run]
  rw [written]
  exact congrFun (run_closeLoop (by simp) block) after

end Writing

/-- The nest that is put together is the one that is spelled out. -/
theorem Lowering.nest_eq (function : Dataflow.Function) (dimensions : List Nat)
    (body : List Index → Lowering (List Instruction)) :
    nest function dimensions body = do
      let counters ← dimensions.mapM fun _ => freshLoopVariable
      let inner ← body (counters.map .loopVariable)
      return nested (counters.zip dimensions) inner := by
  funext before
  change StateT.run _ before = StateT.run _ before
  have length_eq : ((before.nextLoopVariable.following dimensions.length).zip dimensions).length =
      dimensions.length := by simp
  simp only [StateT.run_bind, run_freshLoopVariables, Writing.run_nest, Writing.write, liftM,
    StateT.run_monadLift, monadLift_self, StateT.run_modify, StateT.run_pure, bind_assoc, pure_bind]
  refine bind_congr fun (inner, after) => ?_
  rw [Writing.run_closeLoop length_eq]
  rfl

end Loop

end TensorLang
