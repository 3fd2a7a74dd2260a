import TensorLang.Compilation
import TensorLang.Proofs.Dataflow.ProgramLocations
import TensorLang.Proofs.Loop.Locations

/-!
# Locations survive compilation

Whatever a compilation blames, and whatever stands in the modules that it builds, stems from a token
of the source text.  Only a text that is no program is refused at other places: where it cannot be
cut into tokens, or at its end.
-/

namespace TensorLang

namespace Source

/-- The location shows where a token of the source text starts. -/
def Marks (source : Source) (location : Location) : Prop :=
  ∃ tokens, source.tokens = .ok tokens ∧
    ∃ token ∈ tokens, source.Shows token.span.start location

/-- Tokens lead to the position, and from there on the source text cannot be read. -/
def Rejects (source : Source) (position : Nat) : Prop :=
  ∃ tokens front rest message, Tiles source.contents.toList 0 tokens position ∧
    source.contents.toList = front ++ rest ∧ position = byteCount front ∧ Stuck rest message

/-- What an error may blame. -/
inductive Blamable (source : Source) (location : Location) : Prop where
  /-- The start of a token. -/
  | token (marks : source.Marks location)
  /-- The start of the text that the lexer rejects. -/
  | rejected {position : Nat} (rejects : source.Rejects position)
      (stands : source.Shows position location)
  /-- The end of the text, if the parser rejects nothing but the end. -/
  | ending {tokens : List Token} {message : String} (lexes : source.tokens = .ok tokens)
      (ends : Program.ofTokens tokens = .error ⟨none, message⟩)
      (stands : source.Shows source.length location)

variable {source : Source} {position : Nat} {location : Location}

/-- A refused text blames the place at which it is refused. -/
theorem within_accept {α : Type} {known : Location → Prop} {answer : Except Rejection α}
    (refused : ∀ rejection location, answer = .error rejection →
      source.Shows (rejection.position.getD source.length) location → known location) :
    (source.accept answer).Within known fun value => answer = .ok value := by
  cases answer with
  | ok value => exact rfl
  | error rejection =>
      refine Outcome.Within.promised.bind fun location found => ?_
      exact .failAt (refused rejection location rfl (shows_iff.mpr found))

theorem within_tokens (source : Source) :
    source.tokens.Within source.Blamable fun tokens => source.tokens = .ok tokens := by
  refine Outcome.Within.mono (within_accept fun rejection location failure stands => ?_)
    fun tokens scanned => accept_eq_ok_iff.mpr scanned
  obtain ⟨tokens, front, rest, tiles, whole_eq, stuck, position_eq⟩ :=
    Token.scan_eq_error_iff.mp failure
  rw [position_eq] at stands
  exact .rejected ⟨tokens, front, rest, _, tiles, whole_eq, rfl, stuck⟩ stands

/-- The spans of a program start where tokens start, and a text that is none is refused at a token
or at its end. -/
theorem within_program (source : Source) :
    source.program.Within source.Blamable
      fun program => program.SpansWithin source source.Marks := by
  refine source.within_tokens.bind fun tokens lexes => ?_
  refine Outcome.Within.mono (within_accept fun rejection location failure stands => ?_)
    fun program success tree member => ?_
  · obtain ⟨position, message⟩ := rejection
    cases position with
    | none => exact .ending lexes failure stands
    | some position =>
        obtain ⟨token, member, rfl⟩ := Program.exists_start_of_error failure position rfl
        exact .token ⟨tokens, lexes, token, member, stands⟩
  · have nests := (Program.fits_of_ofTokens success (tokensInOrder lexes)).nests tree member
    refine nests.every fun span ⟨token, token_mem, start_eq⟩ location found => ?_
    have found := Outcome.promised_eq_ok_iff.mp found
    exact ⟨tokens, lexes, token, token_mem, shows_iff.mpr (start_eq ▸ found)⟩

end Source

/-- The locations in the snapshot are known. -/
def Snapshot.Within (snapshot : Snapshot) (known : Location → Prop) : Prop :=
  match snapshot with
  | .dataflow _ module => module.Within known
  | .loops _ module => module.Within known

/-- The locations in the artifact are known. -/
def Artifact.Within (artifact : Artifact) (known : Location → Prop) : Prop :=
  match artifact with
  | .dataflow module => module.Within known
  | .loops module => module.Within known
  | .tokens _ | .outline _ | .output _ => True

namespace Compiler

variable {known : Location → Prop} {options : Options} {α : Type}

/-- The locations in all recorded modules are known. -/
def Recorded (known : Location → Prop) (snapshots : List Snapshot) : Prop :=
  ∀ snapshot ∈ snapshots, snapshot.Within known

theorem within_lift {holds : List Snapshot → Prop} {outcome : Outcome α} {gives : α → Prop}
    (within : outcome.Within known gives) :
    StaysWithin known holds (liftM outcome : Compiler α) gives := by
  intro snapshots recorded
  cases outcome with
  | ok value => exact ⟨within, recorded⟩
  | error failure => exact ⟨within, recorded⟩

theorem within_record {snapshot : Snapshot} (within : snapshot.Within known) :
    StaysWithin known (Recorded known) (record options snapshot) fun _ => True := by
  rw [record]
  split
  · exact .modify fun snapshots recorded =>
      List.forall_mem_append.mpr ⟨recorded, List.forall_mem_singleton.mpr within⟩
  · exact .pure trivial

theorem within_verified {module : Dataflow.Module} (within : module.Within known) (pass : String) :
    StaysWithin known (Recorded known) (verified options pass module) fun _ => True :=
  have recorded : (Snapshot.dataflow pass module).Within known := within
  (within_record recorded).bind fun _ _ => within_lift within.verify

theorem within_settle (bound : Nat) {module : Dataflow.Module} (within : module.Within known) :
    StaysWithin known (Recorded known) (settle options bound module)
      fun settled => settled.Within known := by
  induction bound generalizing module with
  | zero => exact .throw trivial
  | succ bound induction =>
      obtain ⟨inferred, inference⟩ := within.inferTypes
      obtain ⟨simplified, simplification⟩ := inferred.editAll Dataflow.Edit.within_simplify
      obtain ⟨shared, sharing⟩ := simplified.editAll Dataflow.Edit.within_share
      rw [settle]
      refine (within_lift inference).bind fun _ _ => (within_verified inferred _).bind fun _ _ => ?_
      refine (within_lift simplification).bind fun applied _ =>
        (within_verified simplified _).bind fun _ _ => ?_
      refine (within_lift sharing).bind fun merged _ =>
        (within_verified shared _).bind fun _ _ => ?_
      split
      · exact .pure shared
      · exact induction shared

theorem within_optimized {module : Dataflow.Module} (within : module.Within known) :
    StaysWithin known (Recorded known) (optimized options module)
      fun settled => settled.Within known :=
  (within_lift (within.inline options.entry)).bind fun _ inlined =>
    (within_verified inlined _).bind fun _ _ => within_settle _ inlined

theorem within_loops {module : Dataflow.Module} (within : module.Within known) :
    StaysWithin known (Recorded known) (loops options module)
      fun lowered => lowered.Within known :=
  (within_lift (Loop.Module.within_ofDataflow within options.entry)).bind fun lowered kept =>
    have recorded : (Snapshot.loops "loop lowering" lowered).Within known := kept
    (within_record recorded).bind fun _ _ => .pure kept

private theorem within_output (module : Loop.Module) :
    StaysWithin known (Recorded known) (output options module) fun _ => True :=
  (within_lift (module.within_run options.entry)).bind fun _ _ => .pure trivial

theorem within_dataflow {source : Source} {program : Program}
    (spans : program.SpansWithin source known) :
    StaysWithin known (Recorded known) (dataflow options source program)
      fun module => module.Within known :=
  (within_lift (Dataflow.Module.within_ofProgram spans)).bind fun _ within =>
    (within_verified within _).bind fun _ _ => .pure within

/-- A source text is taken to a stage. -/
theorem within_artifact (source : Source) (stage : Stage) (options : Options) :
    StaysWithin source.Blamable (Recorded source.Marks) (artifact source stage options)
      fun artifact => artifact.Within source.Marks := by
  have parses : StaysWithin source.Blamable (Recorded source.Marks)
      (liftM source.program : Compiler Program)
      fun program => program.SpansWithin source source.Marks := within_lift source.within_program
  cases stage with
  | tokens => exact (within_lift source.within_tokens).bind fun _ _ => .pure trivial
  | outline => exact parses.bind fun _ _ => .pure trivial
  | dataflow =>
      refine parses.bind fun program spans => .more .token ?_
      refine (within_dataflow spans).bind fun module within => ?_
      split
      · exact (within_optimized within).bind fun _ settled => .pure settled
      · exact .pure within
  | loops =>
      refine parses.bind fun program spans => .more .token ?_
      exact (within_dataflow spans).bind fun module within =>
        (within_optimized within).bind fun _ settled =>
          (within_loops settled).bind fun _ lowered => .pure lowered
  | run =>
      refine parses.bind fun program spans => .more .token ?_
      exact (within_dataflow spans).bind fun module within =>
        (within_optimized within).bind fun _ settled =>
          (within_loops settled).bind fun lowered _ =>
            (within_output lowered).bind fun _ _ => .pure trivial

end Compiler

end TensorLang
